import Offside.Proofs.FilterBlocks
import Offside.Proofs.Relocation

/-!
# Blank lines

A blank line anywhere below the first line moves the tokens behind it one line down and changes
nothing else about them. So the same program is read, at the moved places. The text of a filter's
block alone keeps count of lines: a blank line between two lines of the block is one line break more
in it (`Program.ofTokens_blank_line`).
-/

namespace Offside

/-! ## The tokens -/

/-- Where a place is after a line was put before line `k`, which takes up `size` characters with its
line break. -/
def Location.shift (k size : Nat) (p : Location) : Location :=
  if p.line < k then p else { p with line := p.line + 1, offset := p.offset + size }

section Lex

variable {file : Text} {k size line offset : Nat} {block : Option Nat}

theorem placePieces_shift_of_lt (h : line < k) (column : Nat) (ps : List Piece) :
    (placePieces file line offset column ps).map (·.move (.shift k size)) =
      placePieces file line offset column ps := by
  have hsame : ∀ t ∈ placePieces file line offset column ps, t.move (.shift k size) = t := by
    intro t ht
    have hline : t.start.line < k := by rwa [(mem_placePieces ht).1]
    rw [Token.move, Location.shift, if_pos hline]
  rw [List.map_congr_left hsame, List.map_id']

theorem placePieces_shift_of_le (h : k ≤ line) (column : Nat) (ps : List Piece) :
    (placePieces file line offset column ps).map (·.move (.shift k size)) =
      placePieces file (line + 1) (offset + size) column ps := by
  fun_induction placePieces file line offset column ps with
  | case1 => rfl
  | case2 column raw ps ih => exact ih
  | case3 column kind raw ps ih =>
    have hline : ¬ line < k := Nat.not_lt.2 h
    rw [List.map_cons, ih, placePieces, Token.move, Location.shift, if_neg hline,
      Nat.add_right_comm]

/-- Below the line that was put in, everything stands one line further down. -/
theorem lexLines_shift_of_le (h : k ≤ line) (hline : line ≠ 0) (ts : List Text) :
    (lexLines file line offset block ts).map (·.move (.shift k size)) =
      lexLines file (line + 1) (offset + size) block ts := by
  induction ts generalizing line offset block with
  | nil => rfl
  | cons t ts ih =>
    have hfirst : (line == 0) = (line + 1 == 0) := by simp [hline]
    rw [lexLines_cons, lexLines_cons, List.map_append, placePieces_shift_of_le h, ← hfirst,
      ih (Nat.le_succ_of_le h) (Nat.succ_ne_zero line)]
    simp [Nat.add_right_comm _ size]

/-- A blank line that is put in moves the tokens behind it. -/
theorem lexLines_blank {blank : Text} (hblank : blank.isBlank = true) (above below : List Text)
    (hline : line + above.length ≠ 0) :
    (lexLines file line offset block (above ++ below)).map
        (·.move (.shift (line + above.length) (blank.length + 1))) =
      lexLines file line offset block (above ++ blank :: below) := by
  induction above generalizing line offset block with
  | nil =>
    rw [List.length_nil, Nat.add_zero, List.nil_append, List.nil_append, lexLines_cons,
      scanLine_of_blank hblank, lexLines_shift_of_le (Nat.le_refl line) hline]
    rfl
  | cons t above ih =>
    have hlen : line + (t :: above).length = line + 1 + above.length := by
      rw [List.length_cons]
      omega
    rw [hlen, List.cons_append, List.cons_append, lexLines_cons, lexLines_cons, List.map_append,
      placePieces_shift_of_lt (by omega), ih (by omega)]

end Lex

/-! ## The blocks of filters -/

/-- Line `j` is a line of the block of the filter that stands alone on line `m`: it is not blank,
and down to it every line that is not blank is deeper than the filter. -/
def InBlock (lines : List Text) (m j : Nat) : Prop :=
  m < j ∧ ∃ l t, lines[m]? = some l ∧ OpensBlock l ∧ lines[j]? = some t ∧ t.isBlank = false ∧
    ∀ i u, m < i → i ≤ j → lines[i]? = some u → u.isBlank = true ∨ indentation l < indentation u

/-- A line that is put before line `k` falls between two lines of the block of line `m`, of which
`a` is the first. -/
structure Splits (lines : List Text) (m k a : Nat) : Prop where
  first : InBlock lines m a
  least : ∀ j, InBlock lines m j → a ≤ j
  above : a < k
  below : ∃ b, k ≤ b ∧ InBlock lines m b

/-- The text of the filter on line `m`, and its text after a blank line was put before line `k`.
Both are the same, unless the line falls between two lines of the filter's block: then there is one
more line break, at the line that was put in. -/
inductive TextAfter (lines : List Text) (m k : Nat) : Text → Text → Prop
  | same {text : Text} : (∀ a, ¬ Splits lines m k a) → TextAfter lines m k text text
  | widened {a : Nat} {u v : Text} : Splits lines m k a → u.count '\n' + 1 = k - a →
      TextAfter lines m k (u ++ '\n' :: v) (u ++ '\n' :: '\n' :: v)

theorem textAfter_iff {lines : List Text} {m k : Nat} (h : ∀ a, ¬ Splits lines m k a)
    (text text' : Text) : TextAfter lines m k text text' ↔ text' = text := by
  constructor
  · intro htext
    cases htext with
    | same => rfl
    | widened hsplits => exact absurd hsplits (h _)
  · rintro rfl
    exact .same h

/-- A line that is no filter alone has no block. -/
theorem not_splits_of_not_opensBlock {lines : List Text} {m k : Nat} {l : Text}
    (hl : lines[m]? = some l) (h : ¬ OpensBlock l) (a : Nat) : ¬ Splits lines m k a := by
  rintro ⟨⟨-, l', -, hl', hopens, -⟩, -⟩
  rw [hl] at hl'
  cases hl'
  exact h hopens

namespace FilterBlock

variable {base : Nat} {ls : List Text}

/-- Blank lines at the end are no part of the text. -/
theorem below_append_of_blank (h : ∀ l ∈ ls, l.isBlank = true) (n : Nat) (lines : List Text) :
    below base n (lines ++ ls) = below base n lines := by
  induction lines generalizing n with
  | nil =>
    induction ls generalizing n with
    | nil => rfl
    | cons l ls ih =>
      obtain ⟨hl, hls⟩ := List.forall_mem_cons.1 h
      have hcons : below base n (l :: ls) = below base (n + 1) ls := by rw [below, if_pos hl]
      exact hcons.trans (ih hls (n + 1))
  | cons l lines ih => rw [List.cons_append, below, below, ih, ih]

/-- Before a line that is not blank, each line break that is due is there. -/
theorem below_eq_replicate (h : ∃ l ∈ ls, l.isBlank = false) (n : Nat) :
    below base n ls = List.replicate n '\n' ++ below base 0 ls := by
  induction ls generalizing n with
  | nil => simp at h
  | cons l ls ih =>
    rw [below, below]
    cases hl : l.isBlank with
    | true =>
      have hls : ∃ l ∈ ls, l.isBlank = false := by simpa [hl] using h
      rw [if_pos rfl, if_pos rfl, ih hls (n + 1), ih hls (0 + 1), List.replicate_succ']
      simp
    | false => simp

/-- A blank line above one that is not blank adds one line break. -/
theorem exists_below_blank {blank : Text} (hblank : blank.isBlank = true)
    (h : ∃ l ∈ ls, l.isBlank = false) {lines : List Text} (hbreaks : ∀ l ∈ lines, '\n' ∉ l)
    {n : Nat} (hn : n ≠ 0) :
    ∃ u v, below base n (lines ++ ls) = u ++ '\n' :: v ∧
      below base n (lines ++ blank :: ls) = u ++ '\n' :: '\n' :: v ∧
      u.count '\n' + 1 = n + lines.length := by
  induction lines generalizing n with
  | nil =>
    obtain ⟨n, rfl⟩ := Nat.exists_eq_succ_of_ne_zero hn
    refine ⟨List.replicate n '\n', below base 0 ls, ?_, ?_, by simp⟩
    · rw [List.nil_append, below_eq_replicate h, List.replicate_succ']
      simp
    · rw [List.nil_append, below, if_pos hblank, below_eq_replicate h, List.replicate_succ',
        List.replicate_succ']
      simp
  | cons l lines ih =>
    obtain ⟨hl, hbreaks⟩ := List.forall_mem_cons.1 hbreaks
    rw [List.cons_append, List.cons_append, below, below, List.length_cons]
    cases l.isBlank with
    | true =>
      obtain ⟨u, v, htext, htext', hcount⟩ := ih hbreaks (Nat.succ_ne_zero n)
      exact ⟨u, v, htext, htext', by omega⟩
    | false =>
      obtain ⟨u, v, htext, htext', hcount⟩ := ih hbreaks Nat.one_ne_zero
      have hdrop : (l.drop base).count '\n' = 0 :=
        List.count_eq_zero.2 fun hmem => hl (List.mem_of_mem_drop hmem)
      refine ⟨List.replicate n '\n' ++ l.drop base ++ u, v, ?_, ?_, ?_⟩
      · simp [htext]
      · simp [htext']
      · rw [List.count_append, List.count_append, hdrop, List.count_replicate_self]
        omega

/-- Blank lines at the start are no part of the text. -/
theorem text_append_of_blank {lines : List Text} (h : ∀ l ∈ lines, l.isBlank = true)
    (ls : List Text) : text (lines ++ ls) = text ls := by
  induction lines with
  | nil => rfl
  | cons l lines ih =>
    obtain ⟨hl, hlines⟩ := List.forall_mem_cons.1 h
    rw [List.cons_append, text_cons_of_blank hl, ih hlines]

/-- Nor are blank lines at the end. -/
theorem text_append_blank (h : ∀ l ∈ ls, l.isBlank = true) (lines : List Text) :
    text (lines ++ ls) = text lines := by
  induction lines with
  | nil => simpa using text_append_of_blank h []
  | cons l lines ih =>
    rw [List.cons_append]
    cases hl : l.isBlank with
    | true => rw [text_cons_of_blank hl, text_cons_of_blank hl, ih]
    | false => rw [text_cons_of_not_blank hl, text_cons_of_not_blank hl, below_append_of_blank h]

end FilterBlock

/-- Behind the lines `before` stands a filter alone, and below it the lines of its block. -/
structure BlockOf (lines before : List Text) (l : Text) (block after : List Text) : Prop where
  lines_eq : lines = before ++ l :: (block ++ after)
  opens : OpensBlock l
  deeper : ∀ t ∈ block, t.isBlank = true ∨ indentation l < indentation t
  ends : ∀ t ∈ after.head?, t.isBlank = false ∧ indentation t ≤ indentation l

theorem exists_blockOf {lines before ls : List Text} {l : Text} (hlines : lines = before ++ l :: ls)
    (hopens : OpensBlock l) : ∃ block after, ls = block ++ after ∧
      BlockOf lines before l block after := by
  let p : Text → Bool := fun t => t.isBlank || indentation l < indentation t
  have hsplit : ls = ls.takeWhile p ++ ls.dropWhile p := List.takeWhile_append_dropWhile.symm
  refine ⟨ls.takeWhile p, ls.dropWhile p, hsplit, hsplit ▸ hlines, hopens, ?_, ?_⟩
  · intro t ht
    simpa [p] using List.mem_takeWhile_imp ht
  · intro t ht
    have hhead := List.head?_dropWhile_not p ls
    rw [ht] at hhead
    simpa [p] using hhead

namespace BlockOf

variable {lines before block after : List Text} {l : Text}

theorem nextShallow (h : BlockOf lines before l block after) :
    NextShallow (indentation l) after := by
  cases after with
  | nil => simp [NextShallow]
  | cons t after =>
    obtain ⟨hblank, hle⟩ := h.ends t rfl
    intro u hu
    have hu : t = u := by simpa [hblank] using hu
    exact hu ▸ hle

/-- The lines of the block that are not blank, by their numbers. -/
theorem inBlock_iff (h : BlockOf lines before l block after) {j : Nat} :
    InBlock lines before.length j ↔
      ∃ i t, block[i]? = some t ∧ t.isBlank = false ∧ j = before.length + 1 + i := by
  have hget : ∀ i, lines[before.length + 1 + i]? = (block ++ after)[i]? := by
    intro i
    have hi : before.length + 1 + i - before.length = i + 1 := by omega
    rw [h.lines_eq, List.getElem?_append_right (by omega), hi, List.getElem?_cons_succ]
  have hl : lines[before.length]? = some l := by simp [h.lines_eq]
  constructor
  · rintro ⟨hlt, l', t, hl', -, ht, hblank, hdeep⟩
    rw [hl] at hl'
    cases hl'
    obtain ⟨i, rfl⟩ := Nat.exists_eq_add_of_le (Nat.succ_le_of_lt hlt)
    have hi : i < block.length := by
      by_contra hge
      -- the line that ends the block stands before line `j`, or is it
      have hafter : after[i - block.length]? = some t := by
        rw [← List.getElem?_append_right (Nat.le_of_not_lt hge), ← hget]
        exact ht
      obtain ⟨u, us, rfl⟩ : ∃ u us, after = u :: us := by
        cases after with
        | nil => cases hafter
        | cons u us => exact ⟨u, us, rfl⟩
      obtain ⟨hu, hle⟩ := h.ends u rfl
      rcases hdeep (before.length + 1 + block.length) u (by omega) (by omega)
        (by rw [hget]; simp) with hu' | hlt'
      · rw [hu] at hu'
        cases hu'
      · omega
    refine ⟨i, t, ?_, hblank, rfl⟩
    rw [← List.getElem?_append_left hi, ← hget]
    exact ht
  · rintro ⟨i, t, ht, hblank, rfl⟩
    have hi : i < block.length := (List.getElem?_eq_some_iff.1 ht).1
    refine ⟨by omega, l, t, hl, h.opens, ?_, hblank, ?_⟩
    · rw [hget, List.getElem?_append_left hi, ht]
    · intro j u hlt hle hu
      obtain ⟨j, rfl⟩ := Nat.exists_eq_add_of_le (Nat.succ_le_of_lt hlt)
      have hu : lines[before.length + 1 + j]? = some u := hu
      rw [hget, List.getElem?_append_left (by omega)] at hu
      exact h.deeper u (List.mem_of_getElem? hu)

/-- A line that is put before or behind the block, or into it but not between two of its lines. -/
theorem not_splits (h : BlockOf lines before l block after) {k : Nat}
    (hout : (∀ i t, block[i]? = some t → before.length + 1 + i < k → t.isBlank = true) ∨
      ∀ i t, block[i]? = some t → k ≤ before.length + 1 + i → t.isBlank = true) (a : Nat) :
    ¬ Splits lines before.length k a := by
  rintro ⟨hfirst, -, habove, b, hb, hbelow⟩
  obtain ⟨i, t, hi, ht, rfl⟩ := h.inBlock_iff.1 hfirst
  obtain ⟨j, u, hj, hu, rfl⟩ := h.inBlock_iff.1 hbelow
  rcases hout with hout | hout
  · rw [hout i t hi habove] at ht
    cases ht
  · rw [hout j u hj hb] at hu
    cases hu

/-- The text of the block after a blank line was put into it. -/
theorem textAfter {block₁ block₂ : List Text} {blank : Text}
    (h : BlockOf lines before l (block₁ ++ block₂) after) (hblank : blank.isBlank = true)
    (hbreaks : ∀ t ∈ block₁, '\n' ∉ t) :
    TextAfter lines before.length (before.length + 1 + block₁.length)
      (FilterBlock.text (block₁ ++ block₂)) (FilterBlock.text (block₁ ++ blank :: block₂)) := by
  by_cases hbelow : ∀ t ∈ block₂, t.isBlank = true
  · -- nothing of the block is below the blank line
    have hbelow' : ∀ t ∈ blank :: block₂, t.isBlank = true :=
      List.forall_mem_cons.2 ⟨hblank, hbelow⟩
    rw [FilterBlock.text_append_blank hbelow, FilterBlock.text_append_blank hbelow']
    refine .same (h.not_splits (.inr ?_))
    intro i t hi hle
    rw [List.getElem?_append_right (by omega)] at hi
    exact hbelow t (List.mem_of_getElem? hi)
  by_cases habove : ∀ t ∈ block₁, t.isBlank = true
  · -- nothing of the block is above it
    rw [FilterBlock.text_append_of_blank habove, FilterBlock.text_append_of_blank habove,
      FilterBlock.text_cons_of_blank hblank]
    refine .same (h.not_splits (.inl ?_))
    intro i t hi hlt
    rw [List.getElem?_append_left (by omega)] at hi
    exact habove t (List.mem_of_getElem? hi)
  obtain ⟨b, hb, hbb⟩ : ∃ b ∈ block₂, b.isBlank = false := by simpa using hbelow
  obtain ⟨t, hfind⟩ : ∃ t, block₁.find? (!·.isBlank) = some t := by
    rw [← Option.isSome_iff_exists, List.find?_isSome]
    simpa using habove
  obtain ⟨ht, blanks, rest, rfl, hblanks⟩ := List.find?_eq_some_iff_append.1 hfind
  have ht : t.isBlank = false := by simpa using ht
  have hblanks : ∀ u ∈ blanks, u.isBlank = true := by simpa using hblanks
  obtain ⟨u, v, htext, htext', hcount⟩ := @FilterBlock.exists_below_blank (indentation t) block₂
    blank hblank ⟨b, hb, hbb⟩ rest (fun s hs => hbreaks s (by simp [hs])) 1 Nat.one_ne_zero
  have hdrop : (t.drop (indentation t)).count '\n' = 0 :=
    List.count_eq_zero.2 fun hmem => hbreaks t (by simp) (List.mem_of_mem_drop hmem)
  have hsplits : Splits lines before.length (before.length + 1 + (blanks ++ t :: rest).length)
      (before.length + 1 + blanks.length) := by
    refine ⟨h.inBlock_iff.2 ⟨blanks.length, t, by simp, ht, rfl⟩, ?_, ?_, ?_⟩
    · intro j hj
      obtain ⟨i, s, hi, hs, rfl⟩ := h.inBlock_iff.1 hj
      by_contra hlt
      rw [List.append_assoc, List.getElem?_append_left (by omega)] at hi
      rw [hblanks s (List.mem_of_getElem? hi)] at hs
      cases hs
    · simp
    · obtain ⟨i, hi⟩ := List.mem_iff_getElem?.1 hb
      refine ⟨_, ?_, h.inBlock_iff.2 ⟨(blanks ++ t :: rest).length + i, b, ?_, hbb, rfl⟩⟩
      · omega
      · rw [List.getElem?_append_right (by omega), Nat.add_sub_cancel_left]
        exact hi
  rw [List.append_assoc, List.append_assoc, FilterBlock.text_append_of_blank hblanks,
    FilterBlock.text_append_of_blank hblanks, List.cons_append, List.cons_append,
    FilterBlock.text_cons_of_not_blank ht, FilterBlock.text_cons_of_not_blank ht, htext, htext',
    ← List.append_assoc, ← List.append_assoc]
  refine .widened hsplits ?_
  rw [List.count_append, hdrop, List.length_append, List.length_cons]
  omega

/-- The tokens below the filter, after a blank line was put in, are again those of a block and of
the lines behind it. -/
theorem exists_lexLines_shift {above below : List Text} {blank : Text}
    (h : BlockOf (above ++ below) before l block after) (hblank : blank.isBlank = true)
    (hbreaks : ∀ t ∈ block, '\n' ∉ t) (file : Text) (offset : Nat) :
    ∃ line' offset' block' after',
      (lexLines file (before.length + 1) offset (some (indentation l)) (block ++ after)).map
          (·.move (.shift above.length (blank.length + 1))) =
        lexLines file line' offset' (some (indentation l)) (block' ++ after') ∧
      line' ≠ 0 ∧ (∀ t ∈ block', t.isBlank = true ∨ indentation l < indentation t) ∧
      NextShallow (indentation l) after' ∧
      TextAfter (above ++ below) before.length above.length (FilterBlock.text block)
        (FilterBlock.text block') := by
  by_cases hle : above.length ≤ before.length
  · -- the blank line is above the filter
    refine ⟨before.length + 1 + 1, offset + (blank.length + 1), block, after,
      lexLines_shift_of_le (by omega) (by omega) _, by omega, h.deeper, h.nextShallow,
      .same (h.not_splits (.inl ?_))⟩
    intro i t _ hlt
    omega
  obtain ⟨mid, rfl, hmid⟩ : ∃ mid, above = before ++ l :: mid ∧ block ++ after = mid ++ below := by
    rcases List.append_eq_append_iff.1 h.lines_eq with ⟨mid, rfl, -⟩ | ⟨mid, rfl, hmid⟩
    · exact absurd (by simp) hle
    · cases mid with
      | nil => exact absurd (by simp) hle
      | cons t mid =>
        obtain ⟨rfl, htail⟩ := List.cons.inj hmid
        exact ⟨mid, rfl, htail⟩
  have hlen : (before ++ l :: mid).length = before.length + 1 + mid.length := by
    rw [List.length_append, List.length_cons]
    omega
  refine ⟨before.length + 1, offset, ?_⟩
  rw [hlen, hmid, lexLines_blank hblank mid below (by omega)]
  rcases List.append_eq_append_iff.1 hmid with ⟨x, rfl, rfl⟩ | ⟨x, rfl, rfl⟩
  · -- it is below the block
    refine ⟨block, x ++ blank :: below, by rw [List.append_assoc], by omega, h.deeper, ?_,
      .same (h.not_splits (.inr ?_))⟩
    · have hnext := h.nextShallow
      unfold NextShallow at hnext ⊢
      rwa [List.find?_append, List.find?_cons_of_neg (by simp [hblank]), ← List.find?_append]
    · intro i t hi hle'
      have hi := (List.getElem?_eq_some_iff.1 hi).1
      rw [List.length_append] at hle'
      omega
  · -- it is in the block
    refine ⟨mid ++ blank :: x, after, by simp, by omega, ?_, h.nextShallow,
      h.textAfter hblank fun t ht => hbreaks t (List.mem_append_left x ht)⟩
    intro t ht
    rcases List.mem_append.1 ht with ht | ht
    · exact h.deeper t (List.mem_append_left x ht)
    · rcases List.mem_cons.1 ht with rfl | ht
      · exact .inl hblank
      · exact h.deeper t (List.mem_append_right mid ht)

end BlockOf

namespace Layout

/-- A filter alone that is read to the end of its block has the text of the block. -/
theorem readFilter_of_block_ok {file : Text} {d line offset : Nat} {block after : List Text}
    {s : Layout} {mark : Token} {r : Bool × Layout} (hline : line ≠ 0)
    (hdeep : ∀ t ∈ block, t.isBlank = true ∨ d < indentation t) (hafter : NextShallow d after)
    (hr : s.rest = mark :: lexLines file line offset (some d) (block ++ after))
    (hm : mark.kind = .filterMark) (hs : s.depth = d) (hpe : s.pending ≠ [])
    (h : s.readFilter true = .ok r) :
    r = (true, emit { s with
        rest := lexLines file (line + block.length)
          (offset + (block.flatMap (· ++ ['\n'])).length) none after }
      (.filtered mark.start (filterName mark.contents) (FilterBlock.text block) d)) := by
  rw [lexLines_append hline hdeep hafter (by simp)] at hr
  generalize hmore : lexLines file (line + block.length) _ none after = more at hr ⊢
  have hnext : NotDeeper s.depth more := by
    rw [← hmore, hs]
    exact notDeeper_lexLines (by omega) hafter
  -- the block alone is read first, and then what follows it is put behind what was read
  let alone : Layout := { s with rest := mark :: lexLines file line offset (some d) block }
  let c : Context := ⟨[], [], more⟩
  have hput : c.put alone = s := by simp [c, alone, Context.put, ← hr]
  have hcarries := @readFilter_put c alone hpe hnext true
  rw [hput, h] at hcarries
  by_cases hbase : ∀ t ∈ block, t.isBlank = true ∨ FilterBlock.base block ≤ indentation t
  · have halone := @readFilter_lexLines file d block alone mark line offset hdeep hbase rfl hm hs
    rw [halone] at hcarries
    have heq := Except.ok.inj (hcarries.eq_map (by simp))
    rw [heq]
    simp [c, alone, Context.putResult, Context.put, emit]
  · -- the first line that is indented too little ends the reading
    obtain ⟨t, hfind⟩ : ∃ t, block.find? (fun t =>
        !t.isBlank && decide (indentation t < FilterBlock.base block)) = some t := by
      rw [← Option.isSome_iff_exists, List.find?_isSome]
      simpa using hbase
    obtain ⟨ht, before, more', rfl, hbefore⟩ := List.find?_eq_some_iff_append.1 hfind
    obtain ⟨hdeep, hdeep'⟩ := List.forall_mem_append.1 hdeep
    obtain ⟨hblank, hlt⟩ : t.isBlank = false ∧ indentation t < FilterBlock.base _ := by
      simpa using ht
    have hd : d < indentation t := by simpa [hblank] using hdeep' t (List.mem_cons_self ..)
    have hbefore : ∀ b ∈ before, b.isBlank = true ∨
        FilterBlock.base (before ++ t :: more') ≤ indentation b := by simpa using hbefore
    have halone := @readFilter_lexLines_of_shallow file d t alone mark line offset before more'
      hdeep hbefore hblank hd hlt rfl hm hs
    rw [halone] at hcarries
    cases hcarries.eq_map (by simp)

/-! ## Reading the lines -/

section Lines

variable {file : Text} {above below before ls : List Text} {blank t : Text} {offset : Nat}
  {limit : Int} {stop : Location} {s s' : Layout}

/-- The layout after a blank line was put between the lines `above` and `below`. -/
abbrev MovedBy (above below : List Text) (blank : Text) (s s' : Layout) : Prop :=
  Moved (.shift above.length (blank.length + 1))
    (fun pos => TextAfter (above ++ below) pos.line above.length) s s'

/-- The body of a filter that stands alone is its mark. -/
theorem exists_mark_of_opensBlock (ht : OpensBlock t) (line offset column : Nat) :
    ∃ mark, placePieces file line offset column (scanBody (t.dropWhile (· == ' '))).1 = [mark] ∧
      mark.kind = .filterMark ∧ mark.start.line = line := by
  have hform := (scanBody_cut (dropWhile_ne_nil_of_not_blank ht.not_blank)).1
  rw [scanBody_opens_iff.2 ht, ← map_kind_placePieces file line offset column] at hform
  generalize hbody : placePieces file line offset column _ = body at hform
  generalize hks : body.map (·.kind) = ks at hform
  cases hform with
  | filter =>
    obtain ⟨mark, rest, rfl, hm, hrest⟩ := List.map_eq_cons_iff.1 hks
    obtain rfl := List.map_eq_nil_iff.1 hrest
    exact ⟨mark, rfl, hm, (mem_placePieces (hbody ▸ List.mem_singleton_self mark)).1⟩

/-- A filter that stands alone is read with its block. -/
theorem readLine_movedBy_of_block (h : MovedBy above below blank s s')
    (hblank : blank.isBlank = true) {indent mark : Token} {block after : List Text}
    (hblock : BlockOf (above ++ below) before t block after) (hbreaks : ∀ l ∈ block, '\n' ∉ l)
    (hi : indent.kind = .indent) (hdepth : indent.depth = indentation t)
    (hm : mark.kind = .filterMark) (hmark : mark.start.line = before.length)
    (hr : s.rest = indent :: mark ::
      lexLines file (before.length + 1) offset (some (indentation t)) (block ++ after)) :
    Reading.Moved (.shift above.length (blank.length + 1))
      (fun s₁ s₁' => MovedBy above below blank s₁ s₁' ∧
        ∃ offset', s₁.rest = lexLines file (before.length + 1 + block.length) offset' none after)
      (s.readLine limit stop)
      (s'.readLine limit (stop.shift above.length (blank.length + 1))) := by
  have hmoved : MovedBy above below blank s.readIndent s'.readIndent := h.readIndent
  obtain ⟨hrest, hdepth₁, hpe⟩ : s.readIndent.rest = mark ::
      lexLines file (before.length + 1) offset (some (indentation t)) (block ++ after) ∧
      s.readIndent.depth = indentation t ∧ s.readIndent.pending ≠ [] := by
    rw [readIndent_of_indent hr hi]
    exact ⟨rfl, hdepth, List.cons_ne_nil _ _⟩
  obtain ⟨line', offset', block', after', hlex, hline', hdeep', hafter', htext⟩ :=
    hblock.exists_lexLines_shift hblank hbreaks file offset
  have hrest' : s'.readIndent.rest = mark.move (.shift above.length (blank.length + 1)) ::
      lexLines file line' offset' (some (indentation t)) (block' ++ after') := by
    rw [hmoved.rest, hrest, List.map_cons, hlex]
  have hfilter := readFilter_moved_of_mark hmoved hrest hm
  rw [readLine_eq_readBody, readLine_eq_readBody]
  generalize s.readIndent = s₁ at *
  generalize s'.readIndent = s₁' at *
  rcases hfilter.eq_or_eq with ⟨e, hx, hy⟩ | ⟨r, r', hx, hy, htokens⟩
  · rw [readBody_of_filter_error hx, readBody_of_filter_error hy]
    exact .error e
  · have heq := readFilter_of_block_ok (by omega) hblock.deeper hblock.nextShallow hrest hm
      hdepth₁ hpe hx
    have heq' := readFilter_of_block_ok hline' hdeep' hafter' hrest' hm
      (hmoved.depth_eq.trans hdepth₁) (hmoved.pending ▸ hpe) hy
    subst heq heq'
    rw [readBody_of_filter_ok hx (lineEnd_lexLines _ _ _ _ (by omega)),
      readBody_of_filter_ok hy (lineEnd_lexLines _ _ _ _ (by omega))]
    refine .ok ⟨⟨htokens, .cons ⟨_, ?_, rfl⟩ hmoved.emitted, hmoved.pending⟩, _, rfl⟩
    show TextAfter _ mark.start.line _ _ _
    rw [hmark]
    exact htext

/-- Any other line of markup is read alone. -/
theorem readLine_movedBy_of_markup (h : MovedBy above below blank s s')
    (hlines : above ++ below = before ++ t :: ls) (ht : t.isBlank = false)
    (hopens : ¬ OpensBlock t) {rest : List Token} (hend : LineEnd rest)
    (hr : s.rest = placePieces file before.length offset 0
      (.token .indent (t.takeWhile (· == ' ')) :: (scanBody (t.dropWhile (· == ' '))).1) ++ rest) :
    Reading.Moved (.shift above.length (blank.length + 1))
      (fun s₁ s₁' => MovedBy above below blank s₁ s₁' ∧ s₁.rest = rest) (s.readLine limit stop)
      (s'.readLine limit (stop.shift above.length (blank.length + 1))) := by
  obtain ⟨l, hnumber, -, halone, htokens⟩ :=
    exists_markupLine file before.length offset ht .nil fun _ => rfl
  have hflag : (scanBody (t.dropWhile (· == ' '))).2 = false := by
    rwa [Bool.eq_false_iff, ne_eq, scanBody_opens_iff]
  rw [hflag] at halone
  rw [List.append_nil] at htokens
  rw [← htokens] at hr
  have hplain : ∀ u ∈ l.body,
      Plain (fun pos => TextAfter (above ++ below) pos.line above.length) u := by
    intro u hu
    have hline : u.start.line = before.length := by
      rw [l.line_eq u (List.mem_cons_of_mem _ hu), hnumber]
    refine textAfter_iff ?_
    rw [hline]
    exact not_splits_of_not_opensBlock (by simp [hlines]) hopens
  refine (readLine_moved h halone hend hr hplain).and_of_ok ?_
  intro s₁ h₁
  have hgives := @readLine_of_markup limit stop s rest l ⟨hend, by simp [halone]⟩ hr
  rw [h₁] at hgives
  exact hgives

/-- Reading goes on in the same way behind any line, if a blank line is put in above it or below
it. -/
theorem readLines_movedBy (h : MovedBy above below blank s s') (hblank : blank.isBlank = true)
    (hbreaks : ∀ l ∈ above ++ below, '\n' ∉ l) (hlines : above ++ below = before ++ ls)
    (hfirst : before = [] → ∀ t ∈ ls.head?, Text.cut? ['!', '!', '!'] t = none)
    (hr : s.rest = lexLines file before.length offset none ls) :
    Reading.Moved (.shift above.length (blank.length + 1)) (MovedBy above below blank)
      (s.readLines limit stop)
      (s'.readLines limit (stop.shift above.length (blank.length + 1))) := by
  generalize hn : ls.length = n
  induction n using Nat.strong_induction_on generalizing before ls offset s s' with
  | _ n ih =>
    cases ls with
    | nil =>
      have hr' : s'.rest = [] := by rw [h.rest, hr]; rfl
      rw [readLines_nil hr, readLines_nil hr']
      exact .ok h
    | cons t ls =>
      have hfirst' : (before.length == 0) = true → Text.cut? ['!', '!', '!'] t = none := by
        intro hzero
        exact hfirst (by simpa using hzero) t rfl
      rw [lexLines_cons, scanLine_of_not_doctype hfirst'] at hr
      -- what is below the line is read in the same way, wherever the lines below it begin
      have hbelow : ∀ (lines rest : List Text) (offset : Nat) (s₁ s₁' : Layout),
          t :: ls = lines ++ rest → lines ≠ [] → MovedBy above below blank s₁ s₁' →
          s₁.rest = lexLines file (before.length + lines.length) offset none rest →
          Reading.Moved (.shift above.length (blank.length + 1)) (MovedBy above below blank)
            (s₁.readLines limit stop)
            (s₁'.readLines limit (stop.shift above.length (blank.length + 1))) := by
        intro lines rest offset s₁ s₁' hsplit hne h₁ hr₁
        have hlt : rest.length < n := by
          have hpos := List.length_pos_iff.2 hne
          rw [← hn, hsplit, List.length_append]
          omega
        rw [← List.length_append] at hr₁
        exact ih rest.length hlt h₁ (by rw [hlines, hsplit, List.append_assoc]) (by simp [hne]) hr₁
          rfl
      cases ht : t.isBlank with
      | true =>
        rw [scanLine_of_blank ht] at hr
        exact hbelow [t] ls _ s s' rfl (by simp) h hr
      | false =>
        rw [scanLine_of_markup ht rfl] at hr
        by_cases hopens : OpensBlock t
        · obtain ⟨block, after, rfl, hblock⟩ := exists_blockOf hlines hopens
          obtain ⟨mark, hbody, hm, hmark⟩ := @exists_mark_of_opensBlock file t hopens before.length
            offset (0 + (t.takeWhile (· == ' ')).length)
          rw [scanBody_opens_iff.2 hopens, if_pos rfl, placePieces, hbody] at hr
          have hinner : ∀ l ∈ block, '\n' ∉ l := fun l hl => hbreaks l (by simp [hlines, hl])
          refine readLines_moved h hr
            (readLine_movedBy_of_block h hblank hblock hinner rfl ?_ hm hmark hr) ?_
          · exact byteLength_takeWhile_spaces t
          · rintro s₁ s₁' ⟨hs₁, offset', hr₁⟩
            have hnumber : before.length + (t :: block).length =
                before.length + 1 + block.length := by
              rw [List.length_cons]
              omega
            rw [← hnumber] at hr₁
            exact ⟨hs₁, hbelow (t :: block) after offset' s₁ s₁' rfl (by simp) hs₁ hr₁⟩
        · have hflag : (scanBody (t.dropWhile (· == ' '))).2 = false := by
            rwa [Bool.eq_false_iff, ne_eq, scanBody_opens_iff]
          rw [hflag] at hr
          have hend := lineEnd_lexLines file (offset + t.length + 1) none ls
            (Nat.succ_ne_zero before.length)
          refine readLines_moved h hr (readLine_movedBy_of_markup h hlines ht hopens hend hr) ?_
          rintro s₁ s₁' ⟨hs₁, hr₁⟩
          exact ⟨hs₁, hbelow [t] ls _ s₁ s₁' rfl (by simp) hs₁ hr₁⟩

end Lines

theorem endOf_map_shift {k size : Nat} (hk : 0 < k) (tokens : List Token) :
    endOf (tokens.map (·.move (.shift k size))) = (endOf tokens).shift k size := by
  unfold endOf
  rw [List.getLast?_map]
  cases tokens.getLast? with
  | none => rw [Location.shift, if_pos hk]; rfl
  | some t =>
    dsimp only [Option.map_some, Token.move, Location.shift]
    split <;> rfl

/-- Behind the doctype line, if there is one, all lines are read in the same way. -/
theorem readLines_of_readDoctype {source : Text} {above below : List Text} {blank : Text}
    (hlines : splitLines (normalise source) = above ++ below) (hblank : blank.isBlank = true)
    {file : Text} {limit : Int} {stop : Location} {s s' : Layout}
    (hs : readDoctype { rest := lex file source } = .ok s) (h : MovedBy above below blank s s') :
    Reading.Moved (.shift above.length (blank.length + 1)) (MovedBy above below blank)
      (s.readLines limit stop)
      (s'.readLines limit (stop.shift above.length (blank.length + 1))) := by
  have hbreaks : ∀ l ∈ above ++ below, '\n' ∉ l := by
    intro l hl
    rw [← hlines] at hl
    exact Text.not_mem_of_mem_splitAt hl
  rcases doctype_cases source with hfirst | ⟨t, ts, rest, hsource, hcut⟩
  · obtain ⟨ls, hlex, -⟩ := lex_of_not_doctype file hfirst
    rw [hlex, readDoctype_of_markup, ← hlex, lex, hlines] at hs
    cases hs
    rw [hlines] at hfirst
    have hsplit : above ++ below = [] ++ (above ++ below) := rfl
    exact readLines_movedBy h hblank hbreaks hsplit (fun _ => hfirst) rfl
  · obtain ⟨mark, words, hlex, hm, -, hws, -⟩ := lex_doctype_line file hsource hcut
    have hend := lineEnd_lexLines file (0 + t.length + 1) none ts Nat.one_ne_zero
    rw [hlex, readDoctype_of_words hm hws] at hs
    · split at hs
      · cases hs
      · cases hs
        have hsplit : above ++ below = [t] ++ ts := by rw [← hlines, hsource]; rfl
        have hleft : ∀ w ∈ words.drop 2, w.kind = .doctypeWord :=
          fun w hw => hws w (List.mem_of_mem_drop hw)
        generalize words.drop 2 = left at h hleft
        cases left with
        | nil => exact readLines_movedBy h hblank hbreaks hsplit (by simp) rfl
        | cons w left =>
          -- what is left of the doctype line is not read at all
          have hw := hleft w (List.mem_cons_self ..)
          have hrest := h.rest
          rw [List.cons_append, List.map_cons] at hrest
          rw [readLines_of_doctypeWord rfl hw, readLines_of_doctypeWord hrest hw]
          exact .error ⟨.unexpectedToken w, w.start⟩
    · intro u us he
      rcases hend with hnil | ⟨v, vs, hcons, hv⟩
      · rw [he] at hnil
        cases hnil
      · rw [he] at hcons
        cases hcons
        simp [hv]

end Layout

namespace Program

/-- A line of White_Space that is put anywhere below the first line moves the tokens behind it, one
line down and as many characters on as it takes up, and changes nothing else about them. The same
program is read, or the same problem is found, at the moved places, but for the text of a filter
whose block the line falls into. -/
theorem ofTokens_blank_line {source source' : Text} {above below : List Text} {blank : Text}
    (hlines : splitLines (normalise source) = above ++ below)
    (hlines' : splitLines (normalise source') = above ++ blank :: below) (habove : above ≠ [])
    (hblank : blank.isBlank = true) (file contextType : Text) (maxDepth : Int) :
    lex file source' =
        (lex file source).map (·.move (.shift above.length (blank.length + 1))) ∧
      Reading.Moved (.shift above.length (blank.length + 1))
        (fun p p' => p'.contextType = p.contextType ∧
          List.Forall₂ (Instruction.Moved (.shift above.length (blank.length + 1)) fun pos =>
            TextAfter (above ++ below) pos.line above.length) p.code.toList p'.code.toList)
        (ofTokens contextType maxDepth (lex file source))
        (ofTokens contextType maxDepth (lex file source')) := by
  have hpos : 0 < above.length := List.length_pos_iff.2 habove
  have hlex : lex file source' =
      (lex file source).map (·.move (.shift above.length (blank.length + 1))) := by
    have hshift := @lexLines_blank file 0 0 none blank hblank above below (by omega)
    rw [Nat.zero_add] at hshift
    rw [lex, lex, hlines, hlines', hshift]
  refine ⟨hlex, ?_⟩
  rw [hlex]
  refine (layOut_moved (Layout.endOf_map_shift hpos _) ?_).map fun _ _ hcode => ⟨rfl, hcode⟩
  intro limit s s' hs hmoved
  exact Layout.readLines_of_readDoctype hlines hblank hs hmoved

/-- A tab between two lines of a block, which are numbers 1 and 2. -/
theorem ofTokens_blank_line_in_block :
    Reading.Moved (.shift 2 2)
      (fun p p' : Program => p'.contextType = p.contextType ∧
        List.Forall₂ (Instruction.Moved (.shift 2 2) fun pos =>
          TextAfter [":css".toList, "  a".toList, "  b".toList, "%p".toList] pos.line 2)
          p.code.toList p'.code.toList)
      (.ok ⟨[], #[.filtered {} "css".toList "a\nb".toList 0,
        .literal { line := 3, offset := 13 } "<p></p>".toList 0]⟩)
      (.ok ⟨[], #[.filtered {} "css".toList "a\n\nb".toList 0,
        .literal { line := 4, offset := 15 } "<p></p>".toList 0]⟩) := by
  have h := (@ofTokens_blank_line ":css\n  a\n  b\n%p".toList ":css\n  a\n\t\n  b\n%p".toList
    [":css".toList, "  a".toList] ["  b".toList, "%p".toList] ['\t'] (by decide +kernel)
    (by decide +kernel) (by decide) (by decide +kernel) [] [] 0).2
  have hp : ofTokens [] 0 (lex [] ":css\n  a\n  b\n%p".toList) =
      .ok ⟨[], #[.filtered {} "css".toList "a\nb".toList 0,
        .literal { line := 3, offset := 13 } "<p></p>".toList 0]⟩ := by decide +kernel
  have hp' : ofTokens [] 0 (lex [] ":css\n  a\n\t\n  b\n%p".toList) =
      .ok ⟨[], #[.filtered {} "css".toList "a\n\nb".toList 0,
        .literal { line := 4, offset := 15 } "<p></p>".toList 0]⟩ := by decide +kernel
  rw [hp, hp'] at h
  exact h

end Program
end Offside
