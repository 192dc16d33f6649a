import Offside.Proofs.SourceReading

/-!
# The indentation law

Nothing in a source closes a scope but the indentation of the lines after it. A line of markup is a
row: its number and how deep it is indented. Laying out a source makes its instructions row by row
(`ByRows`): a row ends the scopes that are as deep as it is or deeper, and then adds instructions of
its own, all of them at its depth. From that it follows by induction over the rows that a scope is
open as long as the rows below its own are deeper than it (`Lawful`), and with it the law for whole
programs.
-/

namespace Offside

/-! ## Instructions made row by row -/

/-- Instructions that follow `start` and are made from rows; both are given newest first. Every row
is below what is there before it. It closes the scopes that are not less deep than it is, and adds
one or more instructions that are placed on its line and at its depth. -/
inductive ByRows (start : List Instruction) : List (Nat × Nat) → List Instruction → Prop
  | start : ByRows start [] start
  | row {rows : List (Nat × Nat)} {em new : List Instruction} {m d k : Nat} :
      ByRows start rows em →
      (∀ i ∈ em, i.closes = false → i.pos.line < m) →
      openScopes (List.replicate k .close ++ em) =
        (openScopes em).filter (fun x => x.2.depth?.any (· < d)) →
      new ≠ [] →
      (∀ i ∈ new, i.closes = false ∧ i.pos.line = m ∧ ∀ e, i.depth? = some e → e = d) →
      ByRows start ((m, d) :: rows) (new ++ (List.replicate k .close ++ em))

namespace ByRows

variable {start em : List Instruction} {rows : List (Nat × Nat)}

theorem mem_of_not_closes {k : Nat} {i : Instruction} (hi : i ∈ List.replicate k .close ++ em)
    (hc : i.closes = false) : i ∈ em := by
  rcases List.mem_append.1 hi with hi | hi
  · rw [List.eq_of_mem_replicate hi] at hc
    cases hc
  · exact hi

/-- Every instruction after the start stems from a row, and has its depth. -/
theorem exists_row (h : ByRows start rows em) {i : Instruction} (hi : i ∈ em)
    (hc : i.closes = false) :
    i ∈ start ∨ ∃ r ∈ rows, i.pos.line = r.1 ∧ ∀ e, i.depth? = some e → e = r.2 := by
  induction h with
  | start => exact .inl hi
  | @row rows em new m d k _ _ _ _ hnew ih =>
    rcases List.mem_append.1 hi with hi | hi
    · obtain ⟨-, hline, hdepth⟩ := hnew i hi
      exact .inr ⟨(m, d), List.mem_cons_self .., hline, hdepth⟩
    · rcases ih (mem_of_not_closes hi hc) with hs | ⟨r, hr, hplace⟩
      · exact .inl hs
      · exact .inr ⟨r, List.mem_cons_of_mem _ hr, hplace⟩

/-- Every row makes an instruction. -/
theorem exists_instruction (h : ByRows start rows em) {r : Nat × Nat} (hr : r ∈ rows) :
    ∃ i ∈ em, i.closes = false ∧ i.pos.line = r.1 := by
  induction h with
  | start => cases hr
  | @row rows em new m d k _ _ _ hne hnew ih =>
    rcases List.mem_cons.1 hr with rfl | hr
    · obtain ⟨i, new, rfl⟩ := List.exists_cons_of_ne_nil hne
      obtain ⟨hc, hline, -⟩ := hnew i (List.mem_cons_self ..)
      exact ⟨i, List.mem_append_left _ (List.mem_cons_self ..), hc, hline⟩
    · obtain ⟨i, hi, hplace⟩ := ih hr
      exact ⟨i, List.mem_append_right _ (List.mem_append_right _ hi), hplace⟩

/-- No instruction is further down than the last row. -/
theorem line_le {r : Nat × Nat} (h : ByRows start (r :: rows) em) {i : Instruction} (hi : i ∈ em)
    (hc : i.closes = false) : i.pos.line ≤ r.1 := by
  cases h with
  | row _ hbelow _ _ hnew =>
    rcases List.mem_append.1 hi with hi | hi
    · exact Nat.le_of_eq (hnew i hi).2.1
    · exact Nat.le_of_lt (hbelow i (mem_of_not_closes hi hc) hc)

end ByRows

/-! ## The law for rows -/

section Law

variable {start em : List Instruction} {rows : List (Nat × Nat)}

theorem mem_or_suffix_of_append {i : Instruction} {l new : List Instruction}
    (h : i :: l <:+ new ++ em) : i ∈ new ∨ i :: l <:+ em := by
  induction new with
  | nil => exact .inr h
  | cons j new ih =>
    rcases List.suffix_cons_iff.1 h with he | h
    · cases he
      exact .inl (List.mem_cons_self ..)
    · exact (ih h).imp_left (List.mem_cons_of_mem _)

/-- Of the scopes that the instructions open, given newest first, those are open whose line has only
deeper rows below it. -/
def Obeys (rows : List (Nat × Nat)) (em : List Instruction) : Prop :=
  ∀ a x d, em.reverse[a]? = some x → x.opens = true → x.depth? = some d →
    (IsOpen em a ↔ ∀ r ∈ rows, x.pos.line < r.1 → d < r.2)

/-- The law holds after all instructions, and it holds before each of them for the rows down to its
line. -/
structure Lawful (rows : List (Nat × Nat)) (em : List Instruction) : Prop where
  now : Obeys rows em
  before : ∀ i l, i :: l <:+ em → i.closes = false → Obeys (rows.filter (·.1 ≤ i.pos.line)) l

theorem Obeys.of_leaves (h : ∀ i ∈ em, i.isLeaf = true) : Obeys rows em := by
  intro a x d hx ho
  have hleaf := h x (List.mem_reverse.1 (List.mem_of_getElem? hx))
  rw [(Instruction.isLeaf_iff.1 hleaf).1] at ho
  cases ho

/-- An instruction of the last row keeps the law: if it opens a scope, no row is below it yet. -/
theorem Obeys.push {i : Instruction} (h : Obeys rows em) (hc : i.closes = false)
    (hlast : ∀ r ∈ rows, r.1 ≤ i.pos.line) : Obeys rows (i :: em) := by
  intro a x d hx ho hd
  rw [List.reverse_cons] at hx
  rcases Nat.lt_or_ge a em.reverse.length with ha | ha
  · rw [List.getElem?_append_left ha] at hx
    rw [← h a x d hx ho hd]
    rw [List.length_reverse] at ha
    cases hi : i.opens with
    | false => exact isOpen_leaf (Instruction.isLeaf_iff.2 ⟨hi, hc⟩) em a
    | true =>
      rw [isOpen_opens hi]
      exact or_iff_right (by omega)
  · -- the scope is the one that is just opened
    obtain ⟨hlt, -⟩ := List.getElem?_eq_some_iff.1 hx
    rw [List.length_append, List.length_singleton] at hlt
    obtain rfl : a = em.reverse.length := by omega
    rw [List.getElem?_concat_length] at hx
    cases hx
    rw [List.length_reverse, isOpen_opens ho]
    refine iff_of_true (.inl rfl) ?_
    intro r hr hlt
    have := hlast r hr
    omega

/-- A new row keeps the law: the scopes that it leaves open are those that are less deep. -/
theorem Obeys.row {m d k : Nat} (h : Obeys rows em)
    (hbelow : ∀ i ∈ em, i.closes = false → i.pos.line < m)
    (hopen : openScopes (List.replicate k .close ++ em) =
      (openScopes em).filter (fun x => x.2.depth?.any (· < d))) :
    Obeys ((m, d) :: rows) (List.replicate k .close ++ em) := by
  intro a x e hx ho he
  rw [isOpen_iff_mem hx, hopen, List.mem_filter, he, Option.any_some, decide_eq_true_eq]
  rw [List.reverse_append, List.reverse_replicate] at hx
  have hc := Instruction.closes_of_opens ho
  have ha : a < em.reverse.length := by
    by_contra hge
    rw [List.getElem?_append_right (by omega)] at hx
    rw [List.eq_of_mem_replicate (List.mem_of_getElem? hx)] at hc
    cases hc
  rw [List.getElem?_append_left ha] at hx
  have hline := hbelow x (List.mem_reverse.1 (List.mem_of_getElem? hx)) hc
  rw [← isOpen_iff_mem hx, h a x e hx ho he, List.forall_mem_cons, and_comm]
  exact and_congr_left fun _ => ⟨fun hlt _ => hlt, fun hlt => hlt hline⟩

theorem Lawful.push {i : Instruction} (h : Lawful rows em) (hc : i.closes = false)
    (hlast : ∀ r ∈ rows, r.1 ≤ i.pos.line) : Lawful rows (i :: em) where
  now := h.now.push hc hlast
  before := by
    intro j l hj hjc
    rcases List.suffix_cons_iff.1 hj with he | hj
    · cases he
      rw [List.filter_eq_self.2 (by simpa using hlast)]
      exact h.now
    · exact h.before j l hj hjc

theorem Lawful.append {new : List Instruction} (h : Lawful rows em)
    (hnew : ∀ i ∈ new, i.closes = false ∧ ∀ r ∈ rows, r.1 ≤ i.pos.line) :
    Lawful rows (new ++ em) := by
  induction new with
  | nil => exact h
  | cons i new ih =>
    obtain ⟨⟨hc, hlast⟩, hnew⟩ := List.forall_mem_cons.1 hnew
    exact (ih hnew).push hc hlast

theorem Lawful.row {m d k : Nat} (h : Lawful rows em)
    (hbelow : ∀ i ∈ em, i.closes = false → i.pos.line < m)
    (hopen : openScopes (List.replicate k .close ++ em) =
      (openScopes em).filter (fun x => x.2.depth?.any (· < d))) :
    Lawful ((m, d) :: rows) (List.replicate k .close ++ em) where
  now := h.now.row hbelow hopen
  before := by
    intro j l hj hjc
    -- what a row closes is not made by it, so that only earlier instructions are asked about
    have hj : j :: l <:+ em := by
      refine (mem_or_suffix_of_append hj).resolve_left ?_
      intro hmem
      rw [List.eq_of_mem_replicate hmem] at hjc
      cases hjc
    have hline := hbelow j (hj.subset (List.mem_cons_self ..)) hjc
    rw [List.filter_cons_of_neg (by simpa using hline)]
    exact h.before j l hj hjc

/-- Instructions that are made row by row obey the law. -/
theorem ByRows.lawful (h : ByRows start rows em) (hstart : ∀ i ∈ start, i.isLeaf = true) :
    Lawful rows em := by
  induction h with
  | start =>
    refine ⟨.of_leaves hstart, ?_⟩
    intro i l hl _
    exact .of_leaves fun j hj => hstart j (hl.subset (List.mem_cons_of_mem _ hj))
  | @row rows em new m d k hrows hbelow hopen _ hnew ih =>
    have hlast : ∀ r ∈ (m, d) :: rows, r.1 ≤ m := by
      refine List.forall_mem_cons.2 ⟨Nat.le_refl m, ?_⟩
      intro r hr
      obtain ⟨i, hi, hc, hline⟩ := hrows.exists_instruction hr
      rw [← hline]
      exact Nat.le_of_lt (hbelow i hi hc)
    refine (ih.row hbelow hopen).append ?_
    intro i hi
    obtain ⟨hc, hline, -⟩ := hnew i hi
    rw [hline]
    exact ⟨hc, hlast⟩

/-- Instructions are made in the order of the lines. -/
theorem ByRows.line_le_of_suffix (h : ByRows start rows em)
    (hstart : ∀ i ∈ start, i.pos.line = 0) {i j : Instruction} {l : List Instruction}
    (hl : i :: l <:+ em) (hi : i.closes = false) (hj : j ∈ l) (hc : j.closes = false) :
    j.pos.line ≤ i.pos.line := by
  induction h with
  | start =>
    rw [hstart j (hl.subset (List.mem_cons_of_mem _ hj))]
    exact Nat.zero_le _
  | @row rows em new m d k hrows hbelow hopen hne hnew ih =>
    rcases mem_or_suffix_of_append hl with hmem | hsuf
    · rw [(hnew i hmem).2.1]
      exact (ByRows.row hrows hbelow hopen hne hnew).line_le
        (hl.subset (List.mem_cons_of_mem _ hj)) hc
    · rcases mem_or_suffix_of_append hsuf with hmem | hsuf
      · rw [List.eq_of_mem_replicate hmem] at hi
        cases hi
      · exact ih hsuf

theorem suffix_of_getElem?_reverse {l : List Instruction} {b : Nat} {y : Instruction}
    (h : l.reverse[b]? = some y) : y :: (l.reverse.take b).reverse <:+ l := by
  have hprefix : l.reverse.take b ++ [y] <+: l.reverse := by
    have := List.take_prefix (b + 1) l.reverse
    rwa [List.take_add_one, h, Option.toList_some] at this
  simpa using List.reverse_suffix.2 hprefix

/-- The law for a scope and an instruction that is made by a line further down. -/
theorem ByRows.isOpen_iff {a b d : Nat} {x y : Instruction} (h : ByRows start rows em)
    (hstart : ∀ i ∈ start, i.isLeaf = true ∧ i.pos.line = 0) (hx : em.reverse[a]? = some x)
    (ho : x.opens = true) (hd : x.depth? = some d) (hy : em.reverse[b]? = some y)
    (hc : y.closes = false) (hlt : x.pos.line < y.pos.line) :
    IsOpen (em.reverse.take b).reverse a ↔
      ∀ r ∈ rows, x.pos.line < r.1 → r.1 ≤ y.pos.line → d < r.2 := by
  have hsuf := suffix_of_getElem?_reverse hy
  have hab : a < b := by
    -- were the instruction made first, its line would not be further down
    by_contra hge
    have hne : b ≠ a := by
      rintro rfl
      rw [hx] at hy
      cases hy
      omega
    have hmem : y ∈ (em.reverse.take a).reverse :=
      List.mem_reverse.2 (List.mem_of_getElem? (i := b) (by
        rwa [List.getElem?_take_of_lt (by omega)]))
    have := h.line_le_of_suffix (fun i hi => (hstart i hi).2) (suffix_of_getElem?_reverse hx)
      (Instruction.closes_of_opens ho) hmem hc
    omega
  have hlaw := (h.lawful fun i hi => (hstart i hi).1).before y _ hsuf hc
  rw [hlaw a x d (by rwa [List.reverse_reverse, List.getElem?_take_of_lt hab]) ho hd]
  simp only [List.mem_filter, decide_eq_true_eq]
  constructor
  · intro hall r hr hlt hle
    exact hall r ⟨hr, hle⟩ hlt
  · rintro hall r ⟨hr, hle⟩ hlt
    exact hall r hr hlt hle

end Law

/-! ## Reading the rows -/

theorem Layout.Adds.new_ne_nil {limit : Int} {scopes d : Nat} {new : List Instruction}
    {opened : List Pending} (h : Adds limit scopes d new opened) : new ≠ [] := by
  cases h <;> simp

theorem Layout.Adds.not_closes {limit : Int} {scopes d : Nat} {new : List Instruction}
    {opened : List Pending} (h : Adds limit scopes d new opened) :
    ∀ i ∈ new, i.closes = false := by
  have hleaf : ∀ i : Instruction, i.isLeaf = true → i.closes = false :=
    fun i hi => (Instruction.isLeaf_iff.1 hi).2
  cases h with
  | leaf hi => simpa using hleaf _ hi
  | scope hi => simpa using Instruction.closes_of_opens hi
  | leafInTag hi ht => simpa using ⟨hleaf _ hi, Instruction.closes_of_opens ht⟩
  | scopeInTag hi ht =>
    simpa using ⟨Instruction.closes_of_opens hi, Instruction.closes_of_opens ht⟩

/-- After the indentation of a line of markup, what is left of the line is its body. -/
theorem MarkupLine.line_readIndent {l : MarkupLine} {s : Layout} {rest : List Token}
    (hend : LineEnd rest) (hr : s.rest = l.tokens ++ rest) : s.readIndent.line = l.body := by
  rw [Layout.line, (Layout.readIndent_of_markup l hr).1]
  refine Layout.takeWhile_of_lineEnd ?_ (l.raw.lineEnd hend)
  rintro t ht hk
  exact l.form.indent_not_mem (hk ▸ List.mem_map_of_mem ht)

/-- What stems from a line of markup is placed on its line and at its depth. -/
theorem MarkupLine.place_of_fromLine {l : MarkupLine} {s : Layout} {rest : List Token}
    {i : Instruction} (hend : LineEnd rest) (hr : s.rest = l.tokens ++ rest)
    (h : s.readIndent.FromLine i) :
    i.pos.line = l.number ∧ ∀ e, i.depth? = some e → e = l.depth := by
  obtain ⟨-, hdepth, -⟩ := Layout.readIndent_of_markup l hr
  obtain ⟨⟨t, ht, hpos⟩, hd⟩ := h
  rw [l.line_readIndent hend hr] at ht
  rw [hpos, ← hdepth]
  exact ⟨l.line_eq t (List.mem_cons_of_mem _ ht), hd⟩

/-- Reading a line of markup adds its row. -/
theorem ByRows.readLine {start : List Instruction} {rows : List (Nat × Nat)} {limit : Int}
    {stop : Location} {s s' : Layout} {l : MarkupLine} {ls : List MarkupLine}
    (h : ByRows start rows s.emitted) (hsound : s.Sound limit)
    (hchain : (l :: ls).IsChain MarkupLine.Follows)
    (hr : s.rest = l.tokens ++ ls.flatMap (·.tokens))
    (hbelow : ∀ i ∈ s.emitted, i.closes = false → i.pos.line < l.number)
    (hread : s.readLine limit stop = .ok s') :
    ByRows start ((l.number, l.depth) :: rows) s'.emitted := by
  have hends := MarkupLine.endsBefore_of_isChain hchain
  obtain ⟨hrest, -, hem⟩ := Layout.readIndent_of_markup l hr
  have hall : s'.rest = ls.flatMap (·.tokens) := by
    have hgives : Reading.Gives (fun s' => s'.rest = ls.flatMap (·.tokens)) l.tokens
        (s.readLine limit stop) := Layout.readLine_of_markup l hends hr
    rw [hread] at hgives
    exact hgives
  obtain ⟨k, hk⟩ := s.exists_emitted_closeTo l.depth
  rcases Layout.readLine_ok hread with rfl | ⟨new, opened, hnew, -, hadds, hfrom, -⟩
  · -- a line is not empty, so that reading it reads something
    have hlen := congrArg List.length (hrest.symm.trans hall)
    have hpos := List.length_pos_iff.2 l.body_ne_nil
    simp only [List.length_append] at hlen
    omega
  · rw [hnew, hem, hk]
    refine .row h hbelow ?_ hadds.new_ne_nil ?_
    · rw [← hk]
      exact hsound.openScopes_closeTo l.depth
    · intro i hi
      obtain ⟨hline, hdepth⟩ := MarkupLine.place_of_fromLine hends.1 hr (hfrom i hi)
      exact ⟨hadds.not_closes i hi, hline, hdepth⟩

/-- Reading lines of markup adds their rows. -/
theorem ByRows.readLines {limit : Int} {stop : Location} {s s' : Layout} {ls : List MarkupLine}
    (hsound : s.Sound limit) (hchain : ls.IsChain MarkupLine.Follows)
    (hr : s.rest = ls.flatMap (·.tokens))
    (hbelow : ∀ l ∈ ls.head?, ∀ i ∈ s.emitted, i.closes = false → i.pos.line < l.number)
    (hread : s.readLines limit stop = .ok s') :
    ∃ rows, ByRows s.emitted rows s'.emitted ∧
      rows.reverse = ls.map fun l => (l.number, l.depth) := by
  -- the rows that are read and the lines that are not yet read are all of the lines
  let P (s₁ : Layout) (rest : List MarkupLine) : Prop :=
    s₁.Sound limit ∧
      (∀ l ∈ rest.head?, ∀ i ∈ s₁.emitted, i.closes = false → i.pos.line < l.number) ∧
      ∃ rows, ByRows s.emitted rows s₁.emitted ∧
        rows.reverse ++ rest.map (fun l => (l.number, l.depth)) =
          ls.map fun l => (l.number, l.depth)
  have hgives : Reading.Gives (fun s₁ => P s₁ []) (ls.flatMap (·.tokens))
      (s.readLines limit stop) := by
    refine Layout.readLines_of_sheet ?_ hchain hr ⟨hsound, hbelow, [], .start, rfl⟩
    rintro l rest s₁ s₂ hchain hr ⟨hsound, hbelow, rows, hrows, hall⟩ hread
    have hnext := hrows.readLine hsound hchain hr (hbelow l rfl) hread
    refine ⟨hsound.readLine hread, ?_, _, hnext, by simpa using hall⟩
    intro next hhead i hi hc
    cases rest with
    | nil => cases hhead
    | cons next' rest =>
      cases hhead
      obtain ⟨⟨hlt, -⟩, -⟩ := List.isChain_cons_cons.1 hchain
      exact Nat.lt_of_le_of_lt (hnext.line_le hi hc) hlt
  rw [hread] at hgives
  obtain ⟨-, -, rows, hrows, hall⟩ := hgives
  exact ⟨rows, hrows, by simpa using hall⟩

/-- The instructions of a source are made from its lines of markup, row by row, after the literals
of its doctype line. -/
theorem exists_byRows {file source : Text} {maxDepth : Int} {s : Layout}
    (h : Layout.ReadTo maxDepth (lex file source) s) :
    ∃ start rows, ByRows start rows s.emitted ∧
      (∀ i ∈ start, HasDoctype (splitLines (normalise source)) ∧
        ∃ pos text, i = .literal pos text 0 ∧ pos.line = 0) ∧
      ∀ k d, (k, d) ∈ rows ↔
        ∃ t, IsMarkup (splitLines (normalise source)) k t ∧ d = indentation t := by
  obtain ⟨s₀, hdoc, hread⟩ := h
  have hsound : s₀.Sound (if maxDepth = 0 then 100 else maxDepth) := .start hdoc
  have hcases := readDoctype_lex file source
  rw [hdoc] at hcases
  cases hcases with
  | overfull _ _ hkind hrest =>
    rw [Layout.readLines_of_doctypeWord hrest hkind] at hread
    cases hread
  | @sheet _ ls _ hchain hrest _ hmarkup hlit =>
    -- where there are literals there is a doctype line, and then no line of markup is the first one
    have hbelow : ∀ l ∈ ls.head?, ∀ i ∈ s₀.emitted, i.closes = false → i.pos.line < l.number := by
      intro l hl i hi _
      obtain ⟨t, ht, -⟩ := (hmarkup l.number l.depth).1
        (List.mem_map_of_mem (f := fun l => (l.number, l.depth)) (List.mem_of_mem_head? hl))
      obtain ⟨hdoctype, pos, text, rfl, hpos⟩ := hlit i hi
      show pos.line < l.number
      rw [hpos]
      exact ht.pos_of_hasDoctype hdoctype
    obtain ⟨rows, hrows, hrev⟩ := ByRows.readLines hsound hchain hrest hbelow hread
    refine ⟨_, rows, hrows, hlit, ?_⟩
    intro k d
    rw [← List.mem_reverse, hrev]
    exact hmarkup k d

/-! ## The law -/

/-- The scope that instruction `a` opens holds instruction `b`. -/
def Program.Encloses (p : Program) (a b : Nat) : Prop :=
  ∃ x stop, p.code[a]? = some x ∧ x.stop? = some stop ∧ a < b ∧ b < stop

/-- In a finished program a scope holds an instruction just if it is still open before it. -/
theorem Program.WellBracketed.encloses_iff {limit : Int} {p : Program} {a b : Nat}
    {x y : Instruction} (h : p.WellBracketed limit) (hx : p.code[a]? = some x)
    (ho : x.opens = true) (hy : p.code[b]? = some y) (hc : y.closes = false) :
    p.Encloses a b ↔ IsOpen (p.code.toList.take b).reverse a := by
  obtain ⟨c, hstop⟩ := Instruction.stop?_of_opens ho
  have hclosed := (h.stop?_eq_some_iff a x hx ho c).1 hstop
  have hne : b ≠ c := by
    rintro rfl
    have hclosing := hclosed.closing
    rw [Array.getElem?_toList, hy] at hclosing
    cases hclosing
    cases hc
  rw [hclosed.isOpen_take_iff]
  constructor
  · rintro ⟨x', stop, hx', hstop', hab, hb⟩
    rw [hx] at hx'
    cases hx'
    rw [hstop] at hstop'
    cases hstop'
    exact ⟨hab, Nat.le_of_lt hb⟩
  · rintro ⟨hab, hb⟩
    exact ⟨x, c, hx, hstop, hab, by omega⟩

/-- Where scopes stop apart, a finished program is what was made when all lines were read, and some
closing instructions after it. -/
theorem Layout.map_withStop_code {s : Layout} {code : List Instruction}
    (hmatch : matchScopes 0 (s.closeTo 0).emitted.reverse = (code, [])) :
    ∃ k, code.map (·.withStop 0) =
      (s.emitted.reverse ++ List.replicate k Instruction.close).map (·.withStop 0) := by
  obtain ⟨k, hk⟩ := s.exists_emitted_closeTo 0
  have hmap := map_withStop_matchScopes 0 0 (s.closeTo 0).emitted.reverse
  rw [hmatch, hk, List.reverse_append, List.reverse_replicate] at hmap
  exact ⟨k, hmap⟩

/-- An instruction that closes nothing stands in the finished program where it was made, and the
same scopes are open before it. -/
theorem Layout.exists_emitted {s : Layout} {code : List Instruction} {a : Nat} {x : Instruction}
    (hmatch : matchScopes 0 (s.closeTo 0).emitted.reverse = (code, [])) (hx : code[a]? = some x)
    (hc : x.closes = false) :
    (∃ y, s.emitted.reverse[a]? = some y ∧ x.withStop 0 = y.withStop 0) ∧
      ∀ c, IsOpen (code.take a).reverse c ↔ IsOpen (s.emitted.reverse.take a).reverse c := by
  obtain ⟨k, hmap⟩ := Layout.map_withStop_code hmatch
  have hxa := congrArg (·[a]?) hmap
  simp only [List.getElem?_map, hx, Option.map_some] at hxa
  obtain ⟨y, hy, he⟩ := Option.map_eq_some_iff.1 hxa.symm
  have hyc : y.closes = false := by rw [(Instruction.eq_of_withStop_eq he).2.2.1, hc]
  have ha : a < s.emitted.reverse.length := by
    by_contra hge
    rw [List.getElem?_append_right (by omega)] at hy
    rw [List.eq_of_mem_replicate (List.mem_of_getElem? hy)] at hyc
    cases hyc
  rw [List.getElem?_append_left ha] at hy
  refine ⟨⟨y, hy, he.symm⟩, ?_⟩
  intro c
  rw [← isOpen_map_withStop (code.take a).reverse 0, List.map_reverse, List.map_take, hmap,
    ← List.map_take, ← List.map_reverse, isOpen_map_withStop,
    List.take_append_of_le_length (Nat.le_of_lt ha)]

namespace Program

section Rows

variable {maxDepth : Int} {tokens : List Token} {s : Layout} {p : Program} {nodes : List Node}
  {start : List Instruction} {rows : List (Nat × Nat)} {a b d : Nat} {x y : Instruction}

theorem encloses_iff_rows (hs : Layout.ReadTo maxDepth tokens s)
    (hmatch : matchScopes 0 (s.closeTo 0).emitted.reverse = (p.code.toList, []))
    (hnodes : Node.codeAll 0 nodes = p.code.toList) (hrows : ByRows start rows s.emitted)
    (hstart : ∀ i ∈ start, i.isLeaf = true ∧ i.pos.line = 0) (hx : p.code[a]? = some x)
    (ho : x.opens = true) (hd : x.depth? = some d) (hy : p.code[b]? = some y)
    (hc : y.closes = false) (hlt : x.pos.line < y.pos.line) :
    p.Encloses a b ↔ ∀ r ∈ rows, x.pos.line < r.1 → r.1 ≤ y.pos.line → d < r.2 := by
  rw [(WellBracketed.of_readTo hs hmatch hnodes).encloses_iff hx ho hy hc]
  rw [← Array.getElem?_toList] at hx hy
  obtain ⟨⟨x', hx', hxe⟩, -⟩ := Layout.exists_emitted hmatch hx (Instruction.closes_of_opens ho)
  obtain ⟨⟨y', hy', hye⟩, hopen⟩ := Layout.exists_emitted hmatch hy hc
  obtain ⟨hxpos, hxo, -, hxd⟩ := Instruction.eq_of_withStop_eq hxe
  obtain ⟨hypos, -, hyc, -⟩ := Instruction.eq_of_withStop_eq hye
  rw [hxpos, hypos] at hlt ⊢
  rw [hxo] at ho
  rw [hxd] at hd
  rw [hyc] at hc
  rw [hopen, hrows.isOpen_iff hstart hx' ho hd hy' hc hlt]

theorem exists_row_of_code
    (hmatch : matchScopes 0 (s.closeTo 0).emitted.reverse = (p.code.toList, []))
    (hrows : ByRows start rows s.emitted) (hx : p.code[a]? = some x) (hc : x.closes = false) :
    (∃ i ∈ start, x.withStop 0 = i.withStop 0) ∨
      ∃ r ∈ rows, x.pos.line = r.1 ∧ ∀ e, x.depth? = some e → e = r.2 := by
  rw [← Array.getElem?_toList] at hx
  obtain ⟨⟨y, hy, he⟩, -⟩ := Layout.exists_emitted hmatch hx hc
  obtain ⟨hpos, -, hclose, hdepth⟩ := Instruction.eq_of_withStop_eq he
  rw [hclose] at hc
  rw [hpos, hdepth]
  exact (hrows.exists_row (List.mem_reverse.1 (List.mem_of_getElem? hy)) hc).imp_left
    fun hmem => ⟨y, hmem, he⟩

theorem exists_code_of_row
    (hmatch : matchScopes 0 (s.closeTo 0).emitted.reverse = (p.code.toList, []))
    (hrows : ByRows start rows s.emitted) {r : Nat × Nat} (hr : r ∈ rows) :
    ∃ (a : Nat) (x : Instruction), p.code[a]? = some x ∧ x.closes = false ∧ x.pos.line = r.1 := by
  obtain ⟨y, hy, hc, hline⟩ := hrows.exists_instruction hr
  obtain ⟨k, hmap⟩ := Layout.map_withStop_code hmatch
  have hmem : y.withStop 0 ∈ p.code.toList.map (·.withStop 0) := by
    rw [hmap]
    exact List.mem_map_of_mem (List.mem_append_left _ (List.mem_reverse.2 hy))
  obtain ⟨x, hx, he⟩ := List.mem_map.1 hmem
  obtain ⟨a, ha⟩ := List.getElem?_of_mem hx
  obtain ⟨hpos, -, hclose, -⟩ := Instruction.eq_of_withStop_eq he
  rw [Array.getElem?_toList] at ha
  exact ⟨a, x, ha, hclose.trans hc, by rw [hpos, hline]⟩

end Rows

/-- A program is nested as the lines that it was made from are indented. -/
structure Indented (lines : List Text) (p : Program) : Prop where
  /-- A scope that one line of markup opens holds what a line of markup below it makes just if all
  lines of markup below the first, down to the second, are deeper than the first. -/
  encloses_iff : ∀ (i j : Nat) (upper lower : Text), IsMarkup lines i upper →
    IsMarkup lines j lower → i < j → ∀ (a b : Nat) (x y : Instruction), p.code[a]? = some x →
      x.opens = true → x.pos.line = i → p.code[b]? = some y → y.closes = false → y.pos.line = j →
      (p.Encloses a b ↔ ∀ (k : Nat) (t : Text), i < k → k ≤ j → IsMarkup lines k t →
        indentation upper < indentation t)
  /-- Every line of markup makes something. -/
  exists_instruction : ∀ (k : Nat) (t : Text), IsMarkup lines k t →
    ∃ (a : Nat) (x : Instruction), p.code[a]? = some x ∧ x.closes = false ∧ x.pos.line = k
  /-- What a line of markup makes is as deep as the line has leading spaces; all else are the
  literals of a doctype line, at depth zero. -/
  depth_eq : ∀ (a : Nat) (x : Instruction), p.code[a]? = some x → x.closes = false →
    (∃ t, IsMarkup lines x.pos.line t ∧ ∀ d, x.depth? = some d → d = indentation t) ∨
      HasDoctype lines ∧ x.pos.line = 0 ∧ ∃ text, x = .literal x.pos text 0

/-- The indentation law: a program that is laid out from a source is nested as the source is
indented. -/
theorem indented_of_ofTokens_lex {file source contextType : Text} {maxDepth : Int} {p : Program}
    (h : Program.ofTokens contextType maxDepth (lex file source) = .ok p) :
    p.Indented (splitLines (normalise source)) := by
  obtain ⟨s, nodes, hs, hmatch, -, hnodes⟩ := ofTokens_ok h
  obtain ⟨start, rows, hrows, hstart, hmarkup⟩ := exists_byRows hs
  have hleaf : ∀ i ∈ start, i.isLeaf = true ∧ i.pos.line = 0 := by
    intro i hi
    obtain ⟨-, pos, text, rfl, hpos⟩ := hstart i hi
    exact ⟨rfl, hpos⟩
  have hdepth : ∀ (a : Nat) (x : Instruction), p.code[a]? = some x → x.closes = false →
      (∃ t, IsMarkup (splitLines (normalise source)) x.pos.line t ∧
        ∀ d, x.depth? = some d → d = indentation t) ∨
      HasDoctype (splitLines (normalise source)) ∧ x.pos.line = 0 ∧
        ∃ text, x = .literal x.pos text 0 := by
    intro a x hx hc
    rcases exists_row_of_code hmatch hrows hx hc with ⟨i, hi, he⟩ | ⟨r, hr, hline, hd⟩
    · obtain ⟨hdoctype, pos, text, rfl, hzero⟩ := hstart i hi
      obtain rfl := Instruction.eq_of_withStop_eq_literal he
      exact .inr ⟨hdoctype, hzero, text, rfl⟩
    · obtain ⟨t, ht, hind⟩ := (hmarkup r.1 r.2).1 hr
      rw [← hline] at ht
      exact .inl ⟨t, ht, fun d hx => (hd d hx).trans hind⟩
  refine ⟨?_, ?_, hdepth⟩
  · rintro i j upper lower hi hj hij a b x y hx ho rfl hy hc rfl
    obtain ⟨d, hd⟩ := Instruction.depth?_of_opens ho
    have hupper : d = indentation upper := by
      rcases hdepth a x hx (Instruction.closes_of_opens ho) with ⟨t, ht, hind⟩ | ⟨-, -, text, he⟩
      · rw [hind d hd, ht.unique hi]
      · rw [he] at ho
        cases ho
    rw [encloses_iff_rows hs hmatch hnodes hrows hleaf hx ho hd hy hc hij, hupper]
    constructor
    · intro hall k t hik hkj hk
      exact hall (k, indentation t) ((hmarkup k _).2 ⟨t, hk, rfl⟩) hik hkj
    · rintro hall ⟨k, e⟩ hr hik hkj
      obtain ⟨t, hk, rfl⟩ := (hmarkup k e).1 hr
      exact hall k t hik hkj hk
  · intro k t hk
    exact exists_code_of_row hmatch hrows ((hmarkup k _).2 ⟨t, hk, rfl⟩)

/-- Lines that go in and out unevenly below a doctype line. The one after the filter is
swallowed. -/
def unevenLines : List Text :=
  ["!!! 5", "%a", "   :f", "      %x", "   %b", "     y", "  z"].map (·.toList)

/-- The scope of the first line holds what the last one makes, and the scope of the line with three
spaces does not. -/
theorem indented_of_unevenLines :
    ∃ p : Program, Program.ofTokens [] 0 (lex [] (['\n'].intercalate unevenLines)) = .ok p ∧
      p.Indented unevenLines ∧ p.Encloses 1 6 ∧ ¬ p.Encloses 3 6 := by
  have h : Program.ofTokens [] 0 (lex [] (['\n'].intercalate unevenLines)) =
      .ok ⟨[], #[.literal {} "<!DOCTYPE html>".toList 0,
        .openTag { line := 1, offset := 6 } [.literal "<a>".toList] [.literal "</a>".toList] 0 7,
        .filtered { line := 2, column := 3, offset := 12 } ['f'] "%x".toList 3,
        .openTag { line := 4, column := 3, offset := 27 } [.literal "<b>".toList]
          [.literal "</b>".toList] 3 5,
        .literal { line := 5, column := 5, offset := 35 } ['y'] 5, .close,
        .literal { line := 6, column := 2, offset := 39 } ['z'] 2, .close]⟩ := by
    decide +kernel
  have hlaw := indented_of_ofTokens_lex h
  rw [show splitLines (normalise (['\n'].intercalate unevenLines)) = unevenLines by
    decide +kernel] at hlaw
  have hmarkup : ∀ r ∈ markupRows 1 none unevenLines.tail,
      ∃ t, IsMarkup unevenLines r.1 t ∧ r.2 = indentation t := by
    have hcut : Text.cut? ['!', '!', '!'] "!!! 5".toList = some " 5".toList := by decide
    exact fun r hr => (mem_markupRows_one hcut).1 hr
  obtain ⟨t₁, h₁, hd₁⟩ := hmarkup (1, 0) (by decide +kernel)
  obtain ⟨t₄, h₄, hd₄⟩ := hmarkup (4, 3) (by decide +kernel)
  obtain ⟨t₆, h₆, hd₆⟩ := hmarkup (6, 2) (by decide +kernel)
  refine ⟨_, h, hlaw, ?_, ?_⟩
  · rw [hlaw.encloses_iff 1 6 t₁ t₆ h₁ h₆ (by decide) 1 6 _ _ rfl rfl rfl rfl rfl rfl, ← hd₁]
    intro k t hlt hle ht
    have hdeep : ∀ k ≤ 6, 1 < k → unevenLines[k]?.all (0 < indentation ·) = true := by decide
    simpa [ht.line] using hdeep k hle hlt
  · rw [hlaw.encloses_iff 4 6 t₄ t₆ h₄ h₆ (by decide) 3 6 _ _ rfl rfl rfl rfl rfl rfl, ← hd₄]
    intro hall
    have := hall 6 t₆ (by decide) (by decide) h₆
    omega

end Program
end Offside
