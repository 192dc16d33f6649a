import Mathlib.Data.List.Chain
import Mathlib.Data.List.TakeWhile
import Offside.Proofs.LineReading

/-!
# The tokens of a source, line by line

The tokens of a source fall into lines of markup, each with the raw block that it swallows
(`MarkupLine`), and perhaps a doctype line before all of them. The lines follow each other in order,
and after a filter that stands alone comes no line that would still belong to its block
(`Follows`). Blank lines have no tokens.
-/

namespace Offside

theorem cut?_eq_some_iff {head t rest : Text} :
    Text.cut? head t = some rest ↔ t = head ++ rest := by
  fun_induction Text.cut? head t with
  | case1 t => rw [Option.some.injEq, List.nil_append]
  | case2 h hs => simp
  | case3 c hs t ih => rw [ih, List.cons_append, List.cons.injEq, and_iff_right rfl]
  | case4 h hs c t hne =>
    simp only [reduceCtorEq, List.cons_append, List.cons.injEq, false_iff]
    exact fun heq => hne heq.1.symm

/-! ## Pieces and their tokens -/

theorem map_kind_placePieces (file : Text) (line offset column : Nat) (ps : List Piece) :
    (placePieces file line offset column ps).map (·.kind) = kindsOf ps := by
  fun_induction placePieces file line offset column ps with
  | case1 => rfl
  | case2 column raw ps ih => exact ih
  | case3 column kind raw ps ih =>
    rw [List.map_cons, ih]
    rfl

/-- A token is one of the pieces of its line. -/
theorem mem_placePieces {file : Text} {line offset column : Nat} {ps : List Piece} {t : Token}
    (h : t ∈ placePieces file line offset column ps) :
    t.start.line = line ∧
      ∃ raw, .token t.kind raw ∈ ps ∧ t.contents = Piece.contents t.kind raw := by
  fun_induction placePieces file line offset column ps with
  | case1 => cases h
  | case2 column raw ps ih =>
    obtain ⟨hl, raw', hm, hc⟩ := ih h
    exact ⟨hl, raw', List.mem_cons_of_mem _ hm, hc⟩
  | case3 column kind raw ps ih =>
    rcases List.mem_cons.1 h with rfl | h
    · exact ⟨rfl, raw, by simp, rfl⟩
    · obtain ⟨hl, raw', hm, hc⟩ := ih h
      exact ⟨hl, raw', List.mem_cons_of_mem _ hm, hc⟩

/-! ## The lines -/

theorem byteLength_of_spaces {t : Text} (h : ∀ c ∈ t, c = ' ') : t.byteLength = t.length := by
  induction t with
  | nil => rfl
  | cons c t ih =>
    obtain ⟨rfl, ht⟩ := List.forall_mem_cons.1 h
    rw [Text.byteLength, ih ht, List.length_cons, Nat.add_comm]
    rfl

theorem byteLength_takeWhile_spaces (t : Text) :
    Text.byteLength (t.takeWhile (· == ' ')) = indentation t := by
  refine byteLength_of_spaces ?_
  intro c hc
  simpa using List.mem_takeWhile_imp hc

/-- A line that is not blank has something after its indentation. -/
theorem dropWhile_ne_nil_of_not_blank {t : Text} (h : t.isBlank = false) :
    t.dropWhile (· == ' ') ≠ [] := by
  intro hnil
  have hall : ∀ c ∈ t, (c == ' ') = true := List.dropWhile_eq_nil_iff.1 hnil
  have hblank : t.isBlank = true := by
    refine List.all_eq_true.2 ?_
    intro c hc
    rw [eq_of_beq (hall c hc)]
    rfl
  rw [h] at hblank
  cases hblank

section Lines

variable {first : Bool} {block : Option Nat} {t : Text}

theorem scanLine_of_blank (h : t.isBlank = true) :
    scanLine first block t = ([.skip t], block) := by
  rw [scanLine, if_pos h]

theorem scanLine_of_raw (h : t.isBlank = false) (hb : block.any (· < indentation t) = true) :
    scanLine first block t =
      ([.token .indent (t.takeWhile (· == ' ')), .token .text (t.dropWhile (· == ' '))],
        block) := by
  rw [scanLine, if_neg (by simp [h]), if_pos hb]
  rfl

theorem scanLine_of_markup (h : t.isBlank = false) (hb : block.any (· < indentation t) = false) :
    scanLine false block t =
      (.token .indent (t.takeWhile (· == ' ')) :: (scanBody (t.dropWhile (· == ' '))).1,
        if (scanBody (t.dropWhile (· == ' '))).2 then some (indentation t) else none) := by
  rw [scanLine, if_neg (by simp [h]), if_neg (by simp [hb])]
  rfl

theorem scanLine_of_doctype {rest : Text} (h : t.isBlank = false)
    (hb : block.any (· < indentation t) = false) (hcut : Text.cut? ['!', '!', '!'] t = some rest) :
    scanLine true block t = (scanDoctype rest, none) := by
  rw [scanLine, if_neg (by simp [h]), if_neg (by simp [hb]), if_pos rfl, hcut]

/-- A first line that is no doctype line is a line like any other. -/
theorem scanLine_of_not_doctype (hfirst : first = true → Text.cut? ['!', '!', '!'] t = none) :
    scanLine first block t = scanLine false block t := by
  cases first with
  | false => rfl
  | true =>
    unfold scanLine
    rw [hfirst rfl]
    rfl

end Lines

/-- One line of markup comes after another: further down, and not in the block that the first one
may have opened. -/
def MarkupLine.Follows (l next : MarkupLine) : Prop :=
  l.number < next.number ∧ (l.alone = true → next.depth ≤ l.depth)

/-- The tokens of a line of markup, with whatever block follows it, are a `MarkupLine`. -/
theorem exists_markupLine (file : Text) (line offset : Nat) {t : Text} {block : List Token}
    (h : t.isBlank = false) (hraw : Layout.RawBlock (indentation t) block)
    (hblock : (scanBody (t.dropWhile (· == ' '))).2 = false → block = []) :
    ∃ l : MarkupLine, l.number = line ∧ l.depth = indentation t ∧
      l.alone = (scanBody (t.dropWhile (· == ' '))).2 ∧
      l.tokens = placePieces file line offset 0
        (.token .indent (t.takeWhile (· == ' ')) :: (scanBody (t.dropWhile (· == ' '))).1) ++
          block := by
  have hbody := (scanBody_cut (dropWhile_ne_nil_of_not_blank h)).1
  generalize scanBody (t.dropWhile (· == ' ')) = scanned at hbody hblock
  refine ⟨{
    number := line
    depth := indentation t
    alone := scanned.2
    indent := ⟨.indent, { file, line, column := 0, offset := offset + 0 },
      t.takeWhile (· == ' ')⟩
    body := placePieces file line offset (0 + (t.takeWhile (· == ' ')).length) scanned.1
    block
    kind_indent := rfl
    depth_indent := byteLength_takeWhile_spaces t
    line_eq := ?_
    form := by rwa [map_kind_placePieces]
    raw := hraw
    block_eq := hblock }, rfl, rfl, rfl, rfl⟩
  intro u hu
  rcases List.mem_cons.1 hu with rfl | hu
  · rfl
  · exact (mem_placePieces hu).1

/-- The lines of markup among the lines from number `line` on, with their indentations: those that
are not blank and not swallowed by the raw block of indentation `block`. -/
def markupRows : (line : Nat) → (block : Option Nat) → List Text → List (Nat × Nat)
  | _, _, [] => []
  | line, block, t :: ts =>
    let rows := markupRows (line + 1) (scanLine false block t).2 ts
    if t.isBlank || block.any (· < indentation t) then rows else (line, indentation t) :: rows

theorem le_of_mem_markupRows {line : Nat} {block : Option Nat} {ts : List Text} {r : Nat × Nat}
    (h : r ∈ markupRows line block ts) : line ≤ r.1 := by
  induction ts generalizing line block with
  | nil => cases h
  | cons t ts ih =>
    rw [markupRows] at h
    split at h
    · have := ih h
      omega
    · rcases List.mem_cons.1 h with rfl | h
      · exact Nat.le_refl _
      · have := ih h
        omega

/-- What the tokens after a line start with, if the line left the raw block `block` open. -/
def Continues (block : Option Nat) (raws : List Token) (ls : List MarkupLine) : Prop :=
  match block with
  | none => raws = []
  | some d => Layout.RawBlock d raws ∧ ∀ l ∈ ls.head?, l.depth ≤ d

/-- After a line of markup at depth `d` the open block, if there is one, is the one that the line
itself opened. -/
theorem Continues.of_ite {opens : Bool} {d : Nat} {raws : List Token} {ls : List MarkupLine}
    (h : Continues (if opens then some d else none) raws ls) :
    Layout.RawBlock d raws ∧ (opens = false → raws = []) ∧
      (opens = true → ∀ l ∈ ls.head?, l.depth ≤ d) := by
  cases opens with
  | false =>
    have hnil : raws = [] := h
    rw [hnil]
    exact ⟨.nil, fun _ => rfl, by simp⟩
  | true =>
    obtain ⟨hraw, hhead⟩ := h
    exact ⟨hraw, by simp, fun _ => hhead⟩

/-- The tokens are first those of the raw block that is still open, and then those of lines of
markup in their order, which have the given rows. -/
def IsSheet (block : Option Nat) (tokens : List Token) (rows : List (Nat × Nat)) : Prop :=
  ∃ (raws : List Token) (ls : List MarkupLine), tokens = raws ++ ls.flatMap (·.tokens) ∧
    Continues block raws ls ∧ ls.IsChain MarkupLine.Follows ∧
    ls.map (fun l => (l.number, l.depth)) = rows

theorem IsSheet.nil (block : Option Nat) : IsSheet block [] [] := by
  refine ⟨[], [], rfl, ?_, .nil, rfl⟩
  cases block with
  | none => rfl
  | some d => exact ⟨.nil, by simp⟩

/-- A line of the raw block that is open goes before the rest of the block. -/
theorem IsSheet.raw {block : Option Nat} {tokens : List Token} {rows : List (Nat × Nat)} {t : Text}
    (file : Text) (line offset : Nat) (hany : block.any (· < indentation t) = true)
    (h : IsSheet block tokens rows) :
    IsSheet block (placePieces file line offset 0
      [.token .indent (t.takeWhile (· == ' ')), .token .text (t.dropWhile (· == ' '))] ++ tokens)
      rows := by
  obtain ⟨raws, ls, rfl, hcont, hchain, hrows⟩ := h
  cases block with
  | none => cases hany
  | some d =>
    obtain ⟨hraw, hhead⟩ := hcont
    have hd : d < indentation t := by simpa using hany
    refine ⟨_, ls, (List.append_assoc ..).symm, ⟨.cons rfl ?_ rfl hraw, hhead⟩, hchain, hrows⟩
    show d < Text.byteLength (t.takeWhile (· == ' '))
    rw [byteLength_takeWhile_spaces]
    exact hd

/-- A line of markup takes the raw block that it opens, and goes before the lines below it. -/
theorem IsSheet.markup {block : Option Nat} {tokens : List Token} {rows : List (Nat × Nat)}
    {t : Text} (file : Text) (line offset : Nat) (hblank : t.isBlank = false)
    (hany : block.any (· < indentation t) = false) (hbelow : ∀ r ∈ rows, line < r.1)
    (h : IsSheet (if (scanBody (t.dropWhile (· == ' '))).2 then some (indentation t) else none)
      tokens rows) :
    IsSheet block (placePieces file line offset 0
      (.token .indent (t.takeWhile (· == ' ')) :: (scanBody (t.dropWhile (· == ' '))).1) ++ tokens)
      ((line, indentation t) :: rows) := by
  obtain ⟨raws, ls, rfl, hcont, hchain, rfl⟩ := h
  obtain ⟨hraw, hblock, hhead⟩ := hcont.of_ite
  obtain ⟨l, hnumber, hdepth, halone, htokens⟩ :=
    exists_markupLine file line offset hblank hraw hblock
  refine ⟨[], l :: ls, ?_, ?_, List.isChain_cons.2 ⟨?_, hchain⟩, ?_⟩
  · rw [List.nil_append, List.flatMap_cons, htokens, List.append_assoc]
  · -- the block that was open before the line has ended with it
    cases block with
    | none => rfl
    | some d =>
      refine ⟨.nil, ?_⟩
      rintro l' ⟨⟩
      rw [hdepth]
      simpa using hany
  · intro next hnext
    refine ⟨?_, ?_⟩
    · rw [hnumber]
      exact hbelow _ (List.mem_map_of_mem (List.mem_of_mem_head? hnext))
    · intro h
      rw [hdepth]
      exact hhead (halone ▸ h) next hnext
  · rw [List.map_cons, hnumber, hdepth]

/-- The tokens of the lines from number `line` on are a sheet, unless the first one is a doctype
line. -/
theorem lexLines_sheet (file : Text) {line : Nat} (offset : Nat) (block : Option Nat)
    {ts : List Text}
    (hfirst : line = 0 → ∀ t ∈ ts.head?, Text.cut? ['!', '!', '!'] t = none) :
    IsSheet block (lexLines file line offset block ts) (markupRows line block ts) := by
  induction ts generalizing line offset block with
  | nil => exact .nil block
  | cons t ts ih =>
    have hfirst' : (line == 0) = true → Text.cut? ['!', '!', '!'] t = none := by
      intro h
      exact hfirst (by simpa using h) t (by simp)
    have hrest := ih (offset + t.length + 1) (scanLine false block t).2
      (show line + 1 = 0 → _ by simp)
    rw [lexLines, scanLine_of_not_doctype hfirst', markupRows]
    dsimp only
    by_cases hblank : t.isBlank = true
    · rw [scanLine_of_blank hblank] at hrest ⊢
      rw [hblank, Bool.true_or, if_pos rfl]
      exact hrest
    rw [Bool.not_eq_true] at hblank
    by_cases hany : block.any (· < indentation t) = true
    · rw [scanLine_of_raw hblank hany] at hrest ⊢
      rw [hany, Bool.or_true, if_pos rfl]
      exact hrest.raw file line offset hany
    · rw [Bool.not_eq_true] at hany
      rw [hblank, hany, Bool.or_self, if_neg Bool.false_ne_true]
      have hbelow : ∀ r ∈ markupRows (line + 1) (scanLine false block t).2 ts, line < r.1 :=
        fun r hr => le_of_mem_markupRows hr
      rw [scanLine_of_markup hblank hany] at hrest hbelow ⊢
      exact hrest.markup file line offset hblank hany hbelow

end Offside
