import Offside.Proofs.Coverage
import Offside.Proofs.PrettyOutput

/-!
# Sources that are given line by line

A source that is put together from lines without line breaks falls into the same lines again
(`splitLines_join`). If the first line is not blank and no doctype line, its tokens are those of its
body, behind its indentation, and the tokens of the other lines follow (`lex_indented`).
-/

namespace Offside

/-! ## The lines of a source -/

theorem Text.not_mem_join {c : Char} {sep : Text} {ts : List Text} (hsep : c ∉ sep)
    (h : ∀ t ∈ ts, c ∉ t) : c ∉ Text.join sep ts := by
  induction ts with
  | nil => exact List.not_mem_nil
  | cons t ts ih =>
    obtain ⟨ht, hts⟩ := List.forall_mem_cons.1 h
    by_cases hmore : ts = []
    · rw [hmore]
      exact ht
    · rw [Text.join_cons hmore, List.mem_append, List.mem_append]
      rintro ((hc | hc) | hc)
      · exact ht hc
      · exact hsep hc
      · exact ih hts hc

/-- Up to the first CR nothing changes. -/
theorem unifyBreaks_append {s : Text} (h : '\r' ∉ s) (t : Text) :
    unifyBreaks (s ++ t) = s ++ unifyBreaks t := by
  induction s with
  | nil => rfl
  | cons c s ih =>
    rw [List.mem_cons, not_or] at h
    obtain ⟨hc, hs⟩ := h
    rw [List.cons_append, unifyBreaks, ih hs, List.cons_append]
    · rintro u rfl
      exact absurd rfl hc
    · rintro rfl
      exact absurd rfl hc

theorem unifyBreaks_of_not_mem {t : Text} (h : '\r' ∉ t) : unifyBreaks t = t := by
  simpa [unifyBreaks] using unifyBreaks_append h []

theorem dropByteOrderMark_cons {c : Char} (hc : c ≠ '\ufeff') (t : Text) :
    dropByteOrderMark (c :: t) = c :: t := by
  rw [dropByteOrderMark]
  rintro u he
  exact hc (List.cons.inj he).1

/-- The lines of a source are found again, if there is no line break in them and no byte order mark
before them. -/
theorem splitLines_join {c : Char} {t : Text} {lines : List Text} (hc : c ≠ '\ufeff')
    (hbreaks : ∀ l ∈ (c :: t) :: lines, '\n' ∉ l ∧ '\r' ∉ l) :
    splitLines (normalise (Text.join ['\n'] ((c :: t) :: lines))) = (c :: t) :: lines := by
  have hmark : dropByteOrderMark (Text.join ['\n'] ((c :: t) :: lines)) =
      Text.join ['\n'] ((c :: t) :: lines) := by
    cases lines <;> exact dropByteOrderMark_cons hc _
  have hreturn : '\r' ∉ Text.join ['\n'] ((c :: t) :: lines) :=
    Text.not_mem_join (by decide) fun l hl => (hbreaks l hl).2
  rw [normalise, hmark, unifyBreaks_of_not_mem hreturn, splitLines,
    Text.splitAt_join (List.cons_ne_nil _ _) fun l hl => (hbreaks l hl).1]

/-! ## Lines below the first one -/

/-- Below the first line, every line starts with its indentation. -/
theorem lineEnd_lexLines (file : Text) {line : Nat} (offset : Nat) (block : Option Nat)
    (ts : List Text) (hline : line ≠ 0) : LineEnd (lexLines file line offset block ts) := by
  induction ts generalizing line offset block with
  | nil => exact .inl rfl
  | cons t ts ih =>
    have hfirst : (line == 0) = false := by simpa using hline
    rw [lexLines_cons, hfirst]
    cases hblank : t.isBlank with
    | true =>
      rw [scanLine_of_blank hblank]
      exact ih _ _ (Nat.succ_ne_zero line)
    | false =>
      cases hany : block.any (· < indentation t) with
      | true =>
        rw [scanLine_of_raw hblank hany]
        exact .inr ⟨_, _, rfl, rfl⟩
      | false =>
        rw [scanLine_of_markup hblank hany]
        exact .inr ⟨_, _, rfl, rfl⟩

theorem placePieces_append (file : Text) (line offset column : Nat) (ps qs : List Piece) :
    placePieces file line offset column (ps ++ qs) =
      placePieces file line offset column ps ++
        placePieces file line offset (column + (ps.flatMap Piece.raw).length) qs := by
  induction ps generalizing column with
  | nil => rfl
  | cons p ps ih =>
    cases p <;> simp [placePieces, Piece.raw, ih, Nat.add_assoc]

/-- The next line that is not blank, if there is one, is not deeper than `d`. -/
def NextShallow (d : Nat) (lines : List Text) : Prop :=
  ∀ l ∈ lines.find? (!·.isBlank), indentation l ≤ d

/-- Lines below a line at depth `d` that belong to it: one of them at least is not blank, and each
that is not blank is deeper. -/
structure DeeperBlock (d : Nat) (lines : List Text) : Prop where
  deeper : ∀ l ∈ lines, l.isBlank = true ∨ d < indentation l
  inhabited : ∃ l ∈ lines, l.isBlank = false

section Below

variable {file : Text} {d line offset : Nat} {block : Option Nat} {l : Text}
  {lines inner after : List Text}

/-- Of a line that is not blank the first token is its indentation, and there is no other. -/
theorem placePieces_of_not_blank (hl : l.isBlank = false) :
    ∃ ts, placePieces file line offset 0 (scanLine false block l).1 =
        ⟨.indent, { file, line, column := 0, offset }, l.takeWhile (· == ' ')⟩ :: ts ∧
      ∀ t ∈ ts, t.kind ≠ .indent := by
  obtain ⟨ps, hps⟩ : ∃ ps,
      (scanLine false block l).1 = .token .indent (l.takeWhile (· == ' ')) :: ps := by
    cases hany : block.any (· < indentation l) with
    | true => exact ⟨_, by rw [scanLine_of_raw hl hany]⟩
    | false => exact ⟨_, by rw [scanLine_of_markup hl hany]⟩
  have hkinds := (scanLine_pieces false block l).2
  rw [hps] at hkinds ⊢
  refine ⟨_, rfl, ?_⟩
  intro t ht hk
  refine hkinds ?_
  rw [kindsOf_token, List.tail_cons, ← map_kind_placePieces file line offset, ← hk]
  exact List.mem_map_of_mem ht

/-- Every indentation is that of a line that is not blank. -/
theorem exists_line_of_indent {t : Token} (hline : line ≠ 0)
    (h : t ∈ lexLines file line offset block lines) (ht : t.kind = .indent) :
    ∃ l ∈ lines, l.isBlank = false ∧ t.depth = indentation l := by
  induction lines generalizing line offset block with
  | nil => cases h
  | cons l ls ih =>
    have hfirst : (line == 0) = false := by simpa using hline
    rw [lexLines_cons, hfirst, List.mem_append] at h
    rcases h with h | h
    · cases hl : l.isBlank with
      | true =>
        rw [scanLine_of_blank hl] at h
        cases h
      | false =>
        obtain ⟨ts, hts, hrest⟩ := @placePieces_of_not_blank file line offset block l hl
        rw [hts] at h
        rcases List.mem_cons.1 h with rfl | h
        · exact ⟨l, List.mem_cons_self .., hl, byteLength_takeWhile_spaces l⟩
        · exact absurd ht (hrest t h)
    · obtain ⟨k, hk, hblank, hd⟩ := ih (Nat.succ_ne_zero line) h
      exact ⟨k, List.mem_cons_of_mem l hk, hblank, hd⟩

/-- A block of lines has tokens, the first of which is an indentation that is deeper. -/
theorem DeeperBlock.exists_cons (h : DeeperBlock d lines) (hline : line ≠ 0) :
    ∃ t ts, lexLines file line offset block lines = t :: ts ∧ t.kind = .indent ∧
      d < t.depth := by
  have hne : lexLines file line offset block lines ≠ [] := by
    obtain ⟨l, hl, hblank⟩ := h.inhabited
    clear h
    induction lines generalizing line offset block with
    | nil => cases hl
    | cons k ls ih =>
      have hfirst : (line == 0) = false := by simpa using hline
      rw [lexLines_cons, hfirst]
      rcases List.mem_cons.1 hl with rfl | hl
      · obtain ⟨ts, hts, -⟩ := @placePieces_of_not_blank file line offset block l hblank
        simp [hts]
      · exact List.append_ne_nil_of_right_ne_nil _ (ih (Nat.succ_ne_zero line) hl)
  rcases lineEnd_lexLines file offset block lines hline with he | ⟨t, ts, he, ht⟩
  · exact absurd he hne
  · obtain ⟨l, hl, hblank, hd⟩ := exists_line_of_indent hline (by rw [he]; simp) ht
    refine ⟨t, ts, he, ht, ?_⟩
    rcases h.deeper l hl with hb | hlt
    · rw [hblank] at hb
      cases hb
    · rwa [hd]

/-- A raw block that the next line does not belong to makes no difference. -/
theorem lexLines_of_nextShallow (hline : line ≠ 0) (h : NextShallow d lines)
    (hblock : ∀ k ∈ block, d ≤ k) :
    lexLines file line offset block lines = lexLines file line offset none lines := by
  induction lines generalizing line offset with
  | nil => rfl
  | cons l ls ih =>
    have hfirst : (line == 0) = false := by simpa using hline
    rw [lexLines_cons, lexLines_cons, hfirst]
    cases hl : l.isBlank with
    | true =>
      rw [scanLine_of_blank hl, scanLine_of_blank hl]
      exact congrArg _ (ih (Nat.succ_ne_zero line) fun k hk => h k (by simpa [hl] using hk))
    | false =>
      have hle : indentation l ≤ d := h l (by simp [hl])
      have hany : block.any (· < indentation l) = false := by
        cases block with
        | none => rfl
        | some k =>
          have := hblock k rfl
          simp
          omega
      rw [scanLine_of_markup hl hany, scanLine_of_markup hl (Option.any_none ..)]

theorem notDeeper_lexLines (hline : line ≠ 0) (h : NextShallow d lines) :
    Layout.NotDeeper d (lexLines file line offset none lines) := by
  induction lines generalizing line offset with
  | nil => exact .inl rfl
  | cons l ls ih =>
    have hfirst : (line == 0) = false := by simpa using hline
    rw [lexLines_cons, hfirst]
    cases hl : l.isBlank with
    | true =>
      rw [scanLine_of_blank hl]
      exact ih (Nat.succ_ne_zero line) fun k hk => h k (by simpa [hl] using hk)
    | false =>
      obtain ⟨ts, hts, -⟩ := @placePieces_of_not_blank file line offset none l hl
      have hle : indentation l ≤ d := h l (by simp [hl])
      rw [hts]
      refine .inr ⟨_, _, rfl, rfl, ?_⟩
      rwa [Token.depth, byteLength_takeWhile_spaces]

/-- Lines that come after a block are read as if there were no block. -/
theorem lexLines_append (hline : line ≠ 0)
    (hinner : ∀ l ∈ inner, l.isBlank = true ∨ d < indentation l) (hafter : NextShallow d after)
    (hblock : ∀ k ∈ block, d ≤ k) :
    lexLines file line offset block (inner ++ after) =
      lexLines file line offset block inner ++
        lexLines file (line + inner.length) (offset + (inner.flatMap (· ++ ['\n'])).length) none
          after := by
  induction inner generalizing line offset block with
  | nil => exact lexLines_of_nextShallow hline hafter hblock
  | cons l ls ih =>
    obtain ⟨hl, hls⟩ := List.forall_mem_cons.1 hinner
    have hfirst : (line == 0) = false := by simpa using hline
    have hblock' : ∀ k ∈ (scanLine false block l).2, d ≤ k := by
      cases hblank : l.isBlank with
      | true => rwa [scanLine_of_blank hblank]
      | false =>
        cases hany : block.any (· < indentation l) with
        | true => rwa [scanLine_of_raw hblank hany]
        | false =>
          have hlt : d < indentation l := by simpa [hblank] using hl
          rw [scanLine_of_markup hblank hany]
          intro k hk
          split at hk <;> cases hk
          exact Nat.le_of_lt hlt
    rw [List.cons_append, lexLines_cons, lexLines_cons, hfirst, List.append_assoc,
      ih (Nat.succ_ne_zero line) hls hblock']
    simp [Nat.add_assoc, Nat.add_comm, Nat.add_left_comm]

end Below

/-! ## An indented line -/

/-- The line that is indented by `depth` and has `body` behind its indentation. -/
def indented (depth : Nat) (body : Text) : Text := List.replicate depth ' ' ++ body

theorem byteLength_replicate_space (depth : Nat) :
    Text.byteLength (List.replicate depth ' ') = depth := by
  rw [byteLength_of_spaces (by simp), List.length_replicate]

section Line

variable {c : Char} {t : Text}

theorem ne_space_of_isSpace_eq_false (hc : isSpace c = false) : c ≠ ' ' := by
  rintro rfl
  exact absurd hc (by decide)

theorem takeWhile_indented (hc : isSpace c = false) (depth : Nat) :
    (indented depth (c :: t)).takeWhile (· == ' ') = List.replicate depth ' ' := by
  have hne := ne_space_of_isSpace_eq_false hc
  rw [indented, List.takeWhile_append_of_pos (by simp),
    List.takeWhile_cons_of_neg (by simpa using hne), List.append_nil]

theorem dropWhile_indented (hc : isSpace c = false) (depth : Nat) :
    (indented depth (c :: t)).dropWhile (· == ' ') = c :: t := by
  have hne := ne_space_of_isSpace_eq_false hc
  rw [indented, List.dropWhile_append_of_pos (by simp),
    List.dropWhile_cons_of_neg (by simpa using hne)]

theorem isBlank_indented (hc : isSpace c = false) (depth : Nat) :
    (indented depth (c :: t)).isBlank = false := by
  rw [Text.isBlank, indented, List.all_append, List.all_cons, hc, Bool.false_and, Bool.and_false]

/-- The pieces of a line are its indentation and the pieces of its body. -/
theorem scanLine_indented (hc : isSpace c = false)
    (hdoctype : Text.cut? ['!', '!', '!'] (c :: t) = none) (first : Bool) (depth : Nat) :
    scanLine first none (indented depth (c :: t)) =
      (.token .indent (List.replicate depth ' ') :: (scanBody (c :: t)).1,
        if (scanBody (c :: t)).2 then some depth else none) := by
  have hcut : Text.cut? ['!', '!', '!'] (indented depth (c :: t)) = none := by
    cases depth with
    | zero => exact hdoctype
    | succ depth => rfl
  rw [scanLine_of_not_doctype fun _ => hcut, scanLine_of_markup (isBlank_indented hc depth) rfl,
    dropWhile_indented hc, indentation, takeWhile_indented hc, List.length_replicate]

theorem splitLines_indented {lines : List Text} (hmark : c ≠ '\ufeff')
    (hline : '\n' ∉ c :: t ∧ '\r' ∉ c :: t) (hlines : ∀ l ∈ lines, '\n' ∉ l ∧ '\r' ∉ l)
    (depth : Nat) :
    splitLines (normalise (Text.join ['\n'] (indented depth (c :: t) :: lines))) =
      indented depth (c :: t) :: lines := by
  have hbreaks : ∀ l ∈ indented depth (c :: t) :: lines, '\n' ∉ l ∧ '\r' ∉ l := by
    refine List.forall_mem_cons.2 ⟨?_, hlines⟩
    simpa [indented] using hline
  cases depth with
  | zero => exact splitLines_join hmark hbreaks
  | succ depth => exact splitLines_join (by decide) hbreaks

/-- The tokens of a source whose first line is neither blank nor a doctype line. -/
theorem lex_indented {lines : List Text} (hc : isSpace c = false) (hmark : c ≠ '\ufeff')
    (hdoctype : Text.cut? ['!', '!', '!'] (c :: t) = none)
    (hline : '\n' ∉ c :: t ∧ '\r' ∉ c :: t) (hlines : ∀ l ∈ lines, '\n' ∉ l ∧ '\r' ∉ l)
    (file : Text) (depth : Nat) :
    lex file (Text.join ['\n'] (indented depth (c :: t) :: lines)) =
      ⟨.indent, { file, line := 0, column := 0, offset := 0 }, List.replicate depth ' '⟩ ::
        (placePieces file 0 0 depth (scanBody (c :: t)).1 ++
          lexLines file 1 (depth + (c :: t).length + 1)
            (if (scanBody (c :: t)).2 then some depth else none) lines) := by
  rw [lex, splitLines_indented hmark hline hlines, lexLines_cons, show (0 == 0) = true from rfl,
    scanLine_indented hc hdoctype]
  simp [placePieces, Piece.contents, indented]

end Line
end Offside
