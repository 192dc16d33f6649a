import Offside.Proofs.SourceReading

/-!
# The pieces of a line cover it

Cutting a line into pieces tries a good deal that it has to undo: a header without a value, an
attribute without an equals sign, a quoted string without its end, a brace that nothing closes, a
filter mark with something else behind it. Whatever was tried, the pieces that come out are the
characters of the line, one after the other, and what belongs to no token is blank (`Covers`).

Hence nothing of a source is lost or doubled. Up to White_Space, which tokens of code leave out at
their ends and which separates the others, the tokens of a line are the line
(`ink_tokens_of_line`).
-/

namespace Offside

/-- The pieces are the characters of a text up to `rest`, one after the other, and those that
belong to no token are blank. -/
inductive Covers : List Piece → Text → Text → Prop
  | nil (t : Text) : Covers [] t t
  | token {ps : List Piece} {t rest : Text} (kind : TokenKind) (raw : Text) :
      Covers ps t rest → Covers (.token kind raw :: ps) (raw ++ t) rest
  | skip {ps : List Piece} {t rest : Text} (raw : Text) :
      raw.isBlank = true → Covers ps t rest → Covers (.skip raw :: ps) (raw ++ t) rest

theorem Covers.append {ps qs : List Piece} {t u v : Text} (hp : Covers ps t u)
    (hq : Covers qs u v) : Covers (ps ++ qs) t v := by
  induction hp with
  | nil t => exact hq
  | token kind raw _ ih => exact .token kind raw (ih hq)
  | skip raw hraw _ ih => exact .skip raw hraw (ih hq)

/-- A token that is all that is left of a line. -/
theorem Covers.last (kind : TokenKind) (t : Text) : Covers [.token kind t] t [] := by
  have h : Covers [.token kind t] (t ++ []) [] := .token kind t (.nil [])
  rwa [List.append_nil] at h

/-! ## Blanks -/

theorem isSpace_of_isGap {c : Char} (h : isGap c = true) : isSpace c = true := by
  simp only [isGap, Bool.or_eq_true, beq_iff_eq] at h
  rcases h with rfl | rfl <;> rfl

theorem isSpace_of_beq_space {c : Char} (h : (c == ' ') = true) : isSpace c = true := by
  rw [eq_of_beq h]
  rfl

/-- Blanks of any sort that are passed over leave the rest to be covered. -/
theorem Covers.blanks {p : Char → Bool} {ps : List Piece} {t gap u rest : Text}
    (hp : ∀ c, p c = true → isSpace c = true) (hs : Text.splitWhile p t = (gap, u))
    (h : Covers ps u rest) : Covers (.skip gap :: ps) t rest := by
  have hblank : gap.isBlank = true := by
    refine List.all_eq_true.2 ?_
    intro c hc
    exact hp c (all_of_splitWhile hs c hc)
  rw [← Text.splitWhile_append hs]
  exact .skip gap hblank h

theorem Covers.gap {ps : List Piece} {t gap u rest : Text}
    (hs : Text.splitWhile isGap t = (gap, u)) (h : Covers ps u rest) :
    Covers (.skip gap :: ps) t rest :=
  h.blanks (fun _ => isSpace_of_isGap) hs

/-! ## Values, headers and attributes -/

theorem scanValue_covers {stop : Char → Bool} {quotes : Bool} {t rest : Text} {p : Piece}
    (h : scanValue stop quotes t = some (p, rest)) : Covers [p] t rest := by
  obtain ⟨-, hraw⟩ := scanValue_eq_some h
  obtain ⟨kind, raw, rfl, -⟩ := scanValue_token h
  rw [← hraw]
  exact .token kind raw (.nil rest)

theorem scanMarks_covers {t rest : Text} {ps : List Piece} (h : scanMarks t = some (ps, rest)) :
    Covers ps t rest := by
  fun_induction scanMarks t generalizing ps rest with
  | case1 =>
    cases h
    exact .nil []
  | case2 c t hc =>
    cases h
    exact .nil (c :: t)
  | case3 => cases h
  | case4 c t kind hk v rest' hv ih =>
    obtain ⟨⟨qs, rest''⟩, hq, he⟩ := Option.map_eq_some_iff.1 h
    cases he
    exact .token kind [c] ((scanValue_covers hv).append (ih hq))

theorem scanHeader_covers {t rest : Text} {ps : List Piece} (h : scanHeader t = some (ps, rest)) :
    Covers ps t rest := by
  unfold scanHeader at h
  split at h
  · split at h
    · cases h
    · rename_i v rest' hv
      obtain ⟨⟨qs, rest''⟩, hq, he⟩ := Option.map_eq_some_iff.1 h
      cases he
      exact .token .tagMark ['%'] ((scanValue_covers hv).append (scanMarks_covers hq))
  · split at h
    · cases h
    · exact scanMarks_covers h

theorem scanAttribute_covers {t rest : Text} {ps : List Piece}
    (h : scanAttribute t = some (ps, rest)) : Covers ps t rest := by
  unfold scanAttribute at h
  split at h
  · cases h
  · rename_i gap u _ hs
    split at h
    · rename_i name v hn
      obtain ⟨⟨value, rest'⟩, hv, he⟩ := Option.map_eq_some_iff.1 h
      cases he
      have hvalue : Covers [.token .equals ['='], value] ('=' :: v) rest :=
        .token .equals ['='] (scanValue_covers hv)
      exact .gap hs ((scanValue_covers hn).append hvalue)
    · cases h

/-- Attributes cover what was read as attributes; an attempt that failed has read nothing. -/
theorem scanAttributes_covers (t : Text) : Covers (scanAttributes t).1 t (scanAttributes t).2 := by
  fun_induction scanAttributes t with
  | case1 t h => exact .nil t
  | case2 t ps rest h qs rest' hq ih =>
    rw [hq] at ih
    exact (scanAttribute_covers h).append ih

/-! ## Filters and output -/

theorem scanFilter_covers {t : Text} {ps : List Piece} {content : Bool}
    (h : scanFilter t = some (ps, content)) : Covers ps t [] := by
  unfold scanFilter at h
  split at h
  · rename_i u
    -- behind the name there is nothing, one space, or a space and text
    split at h
    · cases h
    · rename_i name _ hs
      cases h
      rw [← Text.splitWhile_append hs]
      exact .token .filterMark (':' :: name) (.nil [])
    · rename_i name _ hs
      cases h
      rw [← Text.splitWhile_append hs]
      exact .token .filterMark (':' :: name) (.skip [' '] rfl (.nil []))
    · rename_i name text _ _ hs
      cases h
      rw [← Text.splitWhile_append hs]
      exact .token .filterMark (':' :: name) (.skip [' '] rfl (.last .text text))
    · cases h
  · cases h

theorem scanTrailingFilter_covers {t : Text} {ps : List Piece}
    (h : scanTrailingFilter t = some ps) : Covers ps t [] := by
  unfold scanTrailingFilter at h
  split at h
  · cases h
  · rename_i gap u _ hs
    obtain ⟨⟨qs, content⟩, hq, he⟩ := Option.map_eq_some_iff.1 h
    cases he
    exact .gap hs (scanFilter_covers hq)

theorem splitLastArrow_eq_some {t before after : Text}
    (h : splitLastArrow t = some (before, after)) : t = before ++ '-' :: '>' :: after := by
  fun_induction splitLastArrow t generalizing before after with
  | case1 => cases h
  | case2 c t before' after' hlast ih =>
    cases h
    rw [ih hlast]
    rfl
  | case3 =>
    cases h
    rfl
  | case4 => cases h

theorem scanCodeBody_covers (t : Text) : Covers (scanCodeBody t) t [] := by
  unfold scanCodeBody
  split
  · rename_i before after hlast
    split
    · have hnames : Covers [.skip (after.takeWhile (· == ' ')),
          .token .vars (after.dropWhile (· == ' '))] after [] :=
        (Covers.last .vars _).blanks (fun _ => isSpace_of_beq_space) rfl
      rw [splitLastArrow_eq_some hlast]
      exact .token .code before (.token .arrow ['-', '>'] hnames)
    · exact .last .code t
  · exact .last .code t

theorem scanCode_covers (kind : TokenKind) (mark t : Text) :
    Covers (scanCode kind mark t) (mark ++ t) [] := by
  unfold scanCode
  split
  · exact .last .text (mark ++ t)
  · exact .token kind mark (.gap rfl (scanCodeBody_covers _))

theorem scanOutput_covers (t : Text) : Covers (scanOutput t) t [] := by
  unfold scanOutput
  split
  · exact .nil []
  · exact scanCode_covers ..
  · exact scanCode_covers ..
  · exact scanCode_covers ..
  · exact .token .commentMark ['/'] (.skip [' '] rfl (.last .comment _))
  · exact .token .commentMark ['/'] (.last .comment _)
  · exact .last .text _

/-! ## Whole lines -/

theorem flatMap_runs (p : Char → Bool) (t : Text) : (Text.runs p t).flatMap (·.2) = t := by
  induction t with
  | nil => rfl
  | cons c t ih =>
    rw [Text.runs]
    split
    · rename_i hr
      rw [hr] at ih
      rw [← ih]
      rfl
    · rename_i b r rest hr
      rw [hr] at ih
      split <;> rw [← ih] <;> rfl

theorem eq_of_mem_runs {p : Char → Bool} {t run : Text} {b : Bool} (h : (b, run) ∈ Text.runs p t) :
    ∀ c ∈ run, p c = b := by
  induction t generalizing b run with
  | nil => cases h
  | cons c t ih =>
    rw [Text.runs] at h
    split at h
    · cases List.mem_singleton.1 h
      simp
    · rename_i b' r rest hr
      rw [hr] at ih
      have hfirst := ih (List.mem_cons_self ..)
      split at h
      · rename_i hc
        rcases List.mem_cons.1 h with he | h
        · cases he
          exact List.forall_mem_cons.2 ⟨hc, hfirst⟩
        · exact ih (List.mem_cons_of_mem _ h)
      · rcases List.mem_cons.1 h with he | h
        · cases he
          simp
        · exact ih h

theorem scanDoctype_covers (t : Text) : Covers (scanDoctype t) ('!' :: '!' :: '!' :: t) [] := by
  have hruns : ∀ rs : List (Bool × Text), (∀ r ∈ rs, r.1 = true → r.2.isBlank = true) →
      Covers (rs.map fun r => if r.1 then .skip r.2 else .token .doctypeWord r.2)
        (rs.flatMap (·.2)) [] := by
    intro rs
    induction rs with
    | nil => exact fun _ => .nil []
    | cons r rs ih =>
      intro hrs
      obtain ⟨hr, hrest⟩ := List.forall_mem_cons.1 hrs
      obtain ⟨blank, run⟩ := r
      cases blank with
      | true => exact .skip run (hr rfl) (ih hrest)
      | false => exact .token .doctypeWord run (ih hrest)
  have hwords := hruns (Text.runs isGap t) (by
    rintro ⟨blank, run⟩ hr rfl
    exact List.all_eq_true.2 fun c hc => isSpace_of_isGap (eq_of_mem_runs hr c hc))
  rw [flatMap_runs] at hwords
  exact .token .doctypeMark ['!', '!', '!'] hwords

theorem scanBody_covers (t : Text) : Covers (scanBody t).1 t [] := by
  unfold scanBody
  split
  · exact scanFilter_covers ‹_›
  · split
    · exact scanOutput_covers t
    · rename_i header rest hh
      have hattributes := (scanHeader_covers hh).append (scanAttributes_covers rest)
      dsimp only
      split
      · exact hattributes.append (scanTrailingFilter_covers ‹_›)
      · exact hattributes.append (.gap rfl (scanOutput_covers _))

/-- The pieces of a line are the line, whatever block it may belong to. -/
theorem scanLine_covers (first : Bool) (block : Option Nat) (t : Text) :
    Covers (scanLine first block t).1 t [] := by
  have hsplit := List.takeWhile_append_dropWhile (p := (· == ' ')) (l := t)
  cases hblank : t.isBlank with
  | true =>
    rw [scanLine_of_blank hblank]
    have := Covers.skip t hblank (.nil [])
    rwa [List.append_nil] at this
  | false =>
    cases hany : block.any (· < indentation t) with
    | true =>
      rw [scanLine_of_raw hblank hany]
      have := Covers.token .indent (t.takeWhile (· == ' ')) (.last .text (t.dropWhile (· == ' ')))
      rwa [hsplit] at this
    | false =>
      have hmarkup : Covers (scanLine false block t).1 t [] := by
        rw [scanLine_of_markup hblank hany]
        have := Covers.token .indent (t.takeWhile (· == ' '))
          (scanBody_covers (t.dropWhile (· == ' ')))
        rwa [hsplit] at this
      cases hcut : Text.cut? ['!', '!', '!'] t with
      | none => rwa [scanLine_of_not_doctype fun _ => hcut]
      | some rest =>
        cases first with
        | false => exact hmarkup
        | true =>
          rw [scanLine_of_doctype hblank hany hcut, cut?_eq_some_iff.1 hcut]
          exact scanDoctype_covers rest

/-! ## Ink -/

/-- The characters of a text that are not White_Space. -/
def Text.ink (t : Text) : Text := t.filter (!isSpace ·)

@[simp] theorem ink_append (s t : Text) : Text.ink (s ++ t) = Text.ink s ++ Text.ink t :=
  List.filter_append ..

theorem ink_eq_nil_of_isBlank {t : Text} (h : t.isBlank = true) : t.ink = [] := by
  refine List.filter_eq_nil_iff.2 ?_
  intro c hc
  rw [List.all_eq_true.1 h c hc]
  simp

theorem ink_dropWhile_isSpace (t : Text) : Text.ink (t.dropWhile isSpace) = t.ink := by
  have hsplit := List.takeWhile_append_dropWhile (p := isSpace) (l := t)
  have hblank : Text.isBlank (t.takeWhile isSpace) = true :=
    List.all_eq_true.2 fun c hc => List.mem_takeWhile_imp hc
  calc Text.ink (t.dropWhile isSpace)
      = Text.ink (t.takeWhile isSpace) ++ Text.ink (t.dropWhile isSpace) := by
        rw [ink_eq_nil_of_isBlank hblank, List.nil_append]
    _ = Text.ink t := by rw [← ink_append, hsplit]

theorem ink_reverse (t : Text) : Text.ink t.reverse = (Text.ink t).reverse :=
  List.filter_reverse ..

/-- Trimming takes away White_Space only. -/
theorem ink_trim (t : Text) : t.trim.ink = t.ink := by
  rw [Text.trim, Text.trimRight, ink_reverse, ink_dropWhile_isSpace, ink_reverse,
    List.reverse_reverse, Text.trimLeft, ink_dropWhile_isSpace]

theorem ink_contents (kind : TokenKind) (raw : Text) :
    (Piece.contents kind raw).ink = raw.ink := by
  unfold Piece.contents
  split
  · exact ink_trim raw
  · exact ink_trim raw
  · rfl

theorem ink_placePieces {ps : List Piece} {t : Text} (h : Covers ps t [])
    (file : Text) (line offset column : Nat) :
    Text.ink ((placePieces file line offset column ps).flatMap (·.contents)) = t.ink := by
  generalize hrest : ([] : Text) = rest at h
  induction h generalizing column with
  | nil t =>
    rw [← hrest]
    rfl
  | token kind raw _ ih =>
    rw [placePieces, List.flatMap_cons, ink_append, ih (column + raw.length) hrest, ink_append,
      ink_contents]
  | skip raw hraw _ ih =>
    rw [placePieces, ih _ hrest, ink_append, ink_eq_nil_of_isBlank hraw, List.nil_append]

theorem lexLines_cons (file : Text) (line offset : Nat) (block : Option Nat) (t : Text)
    (ts : List Text) :
    lexLines file line offset block (t :: ts) =
      placePieces file line offset 0 (scanLine (line == 0) block t).1 ++
        lexLines file (line + 1) (offset + t.length + 1) (scanLine (line == 0) block t).2 ts :=
  rfl

/-- The tokens of the first line are those of its pieces. -/
theorem filter_lexLines_first (file : Text) (n offset : Nat) (block : Option Nat) (t : Text)
    (ts : List Text) :
    (lexLines file n offset block (t :: ts)).filter (·.start.line == n) =
      placePieces file n offset 0 (scanLine (n == 0) block t).1 := by
  rw [lexLines_cons, List.filter_append, List.filter_eq_self.2, List.filter_eq_nil_iff.2,
    List.append_nil]
  · intro u hu
    have := le_line_of_mem_lexLines hu
    simp only [beq_iff_eq]
    omega
  · intro u hu
    simp [(mem_placePieces hu).1]

/-- The tokens of a line below the first one are among those of the rest. -/
theorem filter_lexLines_below (file : Text) (n offset : Nat) (block : Option Nat) (t : Text)
    (ts : List Text) (k : Nat) :
    (lexLines file n offset block (t :: ts)).filter (·.start.line == n + (k + 1)) =
      (lexLines file (n + 1) (offset + t.length + 1) (scanLine (n == 0) block t).2 ts).filter
        (·.start.line == n + 1 + k) := by
  rw [lexLines_cons, List.filter_append, List.filter_eq_nil_iff.2, List.nil_append,
    show n + (k + 1) = n + 1 + k by omega]
  intro u hu
  simp [(mem_placePieces hu).1]

/-- The tokens of line `n + k` among those of the lines from number `n` on are the ink of the
`k`-th of these. -/
theorem ink_lexLines (file : Text) (n offset : Nat) (block : Option Nat) (ts : List Text)
    (k : Nat) :
    Text.ink (((lexLines file n offset block ts).filter (·.start.line == n + k)).flatMap
      (·.contents)) = Text.ink (ts.getD k []) := by
  induction ts generalizing n offset block k with
  | nil => rfl
  | cons t ts ih =>
    cases k with
    | zero =>
      rw [Nat.add_zero, filter_lexLines_first, ink_placePieces (scanLine_covers (n == 0) block t),
        List.getD_cons_zero]
    | succ k => rw [filter_lexLines_below, ih, List.getD_cons_succ]

/-- Nothing of a source is lost. The contents of the tokens of a line, one after the other and
without White_Space, are the characters of that line without White_Space. -/
theorem ink_tokens_of_line (file source : Text) (k : Nat) :
    Text.ink (((lex file source).filter (·.start.line == k)).flatMap (·.contents)) =
      Text.ink ((splitLines (normalise source)).getD k []) := by
  have h := ink_lexLines file 0 0 none (splitLines (normalise source)) k
  rwa [Nat.zero_add] at h

end Offside
