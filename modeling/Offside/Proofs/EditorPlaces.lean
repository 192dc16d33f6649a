import Offside.Proofs.Checking
import Offside.Proofs.PrettyOutput
import Offside.Proofs.SemanticTokens

/-!
# Tokens in the document of an editor

An editor names a place by its line and by the UTF-16 code units that stand before it on that line
of the document it holds. A token is counted in characters, and in the normalised text. The lines
are the same for both, and so are the columns, with two exceptions: a byte order mark, which
normalising drops, and the characters that take two code units.

What is sent to an editor are the places of the normalised text. So the ranges of tokens and the
starts of diagnostics are right where neither exception stands before them on the line, and only
there (`Session.places_in_document`); behind a wide character they are not
(`Session.places_missed_behind_wide_character`).
-/

namespace Offside

/-! ## Code units -/

namespace Text

/-- The number of UTF-16 code units of a text. -/
def units : Text → Nat
  | [] => 0
  | c :: t => units16 c + units t

@[simp] theorem units_nil : units [] = 0 := rfl

@[simp] theorem units_cons (c : Char) (t : Text) : units (c :: t) = units16 c + units t := rfl

@[simp] theorem units_append (s t : Text) : units (s ++ t) = units s + units t := by
  induction s with
  | nil => simp
  | cons c s ih => simp [ih, Nat.add_assoc]

theorem one_le_units16 (c : Char) : 1 ≤ units16 c := by
  unfold units16
  split <;> decide

theorem length_le_units (t : Text) : t.length ≤ t.units := by
  induction t with
  | nil => exact Nat.le_refl 0
  | cons c t ih =>
    have hc := one_le_units16 c
    rw [List.length_cons, units_cons]
    omega

/-- Characters and code units are counted alike just where no character takes two. -/
theorem units_eq_length_iff (t : Text) : t.units = t.length ↔ ∀ c ∈ t, units16 c = 1 := by
  induction t with
  | nil => simp
  | cons c t ih =>
    have hc := one_le_units16 c
    have hle := length_le_units t
    rw [List.forall_mem_cons, ← ih, units_cons, List.length_cons]
    omega

end Text

namespace Editor

/-- What stands on a line behind the given number of code units. No place is between the two units
of a character, or behind the end of the line. -/
def dropUnits? : (units : Nat) → Text → Option Text
  | 0, t => some t
  | _ + 1, [] => none
  | units + 1, c :: t =>
    if Text.units16 c ≤ units + 1 then dropUnits? (units + 1 - Text.units16 c) t else none

/-- The characters that make up the given number of code units at the start of a text. -/
def takeUnits? : (units : Nat) → Text → Option Text
  | 0, _ => some []
  | _ + 1, [] => none
  | units + 1, c :: t =>
    if Text.units16 c ≤ units + 1 then
      (takeUnits? (units + 1 - Text.units16 c) t).map (c :: ·)
    else none

theorem dropUnits?_cons (c : Char) (n : Nat) (t : Text) :
    dropUnits? (Text.units16 c + n) (c :: t) = dropUnits? n t := by
  have hc := Text.one_le_units16 c
  obtain ⟨m, hm⟩ : ∃ m, Text.units16 c + n = m + 1 := ⟨Text.units16 c + n - 1, by omega⟩
  have hrest : m + 1 - Text.units16 c = n := by omega
  rw [hm, dropUnits?, if_pos (by omega), hrest]

theorem takeUnits?_cons (c : Char) (n : Nat) (t : Text) :
    takeUnits? (Text.units16 c + n) (c :: t) = (takeUnits? n t).map (c :: ·) := by
  have hc := Text.one_le_units16 c
  obtain ⟨m, hm⟩ : ∃ m, Text.units16 c + n = m + 1 := ⟨Text.units16 c + n - 1, by omega⟩
  have hrest : m + 1 - Text.units16 c = n := by omega
  rw [hm, takeUnits?, if_pos (by omega), hrest]

theorem dropUnits?_append (s t : Text) : dropUnits? s.units (s ++ t) = some t := by
  induction s with
  | nil => cases t <;> rfl
  | cons c s ih => rw [Text.units_cons, List.cons_append, dropUnits?_cons, ih]

theorem takeUnits?_append (s t : Text) : takeUnits? s.units (s ++ t) = some s := by
  induction s with
  | nil => cases t <;> rfl
  | cons c s ih => rw [Text.units_cons, List.cons_append, takeUnits?_cons, ih, Option.map_some]

/-! ## The document of the editor -/

/-- The lines of a document as an editor has them: each kind of line break ends a line, and a byte
order mark is a character as any other. -/
def documentLines (document : Text) : List Text := splitLines (unifyBreaks document)

/-- What a range selects in a document. -/
def selected? (document : Text) (r : TokenRange) : Option Text :=
  (documentLines document)[r.line]?.bind fun l =>
    (dropUnits? r.start l).bind (takeUnits? r.length)

/-- The byte order mark of a document, if it has one. -/
def byteOrderMark (document : Text) : Text :=
  if document.head? = some '\ufeff' then ['\ufeff'] else []

/-- What the editor has on a line before the text that is normalised. -/
def margin (document : Text) (line : Nat) : Text :=
  if line = 0 then byteOrderMark document else []

/-- The editor's lines are those of the normalised text, behind what normalising drops. -/
theorem getElem?_documentLines (document : Text) (k : Nat) :
    (documentLines document)[k]? =
      (splitLines (normalise document))[k]?.map (margin document k ++ ·) := by
  unfold normalise dropByteOrderMark
  split
  · -- the mark is no line break, so that it stays at the start of the first line
    rename_i t
    have hbreaks : unifyBreaks ('\ufeff' :: t) = '\ufeff' :: unifyBreaks t := by
      rw [unifyBreaks] <;> simp
    rw [documentLines, hbreaks, splitLines, Text.splitAt_cons_of_ne (by decide), ← splitLines]
    cases k with
    | zero => cases splitLines (unifyBreaks t) <;> rfl
    | succ k => cases splitLines (unifyBreaks t) <;> simp [margin]
  · rename_i hmark
    have hnone : byteOrderMark document = [] := by
      cases document with
      | nil => rfl
      | cons c t =>
        refine if_neg ?_
        rw [List.head?_cons, Option.some.injEq]
        rintro rfl
        exact hmark t rfl
    simp [documentLines, margin, hnone]

/-- A line of the normalised text. -/
def lineOf (document : Text) (k : Nat) : Text := (splitLines (normalise document)).getD k []

theorem lineOf_eq {document l : Text} {k : Nat}
    (h : (splitLines (normalise document))[k]? = some l) : lineOf document k = l := by
  rw [lineOf, List.getD_eq_getElem?_getD, h, Option.getD_some]

/-- Where a place of the normalised text is in the document of the editor. -/
def Position.inDocument (document : Text) (l : Location) : Position where
  line := l.line
  character := (margin document l.line ++ (lineOf document l.line).take l.column).units

/-- The range that a token has in the document of the editor. -/
def TokenRange.inDocument (document : Text) (t : Token) (type : Nat) : TokenRange where
  line := t.start.line
  start := (Position.inDocument document t.start).character
  length := t.contents.units
  type := type

/-- Up to a column of a line, characters of the normalised text are code units of the document: no
byte order mark stands there, and no character takes two code units. -/
def PlainTo (document : Text) (line column : Nat) : Prop :=
  margin document line = [] ∧ ∀ c ∈ (lineOf document line).take column, Text.units16 c = 1

instance (document : Text) (line column : Nat) : Decidable (PlainTo document line column) :=
  decidable_of_decidable_of_iff (p := margin document line = [] ∧
    ((lineOf document line).take column).all (Text.units16 · == 1)) (by simp [PlainTo])

/-- A place is the same for the editor just where the line is plain up to it. -/
theorem inDocument_eq_iff {document line : Text} {l : Location}
    (hline : (splitLines (normalise document))[l.line]? = some line)
    (hcolumn : l.column ≤ line.length) :
    Position.ofLocation l = Position.inDocument document l ↔
      PlainTo document l.line l.column := by
  have hlength : (line.take l.column).length = l.column := by
    rw [List.length_take]
    omega
  -- each of the two parts has at least as many code units as characters
  have hle := Text.length_le_units (margin document l.line)
  have hle' := Text.length_le_units (line.take l.column)
  rw [Position.ofLocation, Position.inDocument, Position.mk.injEq, PlainTo, lineOf_eq hline,
    Text.units_append]
  constructor
  · rintro ⟨-, hunits⟩
    exact ⟨List.eq_nil_iff_length_eq_zero.2 (by omega),
      (Text.units_eq_length_iff _).1 (by omega)⟩
  · rintro ⟨hmargin, hnarrow⟩
    rw [hmargin, (Text.units_eq_length_iff _).2 hnarrow, hlength]
    exact ⟨rfl, (Nat.zero_add _).symm⟩

section Tokens

variable {document file : Text} {t : Token}

/-- The column of a token is one of its line. -/
theorem exists_line_of_mem_lex (ht : t ∈ lex file document) :
    ∃ line, (splitLines (normalise document))[t.start.line]? = some line ∧
      t.start.column ≤ line.length := by
  obtain ⟨k, before, raw, after, hk, hl, hcol, -⟩ := exists_line_of_mem_lexLines ht
  rw [Nat.zero_add] at hk
  refine ⟨_, hk ▸ hl, ?_⟩
  rw [hcol, List.length_append]
  omega

/-- A token whose text is not trimmed stands on its line behind as many characters as its column
says. -/
theorem exists_stretch_of_mem_lex (ht : t ∈ lex file document) (hc : t.kind ≠ .code)
    (hv : t.kind ≠ .vars) :
    ∃ before after, (splitLines (normalise document))[t.start.line]? =
        some (before ++ (t.contents ++ after)) ∧ t.start.column = before.length := by
  obtain ⟨k, before, raw, after, hk, hl, hcol, hcon⟩ := exists_line_of_mem_lexLines ht
  rw [contents_eq_raw hc hv] at hcon
  rw [Nat.zero_add] at hk
  exact ⟨before, after, by rw [hk, hl, hcon], hcol⟩

/-- The text of a token is what its range in the document selects there. -/
theorem selected?_inDocument (ht : t ∈ lex file document) (hc : t.kind ≠ .code)
    (hv : t.kind ≠ .vars) (type : Nat) :
    selected? document (.inDocument document t type) = some t.contents := by
  obtain ⟨before, after, hl, hcol⟩ := exists_stretch_of_mem_lex ht hc hv
  have hbefore : (lineOf document t.start.line).take t.start.column = before := by
    rw [lineOf_eq hl, hcol, List.take_left]
  rw [selected?, TokenRange.inDocument, Position.inDocument, hbefore, getElem?_documentLines, hl]
  dsimp only [Option.map_some, Option.bind_some]
  rw [← List.append_assoc, dropUnits?_append, Option.bind_some, takeUnits?_append]

/-- The range that is sent for a token is the one in the document just where the line is plain up to
the end of the token. -/
theorem eq_inDocument_iff {r : TokenRange} (ht : t ∈ lex file document) (hc : t.kind ≠ .code)
    (hv : t.kind ≠ .vars) (hr : TokenRange.ofToken? t = some r) :
    r = .inDocument document t r.type ↔ PlainTo document r.line (r.start + r.length) := by
  obtain ⟨hline, hstart, hlength⟩ := TokenRange.ofToken?_eq_some hr
  obtain ⟨before, after, hl, hcol⟩ := exists_stretch_of_mem_lex ht hc hv
  have hbefore : (lineOf document t.start.line).take t.start.column = before := by
    rw [lineOf_eq hl, hcol, List.take_left]
  have hends : (lineOf document t.start.line).take (r.start + r.length) =
      before ++ t.contents := by
    rw [lineOf_eq hl, ← List.append_assoc, hstart, hlength, hcol, ← List.length_append,
      List.take_left]
  have hplace := inDocument_eq_iff hl (by rw [hcol, List.length_append]; omega)
  -- plain up to the end means plain up to the start, and a token of narrow characters
  have hplain : PlainTo document r.line (r.start + r.length) ↔
      PlainTo document t.start.line t.start.column ∧ ∀ c ∈ t.contents, Text.units16 c = 1 := by
    rw [PlainTo, PlainTo, hline, hbefore, hends, List.forall_mem_append, and_assoc]
  rw [hplain, ← hplace, ← Text.units_eq_length_iff, TokenRange.inDocument, Position.ofLocation]
  obtain ⟨line, start, length, type⟩ := r
  dsimp only at hline hstart hlength
  subst hline hstart hlength
  simp only [Position.inDocument, Position.mk.injEq, TokenRange.mk.injEq, true_and, and_true]
  exact and_congr_right fun _ => eq_comm

end Tokens
end Editor

/-! ## Instructions and tokens -/

namespace Layout

/-- What was laid out so far stems from the tokens: those that are left are the last of them, and
every instruction but the end of a scope is placed at the start of one. -/
structure Placed (tokens : List Token) (s : Layout) : Prop where
  suffix : s.rest <:+ tokens
  pos : ∀ i ∈ s.emitted, i.closes = false → ∃ t ∈ tokens, i.pos = t.start

namespace Placed

variable {tokens : List Token} {limit : Int} {stop : Location} {s s' : Layout}

protected theorem closeTo (h : s.Placed tokens) (d : Nat) : (s.closeTo d).Placed tokens where
  suffix := h.suffix
  pos := by
    intro i hi hcloses
    obtain ⟨k, hk⟩ := exists_emitted_closeTo s d
    rw [hk] at hi
    rcases List.mem_append.1 hi with hi | hi
    · rw [List.eq_of_mem_replicate hi] at hcloses
      cases hcloses
    · exact h.pos i hi hcloses

protected theorem readIndent (h : s.Placed tokens) : s.readIndent.Placed tokens := by
  by_cases hi : ∃ t ts, s.rest = t :: ts ∧ t.kind = .indent
  · obtain ⟨t, ts, hr, ht⟩ := hi
    have hts : ts <:+ s.rest := hr ▸ List.suffix_cons t ts
    have hrest : Placed tokens { s with rest := ts } := ⟨hts.trans h.suffix, h.pos⟩
    rw [readIndent_of_indent hr ht]
    exact ⟨(hrest.closeTo t.depth).suffix, (hrest.closeTo t.depth).pos⟩
  · rw [readIndent_of_not_indent fun t ts hr ht => hi ⟨t, ts, hr, ht⟩]
    exact h

/-- The instructions of a line are placed at tokens of the line. -/
protected theorem readLine (h : s.Placed tokens) (hr : s.readLine limit stop = .ok s') :
    s'.Placed tokens := by
  have hindent := h.readIndent
  rcases readLine_ok hr with rfl | ⟨new, opened, hem, -, -, hnew, hsuf⟩
  · exact hindent
  · refine ⟨hsuf.trans hindent.suffix, ?_⟩
    intro i hi hcloses
    rw [hem] at hi
    rcases List.mem_append.1 hi with hi | hi
    · obtain ⟨⟨t, ht, hpos⟩, -⟩ := hnew i hi
      exact ⟨t, hindent.suffix.subset ((List.takeWhile_prefix _).subset ht), hpos⟩
    · exact hindent.pos i hi hcloses

theorem start (h : readDoctype { rest := tokens } = .ok s) : s.Placed tokens := by
  rcases readDoctype_ok h with rfl | ⟨mark, ts, lines, hr, -, hrest, hem, -⟩
  · exact ⟨List.suffix_rfl, by simp⟩
  · change tokens = mark :: ts at hr
    refine ⟨?_, ?_⟩
    · rw [hrest, hr]
      exact (List.drop_suffix _ _).trans (List.suffix_cons mark ts)
    · intro i hi _
      rw [hem, List.append_nil] at hi
      obtain ⟨l, -, rfl⟩ := List.mem_map.1 hi
      exact ⟨mark, hr ▸ List.mem_cons_self .., rfl⟩

end Placed
end Layout

/-- Every instruction of a program but the end of a scope is placed at the start of a token. -/
theorem Program.exists_token_of_ofTokens {contextType : Text} {maxDepth : Int}
    {tokens : List Token} {p : Program}
    (h : Program.ofTokens contextType maxDepth tokens = .ok p) {i : Instruction}
    (hi : i ∈ p.code.toList) (hcloses : i.closes = false) : ∃ t ∈ tokens, i.pos = t.start := by
  obtain ⟨s, nodes, ⟨start, hstart, hs⟩, hmatch, -⟩ := Program.ofTokens_ok h
  have hplaced := (Layout.readLines_ok (fun _ _ hs _ hr => hs.readLine hr)
    (Layout.Placed.start hstart) hs).1
  -- matching the scopes moves no instruction
  have hmem : i.withStop 0 ∈ (s.closeTo 0).emitted.reverse.map (·.withStop 0) := by
    rw [← map_withStop_matchScopes 0 0, hmatch]
    exact List.mem_map_of_mem hi
  obtain ⟨j, hj, he⟩ := List.mem_map.1 hmem
  obtain ⟨hpos, -, hclose, -⟩ := Instruction.eq_of_withStop_eq he
  rw [← hpos]
  exact (hplaced.closeTo 0).pos j (List.mem_reverse.1 hj) (hclose.trans hcloses)

theorem Instruction.not_closes_of_sources {i : Instruction} (h : i.sources ≠ []) :
    i.closes = false := by
  cases i with
  | close => exact absurd rfl h
  | _ => rfl

theorem Instruction.not_closes_of_filterNames {i : Instruction} (h : i.filterNames ≠ []) :
    i.closes = false := by
  cases i with
  | close => exact absurd rfl h
  | _ => rfl

namespace Engine

theorem prepareAll_error {prepare : Text → Except ExprProblem Unit} {pos : Location}
    {sources : List Text} {e : Located TemplateProblem}
    (h : prepareAll prepare pos sources = .error e) : sources ≠ [] ∧ e.pos = pos := by
  induction sources with
  | nil => cases h
  | cons source sources ih =>
    refine ⟨List.cons_ne_nil _ _, ?_⟩
    rw [prepareAll] at h
    cases hp : prepare source with
    | error p =>
      rw [hp] at h
      cases h
      rfl
    | ok u =>
      rw [hp] at h
      exact (ih h).2

/-- An expression that does not compile is reported where its instruction is. -/
theorem prepareCode_error {prepare : Text → Except ExprProblem Unit} {code : List Instruction}
    {e : Located TemplateProblem} (h : prepareCode prepare code = .error e) :
    ∃ i ∈ code, i.sources ≠ [] ∧ e.pos = i.pos := by
  induction code with
  | nil => cases h
  | cons i is ih =>
    rw [prepareCode] at h
    cases hi : prepareAll prepare i.pos i.sources with
    | error p =>
      rw [hi] at h
      cases h
      exact ⟨i, List.mem_cons_self .., prepareAll_error hi⟩
    | ok u =>
      rw [hi] at h
      obtain ⟨j, hj, hsources⟩ := ih h
      exact ⟨j, List.mem_cons_of_mem _ hj, hsources⟩

/-- Whatever keeps a template from being compiled, it is reported at a token. -/
theorem exists_token_of_compile_error {engine : Engine} {name source contextType : Text}
    {e : Located TemplateProblem} (h : engine.compile name source contextType = .error e) :
    ∃ t ∈ lex name source, e.pos = t.start := by
  unfold compile at h
  split at h
  · rename_i p hp
    cases h
    exact (Program.ofTokens_lex_error hp).1
  · rename_i program hprogram
    cases hp : engine.prepare with
    | none =>
      rw [hp] at h
      cases h
    | some prepare =>
      rw [hp] at h
      dsimp only at h
      cases hcode : prepareCode prepare program.code.toList with
      | error p =>
        rw [hcode] at h
        cases h
        obtain ⟨i, hi, hsources, hpos⟩ := prepareCode_error hcode
        rw [hpos]
        exact Program.exists_token_of_ofTokens hprogram hi
          (Instruction.not_closes_of_sources hsources)
      | ok u =>
        rw [hcode] at h
        cases h

/-- The use of a filter is listed at a token. -/
theorem exists_token_of_mem_filters {engine : Engine} {name source contextType : Text}
    {t : Template} (h : engine.compile name source contextType = .ok t) {use : FilterUse}
    (huse : use ∈ t.filters) : ∃ u ∈ lex name source, use.pos = u.start := by
  obtain ⟨hprogram, hfilters, -⟩ := compile_ok h
  rw [hfilters, filterUses] at huse
  obtain ⟨i, hi, huse⟩ := List.mem_flatMap.1 huse
  obtain ⟨filter, hfilter, rfl⟩ := List.mem_map.1 huse
  exact Program.exists_token_of_ofTokens hprogram hi
    (Instruction.not_closes_of_filterNames (List.ne_nil_of_mem hfilter))

end Engine

namespace Editor

/-! ## Diagnostics -/

/-- A diagnostic starts where a token of the document does. -/
theorem Diagnostic.exists_token_of_mem_ofDocument {engine : Engine} {path document : Text}
    {d : Diagnostic} (hd : d ∈ ofDocument engine path document) :
    ∃ t ∈ lex (Path.base path) document, d.start = .ofLocation t.start := by
  unfold ofDocument Workspace.loadContents Workspace.compile at hd
  dsimp only [Workspace.invalidate, Workspace.erase] at hd
  cases hc : engine.compile (Path.base path) document [] with
  | error e =>
    rw [hc] at hd
    rw [List.mem_singleton.1 hd]
    obtain ⟨t, ht, hpos⟩ := Engine.exists_token_of_compile_error hc
    refine ⟨t, ht, ?_⟩
    rw [← hpos]
    rfl
  | ok template =>
    rw [hc] at hd
    obtain ⟨use, huse, hwarns⟩ := List.mem_filterMap.1 hd
    obtain ⟨t, ht, hpos⟩ := Engine.exists_token_of_mem_filters hc huse
    refine ⟨t, ht, ?_⟩
    unfold ofFilterUse? at hwarns
    split at hwarns
    · cases hwarns
    · cases hwarns
      rw [← hpos]

/-! ## Sessions -/

theorem Session.diagnostics_of_report {s : Session} {uri document : Text} {rep : Report}
    (h : s.report uri document = .ok rep) :
    ∃ path, rep.diagnostics = Diagnostic.ofDocument s.engine path document := by
  unfold report at h
  split at h
  · cases h
  · split at h
    · cases h
    · cases h
      exact ⟨_, rfl⟩

/-- For an open document whose line numbers and columns fit into 32 bits, the ranges that are sent
are those of its tokens. A token whose text is not trimmed is what its range in the document
selects. The range that is sent for it is this very range just where the line is plain up to the end
of the token. Every diagnostic starts at the line and column of a token, and that is where the token
begins in the document just where the line is plain up to there. -/
theorem Session.places_in_document {s : Session} {uri document : Text}
    (hopen : s.document? uri = some document) (hfits : FitsWords document) :
    (∃ words, s.semanticTokens uri = .ok words ∧
      (SemanticToken.decode words).map SemanticToken.range =
        (lex (Path.base uri) document).filterMap TokenRange.ofToken?) ∧
    (∀ t ∈ lex (Path.base uri) document, t.kind ≠ .code → t.kind ≠ .vars →
      ∀ r, TokenRange.ofToken? t = some r →
        selected? document (.inDocument document t r.type) = some t.contents ∧
        (r = .inDocument document t r.type ↔ PlainTo document r.line (r.start + r.length)) ∧
        (PlainTo document r.line (r.start + r.length) → selected? document r = some t.contents)) ∧
    ∀ rep, s.report uri document = .ok rep → ∀ d ∈ rep.diagnostics,
      ∃ file, ∃ t ∈ lex file document, d.start = .ofLocation t.start ∧
        (d.start = .inDocument document t.start ↔
          PlainTo document t.start.line t.start.column) := by
  refine ⟨?_, ?_, ?_⟩
  · refine ⟨_, by rw [semanticTokens, hopen], ?_⟩
    rw [SemanticToken.decode_encode]
    exact SemanticToken.map_range_lex hfits (Path.base uri)
  · intro t ht hc hv r hr
    have hselects := selected?_inDocument ht hc hv r.type
    have hplain := eq_inDocument_iff ht hc hv hr
    refine ⟨hselects, hplain, ?_⟩
    intro h
    rw [hplain.2 h]
    exact hselects
  · intro rep hrep d hd
    obtain ⟨path, hdiagnostics⟩ := diagnostics_of_report hrep
    rw [hdiagnostics] at hd
    obtain ⟨t, ht, hstart⟩ := Diagnostic.exists_token_of_mem_ofDocument hd
    refine ⟨_, t, ht, hstart, ?_⟩
    obtain ⟨line, hline, hcolumn⟩ := exists_line_of_mem_lex ht
    rw [hstart]
    exact inDocument_eq_iff hline hcolumn

/-- A wide character does no harm on another line: the arrow of the second line is what its range
selects, and the missing block is reported where the expression begins. -/
theorem Session.places_in_document_below_wide_character :
    let uri := "file:///home/me/a.kor".toList
    let document := "%p 😀\n= a -> b".toList
    let s : Session := { documents := [(uri, document)] }
    s.document? uri = some document ∧ FitsWords document ∧ PlainTo document 1 6 ∧
      selected? document ⟨1, 4, 2, 0⟩ = some "->".toList ∧
      ∃ rep, s.report uri document = .ok rep ∧ ∃ d ∈ rep.diagnostics,
        ∃ file, ∃ t ∈ lex file document, d.start = .inDocument document t.start := by
  intro uri document s
  have hopen : s.document? uri = some document := by decide +kernel
  have hfits : FitsWords document := .of_lines (by decide +kernel) (by decide +kernel)
  have hplain : PlainTo document 1 6 := by decide +kernel
  obtain ⟨-, hranges, hreports⟩ := Session.places_in_document hopen hfits
  let arrow : Token := ⟨.arrow, ⟨"a.kor".toList, 1, 4, 9⟩, "->".toList⟩
  have harrow : arrow ∈ lex (Path.base uri) document := by decide +kernel
  have hselects := (hranges arrow harrow (by decide) (by decide) ⟨1, 4, 2, 0⟩ rfl).2.2 hplain
  let d : Diagnostic := ⟨⟨1, 2⟩, ⟨1, 2⟩, .error, "lambda variables need an indented block".toList⟩
  have hreport : s.report uri document = .ok ⟨uri, [d]⟩ := by decide +kernel
  have hd : d ∈ [d] := List.mem_singleton_self d
  obtain ⟨file, t, ht, hstart, hplace⟩ := hreports _ hreport d hd
  obtain ⟨hline, hcolumn⟩ := Position.mk.injEq .. ▸ hstart
  refine ⟨hopen, hfits, hplain, hselects, _, hreport, d, hd, file, t, ht, hplace.2 ?_⟩
  rw [← hline, ← hcolumn]
  decide +kernel

/-- Behind a wide character on the same line the range of the arrow selects the blank before it, and
the missing block is reported one place before the expression. -/
theorem Session.places_missed_behind_wide_character :
    let uri := "file:///home/me/a.kor".toList
    let document := "%😀= a -> b".toList
    let s : Session := { documents := [(uri, document)] }
    (∃ words, s.semanticTokens uri = .ok words ∧
      ∃ r ∈ (SemanticToken.decode words).map SemanticToken.range,
        ∃ t ∈ lex (Path.base uri) document, TokenRange.ofToken? t = some r ∧ t.kind = .arrow ∧
          t.contents = "->".toList ∧ selected? document r = some " -".toList) ∧
      ∃ rep, s.report uri document = .ok rep ∧ ∃ d ∈ rep.diagnostics,
        ∃ t ∈ lex (Path.base uri) document, d.start = .ofLocation t.start ∧
          t.contents = "a".toList ∧ d.start = ⟨0, 4⟩ ∧
          Position.inDocument document t.start = ⟨0, 5⟩ := by
  intro uri document s
  let words : List UInt32 := [0, 0, 1, 0, 0, 0, 1, 1, 1, 0, 0, 1, 1, 0, 0, 0, 2, 1, 3, 0,
    0, 2, 2, 0, 0, 0, 3, 1, 3, 0]
  let arrow : Token := ⟨.arrow, ⟨"a.kor".toList, 0, 6, 6⟩, "->".toList⟩
  let code : Token := ⟨.code, ⟨"a.kor".toList, 0, 4, 4⟩, "a".toList⟩
  let d : Diagnostic := ⟨⟨0, 4⟩, ⟨0, 4⟩, .error, "lambda variables need an indented block".toList⟩
  have hwords : s.semanticTokens uri = .ok words := by decide +kernel
  have hreport : s.report uri document = .ok ⟨uri, [d]⟩ := by decide +kernel
  refine ⟨⟨words, hwords, ⟨0, 6, 2, 0⟩, by decide +kernel, arrow, by decide +kernel, ?_⟩,
    _, hreport, d, List.mem_singleton_self d, code, by decide +kernel, ?_⟩
  · exact ⟨rfl, rfl, rfl, by decide +kernel⟩
  · exact ⟨rfl, rfl, rfl, by decide +kernel⟩

end Editor
end Offside
