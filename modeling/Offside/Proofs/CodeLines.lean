import Mathlib.Data.List.Infix
import Offside.Proofs.LinesBelow

/-!
# Code lines

A code line has a mark, an expression and perhaps an arrow with names behind it, and all of them are
found again in what the line is read as. The last arrow of the line counts, so that the expression
may have arrows of its own, as long as the line cannot be read with one of them as the last
(`Program.ofTokens_code_line`).
-/

namespace Offside

/-! ## Trimming -/

namespace Text

/-- Neither end of the text satisfies `p`. -/
def Tight (p : Char → Bool) (t : Text) : Prop :=
  (∀ c ∈ t.head?, p c = false) ∧ ∀ c ∈ t.getLast?, p c = false

theorem Tight.of_all {p : Char → Bool} {t : Text} (h : ∀ c ∈ t, p c = false) : t.Tight p :=
  ⟨fun c hc => h c (List.mem_of_mem_head? hc), fun c hc => h c (List.mem_of_mem_getLast? hc)⟩

theorem Tight.mono {p q : Char → Bool} {t : Text} (h : t.Tight p)
    (hpq : ∀ c, p c = false → q c = false) : t.Tight q :=
  ⟨fun c hc => hpq c (h.1 c hc), fun c hc => hpq c (h.2 c hc)⟩

/-- Trimming takes off what is put around a text that is tight. -/
theorem trimBoth_pad {p : Char → Bool} {a b t : Text} (ha : ∀ c ∈ a, p c = true)
    (hb : ∀ c ∈ b, p c = true) (ht : t.Tight p) (hne : t ≠ []) : trimBoth p (a ++ t ++ b) = t := by
  have hstart : (t ++ b).dropWhile p = t ++ b := by
    obtain ⟨c, u, rfl⟩ := List.exists_cons_of_ne_nil hne
    have hc : p c = false := ht.1 c rfl
    rw [List.cons_append, List.dropWhile_cons_of_neg (by simp [hc])]
  have hend : t.reverse.dropWhile p = t.reverse := by
    obtain ⟨c, u, hu⟩ := List.exists_cons_of_ne_nil (List.reverse_ne_nil_iff.2 hne)
    have hc : p c = false := ht.2 c (by rw [← List.head?_reverse, hu]; rfl)
    rw [hu, List.dropWhile_cons_of_neg (by simp [hc])]
  rw [trimBoth, List.append_assoc, List.dropWhile_append_of_pos ha, hstart, List.reverse_append,
    List.dropWhile_append_of_pos (by simpa using hb), hend, List.reverse_reverse]

theorem trim_eq_trimBoth (t : Text) : t.trim = trimBoth isSpace t := rfl

theorem trim_of_tight {t : Text} (ht : t.Tight isSpace) (hne : t ≠ []) : t.trim = t := by
  have h := trimBoth_pad (a := []) (b := []) (by simp) (by simp) ht hne
  rwa [List.append_nil, List.nil_append, ← trim_eq_trimBoth] at h

theorem head?_of_dropWhile_eq {p : Char → Bool} {t : Text} (h : t.dropWhile p = t) :
    ∀ c ∈ t.head?, p c = false := by
  intro c hc
  have hnot := List.head?_dropWhile_not p t
  rwa [h, hc] at hnot

/-- A text that trimming leaves as it is has no White_Space at its ends. -/
theorem tight_of_trim {t : Text} (h : t.trim = t) : t.Tight isSpace := by
  have hlen : t.length ≤ (trimLeft t).length := by
    calc t.length = (trimRight (trimLeft t)).length := congrArg List.length h.symm
      _ = ((trimLeft t).reverse.dropWhile isSpace).length := List.length_reverse
      _ ≤ (trimLeft t).reverse.length := (List.dropWhile_suffix _).length_le
      _ = (trimLeft t).length := List.length_reverse
  have hleft : t.dropWhile isSpace = t := (List.dropWhile_suffix _).eq_of_length_le hlen
  have hright : t.reverse.dropWhile isSpace = t.reverse := by
    have h : ((t.dropWhile isSpace).reverse.dropWhile isSpace).reverse = t := h
    rw [hleft] at h
    exact List.reverse_eq_iff.1 h
  refine ⟨head?_of_dropWhile_eq hleft, ?_⟩
  rw [← List.head?_reverse]
  exact head?_of_dropWhile_eq hright

end Text

/-! ## Lists of names -/

theorem isSpace_of_isVariableGap {c : Char} (h : isVariableGap c = true) : isSpace c = true := by
  simp only [isVariableGap, Bool.or_eq_true, beq_iff_eq] at h
  rcases h with (((rfl | rfl) | rfl) | rfl) | h
  · decide
  · decide
  · decide
  · decide
  · simp [isSpace, h]

/-- A character of a name. -/
def IsNameChar (c : Char) : Prop := (isAsciiLetter c || isAsciiDigit c || c == '_') = true

theorem IsNameChar.bounds {c : Char} (h : IsNameChar c) :
    65 ≤ c.toNat ∧ c.toNat ≤ 90 ∨ 97 ≤ c.toNat ∧ c.toNat ≤ 122 ∨
      48 ≤ c.toNat ∧ c.toNat ≤ 57 ∨ c.toNat = 95 := by
  simp only [IsNameChar, isAsciiLetter, isAsciiDigit, Bool.or_eq_true, Bool.and_eq_true,
    decide_eq_true_eq, beq_iff_eq] at h
  rcases h with ((h | h) | h) | rfl
  · exact .inl h
  · exact .inr (.inl h)
  · exact .inr (.inr (.inl h))
  · exact .inr (.inr (.inr rfl))

theorem IsNameChar.isSpace_eq_false {c : Char} (h : IsNameChar c) : isSpace c = false := by
  have := h.bounds
  simp [isSpace]
  omega

theorem isName_chars {v : Text} (h : isName v = true) : v ≠ [] ∧ ∀ c ∈ v, IsNameChar c := by
  cases v with
  | nil => cases h
  | cons c t =>
    simp only [isName, Bool.and_eq_true, List.all_eq_true] at h
    obtain ⟨hc, ht⟩ := h
    refine ⟨List.cons_ne_nil c t, List.forall_mem_cons.2 ⟨?_, ht⟩⟩
    simp only [IsNameChar, Bool.or_eq_true] at hc ⊢
    exact hc.elim (fun hc => .inl (.inl hc)) .inr

/-- Names as they are written behind an arrow. -/
def writeNames (vs : List Text) : Text := Text.join [',', ' '] vs

section Names

variable {vs : List Text}

/-- What stands in a list of names: the names, commas and spaces. -/
theorem mem_writeNames (hvs : ∀ v ∈ vs, isName v = true) {c : Char} (hc : c ∈ writeNames vs) :
    IsNameChar c ∨ c = ',' ∨ c = ' ' := by
  induction vs with
  | nil => cases hc
  | cons v vs ih =>
    obtain ⟨hv, hvs⟩ := List.forall_mem_cons.1 hvs
    by_cases hmore : vs = []
    · subst hmore
      exact .inl ((isName_chars hv).2 c hc)
    · rw [writeNames, Text.join_cons hmore, List.mem_append, List.mem_append] at hc
      rcases hc with (hc | hc) | hc
      · exact .inl ((isName_chars hv).2 c hc)
      · exact .inr (by simpa using hc)
      · exact ih hvs hc

/-- With a space before it, a list of names is the names with a space before each. -/
theorem space_writeNames (hne : vs ≠ []) :
    ' ' :: writeNames vs = Text.join [','] (vs.map (' ' :: ·)) := by
  induction vs with
  | nil => exact absurd rfl hne
  | cons v vs ih =>
    by_cases hmore : vs = []
    · subst hmore
      rfl
    · rw [writeNames, Text.join_cons hmore, List.map_cons, Text.join_cons (by simpa using hmore),
        ← ih hmore, writeNames]
      simp

theorem splitAt_space_writeNames (hne : vs ≠ []) (hvs : ∀ v ∈ vs, isName v = true) :
    Text.splitAt ',' (' ' :: writeNames vs) = vs.map (' ' :: ·) := by
  rw [space_writeNames hne]
  refine Text.splitAt_join (by simpa using hne) ?_
  intro w hw
  obtain ⟨v, hv, rfl⟩ := List.mem_map.1 hw
  intro hc
  rcases List.mem_cons.1 hc with hc | hc
  · cases hc
  · have := ((isName_chars (hvs v hv)).2 ',' hc).bounds
    simp at this

theorem isNameList_space_writeNames (hne : vs ≠ []) (hvs : ∀ v ∈ vs, isName v = true) :
    isNameList (' ' :: writeNames vs) = true := by
  rw [isNameList, splitAt_space_writeNames hne hvs, List.all_map, List.all_eq_true]
  intro v hv
  obtain ⟨hv', hchars⟩ := isName_chars (hvs v hv)
  have htight : Text.Tight isVariableGap v := by
    refine (Text.Tight.of_all fun c hc => (hchars c hc).isSpace_eq_false).mono fun c hc => ?_
    rw [Bool.eq_false_iff] at hc ⊢
    exact fun hgap => hc (isSpace_of_isVariableGap hgap)
  have htrim := Text.trimBoth_pad (p := isVariableGap) (a := [' ']) (b := [])
    (by simp [isVariableGap]) (by simp) htight hv'
  rw [List.append_nil, List.singleton_append] at htrim
  show isName (Text.trimBoth isVariableGap (' ' :: v)) = true
  rw [htrim]
  exact hvs v hv

theorem tight_writeNames (hne : vs ≠ []) (hvs : ∀ v ∈ vs, isName v = true) :
    writeNames vs ≠ [] ∧ (writeNames vs).Tight isSpace := by
  induction vs with
  | nil => exact absurd rfl hne
  | cons v vs ih =>
    obtain ⟨hv, hvs⟩ := List.forall_mem_cons.1 hvs
    obtain ⟨hv', hchars⟩ := isName_chars hv
    have htight : v.Tight isSpace := .of_all fun c hc => (hchars c hc).isSpace_eq_false
    by_cases hmore : vs = []
    · subst hmore
      exact ⟨hv', htight⟩
    · obtain ⟨hne', hrest⟩ := ih hmore hvs
      rw [show writeNames (v :: vs) = v ++ [',', ' '] ++ writeNames vs from
        Text.join_cons hmore ..]
      refine ⟨by simp [hv'], ?_, ?_⟩
      · rw [List.append_assoc, List.head?_append_of_ne_nil _ hv']
        exact htight.1
      · rw [List.getLast?_append_of_ne_nil _ hne']
        exact hrest.2

/-- The names are found again. -/
theorem map_trim_splitAt_writeNames (hne : vs ≠ []) (hvs : ∀ v ∈ vs, isName v = true) :
    (Text.splitAt ',' (writeNames vs)).map Text.trim = vs := by
  -- a space before the first name makes all of them alike, and is trimmed off
  have hspace : (Text.splitAt ',' (writeNames vs)).map Text.trim =
      (Text.splitAt ',' (' ' :: writeNames vs)).map Text.trim := by
    obtain ⟨w, ws, hw⟩ := List.exists_cons_of_ne_nil (Text.splitAt_ne_nil ',' (writeNames vs))
    rw [Text.splitAt_cons_of_ne (by decide), hw]
    rfl
  rw [hspace, splitAt_space_writeNames hne hvs, List.map_map]
  refine (List.map_congr_left ?_).trans (List.map_id vs)
  intro v hv
  obtain ⟨hv', hchars⟩ := isName_chars (hvs v hv)
  exact Text.trim_of_tight (.of_all fun c hc => (hchars c hc).isSpace_eq_false) hv'

end Names

/-! ## The last arrow -/

theorem splitLastArrow_cons_of_some {t before after : Text}
    (h : splitLastArrow t = some (before, after)) (c : Char) :
    splitLastArrow (c :: t) = some (c :: before, after) := by
  unfold splitLastArrow
  rw [h]

theorem splitLastArrow_cons_of_none {c : Char} {t : Text} (hc : c ≠ '-')
    (h : splitLastArrow t = none) : splitLastArrow (c :: t) = none := by
  unfold splitLastArrow
  rw [h]
  dsimp only
  split
  · exact absurd rfl hc
  · rfl

theorem splitLastArrow_of_not_mem {t : Text} (h : '-' ∉ t) : splitLastArrow t = none := by
  induction t with
  | nil => rfl
  | cons c t ih =>
    rw [List.mem_cons, not_or] at h
    exact splitLastArrow_cons_of_none (Ne.symm h.1) (ih h.2)

theorem splitLastArrow_append {after : Text} (h : splitLastArrow after = none) (before : Text) :
    splitLastArrow (before ++ '-' :: '>' :: after) = some (before, after) := by
  induction before with
  | nil =>
    have hnone : splitLastArrow ('>' :: after) = none := splitLastArrow_cons_of_none (by decide) h
    rw [List.nil_append]
    unfold splitLastArrow
    rw [hnone]
    rfl
  | cons c before ih => exact splitLastArrow_cons_of_some ih c

/-! ## Marks -/

/-- The mark of a code line. -/
inductive CodeMark where
  /-- The value is not put out. -/
  | silent
  /-- The value is put out, escaped. -/
  | escaped
  /-- The value is put out as it is. -/
  | plain
deriving DecidableEq, Repr

namespace CodeMark

/-- The mark as it is written. -/
def text : CodeMark → Text
  | silent => ['-']
  | escaped => ['=']
  | plain => ['!', '=']

/-- The kind of the mark's token. -/
def kind : CodeMark → TokenKind
  | silent => .silentMark
  | escaped | plain => .outputMark

/-- Whether what a block puts out is collected into one entry. -/
def captures : CodeMark → Bool
  | silent => false
  | escaped | plain => true

/-- What the line is if no deeper line follows it, among things of a type that has one that
evaluates an expression and one that puts out a line. -/
def alone {α : Type} (exec : Location → Text → α) (output : Location → Fragments → Nat → α)
    (m : CodeMark) (pos : Location) (source : Text) (depth : Nat) : α :=
  match m with
  | silent => exec pos source
  | escaped => output pos [.expression source true] depth
  | plain => output pos [.expression source false] depth

/-- The line as a node. -/
def node : CodeMark → Location → Text → Nat → Node := alone .exec .output

/-- The line as an instruction. -/
def leaf : CodeMark → Location → Text → Nat → Instruction := alone .exec .output

theorem isSpace_text (m : CodeMark) : ∀ c ∈ m.text, isSpace c = false := by
  have hnone : m.text.any isSpace = false := by cases m <;> decide
  simpa using hnone

theorem code_node (m : CodeMark) (pos : Location) (source : Text) (depth i : Nat) :
    (m.node pos source depth).code i = [m.leaf pos source depth] := by
  cases m <;> rfl

end CodeMark

/-! ## The pieces of a code line -/

/-- What stands behind the mark of a code line: the expression, and the names if there are any. -/
def codeText (e : Text) : List Text → Text
  | [] => e
  | v :: vs => e ++ " -> ".toList ++ writeNames (v :: vs)

/-- A code line. -/
def codeLine (depth : Nat) (m : CodeMark) (e : Text) (vs : List Text) : Text :=
  indented depth (m.text ++ ' ' :: codeText e vs)

section Pieces

variable {e : Text} {vs : List Text}

/-- The text behind the mark is cut into the pieces of a code line. -/
theorem scanBody_code (m : CodeMark) {t : Text} (hne : t ≠ [])
    (ht : ∀ c ∈ t.head?, isSpace c = false) :
    scanBody (m.text ++ ' ' :: t) =
      (.token m.kind m.text :: .skip [' '] :: scanCodeBody t, false) := by
  have hgap : ∀ c ∈ t.head?, isGap c = false := by
    intro c hc
    rw [Bool.eq_false_iff]
    intro hgap
    cases (ht c hc).symm.trans (isSpace_of_isGap hgap)
  have hblank : Text.isBlank (' ' :: t) = false := by
    obtain ⟨c, u, rfl⟩ := List.exists_cons_of_ne_nil hne
    have hc : isSpace c = false := ht c rfl
    simp [Text.isBlank, hc]
  have hcode : ∀ kind mark, scanCode kind mark (' ' :: t) =
      .token kind mark :: .skip [' '] :: scanCodeBody t := by
    intro kind mark
    have hsplit : Text.splitWhile isGap (' ' :: t) = ([' '], t) :=
      splitWhile_of_all (a := [' ']) (by simp [isGap]) hgap
    rw [scanCode, if_neg (by simp [hblank]), hsplit]
  -- the mark starts neither a filter nor a header
  have hfilter : scanFilter (m.text ++ ' ' :: t) = none := by cases m <;> rfl
  have hheader : scanHeader (m.text ++ ' ' :: t) = none := by
    cases m <;> exact scanHeader_of_not_mark (by decide) (by decide) _
  rw [scanBody, hfilter, hheader]
  cases m <;> exact congrArg (·, false) (hcode _ _)

/-- With names behind it, the last arrow is the one before the names. -/
theorem scanCodeBody_of_names (hne : vs ≠ []) (hvs : ∀ v ∈ vs, isName v = true) :
    scanCodeBody (codeText e vs) =
      [.token .code (e ++ [' ']), .token .arrow ['-', '>'], .skip [' '],
        .token .vars (writeNames vs)] := by
  obtain ⟨v, vs', rfl⟩ := List.exists_cons_of_ne_nil hne
  have htext : codeText e (v :: vs') =
      (e ++ [' ']) ++ '-' :: '>' :: (' ' :: writeNames (v :: vs')) := by simp [codeText]
  have hdash : '-' ∉ ' ' :: writeNames (v :: vs') := by
    intro hc
    rcases List.mem_cons.1 hc with hc | hc
    · cases hc
    · rcases mem_writeNames hvs hc with hc | hc | hc
      · have := hc.bounds
        simp at this
      · cases hc
      · cases hc
  have hgap : ∀ c ∈ (writeNames (v :: vs')).head?, (c == ' ') = false := by
    intro c hc
    have := (tight_writeNames hne hvs).2.1 c hc
    simpa using ne_space_of_isSpace_eq_false this
  have hsplit : Text.splitWhile (· == ' ') (' ' :: writeNames (v :: vs')) =
      ([' '], writeNames (v :: vs')) := splitWhile_of_all (a := [' ']) (by simp) hgap
  rw [htext, scanCodeBody, splitLastArrow_append (splitLastArrow_of_not_mem hdash)]
  dsimp only
  rw [isNameList_space_writeNames hne hvs, if_pos rfl, hsplit]

/-- Where no arrow has names behind it, the whole text is the expression. -/
theorem scanCodeBody_of_no_names
    (h : ∀ before names, e = before ++ '-' :: '>' :: names → isNameList names = false) :
    scanCodeBody e = [.token .code e] := by
  unfold scanCodeBody
  split
  · rename_i before after hlast
    rw [h before after (splitLastArrow_eq_some hlast)]
    rfl
  · rfl

end Pieces

/-! ## Reading a code line -/

namespace Layout

variable {limit : Int} {stop : Location} {s : Layout} {mark code : Token} {ts rest : List Token}
  {vars : List Text}

/-- A line that starts with the mark of a code line is read as one. -/
theorem readBody_of_codeMark (m : CodeMark) (hr : s.rest = mark :: ts) (hkind : mark.kind = m.kind)
    (htext : mark.contents = m.text) :
    s.readBody limit stop = readCode limit stop m.captures m.leaf s ts := by
  have hfilter : s.readFilter true = .ok (false, s) := by
    refine readFilter_of_head hr ?_
    rw [hkind]
    cases m <;> simp [CodeMark.kind]
  have htag : s.readTag limit stop = .ok (false, s) := by
    refine readTag_eq_false ?_
    intro t us he
    rw [hr] at he
    cases he
    rw [hkind]
    cases m <;> simp [CodeMark.kind, IsMark]
  have houtput : s.readOutput limit stop =
      readCode limit stop m.captures m.leaf s ts >>= fun s => .ok (true, s) := by
    unfold readOutput
    rw [hr]
    dsimp only
    rw [hkind, htext]
    cases m <;> rfl
  unfold readBody
  rw [hfilter]
  show (s.readTag limit stop >>= _) = _
  rw [htag]
  show (s.readOutput limit stop >>= _) = _
  rw [houtput]
  cases readCode limit stop m.captures m.leaf s ts <;> rfl

/-- With a deeper line below it, a code line opens a control block. -/
theorem readCode_of_deeper {capture : Bool} {leaf : Location → Text → Nat → Instruction}
    (hbody : readCodeBody stop ts = .ok ((code, vars), rest))
    (hdeep : nextIsDeeper { s with rest } = true) (hlimit : (s.scopes : Int) < limit) :
    readCode limit stop capture leaf s ts = .ok {
      rest
      emitted := .openControl code.start { source := code.contents, vars, capture } s.depth 0 ::
        s.emitted
      pending := ⟨s.depth, true⟩ :: s.pending } := by
  unfold readCode
  rw [hbody]
  show (if nextIsDeeper { s with rest } then openScope limit { s with rest } _ else _) = _
  rw [if_pos hdeep, openScope, if_neg]
  · rfl
  · show ¬ limit ≤ s.scopes
    omega

/-- Without one, and without names, it is an entry. -/
theorem readCode_of_notDeeper {capture : Bool} {leaf : Location → Text → Nat → Instruction}
    (hbody : readCodeBody stop ts = .ok ((code, []), rest))
    (hdeep : nextIsDeeper { s with rest } = false) :
    readCode limit stop capture leaf s ts =
      .ok (emit { s with rest } (leaf code.start code.contents s.depth)) := by
  unfold readCode
  rw [hbody]
  show (if nextIsDeeper { s with rest } then _ else _) = _
  rw [hdeep]
  rfl

end Layout

section Source

variable {file : Text} {depth : Nat} {m : CodeMark} {e : Text} {vs lines : List Text}

theorem codeText_head (hne : e ≠ []) (vs : List Text) :
    codeText e vs ≠ [] ∧ (codeText e vs).head? = e.head? := by
  obtain ⟨c, t, rfl⟩ := List.exists_cons_of_ne_nil hne
  cases vs <;> simp [codeText]

theorem not_mem_codeText {c : Char} (hc : isSpace c = true) (hne : c ≠ ' ') (he : c ∉ e)
    (hvs : ∀ v ∈ vs, isName v = true) : c ∉ codeText e vs := by
  cases vs with
  | nil => exact he
  | cons v vs =>
    intro hmem
    rw [codeText, List.mem_append, List.mem_append] at hmem
    rcases hmem with (hmem | hmem) | hmem
    · exact he hmem
    · have hchars : ∀ x ∈ " -> ".toList, (x == ' ' || !isSpace x) = true :=
        List.all_eq_true.1 (by decide)
      have hchar : c = ' ' ∨ isSpace c = false := by simpa using hchars c hmem
      rcases hchar with h | h
      · exact hne h
      · rw [h] at hc
        cases hc
    · rcases mem_writeNames hvs hmem with h | rfl | rfl
      · rw [h.isSpace_eq_false] at hc
        cases hc
      · exact absurd hc (by decide)
      · exact hne rfl

/-- The tokens of a source that starts with a code line. -/
theorem lex_codeLine (hne : e ≠ []) (htight : ∀ c ∈ e.head?, isSpace c = false)
    (hbreaks : '\n' ∉ e ∧ '\r' ∉ e) (hvs : ∀ v ∈ vs, isName v = true)
    (hlines : ∀ l ∈ lines, '\n' ∉ l ∧ '\r' ∉ l) :
    lex file (Text.join ['\n'] (codeLine depth m e vs :: lines)) =
      ⟨.indent, { file, line := 0, column := 0, offset := 0 }, List.replicate depth ' '⟩ ::
        (placePieces file 0 0 depth
            (.token m.kind m.text :: .skip [' '] :: scanCodeBody (codeText e vs)) ++
          lexLines file 1 ((codeLine depth m e vs).length + 1) none lines) := by
  obtain ⟨hne', hhead⟩ := codeText_head hne vs
  have hscan := scanBody_code m hne' (by rwa [hhead])
  have hbreak : ∀ c, isSpace c = true → c ≠ ' ' → c ∉ e → c ∉ m.text ++ ' ' :: codeText e vs := by
    intro c hc hspace he hmem
    rw [List.mem_append, List.mem_cons] at hmem
    rcases hmem with hmem | hmem | hmem
    · rw [m.isSpace_text c hmem] at hc
      cases hc
    · exact hspace hmem
    · exact not_mem_codeText hc hspace he hvs hmem
  obtain ⟨c, t, hct, hc, hmark, hdoctype⟩ : ∃ c t, m.text ++ ' ' :: codeText e vs = c :: t ∧
      isSpace c = false ∧ c ≠ '\ufeff' ∧ Text.cut? ['!', '!', '!'] (c :: t) = none := by
    cases m <;> exact ⟨_, _, rfl, by decide, by decide, rfl⟩
  rw [hct] at hscan hbreak
  rw [codeLine, hct, lex_indented hc hmark hdoctype ⟨hbreak _ (by decide) (by decide) hbreaks.1,
    hbreak _ (by decide) (by decide) hbreaks.2⟩ hlines, hscan]
  simp [indented]

end Source

namespace Program

/-- Where the expression of a code line on the first line stands. -/
def codePos (file : Text) (depth : Nat) (m : CodeMark) : Location where
  file
  line := 0
  column := depth + m.text.length + 1
  offset := depth + m.text.length + 1

section CodeLine

variable {file contextType : Text} {maxDepth : Int} {depth : Nat} {m : CodeMark} {e : Text}
  {vs inner after : List Text}

/-- The tokens of a code line with names. -/
theorem placePieces_of_names (hne : e ≠ []) (htight : e.Tight isSpace) (hvs : vs ≠ [])
    (hnames : ∀ v ∈ vs, isName v = true) :
    ∃ p q r, placePieces file 0 0 depth
        (.token m.kind m.text :: .skip [' '] :: scanCodeBody (codeText e vs)) =
      [⟨m.kind, p, m.text⟩, ⟨.code, codePos file depth m, e⟩, ⟨.arrow, q, ['-', '>']⟩,
        ⟨.vars, r, writeNames vs⟩] := by
  have hmark : Piece.contents m.kind m.text = m.text := by cases m <;> rfl
  have hcode : Piece.contents .code (e ++ [' ']) = e :=
    Text.trimBoth_pad (a := []) (by simp) (List.all_eq_true.1 rfl) htight hne
  have harrow : Piece.contents .arrow ['-', '>'] = ['-', '>'] := rfl
  have hvars : Piece.contents .vars (writeNames vs) = writeNames vs :=
    Text.trim_of_tight (tight_writeNames hvs hnames).2 (tight_writeNames hvs hnames).1
  rw [scanCodeBody_of_names hvs hnames]
  simp [placePieces, hmark, hcode, harrow, hvars, codePos]

/-- The tokens of a code line without names. -/
theorem placePieces_of_no_names (htrim : e.trim = e)
    (hnone : ∀ before names, e = before ++ '-' :: '>' :: names → isNameList names = false) :
    ∃ p, placePieces file 0 0 depth
        (.token m.kind m.text :: .skip [' '] :: scanCodeBody (codeText e [])) =
      [⟨m.kind, p, m.text⟩, ⟨.code, codePos file depth m, e⟩] := by
  have hmark : Piece.contents m.kind m.text = m.text := by cases m <;> rfl
  have hcode : Piece.contents .code e = e := htrim
  rw [codeText, scanCodeBody_of_no_names hnone]
  simp [placePieces, hmark, hcode, codePos]

/-- With names and with deeper lines below it, a code line is a control block. -/
theorem ofTokens_codeLine_of_names (hmax : 0 ≤ maxDepth) (hne : e ≠ []) (htrim : e.trim = e)
    (hbreaks : '\n' ∉ e ∧ '\r' ∉ e) (hvs : vs ≠ []) (hnames : ∀ v ∈ vs, isName v = true)
    (hlines : ∀ l ∈ inner ++ after, '\n' ∉ l ∧ '\r' ∉ l) (hinner : DeeperBlock depth inner)
    (hafter : NextShallow depth after) :
    ofTokens contextType maxDepth
        (lex file (Text.join ['\n'] (codeLine depth m e vs :: (inner ++ after)))) =
      ofLinesBelow file contextType (limitWithin maxDepth) [codeLine depth m e vs] inner >>=
        fun p => (ofLinesBelow file contextType maxDepth (codeLine depth m e vs :: inner) after).map
          fun q => {
            contextType
            code := (Node.codeAll 0
              (.control (codePos file depth m) ⟨e, vs, m.captures⟩ depth p.tree ::
                q.tree)).toArray } := by
  have htight := Text.tight_of_trim htrim
  let indent : Token :=
    ⟨.indent, { file, line := 0, column := 0, offset := 0 }, List.replicate depth ' '⟩
  have hdepth : indent.depth = depth := byteLength_replicate_space depth
  obtain ⟨p, q, r, htokens⟩ := @placePieces_of_names file depth m e vs hne htight hvs hnames
  rw [lex_codeLine hne htight.1 hbreaks hnames hlines, htokens,
    lexLines_append (Nat.succ_ne_zero 0) hinner.deeper hafter (by simp), ofLinesBelow_cons,
    ofLinesBelow_cons]
  have hline := @ofTokens_of_control file contextType maxDepth indent
    [⟨m.kind, p, m.text⟩, ⟨.code, codePos file depth m, e⟩, ⟨.arrow, q, ['-', '>']⟩,
      ⟨.vars, r, writeNames vs⟩] 1 (1 + inner.length) ((codeLine depth m e vs).length + 1)
    ((codeLine depth m e vs).length + 1 + (inner.flatMap (· ++ ['\n'])).length) inner after
    (codePos file depth m) ⟨e, vs, m.captures⟩ rfl (by decide) (by omega)
    (by rw [hdepth]; exact hinner.deeper) (by rwa [hdepth]) ?_
  · rw [hdepth] at hline
    exact hline
  · intro stop
    obtain ⟨t, ts, hfirst, ht, hlt⟩ := @DeeperBlock.exists_cons file depth 1
      ((codeLine depth m e vs).length + 1) none inner hinner (by decide)
    simp only [hdepth, hfirst, List.cons_append, List.nil_append]
    rw [Layout.readBody_of_codeMark m rfl rfl rfl, Layout.readCode_of_deeper
      (Layout.readCodeBody_of_arrow rfl rfl rfl)]
    · rw [map_trim_splitAt_writeNames hvs hnames]
      rfl
    · rw [Layout.nextIsDeeper_cons, ht]
      exact decide_eq_true hlt
    · exact scopeLimit_pos hmax

/-- Without names and with no deeper line below it, a code line is one entry. -/
theorem ofTokens_codeLine_of_no_names (hne : e ≠ []) (htrim : e.trim = e)
    (hbreaks : '\n' ∉ e ∧ '\r' ∉ e)
    (hnone : ∀ before names, e = before ++ '-' :: '>' :: names → isNameList names = false)
    (hlines : ∀ l ∈ after, '\n' ∉ l ∧ '\r' ∉ l) (hafter : NextShallow depth after) :
    ofTokens contextType maxDepth
        (lex file (Text.join ['\n'] (codeLine depth m e [] :: after))) =
      (ofLinesBelow file contextType maxDepth [codeLine depth m e []] after).map
        fun q => {
          contextType
          code := (Node.codeAll 0 (m.node (codePos file depth m) e depth :: q.tree)).toArray } := by
  have htight := Text.tight_of_trim htrim
  let indent : Token :=
    ⟨.indent, { file, line := 0, column := 0, offset := 0 }, List.replicate depth ' '⟩
  have hdepth : indent.depth = depth := byteLength_replicate_space depth
  obtain ⟨p, htokens⟩ := @placePieces_of_no_names file depth m e htrim hnone
  rw [lex_codeLine hne htight.1 hbreaks (by simp) hlines, htokens, ofLinesBelow_cons]
  refine @ofTokens_of_leaf file contextType maxDepth indent _ 1 _ after _ _ (m.code_node _ _ _ 0)
    rfl (by decide) (by rwa [hdepth]) ?_
  intro limit stop
  simp only [hdepth, List.cons_append, List.nil_append]
  rw [Layout.readBody_of_codeMark m rfl rfl rfl, Layout.readCode_of_notDeeper
    (Layout.readCodeBody_of_lineEnd rfl (lineEnd_lexLines _ _ _ _ (by decide)))]
  · rfl
  · exact Layout.NotDeeper.nextIsDeeper (notDeeper_lexLines (by decide) hafter)

/-- Expression, names and mark of a code line are found again in its program: with names and deeper
lines below it, the line is a control block with these lines as its body, and without both it is one
entry. The expression may have arrows; without names behind the line's own arrow, none of them may
have names behind it. -/
theorem ofTokens_code_line (file contextType : Text) (depth : Nat) (m : CodeMark) (hne : e ≠ [])
    (htrim : e.trim = e) (hbreaks : '\n' ∉ e ∧ '\r' ∉ e) :
    (∀ maxDepth vs inner after, 0 ≤ maxDepth → vs ≠ [] → (∀ v ∈ vs, isName v = true) →
      (∀ l ∈ inner ++ after, '\n' ∉ l ∧ '\r' ∉ l) → DeeperBlock depth inner →
      NextShallow depth after →
      ofTokens contextType maxDepth
          (lex file (Text.join ['\n'] (codeLine depth m e vs :: (inner ++ after)))) =
        ofLinesBelow file contextType (limitWithin maxDepth) [codeLine depth m e vs] inner >>=
          fun p =>
            (ofLinesBelow file contextType maxDepth (codeLine depth m e vs :: inner) after).map
              fun q => {
                contextType
                code := (Node.codeAll 0
                  (.control (codePos file depth m) ⟨e, vs, m.captures⟩ depth p.tree ::
                    q.tree)).toArray }) ∧
    ((∀ before names, e = before ++ '-' :: '>' :: names → isNameList names = false) →
      ∀ maxDepth after, (∀ l ∈ after, '\n' ∉ l ∧ '\r' ∉ l) → NextShallow depth after →
      ofTokens contextType maxDepth
          (lex file (Text.join ['\n'] (codeLine depth m e [] :: after))) =
        (ofLinesBelow file contextType maxDepth [codeLine depth m e []] after).map
          fun q => {
            contextType
            code :=
              (Node.codeAll 0 (m.node (codePos file depth m) e depth :: q.tree)).toArray }) :=
  ⟨fun _ _ _ _ hmax hvs hnames hlines hinner hafter =>
      ofTokens_codeLine_of_names hmax hne htrim hbreaks hvs hnames hlines hinner hafter,
    fun hnone _ _ hlines hafter =>
      ofTokens_codeLine_of_no_names hne htrim hbreaks hnone hlines hafter⟩

/-- Only the last arrow of the first line has the names of the block behind it. -/
theorem ofTokens_code_line_of_arrows :
    ofTokens [] 0 (lex [] "  - a->b -> k, v\n    = k\n  x".toList) = .ok ⟨[], #[
        .openControl ⟨[], 0, 4, 4⟩ ⟨"a->b".toList, [['k'], ['v']], false⟩ 2 2,
        .output ⟨[], 1, 6, 23⟩ [.expression ['k'] true] 4,
        .close,
        .literal ⟨[], 2, 2, 27⟩ ['x'] 2]⟩ ∧
      ofTokens [] 0 (lex [] "!= a->f(b)\nx".toList) = .ok ⟨[], #[
        .output ⟨[], 0, 3, 3⟩ [.expression "a->f(b)".toList false] 0,
        .literal ⟨[], 1, 0, 11⟩ ['x'] 0]⟩ := by
  have hnone : ∀ before names, "a->f(b)".toList = before ++ '-' :: '>' :: names →
      isNameList names = false := by
    intro before names he
    have hsuffix : '-' :: '>' :: names ∈ List.tails "a->f(b)".toList :=
      (List.mem_tails _ _).2 ⟨before, he.symm⟩
    have htails : ∀ t ∈ List.tails "a->f(b)".toList, t.take 2 = ['-', '>'] →
        isNameList (t.drop 2) = false := by decide +kernel
    exact htails _ hsuffix rfl
  have hnames := (@ofTokens_code_line "a->b".toList [] [] 2 .silent (by decide) (by decide +kernel)
    (by decide)).1 0 [['k'], ['v']] ["    = k".toList] ["  x".toList] (by decide) (by decide)
    (by decide) (by decide) ⟨by decide +kernel, by decide +kernel⟩
    (by rw [NextShallow]; decide +kernel)
  have hplain := (@ofTokens_code_line "a->f(b)".toList [] [] 0 .plain (by decide)
    (by decide +kernel) (by decide)).2 hnone 0 [['x']] (by decide)
    (by rw [NextShallow]; decide +kernel)
  constructor
  · refine Eq.trans ?_ (hnames.trans ?_) <;> decide +kernel
  · refine Eq.trans ?_ (hplain.trans ?_) <;> decide +kernel

end CodeLine
end Program
end Offside
