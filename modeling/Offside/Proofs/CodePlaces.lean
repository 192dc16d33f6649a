import Offside.Proofs.CodeLines
import Offside.Proofs.Positions

/-!
# Where code and its variables stand

The tokens of code and of variables are trimmed of White_Space. Their place is counted by another
measure: blanks before code are passed over if they are spaces or tabs, blanks before variables only
if they are spaces. Where the two measures part, the token is placed before its text, with the
White_Space between the two that one of them takes for a blank and the other does not. So such a
token stands where its place says just where there is no such White_Space
(`lex_code_positions`); behind a tab, or behind a blank that is not ASCII, it does not
(`lex_misplaces_code_behind_blanks`).
-/

namespace Offside

/-! ## What trimming takes off -/

namespace Text

/-- What is left after trimming at the start is what trimming leaves, and what it takes off at the
end. -/
theorem exists_dropWhile_eq (p : Char → Bool) (t : Text) :
    ∃ after, t.dropWhile p = trimBoth p t ++ after := by
  have hsplit := List.takeWhile_append_dropWhile (p := p) (l := (t.dropWhile p).reverse)
  refine ⟨((t.dropWhile p).reverse.takeWhile p).reverse, ?_⟩
  rw [trimBoth, ← List.reverse_append, hsplit, List.reverse_reverse]

theorem exists_trim_append (t : Text) : ∃ after, t = t.takeWhile isSpace ++ (t.trim ++ after) := by
  obtain ⟨after, hafter⟩ := exists_dropWhile_eq isSpace t
  refine ⟨after, ?_⟩
  rw [trim_eq_trimBoth, ← hafter, List.takeWhile_append_dropWhile]

theorem head?_trimBoth (p : Char → Bool) (t : Text) : ∀ c ∈ (trimBoth p t).head?, p c = false := by
  obtain ⟨after, hafter⟩ := exists_dropWhile_eq p t
  intro c hc
  obtain ⟨u, hu⟩ := List.head?_eq_some_iff.1 hc
  have hnot := List.head?_dropWhile_not p t
  rw [hafter, hu] at hnot
  exact hnot

end Text

/-- What a trimmed token leaves out before its text: White_Space, if there is a text. -/
def leadOf (raw : Text) : Text := if raw.trim = [] then [] else raw.takeWhile isSpace

theorem isBlank_leadOf (raw : Text) : (leadOf raw).isBlank = true := by
  unfold leadOf
  split
  · rfl
  · exact List.all_eq_true.2 fun c hc => List.mem_takeWhile_imp hc

theorem leadOf_prefix (raw : Text) : leadOf raw <+: raw := by
  unfold leadOf
  split
  · exact List.nil_prefix
  · exact List.takeWhile_prefix isSpace

/-- The characters that a trimmed token was made from start with what it leaves out and its text. -/
theorem exists_leadOf_append (raw : Text) : ∃ after, raw = leadOf raw ++ (raw.trim ++ after) := by
  unfold leadOf
  split
  · rename_i hnone
    exact ⟨raw, by rw [hnone]; rfl⟩
  · exact Text.exists_trim_append raw

/-- They start with its text just where nothing is left out. -/
theorem take_trim_eq_iff (raw more : Text) :
    (raw ++ more).take raw.trim.length = raw.trim ↔ leadOf raw = [] := by
  obtain ⟨after, hafter⟩ := exists_leadOf_append raw
  constructor
  · intro htake
    by_contra hlead
    -- what is left out starts with White_Space, and the text does not
    obtain ⟨c, lead, hc⟩ := List.exists_cons_of_ne_nil hlead
    have hspace : isSpace c = true := by
      have hblank := isBlank_leadOf raw
      rw [hc] at hblank
      exact List.all_eq_true.1 hblank c (List.mem_cons_self ..)
    have hne : raw.trim ≠ [] := fun hnone => hlead (if_pos hnone)
    obtain ⟨d, u, hd⟩ := List.exists_cons_of_ne_nil hne
    have hsame : c = d := by
      rw [hd, hafter, hc, List.length_cons] at htake
      exact (List.cons.inj htake).1
    have hplain := Text.head?_trimBoth isSpace raw d (by rw [← Text.trim_eq_trimBoth, hd]; rfl)
    rw [← hsame, hspace] at hplain
    cases hplain
  · intro hlead
    rw [hlead, List.nil_append] at hafter
    calc (raw ++ more).take raw.trim.length
        = ((raw.trim ++ after) ++ more).take raw.trim.length := by rw [← hafter]
      _ = raw.trim := by rw [List.append_assoc, List.take_left]

/-! ## Pieces of code -/

/-- The kinds of the tokens that are trimmed. -/
def trimmedKinds : List TokenKind := [.code, .vars]

/-- A piece of kind `k` from the body of a code line, behind the blanks after its mark. -/
def InCodeBody (k : TokenKind) (raw : Text) : Prop :=
  ∃ t : Text, .token k raw ∈ scanCodeBody (t.dropWhile isGap)

section Pieces

variable {k : TokenKind} {raw : Text}

theorem inCodeBody_of_mem_scanCode (hk : k ∈ trimmedKinds) {kind : TokenKind} {mark t : Text}
    (hkind : IsCodeMark kind) (h : .token k raw ∈ scanCode kind mark t) : InCodeBody k raw := by
  unfold scanCode at h
  split at h
  · exact absurd h (not_mem_of_kinds hk [.text] (by simp) (by decide))
  · have hmark : Piece.token k raw ≠ .token kind mark := by
      intro he
      cases he
      rcases hkind with rfl | rfl <;> exact absurd hk (by decide)
    exact ⟨t, List.mem_of_ne_of_mem (by simp) (List.mem_of_ne_of_mem hmark h)⟩

theorem inCodeBody_of_mem_scanOutput (hk : k ∈ trimmedKinds) {t : Text}
    (h : .token k raw ∈ scanOutput t) : InCodeBody k raw := by
  unfold scanOutput at h
  split at h
  · cases h
  · exact inCodeBody_of_mem_scanCode hk (.inr rfl) h
  · exact inCodeBody_of_mem_scanCode hk (.inl rfl) h
  · exact inCodeBody_of_mem_scanCode hk (.inl rfl) h
  · exact absurd h (not_mem_of_kinds hk [.commentMark, .comment] (by simp) (by decide))
  · exact absurd h (not_mem_of_kinds hk [.commentMark, .comment] (by simp) (by decide))
  · exact absurd h (not_mem_of_kinds hk [.text] (by simp) (by decide))

/-- Code and variables come from the body of a code line only, whatever stands before it. -/
theorem inCodeBody_of_mem_scanLine (hk : k ∈ trimmedKinds) {first : Bool} {block : Option Nat}
    {t : Text} (h : .token k raw ∈ (scanLine first block t).1) : InCodeBody k raw := by
  cases cutFrom_of_mem_scanLine h with
  | indent he | rawText he => exact absurd hk (by rw [he]; decide)
  | doctype t h =>
    exact absurd h (not_mem_of_kinds hk _ (kindsOf_scanDoctype_subset t) (by decide))
  | filter hf h =>
    exact absurd h (not_mem_of_kinds hk _ (kindsOf_scanFilter_subset hf) (by decide))
  | header hh h => exact absurd h (not_mem_of_kinds hk _ (scanHeader_cut hh).1.subset (by decide))
  | attributes t h =>
    exact absurd h (not_mem_of_kinds hk _ (scanAttributes_cut t).1.subset (by decide))
  | output t h => exact inCodeBody_of_mem_scanOutput hk h

/-- Code starts with neither a space nor a tab: these were passed over. -/
theorem InCodeBody.head_of_code (h : InCodeBody .code raw) : ∀ c ∈ raw.head?, isGap c = false := by
  obtain ⟨t, h⟩ := h
  have hprefix : raw <+: t.dropWhile isGap := by
    unfold scanCodeBody at h
    split at h
    · rename_i before after hlast
      split at h
      · simp only [List.mem_cons, Piece.token.injEq, true_and, reduceCtorEq, false_and,
          List.not_mem_nil, or_false] at h
        rw [h, splitLastArrow_eq_some hlast]
        exact List.prefix_append ..
      · simp only [List.mem_singleton, Piece.token.injEq, true_and] at h
        rw [h]
    · simp only [List.mem_singleton, Piece.token.injEq, true_and] at h
      rw [h]
  intro c hc
  obtain ⟨u, rfl⟩ := List.head?_eq_some_iff.1 hc
  obtain ⟨more, hmore⟩ := hprefix
  have hnot := List.head?_dropWhile_not isGap t
  rw [← hmore] at hnot
  exact hnot

/-- A list of names starts, behind blanks, with a character of a name. -/
theorem exists_name_of_isNameList {t : Text} (h : isNameList t = true) :
    ∃ gap c more, t = gap ++ c :: more ∧ (∀ d ∈ gap, isVariableGap d = true) ∧ IsNameChar c := by
  obtain ⟨w, ws, hw⟩ := List.exists_cons_of_ne_nil (Text.splitAt_ne_nil ',' t)
  have hname : isName (Text.trimBoth isVariableGap w) = true := by
    rw [isNameList, hw, List.all_cons, Bool.and_eq_true] at h
    exact h.1
  have hfirst : ∃ more, t = w ++ more := by
    rcases splitAt_cases ',' t with ⟨-, hs⟩ | ⟨l, rest, rfl, -, hs⟩
    · rw [hw] at hs
      cases hs
      exact ⟨[], (List.append_nil _).symm⟩
    · rw [hw] at hs
      cases hs
      exact ⟨_, rfl⟩
  obtain ⟨more, hmore⟩ := hfirst
  -- the first word is blanks, its name and what trimming takes off behind that
  obtain ⟨hne, hchars⟩ := isName_chars hname
  obtain ⟨c, name, hc⟩ := List.exists_cons_of_ne_nil hne
  obtain ⟨after, hafter⟩ := Text.exists_dropWhile_eq isVariableGap w
  refine ⟨w.takeWhile isVariableGap, c, name ++ after ++ more, ?_, ?_, ?_⟩
  · calc t = w.takeWhile isVariableGap ++ w.dropWhile isVariableGap ++ more := by
          rw [List.takeWhile_append_dropWhile, hmore]
      _ = w.takeWhile isVariableGap ++ c :: (name ++ after ++ more) := by
          rw [hafter, hc]
          simp
  · exact fun d hd => List.mem_takeWhile_imp hd
  · exact hchars c (by rw [hc]; exact List.mem_cons_self ..)

theorem InCodeBody.exists_names (h : InCodeBody .vars raw) :
    ∃ after, isNameList after = true ∧ raw = after.dropWhile (· == ' ') := by
  obtain ⟨t, h⟩ := h
  unfold scanCodeBody at h
  split at h
  · rename_i before after hlast
    split at h
    · rename_i hnames
      simp only [List.mem_cons, Piece.token.injEq, true_and, reduceCtorEq, false_and,
        List.not_mem_nil, or_false, false_or] at h
      exact ⟨after, hnames, h⟩
    · simp at h
  · simp at h

/-- Variables have a text. What is left out before it are blanks that may surround a name, and the
first of them is no space. -/
theorem InCodeBody.lead_of_vars (h : InCodeBody .vars raw) :
    raw.trim ≠ [] ∧ (∀ c ∈ leadOf raw, isVariableGap c = true) ∧ ∀ c ∈ raw.head?, c ≠ ' ' := by
  obtain ⟨after, hnames, rfl⟩ := h.exists_names
  obtain ⟨gap, c, more, rfl, hgap, hc⟩ := exists_name_of_isNameList hnames
  have hspace : isSpace c = false := hc.isSpace_eq_false
  have hplain : (c == ' ') = false := by
    rw [Bool.eq_false_iff]
    intro he
    rw [isSpace_of_beq_space he] at hspace
    cases hspace
  have hraw : (gap ++ c :: more).dropWhile (· == ' ') = gap.dropWhile (· == ' ') ++ c :: more :=
    dropWhile_append_of_head (by simpa using hplain) gap
  refine ⟨?_, ?_, ?_⟩
  · intro hnone
    have hink := ink_trim ((gap ++ c :: more).dropWhile (· == ' '))
    rw [hnone, hraw, ink_append] at hink
    simp [Text.ink, hspace] at hink
  · intro d hd
    have hlead : d ∈ (gap.dropWhile (· == ' ')).takeWhile isSpace := by
      rw [leadOf, hraw] at hd
      split at hd
      · cases hd
      · rwa [takeWhile_append_of_head (by simpa using hspace)] at hd
    exact hgap d ((List.dropWhile_sublist _).subset ((List.takeWhile_prefix _).subset hlead))
  · intro d hd he
    have hnot := List.head?_dropWhile_not (· == ' ') (gap ++ c :: more)
    rw [hd, he] at hnot
    cases hnot

end Pieces

/-! ## Tokens of code -/

/-- The token was cut from a text that starts at `offset`, as the piece `raw` of a line. -/
structure CutAt (offset : Nat) (text : Text) (t : Token) (raw : Text) : Prop where
  stretch : ∃ before after, text = before ++ (raw ++ after) ∧
    t.start.offset = offset + before.length
  contents : t.contents = Piece.contents t.kind raw
  piece : ∃ first block l, .token t.kind raw ∈ (scanLine first block l).1

theorem exists_cutAt_of_mem_lexLines (file : Text) :
    ∀ n offset block text, ∀ t ∈ lexLines file n offset block (splitLines text),
      ∃ raw, CutAt offset text t raw := by
  refine forall_mem_lexLines ?_ ?_
  · intro n offset block l more t ht
    obtain ⟨-, hoff⟩ := le_column_of_mem_placePieces ht
    obtain ⟨before, raw, after, hl, hcol, hcon, hmem⟩ :=
      exists_stretch_of_mem_placePieces (scanLine_covers (n == 0) block l) ht
    refine ⟨raw, ⟨before, after ++ more, ?_, ?_⟩, hcon, n == 0, block, l, hmem⟩
    · rw [hl]
      simp only [List.append_assoc]
    · rw [hoff, hcol, Nat.zero_add]
  · rintro n offset l text t - ⟨raw, ⟨before, after, rfl, hoff⟩, hcon, hpiece⟩
    refine ⟨raw, ⟨l ++ '\n' :: before, after, by simp, ?_⟩, hcon, hpiece⟩
    rw [hoff, List.length_append, List.length_cons]
    omega

/-- Code and variables stand where their place says, but for White_Space that is left out before
their text: the characters of the normalised text from the offset of the token on are this
White_Space and then its contents, and they are its contents just where there is no such
White_Space. It never starts with a blank that is passed over, which is a space or a tab before code
and a space before variables. Variables are never empty, and all that is left out before them are
blanks that may surround a name. -/
theorem lex_code_positions {file source : Text} {t : Token} (ht : t ∈ lex file source)
    (hk : t.kind = .code ∨ t.kind = .vars) :
    ∃ lead : Text, lead.isBlank = true ∧
      ((normalise source).drop t.start.offset).take (lead ++ t.contents).length =
        lead ++ t.contents ∧
      (((normalise source).drop t.start.offset).take t.contents.length = t.contents ↔ lead = []) ∧
      (∀ c ∈ lead.head?, c ≠ ' ' ∧ (t.kind = .code → c ≠ '\t')) ∧
      (t.kind = .vars → t.contents ≠ [] ∧ ∀ c ∈ lead, isVariableGap c = true) := by
  obtain ⟨raw, ⟨before, after, htext, hoff⟩, hcon, first, block, l, hmem⟩ :=
    exists_cutAt_of_mem_lexLines file 0 0 none (normalise source) t ht
  have hbody : InCodeBody t.kind raw := inCodeBody_of_mem_scanLine (by simpa [trimmedKinds]) hmem
  have htrim : t.contents = raw.trim := by
    rw [hcon]
    rcases hk with hk | hk <;> rw [hk] <;> rfl
  have hdrop : (normalise source).drop t.start.offset = raw ++ after := by
    rw [htext, hoff, Nat.zero_add, List.drop_left]
  have hhead : ∀ c ∈ (leadOf raw).head?, c ∈ raw.head? := by
    intro c hc
    obtain ⟨u, hu⟩ := List.head?_eq_some_iff.1 hc
    obtain ⟨more, hmore⟩ := leadOf_prefix raw
    rw [← hmore, hu]
    rfl
  rw [hdrop, htrim]
  refine ⟨leadOf raw, isBlank_leadOf raw, ?_, take_trim_eq_iff raw after, ?_, ?_⟩
  · obtain ⟨more, hmore⟩ := exists_leadOf_append raw
    calc (raw ++ after).take (leadOf raw ++ raw.trim).length
        = ((leadOf raw ++ raw.trim) ++ (more ++ after)).take (leadOf raw ++ raw.trim).length := by
          rw [List.append_assoc, ← List.append_assoc raw.trim, ← List.append_assoc, ← hmore]
      _ = leadOf raw ++ raw.trim := List.take_left
  · intro c hc
    rcases hk with hk | hk
    · rw [hk] at hbody
      have hgap := hbody.head_of_code c (hhead c hc)
      simpa [isGap, hk] using hgap
    · rw [hk] at hbody
      exact ⟨hbody.lead_of_vars.2.2 c (hhead c hc), by simp [hk]⟩
  · intro hvars
    rw [hvars] at hbody
    exact ⟨hbody.lead_of_vars.1, hbody.lead_of_vars.2.1⟩

/-- The variables behind an arrow and a tab: the tab is left out before them. -/
theorem lex_code_positions_behind_tab :
    let source := "- a ->\tb".toList
    let vars : Token := ⟨.vars, { column := 6, offset := 6 }, ['b']⟩
    vars ∈ lex [] source ∧ vars.kind = .vars ∧
      ∃ lead : Text, (source.drop 6).take (lead ++ ['b']).length = lead ++ ['b'] ∧ lead ≠ [] ∧
        ∀ c ∈ lead, isVariableGap c = true := by
  intro source vars
  have hvars : vars ∈ lex [] source := by decide +kernel
  obtain ⟨lead, -, hstands, hiff, -, hgap⟩ := lex_code_positions hvars (.inr rfl)
  have hmissed : ((normalise source).drop 6).take 1 ≠ ['b'] := by decide +kernel
  refine ⟨hvars, rfl, lead, hstands, fun hnone => hmissed (hiff.2 hnone), (hgap rfl).2⟩

/-- Neither variables behind a tab nor code behind a blank that is not ASCII stands where its place
says. -/
theorem lex_misplaces_code_behind_blanks :
    (∃ t ∈ lex [] "- a ->\tb".toList, t.kind = .vars ∧ t.contents = ['b'] ∧
      ((normalise "- a ->\tb".toList).drop t.start.offset).take t.contents.length = ['\t']) ∧
    ∃ t ∈ lex [] "- \u00a0a".toList, t.kind = .code ∧ t.contents = ['a'] ∧
      ((normalise "- \u00a0a".toList).drop t.start.offset).take t.contents.length =
        ['\u00a0'] := by
  constructor
  · refine ⟨⟨.vars, { column := 6, offset := 6 }, ['b']⟩, ?_, rfl, rfl, ?_⟩ <;> decide +kernel
  · refine ⟨⟨.code, { column := 2, offset := 2 }, ['a']⟩, ?_, rfl, rfl, ?_⟩ <;> decide +kernel

end Offside
