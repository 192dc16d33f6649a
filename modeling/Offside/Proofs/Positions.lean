import Offside.Proofs.Coverage

/-!
# Where tokens stand

Messages, diagnostics and the colours of an editor all rest on the places of tokens. A place is the
running sum of the lengths of the pieces before it, over blank lines, raw blocks and whatever was
tried and undone on a line; this module says what it comes to. In the normalised text, read as a
sequence of characters, a token stands where its offset says (`StandsIn`): the offset is that of
the start of its line and its column, and the characters from there on are its text. Tokens of code
and of variables are the exception, since their text is trimmed.
-/

namespace Offside

theorem lineStart?_zero (t : Text) : t.lineStart? 0 = some 0 := by
  cases t <;> rfl

/-- Behind a line and its line feed the lines are counted anew. -/
theorem lineStart?_append {l : Text} (h : '\n' ∉ l) (t : Text) (k : Nat) :
    Text.lineStart? (l ++ '\n' :: t) (k + 1) = (t.lineStart? k).map (· + (l.length + 1)) := by
  induction l with
  | nil => rfl
  | cons c l ih =>
    rw [List.mem_cons, not_or] at h
    have hc : c ≠ '\n' := fun he => h.1 he.symm
    show (Text.lineStart? (l ++ '\n' :: t) (if c = '\n' then k else k + 1)).map (· + 1) = _
    rw [if_neg hc, ih h.2, Option.map_map]
    rfl

/-- A text has one line only, or a first line that a line feed ends. -/
theorem splitAt_cases (sep : Char) (t : Text) :
    sep ∉ t ∧ Text.splitAt sep t = [t] ∨
      ∃ l rest, t = l ++ sep :: rest ∧ sep ∉ l ∧
        Text.splitAt sep t = l :: Text.splitAt sep rest := by
  induction t with
  | nil => exact .inl ⟨List.not_mem_nil, rfl⟩
  | cons c t ih =>
    by_cases hc : c = sep
    · refine .inr ⟨[], t, by rw [hc]; rfl, List.not_mem_nil, ?_⟩
      rw [Text.splitAt, if_pos hc]
    · have hne : sep ≠ c := fun he => hc he.symm
      rw [Text.splitAt, if_neg hc]
      rcases ih with ⟨ht, hs⟩ | ⟨l, rest, rfl, hl, hs⟩
      · refine .inl ⟨List.not_mem_cons_of_ne_of_not_mem hne ht, ?_⟩
        rw [hs]
      · refine .inr ⟨c :: l, rest, rfl, List.not_mem_cons_of_ne_of_not_mem hne hl, ?_⟩
        rw [hs]

/-! ## The tokens of a line -/

theorem length_trim_le (t : Text) : t.trim.length ≤ t.length := by
  have hleft : t.trimLeft.length ≤ t.length := (List.dropWhile_sublist _).length_le
  have hright : (t.trimLeft.reverse.dropWhile isSpace).length ≤ t.trimLeft.reverse.length :=
    (List.dropWhile_sublist _).length_le
  rw [List.length_reverse] at hright
  rw [Text.trim, Text.trimRight, List.length_reverse]
  omega

/-- A token carries at most the characters of its piece. -/
theorem length_contents_le (kind : TokenKind) (raw : Text) :
    (Piece.contents kind raw).length ≤ raw.length := by
  unfold Piece.contents
  split
  · exact length_trim_le raw
  · exact length_trim_le raw
  · exact Nat.le_refl _

theorem contents_eq_raw {kind : TokenKind} (hc : kind ≠ .code) (hv : kind ≠ .vars) (raw : Text) :
    Piece.contents kind raw = raw := by
  unfold Piece.contents
  split
  · exact absurd rfl hc
  · exact absurd rfl hv
  · rfl

theorem le_column_of_mem_placePieces {file : Text} {line offset column : Nat} {ps : List Piece}
    {t : Token} (h : t ∈ placePieces file line offset column ps) :
    column ≤ t.start.column ∧ t.start.offset = offset + t.start.column := by
  fun_induction placePieces file line offset column ps with
  | case1 => cases h
  | case2 column raw ps ih =>
    obtain ⟨hle, hoff⟩ := ih h
    exact ⟨by omega, hoff⟩
  | case3 column kind raw ps ih =>
    rcases List.mem_cons.1 h with rfl | h
    · exact ⟨Nat.le_refl _, rfl⟩
    · obtain ⟨hle, hoff⟩ := ih h
      exact ⟨by omega, hoff⟩

/-- One token ends before the other starts. -/
def Token.EndsBefore (t u : Token) : Prop := t.start.offset + t.contents.length ≤ u.start.offset

theorem pairwise_placePieces (file : Text) (line offset column : Nat) (ps : List Piece) :
    (placePieces file line offset column ps).Pairwise Token.EndsBefore := by
  fun_induction placePieces file line offset column ps with
  | case1 => exact .nil
  | case2 column raw ps ih => exact ih
  | case3 column kind raw ps ih =>
    refine List.pairwise_cons.2 ⟨?_, ih⟩
    intro u hu
    obtain ⟨hle, hoff⟩ := le_column_of_mem_placePieces hu
    have hlen := length_contents_le kind raw
    show offset + column + (Piece.contents kind raw).length ≤ u.start.offset
    omega

/-- A token of a line is one of the stretches that the line is cut into, and its column counts the
characters before it. -/
theorem exists_stretch_of_mem_placePieces {file : Text} {line offset column : Nat}
    {ps : List Piece} {l rest : Text} (hps : Covers ps l rest) {t : Token}
    (h : t ∈ placePieces file line offset column ps) :
    ∃ before raw after, l = before ++ (raw ++ after) ∧
      t.start.column = column + before.length ∧ t.contents = Piece.contents t.kind raw ∧
      .token t.kind raw ∈ ps := by
  induction hps generalizing column with
  | nil => cases h
  | @token ps l rest kind raw hps ih =>
    rw [placePieces] at h
    rcases List.mem_cons.1 h with rfl | h
    · exact ⟨[], raw, l, rfl, rfl, rfl, List.mem_cons_self ..⟩
    · obtain ⟨before, raw', after, rfl, hcol, hcon, hmem⟩ := ih h
      refine ⟨raw ++ before, raw', after, by rw [List.append_assoc], ?_, hcon,
        List.mem_cons_of_mem _ hmem⟩
      rw [hcol, List.length_append, Nat.add_assoc]
  | @skip ps l rest raw hraw hps ih =>
    rw [placePieces] at h
    obtain ⟨before, raw', after, rfl, hcol, hcon, hmem⟩ := ih h
    refine ⟨raw ++ before, raw', after, by rw [List.append_assoc], ?_, hcon,
      List.mem_cons_of_mem _ hmem⟩
    rw [hcol, List.length_append, Nat.add_assoc]

/-! ## The tokens of a text -/

/-- The token stands in a text, the first line of which has number `n` and which starts at
`offset`: its line is one of the text, its offset is that of the line and its column, and what it
was made from stands there. -/
structure StandsIn (n offset : Nat) (text : Text) (t : Token) : Prop where
  line : n ≤ t.start.line
  place : ∃ start, text.lineStart? (t.start.line - n) = some start ∧
    t.start.offset = offset + start + t.start.column
  stretch : ∃ before raw after, text = before ++ (raw ++ after) ∧
    t.start.offset = offset + before.length ∧ t.contents = Piece.contents t.kind raw

namespace StandsIn

variable {n offset : Nat} {text l : Text} {t : Token}

/-- What stands in the first line stands in the text. -/
theorem of_line {file : Text} {ps : List Piece} (hps : Covers ps l [])
    (h : t ∈ placePieces file n offset 0 ps) (more : Text) :
    StandsIn n offset (l ++ more) t := by
  obtain ⟨-, hoff⟩ := le_column_of_mem_placePieces h
  obtain ⟨before, raw, after, rfl, hcol, hcon, -⟩ := exists_stretch_of_mem_placePieces hps h
  have hline := (mem_placePieces h).1
  refine ⟨Nat.le_of_eq hline.symm, ⟨0, ?_, hoff⟩, ?_⟩
  · rw [hline, Nat.sub_self, lineStart?_zero]
  · refine ⟨before, raw, after ++ more, by simp only [List.append_assoc], ?_, hcon⟩
    rw [hoff, hcol, Nat.zero_add]

/-- What stands in the lines after the first one stands in the text. -/
theorem of_rest (hl : '\n' ∉ l) (h : StandsIn (n + 1) (offset + l.length + 1) text t) :
    StandsIn n offset (l ++ '\n' :: text) t := by
  obtain ⟨hline, ⟨start, hstart, hoff⟩, before, raw, after, rfl, hoff', hcon⟩ := h
  refine ⟨by omega, ⟨start + (l.length + 1), ?_, by omega⟩, ?_⟩
  · rw [show t.start.line - n = t.start.line - (n + 1) + 1 by omega, lineStart?_append hl, hstart]
    rfl
  · refine ⟨l ++ '\n' :: before, raw, after, by simp, ?_, hcon⟩
    rw [hoff', List.length_append, List.length_cons]
    omega

/-- No token reaches beyond the text. -/
theorem end_le (h : StandsIn n offset text t) :
    t.start.offset + t.contents.length ≤ offset + text.length := by
  obtain ⟨before, raw, after, rfl, hoff, hcon⟩ := h.stretch
  have hlen := length_contents_le t.kind raw
  rw [hoff, hcon]
  simp only [List.length_append]
  omega

/-- The characters from the offset on are the text of the token, unless it was trimmed. -/
theorem take_drop (h : StandsIn n offset text t) (hc : t.kind ≠ .code) (hv : t.kind ≠ .vars) :
    (text.drop (t.start.offset - offset)).take t.contents.length = t.contents := by
  obtain ⟨before, raw, after, rfl, hoff, hcon⟩ := h.stretch
  rw [contents_eq_raw hc hv] at hcon
  rw [hcon, hoff, Nat.add_sub_cancel_left, List.drop_left, List.take_left]

end StandsIn

theorem le_offset_of_mem_lexLines {file : Text} {line offset : Nat} {block : Option Nat}
    {ts : List Text} {t : Token} (h : t ∈ lexLines file line offset block ts) :
    offset ≤ t.start.offset := by
  induction ts generalizing line offset block with
  | nil => cases h
  | cons l ts ih =>
    rw [lexLines_cons] at h
    rcases List.mem_append.1 h with h | h
    · have := (le_column_of_mem_placePieces h).2
      omega
    · have := ih h
      omega

theorem pairwise_lexLines (file : Text) (n offset : Nat) (block : Option Nat) (ts : List Text) :
    (lexLines file n offset block ts).Pairwise Token.EndsBefore := by
  induction ts generalizing n offset block with
  | nil => exact .nil
  | cons l ts ih =>
    rw [lexLines_cons]
    refine List.pairwise_append.2 ⟨pairwise_placePieces .., ih .., ?_⟩
    -- a token of the first line ends within it, and the others start behind it
    intro t ht u hu
    have hend := (StandsIn.of_line (scanLine_covers (n == 0) block l) ht []).end_le
    have hstart := le_offset_of_mem_lexLines hu
    rw [List.append_nil] at hend
    show t.start.offset + t.contents.length ≤ u.start.offset
    omega

/-- What holds of the tokens of a line within any text that starts with it, and can be carried over
a line that is put before the text, holds of all tokens of a text. -/
theorem forall_mem_lexLines {file : Text} {Holds : (n offset : Nat) → Text → Token → Prop}
    (hfirst : ∀ n offset block l more,
      ∀ t ∈ placePieces file n offset 0 (scanLine (n == 0) block l).1, Holds n offset (l ++ more) t)
    (hnext : ∀ n offset l text t, '\n' ∉ l → Holds (n + 1) (offset + l.length + 1) text t →
      Holds n offset (l ++ '\n' :: text) t)
    (n offset : Nat) (block : Option Nat) (text : Text) :
    ∀ t ∈ lexLines file n offset block (splitLines text), Holds n offset text t := by
  generalize hlines : splitLines text = ts
  -- by induction on the lines, of which the text is put together again
  induction ts generalizing n offset block text with
  | nil => simp [lexLines]
  | cons l ts ih =>
    intro t ht
    rw [lexLines_cons] at ht
    rcases splitAt_cases '\n' text with ⟨-, hs⟩ | ⟨l', text', rfl, hl, hs⟩
    · rw [splitLines, hs] at hlines
      cases hlines
      rw [lexLines, List.append_nil] at ht
      have := hfirst n offset block l [] t ht
      rwa [List.append_nil] at this
    · rw [splitLines, hs] at hlines
      obtain ⟨rfl, hrest⟩ := List.cons.inj hlines
      rcases List.mem_append.1 ht with ht | ht
      · exact hfirst n offset block l' ('\n' :: text') t ht
      · exact hnext n offset l' text' t hl (ih _ _ _ text' hrest t ht)

/-- The tokens of a text that starts with line `n` at `offset` stand in it, one behind the
other. -/
theorem lexLines_standIn (file : Text) (n offset : Nat) (block : Option Nat) (text : Text) :
    (lexLines file n offset block (splitLines text)).Pairwise Token.EndsBefore ∧
      ∀ t ∈ lexLines file n offset block (splitLines text), StandsIn n offset text t := by
  refine ⟨pairwise_lexLines .., forall_mem_lexLines ?_ ?_ n offset block text⟩
  · intro n offset block l more t ht
    exact .of_line (scanLine_covers (n == 0) block l) ht more
  · intro n offset l text t hl h
    exact h.of_rest hl

/-- The places of the tokens of a source are right. No token overlaps another; the offset of a token
is that of the start of its line and its column; and the characters of the normalised text from its
offset on are its contents, except for the trimmed tokens of code and of variables. -/
theorem lex_positions (file source : Text) :
    (lex file source).Pairwise (fun t u => t.start.offset + t.contents.length ≤ u.start.offset) ∧
      ∀ t ∈ lex file source,
        (∃ start, (normalise source).lineStart? t.start.line = some start ∧
          t.start.offset = start + t.start.column) ∧
        (t.kind ≠ .code → t.kind ≠ .vars →
          ((normalise source).drop t.start.offset).take t.contents.length = t.contents) := by
  obtain ⟨hpairs, hstand⟩ := lexLines_standIn file 0 0 none (normalise source)
  refine ⟨hpairs, ?_⟩
  intro t ht
  obtain ⟨start, hstart, hoff⟩ := (hstand t ht).place
  refine ⟨⟨start, hstart, by omega⟩, ?_⟩
  intro hc hv
  exact (hstand t ht).take_drop hc hv

end Offside
