import Offside.Editor.Session
import Offside.Proofs.Positions

/-!
# Semantic tokens, there and back

The words that are sent for a document are differences of places, cut to 32 bits. They come out
right because tokens stand one behind the other, on lines further and further down: no difference is
below zero, whatever is left out in between. In a document whose line numbers and columns fit into
32 bits the editor therefore finds exactly the places of the tokens again
(`Session.decode_semanticTokens`).
-/

namespace Offside

/-! ## The places of tokens, line by line -/

/-- The token stands on a line before that of the other, or before it on the same line. -/
def Token.Precedes (t u : Token) : Prop :=
  t.start.line < u.start.line ∨
    t.start.line = u.start.line ∧ t.start.column + t.contents.length ≤ u.start.column

theorem pairwise_precedes_placePieces (file : Text) (line offset column : Nat) (ps : List Piece) :
    (placePieces file line offset column ps).Pairwise Token.Precedes := by
  refine (pairwise_placePieces file line offset column ps).imp_of_mem ?_
  intro t u ht hu hends
  have hline : t.start.line = u.start.line := by rw [(mem_placePieces ht).1, (mem_placePieces hu).1]
  have hoff := (le_column_of_mem_placePieces ht).2
  have hoff' := (le_column_of_mem_placePieces hu).2
  unfold Token.EndsBefore at hends
  exact .inr ⟨hline, by omega⟩

/-- The tokens of lines stand one behind the other. -/
theorem pairwise_precedes_lexLines (file : Text) (n offset : Nat) (block : Option Nat)
    (ts : List Text) : (lexLines file n offset block ts).Pairwise Token.Precedes := by
  induction ts generalizing n offset block with
  | nil => exact .nil
  | cons l ts ih =>
    rw [lexLines_cons]
    refine List.pairwise_append.2 ⟨pairwise_precedes_placePieces .., ih .., ?_⟩
    intro t ht u hu
    have hline := (mem_placePieces ht).1
    have hlines := le_line_of_mem_lexLines hu
    exact .inl (by omega)

/-- A token stands on its line where its column says. -/
theorem exists_line_of_mem_lexLines {file : Text} {n offset : Nat} {block : Option Nat}
    {ts : List Text} {t : Token} (h : t ∈ lexLines file n offset block ts) :
    ∃ k before raw after, t.start.line = n + k ∧ ts[k]? = some (before ++ (raw ++ after)) ∧
      t.start.column = before.length ∧ t.contents = Piece.contents t.kind raw := by
  induction ts generalizing n offset block with
  | nil => cases h
  | cons l ts ih =>
    rw [lexLines_cons] at h
    rcases List.mem_append.1 h with h | h
    · obtain ⟨before, raw, after, rfl, hcol, hcon, -⟩ :=
        exists_stretch_of_mem_placePieces (scanLine_covers (n == 0) block l) h
      exact ⟨0, before, raw, after, (mem_placePieces h).1, rfl, by omega, hcon⟩
    · obtain ⟨k, before, raw, after, hline, hl, hcol, hcon⟩ := ih h
      exact ⟨k + 1, before, raw, after, by omega, by rw [List.getElem?_cons_succ, hl], hcol, hcon⟩

namespace Editor

/-! ## Ranges -/

/-- A stretch of a line and what is there, by its index into the legend. -/
structure TokenRange where
  line : Nat
  start : Nat
  length : Nat
  type : Nat
deriving DecidableEq, Repr

namespace TokenRange

/-- The range of a token: where it starts, the number of characters that it has, and what it is. A
token that is nothing to an editor has none, nor has an empty one. -/
def ofToken? (t : Token) : Option TokenRange :=
  match SemanticToken.typeOf? t.kind with
  | none => none
  | some type =>
    if t.contents = [] then none
    else some ⟨t.start.line, t.start.column, t.contents.length, type.toNat⟩

/-- The range lies before the other one. -/
def Precedes (r s : TokenRange) : Prop :=
  r.line < s.line ∨ r.line = s.line ∧ r.start + r.length ≤ s.start

theorem ofToken?_eq_some {t : Token} {r : TokenRange} (h : ofToken? t = some r) :
    r.line = t.start.line ∧ r.start = t.start.column ∧ r.length = t.contents.length := by
  unfold ofToken? at h
  split at h
  · cases h
  · split at h
    · cases h
    · cases h
      exact ⟨rfl, rfl, rfl⟩

theorem pairwise_precedes_ofTokens {ts : List Token} (h : ts.Pairwise Token.Precedes) :
    (ts.filterMap ofToken?).Pairwise Precedes := by
  refine List.Pairwise.filterMap ofToken? ?_ h
  intro t u htu r hr s hs
  obtain ⟨hline, hstart, hlength⟩ := ofToken?_eq_some hr
  obtain ⟨hline', hstart', -⟩ := ofToken?_eq_some hs
  unfold Precedes
  rw [hline, hstart, hlength, hline', hstart']
  exact htu

/-- What is to be sent for ranges after a place, before it is cut to words. -/
def differencesFrom (line start : Nat) : List TokenRange → List Int
  | [] => []
  | r :: rs =>
    [(r.line : Int) - line, if r.line = line then (r.start : Int) - start else r.start, r.length,
      r.type, 0] ++ differencesFrom r.line r.start rs

end TokenRange

/-- Every line number and every column of a document, also that of the end of a line, fits into 32
bits. -/
def FitsWords (document : Text) : Prop :=
  ∀ k l, (splitLines (normalise document))[k]? = some l → k < UInt32.size ∧ l.length < UInt32.size

theorem FitsWords.of_lines {document : Text}
    (hlines : (splitLines (normalise document)).length < UInt32.size)
    (hcolumns : ∀ l ∈ splitLines (normalise document), l.length < UInt32.size) :
    FitsWords document := by
  intro k l hl
  have hk := (List.getElem?_eq_some_iff.1 hl).1
  exact ⟨Nat.lt_trans hk hlines, hcolumns l (List.mem_of_getElem? hl)⟩

theorem FitsWords.token {document file : Text} (h : FitsWords document) {t : Token}
    (ht : t ∈ lex file document) :
    t.start.line < UInt32.size ∧ t.start.column + t.contents.length < UInt32.size := by
  obtain ⟨k, before, raw, after, hline, hl, hcol, hcon⟩ := exists_line_of_mem_lexLines ht
  obtain ⟨hk, hlength⟩ := h k _ hl
  have hle := length_contents_le t.kind raw
  rw [← hcon] at hle
  simp only [List.length_append] at hlength
  exact ⟨by omega, by omega⟩

/-! ## Words -/

namespace SemanticToken

/-- The range that a semantic token stands for. -/
def range (t : SemanticToken) : TokenRange :=
  ⟨t.line.toNat, t.column.toNat, t.length.toNat, t.type.toNat⟩

/-- The editor finds the semantic tokens again that were sent. -/
theorem decodeFrom_encodeFrom (line column : UInt32) (ts : List SemanticToken) :
    decodeFrom line column (encodeFrom line column ts) = ts := by
  induction ts generalizing line column with
  | nil => rfl
  | cons t ts ih =>
    have hline : line + (t.line - line) = t.line := by grind
    have hzero : t.line - line = 0 ↔ t.line = line := by grind
    have hcolumn : (if t.line - line = 0 then
        column + (if t.line = line then t.column - column else t.column)
        else if t.line = line then t.column - column else t.column) = t.column := by
      by_cases h : t.line = line
      · rw [if_pos (hzero.2 h), if_pos h]
        grind
      · rw [if_neg (mt hzero.1 h), if_neg h]
    simp only [encodeFrom, List.cons_append, List.nil_append, decodeFrom]
    rw [hline, hcolumn, ih]

theorem decode_encode (ts : List SemanticToken) : decode (encode ts) = ts :=
  decodeFrom_encodeFrom 0 0 ts

/-- No difference wraps around, as long as each semantic token lies behind the one before it. -/
theorem encodeFrom_exact {line column : UInt32} {ts : List SemanticToken}
    (hfirst : ∀ t ∈ ts, line.toNat < t.line.toNat ∨
      line.toNat = t.line.toNat ∧ column.toNat ≤ t.column.toNat)
    (hpairs : (ts.map range).Pairwise TokenRange.Precedes) :
    (encodeFrom line column ts).map (fun w => (w.toNat : Int)) =
      TokenRange.differencesFrom line.toNat column.toNat (ts.map range) := by
  induction ts generalizing line column with
  | nil => rfl
  | cons t ts ih =>
    rw [List.map_cons] at hpairs
    obtain ⟨hbehind, hpairs⟩ := List.pairwise_cons.1 hpairs
    obtain ⟨hthis, -⟩ := List.forall_mem_cons.1 hfirst
    have hnext : ∀ u ∈ ts, t.line.toNat < u.line.toNat ∨
        t.line.toNat = u.line.toNat ∧ t.column.toNat ≤ u.column.toNat := by
      intro u hu
      rcases hbehind u.range (List.mem_map_of_mem hu) with hlt | ⟨heq, hle⟩
      · exact .inl hlt
      · exact .inr ⟨heq, Nat.le_trans (Nat.le_add_right _ _) hle⟩
    have hrest := ih hnext hpairs
    have hlines : ((t.line - line).toNat : Int) = (t.line.toNat : Int) - line.toNat := by
      rw [UInt32.toNat_sub_of_le _ _ (UInt32.le_iff_toNat_le.2 (by omega))]
      omega
    have hcolumns : ((if t.line = line then t.column - column else t.column).toNat : Int) =
        if t.line.toNat = line.toNat then (t.column.toNat : Int) - column.toNat
          else t.column.toNat := by
      by_cases h : t.line = line
      · rw [if_pos h, if_pos (congrArg UInt32.toNat h)]
        rw [h] at hthis
        rw [UInt32.toNat_sub_of_le _ _ (UInt32.le_iff_toNat_le.2 (by omega))]
        omega
      · rw [if_neg h, if_neg (fun he => h (UInt32.toNat_inj.1 he))]
    simp only [encodeFrom, List.map_append, List.map_cons, List.map_nil,
      TokenRange.differencesFrom, range, hlines, hcolumns, hrest]
    rfl

/-- The semantic token of a token that fits into words has the range of the token. -/
theorem map_range_ofToken? {t : Token} (hline : t.start.line < UInt32.size)
    (hend : t.start.column + t.contents.length < UInt32.size) :
    (ofToken? t).map range = TokenRange.ofToken? t := by
  unfold ofToken? TokenRange.ofToken?
  cases typeOf? t.kind with
  | none => rfl
  | some type =>
    dsimp only
    split
    · rfl
    · have hcolumn : t.start.column < UInt32.size := by omega
      have hlength : t.contents.length < UInt32.size := by omega
      rw [Option.map_some, range, UInt32.toNat_ofNat_of_lt' hline,
        UInt32.toNat_ofNat_of_lt' hcolumn, UInt32.toNat_ofNat_of_lt' hlength]

/-- The semantic tokens of a document that fits into words have the ranges of its tokens. -/
theorem map_range_lex {document : Text} (h : FitsWords document) (file : Text) :
    ((lex file document).filterMap ofToken?).map range =
      (lex file document).filterMap TokenRange.ofToken? := by
  rw [List.map_filterMap]
  apply List.filterMap_congr
  intro t ht
  obtain ⟨hline, hend⟩ := h.token ht
  exact map_range_ofToken? hline hend

end SemanticToken

/-! ## Sessions -/

/-- What is sent for an open document whose line numbers and columns fit into 32 bits is read by the
editor as the ranges of the tokens of the document, in their order and none left out that is
something to an editor and not empty. No word is a difference that was cut, and no range overlaps
another. -/
theorem Session.decode_semanticTokens {s : Session} {uri document : Text}
    (hopen : s.document? uri = some document) (hfits : FitsWords document) :
    ∃ words, s.semanticTokens uri = .ok words ∧
      (SemanticToken.decode words).map SemanticToken.range =
        (lex (Path.base uri) document).filterMap TokenRange.ofToken? ∧
      words.map (fun w => (w.toNat : Int)) = TokenRange.differencesFrom 0 0
        ((lex (Path.base uri) document).filterMap TokenRange.ofToken?) ∧
      ((SemanticToken.decode words).map SemanticToken.range).Pairwise
        fun r r' => r.line < r'.line ∨ r.line = r'.line ∧ r.start + r.length ≤ r'.start := by
  have hranges := SemanticToken.map_range_lex hfits (Path.base uri)
  have hpairs : ((lex (Path.base uri) document).filterMap TokenRange.ofToken?).Pairwise
      TokenRange.Precedes :=
    TokenRange.pairwise_precedes_ofTokens (pairwise_precedes_lexLines ..)
  refine ⟨_, by rw [semanticTokens, hopen], ?_, ?_, ?_⟩
  · rw [SemanticToken.decode_encode]
    exact hranges
  · rw [← hranges] at hpairs ⊢
    apply SemanticToken.encodeFrom_exact _ hpairs
    -- nothing lies before the very start
    intro t _
    rw [UInt32.toNat_zero]
    omega
  · rw [SemanticToken.decode_encode, hranges]
    exact hpairs

/-- An editor that has opened two lines of a list: the variable of the loop keeps its distance from
the arrow, and the line below starts to count anew. -/
theorem Session.decode_semanticTokens_of_loop :
    let uri := "file:///home/me/list.kor".toList
    let document := "- items -> a\n  %li= a".toList
    let s : Session := { documents := [(uri, document)] }
    let words := [0, 0, 1, 0, 0, 0, 2, 5, 3, 0, 0, 6, 2, 0, 0, 0, 3, 1, 3, 0,
      1, 2, 1, 0, 0, 0, 1, 2, 1, 0, 0, 2, 1, 0, 0, 0, 2, 1, 3, 0]
    s.document? uri = some document ∧ FitsWords document ∧ s.semanticTokens uri = .ok words ∧
      (SemanticToken.decode words).map SemanticToken.range =
        (lex (Path.base uri) document).filterMap TokenRange.ofToken? := by
  intro uri document s words
  have hopen : s.document? uri = some document := by decide +kernel
  have hfits : FitsWords document := .of_lines (by decide +kernel) (by decide +kernel)
  have hwords : s.semanticTokens uri = .ok words := by decide +kernel
  obtain ⟨sent, hsent, hdecode, -⟩ := Session.decode_semanticTokens hopen hfits
  rw [hwords] at hsent
  cases hsent
  exact ⟨hopen, hfits, hwords, hdecode⟩

end Editor
end Offside
