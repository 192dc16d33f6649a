import Offside.Program.Tag
import Offside.Token.Lex

/-!
# The grammar of a line

Cutting a line into pieces backtracks a good deal, but what comes out has a simple form: a line of
markup is a filter, a tag with what follows it, or plain output (`LineBody`), and every braced
expression and quoted string among its pieces has both of its delimiters (`Piece.Delimited`). The
forms are stated for the kinds of the tokens alone, which is all that reading a line depends on.
-/

namespace Offside

/-- Closing braces takes at least one character, and the last one that it takes is a brace. -/
theorem braceEnd_eq_some {depth n : Nat} {t : Text} (h : braceEnd depth t = some n) :
    1 ≤ n ∧ n ≤ t.length ∧ ∃ inner, t.take n = inner ++ ['}'] := by
  induction t generalizing depth n with
  | nil => cases h
  | cons c t ih =>
    -- whatever the first character does to the depth, the end is that of the rest
    have hstep : ∀ d, (braceEnd d t).map (· + 1) = some n →
        1 ≤ n ∧ n ≤ (c :: t).length ∧ ∃ inner, (c :: t).take n = inner ++ ['}'] := by
      intro d hd
      obtain ⟨m, hm, rfl⟩ := Option.map_eq_some_iff.1 hd
      obtain ⟨-, hle, inner, hi⟩ := ih hm
      refine ⟨by omega, Nat.succ_le_succ hle, c :: inner, ?_⟩
      rw [List.take_succ_cons, hi, List.cons_append]
    unfold braceEnd at h
    split at h
    · exact hstep _ h
    · split at h
      · rename_i hc
        split at h
        · cases h
          exact ⟨Nat.le_refl 1, by simp, [], by rw [hc]; rfl⟩
        · exact hstep _ h
      · exact hstep _ h

namespace Piece

/-- The kind of the token that a piece is, if it is one. -/
def kind? : Piece → Option TokenKind
  | skip _ => none
  | token kind _ => some kind

/-- Braced expressions and quoted strings stand between their delimiters. -/
def Delimited : Piece → Prop
  | token .braced raw => ∃ inner, raw = '{' :: (inner ++ ['}'])
  | token .quoted raw => ∃ inner, raw = '"' :: (inner ++ ['"'])
  | _ => True

end Piece

/-- The kinds of the tokens among the pieces of a line. -/
def kindsOf (ps : List Piece) : List TokenKind := ps.filterMap Piece.kind?

@[simp] theorem kindsOf_nil : kindsOf [] = [] := rfl

@[simp] theorem kindsOf_skip (raw : Text) (ps : List Piece) :
    kindsOf (.skip raw :: ps) = kindsOf ps := rfl

@[simp] theorem kindsOf_token (kind : TokenKind) (raw : Text) (ps : List Piece) :
    kindsOf (.token kind raw :: ps) = kind :: kindsOf ps := rfl

@[simp] theorem kindsOf_append (ps qs : List Piece) :
    kindsOf (ps ++ qs) = kindsOf ps ++ kindsOf qs := List.filterMap_append

/-! ## The forms -/

/-- The mark of an id or of a class. -/
def IsMark (k : TokenKind) : Prop := k = .idMark ∨ k = .classMark

/-- Ids and classes. -/
inductive Marks : List TokenKind → Prop
  | nil : Marks []
  | cons {m v : TokenKind} {ks : List TokenKind} :
      IsMark m → v ∈ Tag.wordKinds → Marks ks → Marks (m :: v :: ks)

/-- A tag header: a name or a first id or class, and more ids and classes. -/
inductive Header : List TokenKind → Prop
  | named {v : TokenKind} {ks : List TokenKind} :
      v ∈ Tag.wordKinds → Marks ks → Header (.tagMark :: v :: ks)
  | marked {m v : TokenKind} {ks : List TokenKind} :
      IsMark m → v ∈ Tag.wordKinds → Marks ks → Header (m :: v :: ks)

/-- Attributes, each with its equals sign and its value. -/
inductive Attributes : List TokenKind → Prop
  | nil : Attributes []
  | cons {n v : TokenKind} {ks : List TokenKind} :
      n ∈ Tag.wordKinds → v ∈ Tag.valueKinds → Attributes ks → Attributes (n :: .equals :: v :: ks)

/-- The mark of a code line. -/
def IsCodeMark (k : TokenKind) : Prop := k = .outputMark ∨ k = .silentMark

/-- What a line puts out. -/
inductive OutputLine : List TokenKind → Prop
  | text : OutputLine [.text]
  | comment : OutputLine [.commentMark, .comment]
  | code {m : TokenKind} : IsCodeMark m → OutputLine [m, .code]
  | lambda {m : TokenKind} : IsCodeMark m → OutputLine [m, .code, .arrow, .vars]

/-- What follows a tag on its line. -/
inductive TagTail : List TokenKind → Prop
  | nothing : TagTail []
  | filter : TagTail [.filterMark]
  | filterText : TagTail [.filterMark, .text]
  | output {ks : List TokenKind} : OutputLine ks → TagTail ks

/-- A line of markup without its indentation. The flag tells whether it is a filter that stands
alone, which opens a raw block. -/
inductive LineBody : Bool → List TokenKind → Prop
  | filter : LineBody true [.filterMark]
  | filterText : LineBody false [.filterMark, .text]
  | output {ks : List TokenKind} : OutputLine ks → LineBody false ks
  | tag {hs as ks : List TokenKind} :
      Header hs → Attributes as → TagTail ks → LineBody false (hs ++ (as ++ ks))

theorem Header.head {hs : List TokenKind} (h : Header hs) :
    ∃ k ks, hs = k :: ks ∧ k ∈ [.tagMark, .idMark, .classMark] := by
  cases h with
  | named => exact ⟨_, _, rfl, by simp⟩
  | marked hm => exact ⟨_, _, rfl, by rcases hm with rfl | rfl <;> simp⟩

theorem OutputLine.head {ks : List TokenKind} (h : OutputLine ks) :
    ∃ k ks', ks = k :: ks' ∧ k ∈ [.text, .commentMark, .outputMark, .silentMark] := by
  cases h with
  | text | comment => exact ⟨_, _, rfl, by simp⟩
  | code hm | lambda hm => exact ⟨_, _, rfl, by rcases hm with rfl | rfl <;> simp⟩

theorem TagTail.head {ks : List TokenKind} (h : TagTail ks) :
    ks = [] ∨ ∃ k ks', ks = k :: ks' ∧
      k ∈ [.filterMark, .text, .commentMark, .outputMark, .silentMark] := by
  cases h with
  | nothing => exact .inl rfl
  | filter | filterText => exact .inr ⟨_, _, rfl, by simp⟩
  | output h =>
    obtain ⟨k, ks', rfl, hk⟩ := h.head
    exact .inr ⟨k, ks', rfl, List.mem_cons_of_mem _ hk⟩

theorem Tag.not_indent_of_mem_valueKinds {k : TokenKind} (h : k ∈ valueKinds) : k ≠ .indent := by
  rintro rfl
  simp [valueKinds] at h

theorem Tag.not_indent_of_mem_wordKinds {k : TokenKind} (h : k ∈ wordKinds) : k ≠ .indent := by
  rintro rfl
  simp [wordKinds] at h

theorem IsMark.not_indent {k : TokenKind} (h : IsMark k) : k ≠ .indent := by
  rintro rfl
  simp [IsMark] at h

/-! The kinds that the parts of a line are made of. -/

theorem Marks.subset {ks : List TokenKind} (h : Marks ks) :
    ks ⊆ [.idMark, .classMark, .braced, .word] := by
  induction h with
  | nil => exact List.nil_subset _
  | cons hm hv _ ih =>
    refine List.cons_subset.2 ⟨?_, List.cons_subset.2 ⟨?_, ih⟩⟩
    · rcases hm with rfl | rfl <;> simp
    · simp only [Tag.wordKinds, List.mem_cons] at hv ⊢
      exact .inr (.inr hv)

theorem Header.subset {ks : List TokenKind} (h : Header ks) :
    ks ⊆ [.tagMark, .idMark, .classMark, .braced, .word] := by
  cases h with
  | named hv hms =>
    refine List.cons_subset.2 ⟨by simp, List.cons_subset.2 ⟨?_, ?_⟩⟩
    · simp only [Tag.wordKinds, List.mem_cons] at hv ⊢
      exact .inr (.inr (.inr hv))
    · exact List.subset_cons_of_subset _ hms.subset
  | marked hm hv hms => exact List.subset_cons_of_subset _ (Marks.cons hm hv hms).subset

theorem Attributes.subset {ks : List TokenKind} (h : Attributes ks) :
    ks ⊆ [.equals, .braced, .quoted, .word] := by
  induction h with
  | nil => exact List.nil_subset _
  | cons hn hv _ ih =>
    refine List.cons_subset.2 ⟨?_, List.cons_subset.2 ⟨by simp, List.cons_subset.2 ⟨?_, ih⟩⟩⟩
    · rcases List.mem_cons.1 hn with rfl | hn
      · simp
      · simp [List.mem_singleton.1 hn]
    · simp only [Tag.valueKinds, List.mem_cons] at hv ⊢
      exact .inr hv

theorem OutputLine.subset {ks : List TokenKind} (h : OutputLine ks) :
    ks ⊆ [.text, .commentMark, .comment, .outputMark, .silentMark, .code, .arrow, .vars] := by
  cases h with
  | text | comment => simp
  | code hm | lambda hm => rcases hm with rfl | rfl <;> simp

/-- No form has an indentation in it, so that a line has just the one that it starts with. -/
theorem LineBody.indent_not_mem {alone : Bool} {ks : List TokenKind} (h : LineBody alone ks) :
    .indent ∉ ks := by
  have houtput : ∀ {ks}, OutputLine ks → .indent ∉ ks := fun h hmem => by simpa using h.subset hmem
  cases h with
  | filter | filterText => simp
  | output h => exact houtput h
  | @tag hs as ks hh ha hk =>
    have hheader : .indent ∉ hs := fun hmem => by simpa using hh.subset hmem
    have hattributes : .indent ∉ as := fun hmem => by simpa using ha.subset hmem
    have htail : .indent ∉ ks := by
      cases hk with
      | nothing | filter | filterText => simp
      | output h => exact houtput h
    simp only [List.mem_append, not_or]
    exact ⟨hheader, hattributes, htail⟩

theorem LineBody.ne_nil {alone : Bool} {ks : List TokenKind} (h : LineBody alone ks) : ks ≠ [] := by
  cases h with
  | filter | filterText => simp
  | output h =>
    obtain ⟨k, ks, rfl, -⟩ := h.head
    simp
  | tag hh =>
    obtain ⟨k, ks, rfl, -⟩ := hh.head
    simp

/-! ## Values, headers and attributes -/

theorem scanValue_token {stop : Char → Bool} {quotes : Bool} {t rest : Text} {p : Piece}
    (h : scanValue stop quotes t = some (p, rest)) :
    ∃ k raw, p = .token k raw ∧ (Piece.token k raw).Delimited ∧ k ∈ Tag.valueKinds ∧
      (quotes = false → k ∈ Tag.wordKinds) := by
  unfold scanValue at h
  split at h
  · cases h
  · obtain ⟨n, hn, he⟩ := Option.map_eq_some_iff.1 h
    obtain ⟨-, -, inner, hi⟩ := braceEnd_eq_some hn
    cases he
    exact ⟨.braced, _, rfl, ⟨inner, by rw [hi]⟩, by simp [Tag.valueKinds], by simp [Tag.wordKinds]⟩
  · split at h
    · rename_i hq
      split at h
      · cases h
        exact ⟨.quoted, _, rfl, ⟨_, rfl⟩, by simp [Tag.valueKinds], by simp [hq]⟩
      · cases h
    · cases h
  · split at h
    · cases h
    · cases h
      exact ⟨.word, _, rfl, trivial, by simp [Tag.valueKinds], by simp [Tag.wordKinds]⟩

theorem isMark_of_headerMark? {c : Char} {k : TokenKind} (h : headerMark? c = some k) :
    IsMark k := by
  unfold headerMark? at h
  split at h
  · cases h
    exact .inl rfl
  · split at h
    · cases h
      exact .inr rfl
    · cases h

theorem IsMark.delimited {k : TokenKind} (h : IsMark k) (raw : Text) :
    (Piece.token k raw).Delimited := by
  rcases h with rfl | rfl <;> trivial

/-- The pieces are of the given form, and nothing among them is left open. -/
def Cut (form : List TokenKind → Prop) (ps : List Piece) : Prop :=
  form (kindsOf ps) ∧ ∀ p ∈ ps, p.Delimited

theorem scanMarks_of_not_mark {c : Char} (hc : headerMark? c = none) (t : Text) :
    scanMarks (c :: t) = some ([], c :: t) := by
  unfold scanMarks
  rw [hc]

theorem scanMarks_of_mark {c : Char} {k : TokenKind} {t rest : Text} {v : Piece}
    (hc : headerMark? c = some k) (hv : scanValue endsHeaderWord false t = some (v, rest)) :
    scanMarks (c :: t) = (scanMarks rest).map fun r => (.token k [c] :: v :: r.1, r.2) := by
  rw [scanMarks, hc]
  dsimp only
  split
  · rename_i h
    rw [hv] at h
    cases h
  · rename_i h
    rw [hv] at h
    cases h
    rfl

/-- Where there are ids and classes at all, they are a header of their own. -/
theorem scanMarks_cut {t rest : Text} {ps : List Piece} (h : scanMarks t = some (ps, rest)) :
    Cut Marks ps ∧ (ps = [] ∨ Cut Header ps) := by
  fun_induction scanMarks t generalizing ps rest with
  | case1 =>
    cases h
    exact ⟨⟨.nil, by simp⟩, .inl rfl⟩
  | case2 c t hc =>
    cases h
    exact ⟨⟨.nil, by simp⟩, .inl rfl⟩
  | case3 => cases h
  | case4 c t kind hk v rest' hv ih =>
    obtain ⟨⟨qs, rest''⟩, hq, he⟩ := Option.map_eq_some_iff.1 h
    obtain ⟨k, raw, rfl, hd, -, hword⟩ := scanValue_token hv
    obtain ⟨⟨hmarks, hds⟩, -⟩ := ih hq
    cases he
    have hmark := isMark_of_headerMark? hk
    have hall : ∀ p ∈ .token kind [c] :: .token k raw :: qs, p.Delimited :=
      List.forall_mem_cons.2 ⟨hmark.delimited _, List.forall_mem_cons.2 ⟨hd, hds⟩⟩
    exact ⟨⟨.cons hmark (hword rfl) hmarks, hall⟩, .inr ⟨.marked hmark (hword rfl) hmarks, hall⟩⟩

theorem scanHeader_of_not_mark {c : Char} (hname : c ≠ '%') (hc : headerMark? c = none)
    (t : Text) : scanHeader (c :: t) = none := by
  unfold scanHeader
  split
  · rename_i he
    exact absurd (List.cons.inj he).1 hname
  · rw [scanMarks_of_not_mark hc]

theorem scanHeader_of_marks {c : Char} {t rest : Text} {p : Piece} {ps : List Piece} (hc : c ≠ '%')
    (h : scanMarks (c :: t) = some (p :: ps, rest)) :
    scanHeader (c :: t) = some (p :: ps, rest) := by
  unfold scanHeader
  split
  · rename_i he
    exact absurd (List.cons.inj he).1 hc
  · rw [h]

theorem scanHeader_cut {t rest : Text} {ps : List Piece} (h : scanHeader t = some (ps, rest)) :
    Cut Header ps := by
  unfold scanHeader at h
  split at h
  · split at h
    · cases h
    · rename_i v rest' hv
      obtain ⟨⟨qs, rest''⟩, hq, he⟩ := Option.map_eq_some_iff.1 h
      obtain ⟨k, raw, rfl, hd, -, hword⟩ := scanValue_token hv
      obtain ⟨⟨hmarks, hds⟩, -⟩ := scanMarks_cut hq
      cases he
      exact ⟨.named (hword rfl) hmarks,
        List.forall_mem_cons.2 ⟨trivial, List.forall_mem_cons.2 ⟨hd, hds⟩⟩⟩
  · split at h
    · cases h
    · rename_i hne
      rcases (scanMarks_cut h).2 with rfl | hheader
      · exact absurd h (hne _)
      · exact hheader

theorem scanAttribute_pieces {t rest : Text} {ps : List Piece}
    (h : scanAttribute t = some (ps, rest)) :
    ∃ n v, kindsOf ps = [n, .equals, v] ∧ n ∈ Tag.wordKinds ∧ v ∈ Tag.valueKinds ∧
      ∀ p ∈ ps, p.Delimited := by
  unfold scanAttribute at h
  split at h
  · cases h
  · split at h
    · rename_i name t' hn
      obtain ⟨⟨value, rest'⟩, hv, he⟩ := Option.map_eq_some_iff.1 h
      obtain ⟨n, raw, rfl, hnd, -, hword⟩ := scanValue_token hn
      obtain ⟨v, raw', rfl, hvd, hvalue, -⟩ := scanValue_token hv
      cases he
      refine ⟨n, v, rfl, hword rfl, hvalue, ?_⟩
      simp only [List.forall_mem_cons]
      exact ⟨trivial, hnd, trivial, hvd, by simp⟩
    · cases h

theorem scanAttributes_of_none {t : Text} (h : scanAttribute t = none) :
    scanAttributes t = ([], t) := by
  rw [scanAttributes]
  split
  · rfl
  · rename_i h'
    rw [h] at h'
    cases h'

theorem scanAttributes_of_some {t rest : Text} {ps : List Piece}
    (h : scanAttribute t = some (ps, rest)) :
    scanAttributes t = (ps ++ (scanAttributes rest).1, (scanAttributes rest).2) := by
  rw [scanAttributes]
  split
  · rename_i h'
    rw [h] at h'
    cases h'
  · rename_i h'
    rw [h] at h'
    cases h'
    rfl

theorem scanAttributes_cut (t : Text) : Cut Attributes (scanAttributes t).1 := by
  fun_induction scanAttributes t with
  | case1 t h => exact ⟨.nil, by simp⟩
  | case2 t ps rest h qs rest' hq ih =>
    obtain ⟨n, v, hk, hn, hv, hd⟩ := scanAttribute_pieces h
    rw [hq] at ih
    obtain ⟨has, hds⟩ := ih
    refine ⟨?_, List.forall_mem_append.2 ⟨hd, hds⟩⟩
    rw [kindsOf_append, hk]
    exact .cons hn hv has

/-! ## Filters and output -/

theorem scanFilter_cut {t : Text} {ps : List Piece} {content : Bool}
    (h : scanFilter t = some (ps, content)) :
    (kindsOf ps = if content then [.filterMark, .text] else [.filterMark]) ∧
      ∀ p ∈ ps, p.Delimited := by
  unfold scanFilter at h
  split at h
  · split at h <;> cases h <;> exact ⟨rfl, by simp [Piece.Delimited]⟩
  · cases h

theorem scanTrailingFilter_cut {t : Text} {ps : List Piece} (h : scanTrailingFilter t = some ps) :
    Cut TagTail ps := by
  unfold scanTrailingFilter at h
  split at h
  · cases h
  · obtain ⟨⟨qs, content⟩, hq, he⟩ := Option.map_eq_some_iff.1 h
    obtain ⟨hk, hd⟩ := scanFilter_cut hq
    cases he
    refine ⟨?_, List.forall_mem_cons.2 ⟨trivial, hd⟩⟩
    rw [kindsOf_skip, hk]
    cases content with
    | false => exact .filter
    | true => exact .filterText

theorem IsCodeMark.delimited {k : TokenKind} (h : IsCodeMark k) (raw : Text) :
    (Piece.token k raw).Delimited := by
  rcases h with rfl | rfl <;> trivial

theorem scanCode_cut {kind : TokenKind} (hk : IsCodeMark kind) (mark t : Text) :
    Cut OutputLine (scanCode kind mark t) := by
  unfold scanCode
  split
  · exact ⟨.text, by simp [Piece.Delimited]⟩
  · have hplain : ∀ gap body, Cut OutputLine
        [.token kind mark, .skip gap, .token .code body] := by
      intro gap body
      refine ⟨.code hk, ?_⟩
      simp only [List.forall_mem_cons]
      exact ⟨hk.delimited mark, trivial, trivial, by simp⟩
    dsimp only
    unfold scanCodeBody
    split
    · split
      · refine ⟨.lambda hk, ?_⟩
        simp only [List.forall_mem_cons]
        exact ⟨hk.delimited mark, trivial, trivial, trivial, trivial, trivial, by simp⟩
      · exact hplain ..
    · exact hplain ..

/-- Where there is anything left of the line, it is put out. -/
theorem scanOutput_cut {t : Text} (h : t ≠ []) : Cut OutputLine (scanOutput t) := by
  unfold scanOutput
  split
  · exact absurd rfl h
  · exact scanCode_cut (.inr rfl) ..
  · exact scanCode_cut (.inl rfl) ..
  · exact scanCode_cut (.inl rfl) ..
  · exact ⟨.comment, by simp [Piece.Delimited]⟩
  · exact ⟨.comment, by simp [Piece.Delimited]⟩
  · exact ⟨.text, by simp [Piece.Delimited]⟩

theorem scanOutput_tail (t : Text) : Cut TagTail (scanOutput t) := by
  by_cases h : t = []
  · rw [h]
    exact ⟨.nothing, by simp [scanOutput]⟩
  · obtain ⟨hk, hd⟩ := scanOutput_cut h
    exact ⟨.output hk, hd⟩

/-! ## Whole lines -/

/-- What follows the indentation of a line is a filter, a tag with its tail, or output. -/
theorem scanBody_cut {t : Text} (h : t ≠ []) : Cut (LineBody (scanBody t).2) (scanBody t).1 := by
  unfold scanBody
  split
  · rename_i ps content hf
    obtain ⟨hk, hd⟩ := scanFilter_cut hf
    refine ⟨?_, hd⟩
    rw [hk]
    cases content with
    | false => exact .filter
    | true => exact .filterText
  · split
    · obtain ⟨hk, hd⟩ := scanOutput_cut h
      exact ⟨.output hk, hd⟩
    · rename_i header rest hh
      obtain ⟨hhk, hhd⟩ := scanHeader_cut hh
      obtain ⟨hak, had⟩ := scanAttributes_cut rest
      dsimp only
      split
      · rename_i ps hp
        obtain ⟨hpk, hpd⟩ := scanTrailingFilter_cut hp
        refine ⟨?_, ?_⟩
        · simp only [kindsOf_append, List.append_assoc]
          exact .tag hhk hak hpk
        · simp only [List.forall_mem_append]
          exact ⟨⟨hhd, had⟩, hpd⟩
      · obtain ⟨hok, hod⟩ := scanOutput_tail
          (Text.splitWhile isGap (scanAttributes rest).2).2
        refine ⟨?_, ?_⟩
        · simp only [kindsOf_append, kindsOf_skip, List.append_assoc]
          exact .tag hhk hak hok
        · simp only [List.forall_mem_append, List.forall_mem_cons]
          exact ⟨⟨hhd, had⟩, trivial, hod⟩

end Offside
