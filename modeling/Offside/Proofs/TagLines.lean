import Offside.Proofs.Interpolating
import Offside.Proofs.LinesBelow
import Offside.Proofs.TagAttributes

/-!
# Tag lines

A tag line is written from a name, ids, classes and attributes (`TagLine.text`). The scanner finds
each of them where it was written, and the line alone is read as one entry, the empty element that
they describe (`Program.ofTokens_tag_line`).
-/

namespace Offside

/-! ## Values -/

theorem Text.dropEnds_delimited {a b : Char} (ha : a.utf8Size = 1) (hb : b.utf8Size = 1)
    (t : Text) : Text.dropEnds (a :: (t ++ [b])) = t := by
  cases t with
  | nil => simp [dropEnds, stump, ha, hb]
  | cons c t =>
    have hlast : (c :: (t ++ [b])).dropLast = c :: t := by
      rw [← List.cons_append, List.dropLast_concat]
    simp [dropEnds, stump, ha, hb, hlast]

theorem endsHeaderWord_of_endsWord (c : Char) (h : endsWord c = true) :
    endsHeaderWord c = true := by
  simp [endsHeaderWord, h]

/-- A name or a value of a tag line. -/
inductive TagValue where
  | bare (word : Text)
  | braced (source : Text)
  | quoted (inner : Text)
deriving DecidableEq, Repr

namespace TagValue

/-- The value as it is written. -/
def text : TagValue → Text
  | bare word => word
  | braced source => '{' :: (source ++ ['}'])
  | quoted inner => '"' :: (inner ++ ['"'])

/-- The kind of its token. -/
def kind : TagValue → TokenKind
  | bare _ => .word
  | braced _ => .braced
  | quoted _ => .quoted

/-- What the value is in the output: an expression, or text that is escaped. -/
def fragments : TagValue → Fragments
  | bare word => [.literal word.escape]
  | braced source => [.expression source true]
  | quoted inner => [.literal inner.escape]

/-- The value can be written where a word ends at the characters `ends`, and where a quoted string
can stand if `quotes` says so. -/
def Fits (ends : Char → Bool) (quotes : Bool) : TagValue → Prop
  | bare word => word ≠ [] ∧ word.any ends = false
  | braced source => source.BraceBalanced
  | quoted inner => quotes = true ∧ '"' ∉ inner

instance (ends : Char → Bool) (quotes : Bool) (v : TagValue) : Decidable (v.Fits ends quotes) :=
  match v with
  | bare word => inferInstanceAs (Decidable (word ≠ [] ∧ word.any ends = false))
  | braced source => inferInstanceAs (Decidable source.BraceBalanced)
  | quoted inner => inferInstanceAs (Decidable (quotes = true ∧ '"' ∉ inner))

variable {ends : Char → Bool} {quotes : Bool} {v : TagValue}

/-- A value that is written is found, up to a character that ends a word. -/
theorem scanValue_text (hends : ∀ c, endsWord c = true → ends c = true) (hv : v.Fits ends quotes)
    {rest : Text} (hrest : ∀ c ∈ rest.head?, ends c = true) :
    scanValue ends quotes (v.text ++ rest) = some (.token v.kind v.text, rest) := by
  cases v with
  | bare word =>
    obtain ⟨hne, hany⟩ := hv
    have hword : ∀ c ∈ word, ends c = false := by simpa using hany
    have hsplit : Text.splitWhile (!ends ·) (word ++ rest) = (word, rest) := by
      apply splitWhile_of_all
      · simpa using hword
      · simpa using hrest
    obtain ⟨c, w, rfl⟩ := List.exists_cons_of_ne_nil hne
    have hc : ends c = false := hword c (List.mem_cons_self ..)
    have hnot : ∀ d, endsWord d = true → c ≠ d := by
      rintro d hd rfl
      rw [hends c hd] at hc
      cases hc
    show scanValue ends quotes (c :: w ++ rest) = some (.token .word (c :: w), rest)
    unfold scanValue
    split
    · rename_i he
      cases he
    · rename_i he
      exact absurd (List.cons.inj he).1 (hnot _ (by decide))
    · rename_i he
      exact absurd (List.cons.inj he).1 (hnot _ (by decide))
    · rw [hsplit]
  | braced source =>
    have hend : braceEnd 1 (source ++ '}' :: rest) = some (source.length + 1) :=
      braceEnd_of_braceBalanced hv rest
    have htext : text (braced source) ++ rest = '{' :: (source ++ '}' :: rest) := by simp [text]
    rw [htext, scanValue, hend]
    simp [text, kind, List.take_append, List.drop_append]
  | quoted inner =>
    obtain ⟨rfl, hinner⟩ := hv
    have hsplit : Text.splitWhile (· != '"') (inner ++ '"' :: rest) = (inner, '"' :: rest) := by
      apply splitWhile_of_all
      · intro c hc
        simp only [bne_iff_ne]
        rintro rfl
        exact hinner hc
      · simp
    have htext : text (quoted inner) ++ rest = '"' :: (inner ++ '"' :: rest) := by simp [text]
    rw [htext, scanValue, if_pos rfl, hsplit]
    rfl

theorem Fits.exists_cons (hv : v.Fits endsWord quotes) : ∃ c t, v.text = c :: t ∧ c ≠ ' ' := by
  cases v with
  | bare word =>
    obtain ⟨hne, hany⟩ := hv
    obtain ⟨c, w, rfl⟩ := List.exists_cons_of_ne_nil hne
    refine ⟨c, w, rfl, ?_⟩
    rintro rfl
    cases hany
  | braced | quoted => exact ⟨_, _, rfl, by decide⟩

theorem contents_text (v : TagValue) : Piece.contents v.kind v.text = v.text := by
  cases v <;> rfl

theorem tagValue_token (v : TagValue) (pos : Location) :
    tagValue ⟨v.kind, pos, v.text⟩ = v.fragments := by
  cases v with
  | bare word => rfl
  | braced source =>
    show [Fragment.expression (Text.dropEnds ('{' :: (source ++ ['}']))) true] = _
    rw [Text.dropEnds_delimited (by decide) (by decide)]
    rfl
  | quoted inner =>
    show Fragments.ofLiteral (Text.escape (Text.dropEnds ('"' :: (inner ++ ['"'])))) = _
    rw [Text.dropEnds_delimited (by decide) (by decide)]
    rfl

theorem kind_mem_valueKinds (v : TagValue) : v.kind ∈ Tag.valueKinds := by
  cases v <;> simp [kind, Tag.valueKinds]

theorem Fits.kind_mem_wordKinds (hv : v.Fits ends false) : v.kind ∈ Tag.wordKinds := by
  cases v with
  | bare | braced => simp [kind, Tag.wordKinds]
  | quoted => cases hv.1

end TagValue

/-! ## Headers and attributes -/

/-- The mark of an id or a class. -/
inductive HeaderMark where
  | id
  | cls
deriving DecidableEq, Repr

namespace HeaderMark

/-- The mark as it is written. -/
def char : HeaderMark → Char
  | id => '#'
  | cls => '.'

/-- The kind of its token. -/
def kind : HeaderMark → TokenKind
  | id => .idMark
  | cls => .classMark

theorem beq_kind (m n : HeaderMark) : (m.kind == n.kind) = (m == n) := by
  cases m <;> cases n <;> rfl

theorem headerMark?_char (m : HeaderMark) : headerMark? m.char = some m.kind := by
  cases m <;> rfl

theorem endsHeaderWord_char (m : HeaderMark) : endsHeaderWord m.char = true := by
  cases m <;> rfl

theorem contents_char (m : HeaderMark) : Piece.contents m.kind [m.char] = [m.char] := by
  cases m <;> rfl

end HeaderMark

namespace TagLine

/-- Ids and classes as they are written. -/
def marksText (marks : List (HeaderMark × TagValue)) : Text :=
  marks.flatMap fun m => m.1.char :: m.2.text

/-- The name and the ids and classes as they are written. -/
def headerText (name : Option TagValue) (marks : List (HeaderMark × TagValue)) : Text :=
  name.elim [] (fun v => '%' :: v.text) ++ marksText marks

/-- Attributes as they are written, a space before each. -/
def attributesText (attributes : List (TagValue × TagValue)) : Text :=
  attributes.flatMap fun a => ' ' :: (a.1.text ++ '=' :: a.2.text)

/-- The pieces of ids and classes. -/
def marksPieces (marks : List (HeaderMark × TagValue)) : List Piece :=
  marks.flatMap fun m => [.token m.1.kind [m.1.char], .token m.2.kind m.2.text]

/-- The pieces of the name and of ids and classes. -/
def headerPieces (name : Option TagValue) (marks : List (HeaderMark × TagValue)) : List Piece :=
  name.elim [] (fun v => [.token .tagMark ['%'], .token v.kind v.text]) ++ marksPieces marks

/-- The pieces of attributes. -/
def attributesPieces (attributes : List (TagValue × TagValue)) : List Piece :=
  attributes.flatMap fun a =>
    [.skip [' '], .token a.1.kind a.1.text, .token .equals ['='], .token a.2.kind a.2.text]

section Scanning

variable {name : Option TagValue} {marks : List (HeaderMark × TagValue)}
  {attributes : List (TagValue × TagValue)} {rest : Text}

/-- A header starts with a mark. -/
theorem exists_cons_headerText (hsome : name ≠ none ∨ marks ≠ []) (rest : Text) :
    ∃ c t, headerText name marks ++ rest = c :: t ∧ (c = '%' ∨ c = '#' ∨ c = '.') := by
  cases name with
  | some v => exact ⟨_, _, rfl, .inl rfl⟩
  | none =>
    obtain ⟨m, ms, rfl⟩ := List.exists_cons_of_ne_nil (hsome.resolve_left (by simp))
    exact ⟨_, _, rfl, .inr (by cases m.1 <;> simp [HeaderMark.char])⟩

/-- What follows a value of the header ends it. -/
theorem head?_marksText (hrest : ∀ c ∈ rest.head?, c = ' ') :
    ∀ c ∈ (marksText marks ++ rest).head?, endsHeaderWord c = true := by
  cases marks with
  | nil =>
    intro c hc
    rw [hrest c hc]
    rfl
  | cons m marks =>
    rintro c ⟨⟩
    exact m.1.endsHeaderWord_char

theorem scanMarks_marksText (hmarks : ∀ m ∈ marks, m.2.Fits endsHeaderWord false)
    (hrest : ∀ c ∈ rest.head?, c = ' ') :
    scanMarks (marksText marks ++ rest) = some (marksPieces marks, rest) := by
  induction marks with
  | nil =>
    cases rest with
    | nil =>
      show scanMarks [] = _
      rw [scanMarks]
      rfl
    | cons c t =>
      rw [hrest c rfl]
      exact scanMarks_of_not_mark (by decide) t
  | cons m marks ih =>
    obtain ⟨hm, hmarks⟩ := List.forall_mem_cons.1 hmarks
    have hvalue : scanValue endsHeaderWord false (m.2.text ++ (marksText marks ++ rest)) =
        some (.token m.2.kind m.2.text, marksText marks ++ rest) :=
      TagValue.scanValue_text endsHeaderWord_of_endsWord hm (head?_marksText hrest)
    have htext : marksText (m :: marks) ++ rest =
        m.1.char :: (m.2.text ++ (marksText marks ++ rest)) := by simp [marksText]
    rw [htext, scanMarks_of_mark m.1.headerMark?_char hvalue, ih hmarks]
    rfl

theorem head?_attributesText (attributes : List (TagValue × TagValue)) :
    ∀ c ∈ (attributesText attributes).head?, c = ' ' := by
  cases attributes with
  | nil => simp [attributesText]
  | cons a attributes =>
    rintro c ⟨⟩
    rfl

theorem scanHeader_headerText (hname : ∀ v ∈ name, v.Fits endsHeaderWord false)
    (hmarks : ∀ m ∈ marks, m.2.Fits endsHeaderWord false) (hsome : name ≠ none ∨ marks ≠ [])
    (hrest : ∀ c ∈ rest.head?, c = ' ') :
    scanHeader (headerText name marks ++ rest) = some (headerPieces name marks, rest) := by
  cases name with
  | some v =>
    have hvalue : scanValue endsHeaderWord false (v.text ++ (marksText marks ++ rest)) =
        some (.token v.kind v.text, marksText marks ++ rest) :=
      TagValue.scanValue_text endsHeaderWord_of_endsWord (hname v rfl) (head?_marksText hrest)
    have htext : headerText (some v) marks ++ rest =
        '%' :: (v.text ++ (marksText marks ++ rest)) := by simp [headerText]
    rw [htext, scanHeader, hvalue]
    dsimp only
    rw [scanMarks_marksText hmarks hrest]
    rfl
  | none =>
    obtain ⟨m, ms, rfl⟩ := List.exists_cons_of_ne_nil (hsome.resolve_left (by simp))
    have hscan := scanMarks_marksText hmarks hrest
    have hnot : m.1.char ≠ '%' := by cases m.1 <;> decide
    exact scanHeader_of_marks hnot hscan

/-- An attribute is found if a space goes before it. -/
theorem scanAttribute_text {n v : TagValue} (hn : n.Fits endsWord false)
    (htab : n.text.head? ≠ some '\t') (hv : v.Fits endsWord true)
    (hrest : ∀ c ∈ rest.head?, c = ' ') :
    scanAttribute (' ' :: (n.text ++ '=' :: (v.text ++ rest))) =
      some ([.skip [' '], .token n.kind n.text, .token .equals ['='], .token v.kind v.text],
        rest) := by
  have hgap : ∀ c ∈ (n.text ++ '=' :: (v.text ++ rest)).head?, isGap c = false := by
    obtain ⟨c, t, ht, hspace⟩ := hn.exists_cons
    rw [ht] at htab ⊢
    have htab' : c ≠ '\t' := by simpa using htab
    simp [isGap, hspace, htab']
  have hsplit : Text.splitWhile isGap (' ' :: (n.text ++ '=' :: (v.text ++ rest))) =
      ([' '], n.text ++ '=' :: (v.text ++ rest)) :=
    splitWhile_of_all (a := [' ']) (by simp [isGap]) hgap
  have hname : scanValue endsWord false (n.text ++ '=' :: (v.text ++ rest)) =
      some (.token n.kind n.text, '=' :: (v.text ++ rest)) := by
    apply TagValue.scanValue_text (fun _ h => h) hn
    rintro c ⟨⟩
    rfl
  have hvalue : scanValue endsWord true (v.text ++ rest) = some (.token v.kind v.text, rest) := by
    apply TagValue.scanValue_text (fun _ h => h) hv
    intro c hc
    rw [hrest c hc]
    rfl
  unfold scanAttribute
  rw [hsplit]
  dsimp only
  rw [hname]
  show (scanValue endsWord true (v.text ++ rest)).map _ = _
  rw [hvalue]
  rfl

theorem scanAttributes_text
    (h : ∀ a ∈ attributes,
      a.1.Fits endsWord false ∧ a.1.text.head? ≠ some '\t' ∧ a.2.Fits endsWord true) :
    scanAttributes (attributesText attributes) = (attributesPieces attributes, []) := by
  induction attributes with
  | nil =>
    have hnone : scanAttribute [] = none := rfl
    exact scanAttributes_of_none hnone
  | cons a attributes ih =>
    obtain ⟨⟨hn, htab, hv⟩, h⟩ := List.forall_mem_cons.1 h
    have htext : attributesText (a :: attributes) =
        ' ' :: (a.1.text ++ '=' :: (a.2.text ++ attributesText attributes)) := by
      simp [attributesText]
    rw [htext, scanAttributes_of_some (scanAttribute_text hn htab hv (head?_attributesText _)),
      ih h]
    rfl

end Scanning
/-! ## What the tokens spell -/

section Spelling

variable {file : Text} {line offset column : Nat} {name : Option TagValue}
  {marks : List (HeaderMark × TagValue)} {attributes : List (TagValue × TagValue)}

theorem spellsMarks (hmarks : ∀ m ∈ marks, m.2.Fits endsHeaderWord false) :
    Tag.SpellsMarks (placePieces file line offset column (marksPieces marks))
      (marks.map fun m => (m.1.kind, m.2.fragments)) := by
  induction marks generalizing column with
  | nil => exact .nil
  | cons m marks ih =>
    obtain ⟨hm, hmarks⟩ := List.forall_mem_cons.1 hmarks
    have hmark : IsMark m.1.kind := isMark_of_headerMark? m.1.headerMark?_char
    rw [List.map_cons, ← m.2.tagValue_token]
    show Tag.SpellsMarks (placePieces file line offset column
      (.token m.1.kind [m.1.char] :: .token m.2.kind m.2.text :: marksPieces marks)) _
    rw [placePieces, placePieces, m.1.contents_char, m.2.contents_text]
    exact .cons hmark hm.kind_mem_wordKinds (ih hmarks)

theorem spellsAttributes
    (h : ∀ a ∈ attributes,
      a.1.Fits endsWord false ∧ a.1.text.head? ≠ some '\t' ∧ a.2.Fits endsWord true) :
    Tag.SpellsAttributes (placePieces file line offset column (attributesPieces attributes))
      (attributes.map fun a => (a.1.fragments, a.2.fragments)) := by
  induction attributes generalizing column with
  | nil => exact .nil
  | cons a attributes ih =>
    obtain ⟨⟨hn, -⟩, h⟩ := List.forall_mem_cons.1 h
    rw [List.map_cons, ← a.1.tagValue_token, ← a.2.tagValue_token]
    show Tag.SpellsAttributes (placePieces file line offset column
      (.skip [' '] :: .token a.1.kind a.1.text :: .token .equals ['='] ::
        .token a.2.kind a.2.text :: attributesPieces attributes)) _
    rw [placePieces, placePieces, placePieces, placePieces, a.1.contents_text, a.2.contents_text]
    exact .cons hn.kind_mem_wordKinds rfl a.2.kind_mem_valueKinds (ih h)

/-- The tokens of a tag line spell its parts. -/
theorem spells (hname : ∀ v ∈ name, v.Fits endsHeaderWord false)
    (hmarks : ∀ m ∈ marks, m.2.Fits endsHeaderWord false) (hsome : name ≠ none ∨ marks ≠ [])
    (hattributes : ∀ a ∈ attributes,
      a.1.Fits endsWord false ∧ a.1.text.head? ≠ some '\t' ∧ a.2.Fits endsWord true) :
    Tag.Spells (placePieces file line offset column
        (headerPieces name marks ++ attributesPieces attributes))
      ⟨name.map (·.fragments), marks.map fun m => (m.1.kind, m.2.fragments),
        attributes.map fun a => (a.1.fragments, a.2.fragments)⟩ := by
  cases name with
  | some v =>
    show Tag.Spells (placePieces file line offset column (.token .tagMark ['%'] ::
      .token v.kind v.text :: (marksPieces marks ++ attributesPieces attributes))) _
    rw [placePieces, placePieces, placePieces_append, v.contents_text, Option.map_some,
      ← v.tagValue_token]
    exact .named rfl (hname v rfl).kind_mem_wordKinds (spellsMarks hmarks)
      (spellsAttributes hattributes)
  | none =>
    have hne : marks ≠ [] := hsome.resolve_left (by simp)
    show Tag.Spells (placePieces file line offset column
      (marksPieces marks ++ attributesPieces attributes)) _
    rw [placePieces_append]
    exact .unnamed (by simpa using hne) (spellsMarks hmarks) (spellsAttributes hattributes)

/-- The first token of a tag line stands where the line starts. -/
theorem exists_placePieces_headerPieces (hsome : name ≠ none ∨ marks ≠ []) (ps : List Piece) :
    ∃ t ts, placePieces file line offset column (headerPieces name marks ++ ps) = t :: ts ∧
      t.start = { file, line, column, offset := offset + column } := by
  cases name with
  | some v => exact ⟨_, _, rfl, rfl⟩
  | none =>
    obtain ⟨m, ms, rfl⟩ := List.exists_cons_of_ne_nil (hsome.resolve_left (by simp))
    exact ⟨_, _, rfl, rfl⟩

end Spelling
end TagLine

/-! ## The entry of a tag line -/

namespace Text

theorem escapeChar_cases (c : Char) : escapeChar c = [c] ∨ '&' ∈ escapeChar c := by
  unfold escapeChar
  split_ifs
  case neg => exact .inl rfl
  all_goals exact .inr (by decide)

/-- There is nothing to escape in the text. -/
def isPlain (t : Text) : Bool := t.all fun c => escapeChar c == [c]

/-- Only the text itself is escaped to a text in which there is nothing to escape. -/
theorem escape_eq_iff {t u : Text} (hu : u.isPlain = true) : t.escape = u ↔ t = u := by
  replace hu : ∀ c ∈ u, escapeChar c = [c] := by simpa [isPlain] using hu
  induction t generalizing u with
  | nil => rfl
  | cons c t ih =>
    show escapeChar c ++ escape t = u ↔ _
    rcases escapeChar_cases c with hc | hc
    · rw [hc, List.singleton_append]
      cases u with
      | nil => simp
      | cons d u =>
        obtain ⟨-, hu⟩ := List.forall_mem_cons.1 hu
        simp [ih hu]
    · constructor
      · rintro rfl
        exact absurd (hu '&' (List.mem_append_left _ hc)) (by decide)
      · rintro rfl
        rw [hu c (List.mem_cons_self ..), List.mem_singleton] at hc
        exact absurd (hu c (List.mem_cons_self ..)) (by rw [← hc]; decide)

end Text

/-- Of the values that can be a name only the bare word itself is called so. -/
theorem TagValue.isCalled_fragments {ends : Char → Bool} {v : TagValue} (hv : v.Fits ends false)
    {name : String} (hname : Text.isPlain name.toList = true) (w : Fragments) :
    Tag.isCalled name (v.fragments, w) = (v == .bare name.toList) := by
  cases v with
  | bare word =>
    rw [Bool.eq_iff_iff]
    simp [Tag.isCalled, fragments, Fragments.isLiteral, Fragments.describe, Fragment.isLiteral,
      Fragment.describe, Text.escape_eq_iff hname]
  | braced source => rfl
  | quoted => cases hv.1

/-- A tag line: a name, ids and classes, one of them at least, and attributes. None of its parts has
a line break, and no attribute is called `id` or `class` twice. -/
structure TagLine where
  name : Option TagValue
  marks : List (HeaderMark × TagValue)
  attributes : List (TagValue × TagValue)
  name_fits : ∀ v ∈ name, v.Fits endsHeaderWord false
  marks_fit : ∀ m ∈ marks, m.2.Fits endsHeaderWord false
  header_ne : name ≠ none ∨ marks ≠ []
  /-- A tab before the name of an attribute would go with the space before it. -/
  attributes_fit : ∀ a ∈ attributes,
    a.1.Fits endsWord false ∧ a.1.text.head? ≠ some '\t' ∧ a.2.Fits endsWord true
  unbroken : '\n' ∉ TagLine.headerText name marks ++ TagLine.attributesText attributes ∧
    '\r' ∉ TagLine.headerText name marks ++ TagLine.attributesText attributes
  id_once : (attributes.filter (·.1 == .bare "id".toList)).length ≤ 1
  class_once : (attributes.filter (·.1 == .bare "class".toList)).length ≤ 1

namespace TagLine

variable (l : TagLine)

/-- The line as it is written. -/
def text : Text := headerText l.name l.marks ++ attributesText l.attributes

/-- The name of the element. -/
def element : Fragments := (l.name.map (·.fragments)).getD (Fragments.ofString "div")

/-- The id of the element: the value of the attribute that is called so, and otherwise the last id
of the header. -/
def id? : Option Fragments :=
  ((l.attributes.find? (·.1 == .bare "id".toList)).map (·.2.fragments)).or
    ((l.marks.filter (·.1 == .id)).map (·.2.fragments)).getLast?

/-- The classes of the element: those of the header, and then the value of the attribute that is
called so. -/
def classes : List Fragments :=
  (l.marks.filter (·.1 == .cls)).map (·.2.fragments) ++
    (l.attributes.filter (·.1 == .bare "class".toList)).map (·.2.fragments)

/-- The classes as one value, a space between each two. -/
def class? : Option Fragments :=
  if l.classes = [] then none
  else some (l.classes.intersperse (Fragments.ofString " ")).flatten

/-- The other attributes. -/
def others : List (TagValue × TagValue) :=
  l.attributes.filter fun a => a.1 != .bare "id".toList && a.1 != .bare "class".toList

/-- The attributes of the element. -/
def listed : List (Fragments × Fragments) :=
  Tag.attribute? "id" l.id? ++ Tag.attribute? "class" l.class? ++
    l.others.map fun a => (a.1.fragments, a.2.fragments)

/-- The element, which is empty. -/
def entry : Fragments :=
  Fragments.join ([Fragments.ofString "<", l.element]
    ++ l.listed.flatMap (fun a => Tag.attributeText a.1 a.2)
    ++ [Fragments.ofString "></", l.element, Fragments.ofString ">"])

/-- The parts of the line, as its tokens spell them. -/
def parts : Tag.Parts where
  name := l.name.map (·.fragments)
  marks := l.marks.map fun m => (m.1.kind, m.2.fragments)
  attributes := l.attributes.map fun a => (a.1.fragments, a.2.fragments)

theorem called_parts {name : String} (hname : Text.isPlain name.toList = true) :
    l.parts.called name = (l.attributes.filter (·.1 == .bare name.toList)).map
      fun a => (a.1.fragments, a.2.fragments) := by
  rw [Tag.Parts.called, parts, List.filter_map]
  congr 1
  apply List.filter_congr
  intro a ha
  exact TagValue.isCalled_fragments (l.attributes_fit a ha).1 hname _

theorem length_called_parts {name : String} (hname : Text.isPlain name.toList = true)
    (honce : (l.attributes.filter (·.1 == .bare name.toList)).length ≤ 1) :
    (l.parts.called name).length ≤ 1 := by
  rw [l.called_parts hname, List.length_map]
  exact honce

theorem marks_parts (m : HeaderMark) :
    (l.parts.marks.filter (·.1 == m.kind)).map (·.2) =
      (l.marks.filter (·.1 == m)).map (·.2.fragments) := by
  rw [parts, List.filter_map, List.map_map]
  congr 1
  apply List.filter_congr
  intro a _
  exact a.1.beq_kind m

theorem idValue?_parts : l.parts.idValue? = l.id? := by
  have hids : l.parts.ids = (l.marks.filter (·.1 == .id)).map (·.2.fragments) := l.marks_parts .id
  rw [Tag.Parts.idValue?, l.called_parts (by decide), hids, List.head?_map, List.head?_filter,
    Option.map_map]
  rfl

theorem allClasses_parts : l.parts.allClasses = l.classes := by
  have hclasses : l.parts.classes = (l.marks.filter (·.1 == .cls)).map (·.2.fragments) :=
    l.marks_parts .cls
  have honce := l.length_called_parts (by decide) l.class_once
  rw [l.parts.allClasses_eq_iff.2 honce, hclasses, l.called_parts (by decide), List.map_map]
  rfl

theorem spaced_eq_intersperse (vs : List Fragments) :
    Tag.spaced vs = vs.intersperse (Fragments.ofString " ") := by
  induction vs with
  | nil => rfl
  | cons v vs ih =>
    cases vs with
    | nil => rfl
    | cons w ws =>
      show v :: Fragments.ofString " " :: Tag.spaced (w :: ws) = _
      rw [ih]
      rfl

theorem others_parts :
    l.parts.others = l.others.map fun a => (a.1.fragments, a.2.fragments) := by
  have hid : (l.parts.attributes.filter (Tag.isCalled "id")).length ≤ 1 :=
    l.length_called_parts (by decide) l.id_once
  -- taking out the id leaves the class
  have hclass : ((l.parts.attributes.eraseP (Tag.isCalled "id")).filter
      (Tag.isCalled "class")).length ≤ 1 := by
    rw [Tag.filter_eraseP_of_disjoint (Tag.isCalled_eq_false_of_ne (by decide))]
    exact l.length_called_parts (by decide) l.class_once
  rw [Tag.Parts.others, Tag.eraseP_of_length_filter_le hclass,
    Tag.eraseP_of_length_filter_le hid, List.filter_filter, parts, List.filter_map, others]
  congr 1
  apply List.filter_congr
  intro a ha
  have hn := (l.attributes_fit a ha).1
  show (!Tag.isCalled "class" (a.1.fragments, _) && !Tag.isCalled "id" (a.1.fragments, _)) = _
  rw [TagValue.isCalled_fragments hn (by decide), TagValue.isCalled_fragments hn (by decide),
    Bool.and_comm]
  rfl

theorem listed_parts : l.parts.listed = l.listed := by
  rw [Tag.Parts.listed, Tag.Parts.classValue?, idValue?_parts, allClasses_parts, others_parts,
    spaced_eq_intersperse]
  rfl

/-- The tag of the line opens and closes the element of the entry. -/
theorem join_tag_parts :
    Fragments.join [l.parts.tag.opening, l.parts.tag.closing] = l.entry := by
  have hpair : ∀ us vs : List Fragments, Fragments.join [Fragments.join us, Fragments.join vs] =
      Fragments.join (us ++ vs) := by
    intro us vs
    rw [Fragments.join_append us vs, Fragments.join]
    simp
  have hend : Fragments.join ([Fragments.ofString ">"] ++
        [Fragments.ofString "</", l.element, Fragments.ofString ">"]) =
      Fragments.join [Fragments.ofString "></", l.element, Fragments.ofString ">"] :=
    Fragments.merge_literal_cons ..
  rw [l.parts.opening_tag, listed_parts, Tag.openText, Tag.closing, hpair, List.append_assoc]
  exact Fragments.join_append_congr rfl hend

theorem exists_cons_text : ∃ c t, l.text = c :: t ∧ (c = '%' ∨ c = '#' ∨ c = '.') :=
  exists_cons_headerText l.header_ne (attributesText l.attributes)

theorem scanBody_text :
    scanBody l.text =
      (headerPieces l.name l.marks ++ attributesPieces l.attributes ++ [.skip []], false) := by
  obtain ⟨c, t, ht, hmark⟩ := l.exists_cons_text
  have hfilter : scanFilter l.text = none := by
    rw [ht]
    rcases hmark with rfl | rfl | rfl <;> rfl
  have hheader : scanHeader l.text =
      some (headerPieces l.name l.marks, attributesText l.attributes) :=
    scanHeader_headerText l.name_fits l.marks_fit l.header_ne (head?_attributesText _)
  unfold scanBody
  rw [hfilter, hheader]
  dsimp only
  rw [scanAttributes_text l.attributes_fit]
  rfl

theorem lex_text (file : Text) (depth : Nat) :
    lex file (indented depth l.text) =
      ⟨.indent, { file, line := 0, column := 0, offset := 0 }, List.replicate depth ' '⟩ ::
        (placePieces file 0 0 depth
            (headerPieces l.name l.marks ++ attributesPieces l.attributes) ++
          lexLines file 1 (depth + l.text.length + 1) none []) := by
  obtain ⟨c, t, ht, hmark⟩ := l.exists_cons_text
  have hbreaks : '\n' ∉ l.text ∧ '\r' ∉ l.text := l.unbroken
  have hspace : isSpace c = false := by rcases hmark with rfl | rfl | rfl <;> decide
  have hbom : c ≠ '\ufeff' := by rcases hmark with rfl | rfl | rfl <;> decide
  have hdoctype : Text.cut? ['!', '!', '!'] (c :: t) = none := by
    rcases hmark with rfl | rfl | rfl <;> rfl
  have hscan := l.scanBody_text
  rw [ht] at hbreaks hscan ⊢
  have hlex := @lex_indented c t [] hspace hbom hdoctype hbreaks (by simp) file depth
  rw [hscan, placePieces_append] at hlex
  simpa [placePieces, Text.join] using hlex

end TagLine

/-! ## Reading a tag line -/

theorem Tag.Spells.head {ts : List Token} {p : Parts} (h : Spells ts p) :
    ∀ t ∈ ts.head?, t.kind = .tagMark ∨ IsMark t.kind := by
  cases h with
  | named ht =>
    rintro t ⟨⟩
    exact .inl ht
  | unnamed hne hm =>
    cases hm with
    | nil => exact absurd rfl hne
    | cons hmark =>
      rintro t ⟨⟩
      exact .inr hmark

theorem Node.exists_code_ofFragments (pos : Location) (v : Fragments) (depth : Nat) :
    ∃ node : Node, ∀ i, node.code i = [.ofFragments pos v depth] := by
  unfold Instruction.ofFragments
  split
  · exact ⟨.literal pos v.describe depth, fun _ => rfl⟩
  · exact ⟨.output pos v depth, fun _ => rfl⟩

namespace Layout

variable {limit : Int} {stop : Location} {s : Layout} {p : Tag.Parts} {t : Token}
  {ts rest : List Token}

/-- A tag line with no deeper line below it is the entry of an empty element. -/
theorem readBody_of_spells (h : Tag.Spells (t :: ts) p) (hend : NotDeeper s.depth rest)
    (hr : s.rest = t :: ts ++ rest) :
    s.readBody limit stop = .ok (emit { s with rest }
      (.ofFragments t.start (Fragments.join [p.tag.opening, p.tag.closing]) s.depth)) := by
  have hfilter : s.readFilter true = .ok (false, s) := by
    refine readFilter_of_head hr ?_
    rcases h.head t rfl with hk | hk | hk <;> rw [hk] <;> simp
  have hends : Tag.Ends rest := by
    intro u us he
    rcases hend with rfl | ⟨v, vs, rfl, hv, -⟩
    · cases he
    · cases he
      rw [hv]
      simp [IsMark, Tag.wordKinds]
  have hread : Tag.read stop s.rest = .ok (some p.tag, rest) := by
    rw [hr, Tag.read_of_spells h hends]
  have htag : s.readTag limit stop = .ok (true, emit { s with rest }
      (.ofFragments t.start (Fragments.join [p.tag.opening, p.tag.closing]) s.depth)) := by
    rw [readTag_of_some hread hr, if_pos hend.nextCloses]
  unfold readBody
  rw [hfilter]
  show (s.readTag limit stop >>= _) = _
  rw [htag]
  show (readOutput limit stop _ >>= _) = _
  rw [readOutput_eq_false (by exact hend.lineEnd)]
  rfl

end Layout

namespace Program

/-- A tag line is read as the one entry that has its name, its id and its classes, and its other
attributes in their order. -/
theorem ofTokens_tag_line (l : TagLine) (file contextType : Text) (maxDepth : Int) (depth : Nat) :
    ofTokens contextType maxDepth (lex file (indented depth l.text)) = .ok {
      contextType
      code := #[.ofFragments { file, line := 0, column := depth, offset := depth } l.entry
        depth] } := by
  let indent : Token :=
    ⟨.indent, { file, line := 0, column := 0, offset := 0 }, List.replicate depth ' '⟩
  have hdepth : indent.depth = depth := byteLength_replicate_space depth
  have hnil : NextShallow indent.depth [] := by simp [NextShallow]
  obtain ⟨t, ts, htokens, hstart⟩ := @TagLine.exists_placePieces_headerPieces file 0 0 depth
    l.name l.marks l.header_ne (TagLine.attributesPieces l.attributes)
  have hspells : Tag.Spells (t :: ts) l.parts := by
    rw [← htokens]
    exact TagLine.spells l.name_fits l.marks_fit l.header_ne l.attributes_fit
  obtain ⟨node, hnode⟩ := Node.exists_code_ofFragments t.start l.entry depth
  have hline := @ofTokens_of_leaf file contextType maxDepth indent (t :: ts) 1
    (depth + l.text.length + 1) [] _ node (hnode 0) rfl (by decide) hnil ?_
  · rw [l.lex_text, htokens, hline, show lexLines file 1 _ none [] = [] from rfl, ofTokens_nil]
    show Except.ok (Program.mk contextType (node.code 0 ++ []).toArray) = _
    rw [hnode, List.append_nil, hstart, Nat.zero_add]
  · intro limit stop
    rw [hdepth, Layout.readBody_of_spells hspells (.inl rfl) rfl, l.join_tag_parts]
    rfl

/-- The id attribute goes before the id of the header, and the class attribute joins its class. A
name in braces is not called so. -/
theorem ofTokens_tag_line_of_every_part :
    ofTokens [] 0 (lex []
        "  #x.\x7bc\x7d \x7bid\x7d=1 class=\"b & c\" title=\x7bt\x7d id=y".toList) = .ok ⟨[], #[
      .output ⟨[], 0, 2, 2⟩ [.literal "<div id=\"y\" class=\"".toList,
        .expression ['c'] true, .literal " b &amp; c\" ".toList, .expression "id".toList true,
        .literal "=\"1\" title=\"".toList, .expression ['t'] true,
        .literal "\"></div>".toList] 2]⟩ := by
  let l : TagLine := {
    name := none
    marks := [(.id, .bare ['x']), (.cls, .braced ['c'])]
    attributes := [(.braced "id".toList, .bare ['1']),
      (.bare "class".toList, .quoted "b & c".toList), (.bare "title".toList, .braced ['t']),
      (.bare "id".toList, .bare ['y'])]
    name_fits := by decide
    marks_fit := by decide
    header_ne := by decide
    attributes_fit := by decide
    unbroken := by decide
    id_once := by decide
    class_once := by decide }
  refine Eq.trans ?_ ((ofTokens_tag_line l [] [] 0 2).trans ?_) <;> decide +kernel

end Program
end Offside
