import Offside.Proofs.TagLines

/-!
# What separates the parts of a tag line

The header, the attributes and what follows them are kept apart by runs of blanks, and a run is
passed over whether it consists of spaces or of tabs. But where a word ends is decided without
asking for a run: a space ends it and a tab does not. Between its parts a tag line therefore takes
tabs for spaces behind a quoted string or a braced expression, and behind a word only if the run
starts with a space. Otherwise the tab becomes part of the word
(`lineTokens_eq_spaced_iff`).
-/

namespace Offside

/-! ## Tokens without their places -/

/-- The kinds and contents of the tokens among the pieces of a line. -/
def tokensOf : List Piece → List (TokenKind × Text)
  | [] => []
  | .skip _ :: ps => tokensOf ps
  | .token kind raw :: ps => (kind, Piece.contents kind raw) :: tokensOf ps

@[simp] theorem tokensOf_nil : tokensOf [] = [] := rfl

@[simp] theorem tokensOf_skip (raw : Text) (ps : List Piece) :
    tokensOf (.skip raw :: ps) = tokensOf ps := rfl

@[simp] theorem tokensOf_token (kind : TokenKind) (raw : Text) (ps : List Piece) :
    tokensOf (.token kind raw :: ps) = (kind, Piece.contents kind raw) :: tokensOf ps := rfl

@[simp] theorem tokensOf_append (ps qs : List Piece) :
    tokensOf (ps ++ qs) = tokensOf ps ++ tokensOf qs := by
  induction ps with
  | nil => rfl
  | cons p ps ih => cases p <;> simp [ih]

theorem map_placePieces (file : Text) (line offset column : Nat) (ps : List Piece) :
    (placePieces file line offset column ps).map (fun t => (t.kind, t.contents)) =
      tokensOf ps := by
  fun_induction placePieces file line offset column ps with
  | case1 => rfl
  | case2 column raw ps ih => exact ih
  | case3 column kind raw ps ih => rw [List.map_cons, ih, tokensOf_token]

/-- The kinds and contents of the tokens of line `k`. -/
def lineTokens (file source : Text) (k : Nat) : List (TokenKind × Text) :=
  ((lex file source).filter (·.start.line == k)).map fun t => (t.kind, t.contents)

/-! ## Behind a run -/

/-- A run of blanks: spaces and tabs, at least one. -/
def IsRun (g : Text) : Prop := g ≠ [] ∧ g.all isGap = true

/-- The text does not start with a blank. -/
def StartsInk (t : Text) : Prop := ∀ c ∈ t.head?, isGap c = false

theorem IsRun.splitWhile {g t : Text} (hg : IsRun g) (ht : StartsInk t) :
    Text.splitWhile isGap (g ++ t) = (g, t) :=
  splitWhile_of_all (List.all_eq_true.1 hg.2) ht

theorem IsRun.scanMarks {g : Text} (hg : IsRun g) (t : Text) :
    scanMarks (g ++ t) = some ([], g ++ t) := by
  obtain ⟨c, g, rfl⟩ := List.exists_cons_of_ne_nil hg.1
  have hgap := List.all_eq_true.1 hg.2 c (List.mem_cons_self ..)
  have hc : headerMark? c = none := by
    have hc : c = ' ' ∨ c = '\t' := by simpa [isGap] using hgap
    rcases hc with rfl | rfl <;> rfl
  exact scanMarks_of_not_mark hc (g ++ t)

/-- An attribute without the run before it. -/
def scanPair (t : Text) : Option (List Piece × Text) :=
  (scanValue endsWord false t).bind fun n =>
    if n.2.head? = some '=' then
      (scanValue endsWord true n.2.tail).map fun r => ([n.1, .token .equals ['='], r.1], r.2)
    else none

theorem IsRun.scanAttribute {g t : Text} (hg : IsRun g) (ht : StartsInk t) :
    scanAttribute (g ++ t) = (scanPair t).map fun r => (.skip g :: r.1, r.2) := by
  have hsplit := hg.splitWhile ht
  obtain ⟨c, g, rfl⟩ := List.exists_cons_of_ne_nil hg.1
  unfold Offside.scanAttribute scanPair
  rw [hsplit]
  dsimp only
  split
  · rename_i name u hname
    rw [hname, Option.bind_some, if_pos (by rfl), Option.map_map]
    rfl
  · rename_i hnone
    cases hname : scanValue endsWord false t with
    | none => rfl
    | some n =>
      rw [Option.bind_some, if_neg]
      · rfl
      · intro he
        obtain ⟨u, hu⟩ := List.head?_eq_some_iff.1 he
        exact hnone n.1 u (by rw [hname, ← hu])

theorem IsRun.scanTrailingFilter {g t : Text} (hg : IsRun g) (ht : StartsInk t) :
    scanTrailingFilter (g ++ t) = (scanFilter t).map fun r => .skip g :: r.1 := by
  have hsplit := hg.splitWhile ht
  obtain ⟨c, g, rfl⟩ := List.exists_cons_of_ne_nil hg.1
  unfold Offside.scanTrailingFilter
  rw [hsplit]

/-- What stands behind the attributes: a filter, or output behind blanks. -/
def scanEnd (t : Text) : List Piece :=
  (scanTrailingFilter t).getD (.skip (t.takeWhile isGap) :: scanOutput (t.dropWhile isGap))

/-- What stands behind the header. -/
def scanRest (t : Text) : List Piece := (scanAttributes t).1 ++ scanEnd (scanAttributes t).2

theorem scanBody_of_header {t rest : Text} {ps : List Piece} (hf : scanFilter t = none)
    (hh : scanHeader t = some (ps, rest)) : scanBody t = (ps ++ scanRest rest, false) := by
  unfold scanBody scanRest scanEnd
  rw [hf, hh]
  dsimp only
  cases scanTrailingFilter (scanAttributes rest).2 <;> simp [Text.splitWhile]

/-- Whatever run goes before it, the end of a line has the same tokens. -/
theorem IsRun.tokensOf_scanEnd {g g' t : Text} (hg : IsRun g) (hg' : IsRun g')
    (ht : StartsInk t) : tokensOf (scanEnd (g ++ t)) = tokensOf (scanEnd (g' ++ t)) := by
  unfold scanEnd
  rw [hg.scanTrailingFilter ht, hg'.scanTrailingFilter ht]
  cases scanFilter t with
  | none =>
    have hdrop : ∀ {g}, IsRun g → (g ++ t).dropWhile isGap = t :=
      fun hg => congrArg Prod.snd (hg.splitWhile ht)
    simp [hdrop hg, hdrop hg']
  | some r => rfl

/-- Whatever run goes before it, what follows the header has the same tokens. -/
theorem IsRun.tokensOf_scanRest {g g' t : Text} (hg : IsRun g) (hg' : IsRun g')
    (ht : StartsInk t) : tokensOf (scanRest (g ++ t)) = tokensOf (scanRest (g' ++ t)) := by
  have hscan := hg.scanAttribute ht
  have hscan' := hg'.scanAttribute ht
  unfold scanRest
  cases hpair : scanPair t with
  | none =>
    rw [hpair] at hscan hscan'
    rw [scanAttributes_of_none hscan, scanAttributes_of_none hscan']
    exact hg.tokensOf_scanEnd hg' ht
  | some r =>
    rw [hpair] at hscan hscan'
    rw [scanAttributes_of_some hscan, scanAttributes_of_some hscan']
    simp

/-! ## Behind a value -/

namespace TagValue

/-- A run that starts with a tab does not end a word. -/
def Parts (v : TagValue) (g : Text) : Prop := v.kind = .word → g.head? = some ' '

variable {ends : Char → Bool} {quotes : Bool} {v : TagValue} {g : Text}

/-- A value that its run parts from what follows is found. -/
theorem Parts.scanValue (h : v.Parts g) (hends : ∀ c, endsWord c = true → ends c = true)
    (hv : v.Fits ends quotes) (hg : g ≠ []) (rest : Text) :
    scanValue ends quotes (v.text ++ (g ++ rest)) = some (.token v.kind v.text, g ++ rest) := by
  cases v with
  | bare word =>
    refine scanValue_text hends hv ?_
    have hspace : (g ++ rest).head? = some ' ' := by
      rw [List.head?_append_of_ne_nil _ hg]
      exact h rfl
    rw [hspace]
    rintro c ⟨⟩
    exact hends ' ' (by decide)
  | braced source =>
    -- where a word ends is not asked
    have hfits : Fits (fun _ => true) quotes (braced source) := hv
    exact scanValue_text (fun _ _ => rfl) hfits fun _ _ => rfl
  | quoted inner =>
    have hfits : Fits (fun _ => true) quotes (quoted inner) := hv
    exact scanValue_text (fun _ _ => rfl) hfits fun _ _ => rfl

/-- Behind a tab a word goes on. -/
theorem exists_of_not_parts (h : ¬ v.Parts g) (hg : IsRun g)
    (hends : ∀ c, endsWord c = true → ends c = true) (htab : ends '\t' = false)
    (hv : v.Fits ends quotes) (rest : Text) :
    ∃ more rest', scanValue ends quotes (v.text ++ (g ++ rest)) =
      some (.token .word (v.text ++ '\t' :: more), rest') := by
  obtain ⟨hkind, hspace⟩ := Classical.not_imp.1 h
  obtain ⟨c, g, rfl⟩ := List.exists_cons_of_ne_nil hg.1
  have hc : c = '\t' := by
    have hgap := List.all_eq_true.1 hg.2 c (List.mem_cons_self ..)
    have hne : c ≠ ' ' := by simpa using hspace
    simpa [isGap, hne] using hgap
  subst hc
  cases v with
  | bare word =>
    generalize hu : g ++ rest = u
    have hfits : Fits ends quotes (bare (word ++ '\t' :: u.takeWhile (!ends ·))) := by
      have hword : ∀ c ∈ u.takeWhile (!ends ·), ends c = false := by
        intro c hc
        simpa using List.mem_takeWhile_imp hc
      refine ⟨by simp, ?_⟩
      rw [List.any_append, List.any_cons, hv.2, htab, Bool.false_or, Bool.false_or]
      simpa using hword
    have hrest : ∀ c ∈ (u.dropWhile (!ends ·)).head?, ends c = true := by
      intro c hc
      have := List.head?_dropWhile_not (!ends ·) u
      rw [hc] at this
      simpa using this
    have hscan := scanValue_text hends hfits hrest
    refine ⟨u.takeWhile (!ends ·), u.dropWhile (!ends ·), ?_⟩
    have htext : text (bare word) ++ ('\t' :: g ++ rest) =
        text (bare (word ++ '\t' :: u.takeWhile (!ends ·))) ++ u.dropWhile (!ends ·) := by
      simp [text, hu]
    rw [htext]
    exact hscan
  | braced | quoted => cases hkind

/-- A word that goes on behind a tab is another token. -/
theorem token_ne (v : TagValue) (more : Text) :
    (TokenKind.word, Piece.contents .word (v.text ++ '\t' :: more)) ≠
      (v.kind, Piece.contents v.kind v.text) := by
  intro h
  rw [contents_text] at h
  have hlen : (v.text ++ '\t' :: more).length = v.text.length := congrArg (·.2.length) h
  simp at hlen

end TagValue

/-! ## The header -/

namespace TagLine

/-- The value that a header ends with. -/
def lead? (name : Option TagValue) (marks : List (HeaderMark × TagValue)) : Option TagValue :=
  (marks.getLast?.map (·.2)).or name

section Header

variable {name : Option TagValue} {marks : List (HeaderMark × TagValue)}

/-- What ends a word of the header goes on ending it behind ids and classes. -/
theorem head?_append_marks (marks : List (HeaderMark × TagValue)) {t : Text}
    (ht : ∀ c ∈ t.head?, endsHeaderWord c = true) :
    ∀ c ∈ (marksText marks ++ t).head?, endsHeaderWord c = true := by
  cases marks with
  | nil => exact ht
  | cons m marks =>
    rintro c ⟨⟩
    exact m.1.endsHeaderWord_char

/-- Ids and classes are read one after the other, up to what follows them. -/
theorem scanMarks_append (hmarks : ∀ m ∈ marks, m.2.Fits endsHeaderWord false) {t : Text}
    (ht : ∀ c ∈ t.head?, endsHeaderWord c = true) :
    scanMarks (marksText marks ++ t) =
      (scanMarks t).map fun r => (marksPieces marks ++ r.1, r.2) := by
  induction marks with
  | nil =>
    show scanMarks t = (scanMarks t).map fun r => r
    rw [Option.map_id']
  | cons m marks ih =>
    obtain ⟨hm, hmarks⟩ := List.forall_mem_cons.1 hmarks
    have hvalue := TagValue.scanValue_text endsHeaderWord_of_endsWord hm
      (head?_append_marks marks ht)
    have htext : marksText (m :: marks) ++ t =
        m.1.char :: (m.2.text ++ (marksText marks ++ t)) := by simp [marksText]
    rw [htext, scanMarks_of_mark m.1.headerMark?_char hvalue, ih hmarks, Option.map_map]
    rfl

/-- The first token of a header is that of a mark. -/
theorem exists_cons_headerPieces (hsome : name ≠ none ∨ marks ≠ []) :
    ∃ k raw ts, tokensOf (headerPieces name marks) = (k, raw) :: ts ∧ k ≠ .text := by
  cases name with
  | some v => exact ⟨.tagMark, ['%'], _, rfl, by decide⟩
  | none =>
    obtain ⟨m, ms, rfl⟩ := List.exists_cons_of_ne_nil (hsome.resolve_left (by simp))
    exact ⟨m.1.kind, _, _, rfl, by cases m.1 <;> decide⟩

/-- A header without a name is read as ids and classes, if there are any. -/
theorem scanHeader_of_not_name {c : Char} {t : Text} (hc : c ≠ '%')
    (h : ∀ rest, scanMarks (c :: t) ≠ some ([], rest)) :
    scanHeader (c :: t) = scanMarks (c :: t) := by
  unfold scanHeader
  split
  · rename_i he
    exact absurd (List.cons.inj he).1 hc
  · split
    · rename_i rest he
      exact absurd he (h rest)
    · rfl

/-- A header is `front` and the value `v` behind it. It is read up to that value, then the value,
and then more ids and classes if there are any. -/
structure Front (name : Option TagValue) (marks : List (HeaderMark × TagValue)) (v : TagValue)
    (front : Text) (ps : List Piece) : Prop where
  lead : lead? name marks = some v
  fits : v.Fits endsHeaderWord false
  text : headerText name marks = front ++ v.text
  pieces : headerPieces name marks = ps ++ [.token v.kind v.text]
  read : ∀ t p rest, scanValue endsHeaderWord false t = some (p, rest) →
    scanHeader (front ++ t) = (scanMarks rest).map fun r => (ps ++ p :: r.1, r.2)

theorem exists_front (hname : ∀ v ∈ name, v.Fits endsHeaderWord false)
    (hmarks : ∀ m ∈ marks, m.2.Fits endsHeaderWord false) (hsome : name ≠ none ∨ marks ≠ []) :
    ∃ v front ps, Front name marks v front ps := by
  rcases List.eq_nil_or_concat' marks with rfl | ⟨ms, ⟨m, v⟩, rfl⟩
  · obtain ⟨v, rfl⟩ := Option.ne_none_iff_exists'.1 (hsome.resolve_right (by simp))
    refine ⟨v, ['%'], [.token .tagMark ['%']], rfl, hname v rfl, ?_, ?_, ?_⟩
    · simp [headerText, marksText]
    · simp [headerPieces, marksPieces]
    · intro t p rest hp
      show scanHeader ('%' :: t) = _
      rw [scanHeader, hp]
      rfl
  · obtain ⟨hms, hv⟩ := List.forall_mem_append.1 hmarks
    have hv : v.Fits endsHeaderWord false := hv (m, v) (List.mem_singleton_self _)
    have hlead : lead? name (ms ++ [(m, v)]) = some v := by simp [lead?]
    have hends : ∀ t : Text, ∀ c ∈ (m.char :: t).head?, endsHeaderWord c = true := by
      rintro t c ⟨⟩
      exact m.endsHeaderWord_char
    have hread : ∀ t p rest, scanValue endsHeaderWord false t = some (p, rest) →
        scanMarks (marksText ms ++ m.char :: t) = (scanMarks rest).map fun r =>
          (marksPieces ms ++ .token m.kind [m.char] :: p :: r.1, r.2) := by
      intro t p rest hp
      rw [scanMarks_append hms (hends t), scanMarks_of_mark m.headerMark?_char hp, Option.map_map]
      rfl
    cases name with
    | some n =>
      refine ⟨v, '%' :: (n.text ++ (marksText ms ++ [m.char])), .token .tagMark ['%'] ::
        .token n.kind n.text :: (marksPieces ms ++ [.token m.kind [m.char]]), hlead, hv, ?_, ?_, ?_⟩
      · simp [headerText, marksText]
      · simp [headerPieces, marksPieces]
      · intro t p rest hp
        have hvalue := TagValue.scanValue_text endsHeaderWord_of_endsWord (hname n rfl)
          (head?_append_marks ms (hends t))
        have htext : '%' :: (n.text ++ (marksText ms ++ [m.char])) ++ t =
            '%' :: (n.text ++ (marksText ms ++ m.char :: t)) := by simp
        rw [htext, scanHeader, hvalue]
        dsimp only
        rw [hread t p rest hp, Option.map_map]
        congr 1
        funext r
        simp
    | none =>
      refine ⟨v, marksText ms ++ [m.char], marksPieces ms ++ [.token m.kind [m.char]], hlead, hv,
        ?_, ?_, ?_⟩
      · simp [headerText, marksText]
      · simp [headerPieces, marksPieces]
      · intro t p rest hp
        have htext : marksText ms ++ [m.char] ++ t = marksText ms ++ m.char :: t := by simp
        obtain ⟨c, u, hu, hc⟩ : ∃ c u, marksText ms ++ m.char :: t = c :: u ∧ c ≠ '%' := by
          cases ms with
          | nil => exact ⟨m.char, t, rfl, by cases m <;> decide⟩
          | cons m ms => exact ⟨m.1.char, _, rfl, by cases m.1 <;> decide⟩
        have hscan := hread t p rest hp
        rw [hu] at hscan
        rw [htext, hu, scanHeader_of_not_name hc, hscan]
        · congr 1
          funext r
          simp
        · intro rest' he
          rw [hscan] at he
          obtain ⟨r, -, hr⟩ := Option.map_eq_some_iff.1 he
          simp at hr

end Header
end TagLine

/-! ## Tag lines with runs between their parts -/

/-- As many spaces as the run has characters. -/
def spacesFor (g : Text) : Text := List.replicate g.length ' '

theorem IsRun.spacesFor {g : Text} (hg : IsRun g) : IsRun (spacesFor g) := by
  refine ⟨?_, ?_⟩
  · simpa [Offside.spacesFor] using hg.1
  · simp [Offside.spacesFor, isGap]

theorem TagValue.parts_spacesFor (v : TagValue) {g : Text} (hg : IsRun g) :
    v.Parts (spacesFor g) := by
  intro _
  obtain ⟨c, g, rfl⟩ := List.exists_cons_of_ne_nil hg.1
  rfl

/-- A tag line whose parts are kept apart by runs of blanks: the header, attributes with the run
before each of them, and perhaps something more, with the run before it. What this is, a filter or
text, is left open. -/
structure SeparatedLine where
  name : Option TagValue
  marks : List (HeaderMark × TagValue)
  attributes : List (Text × TagValue × TagValue)
  more : Option (Text × Text)
  name_fits : ∀ v ∈ name, v.Fits endsHeaderWord false
  marks_fit : ∀ m ∈ marks, m.2.Fits endsHeaderWord false
  header_ne : name ≠ none ∨ marks ≠ []
  attributes_fit : ∀ a ∈ attributes, IsRun a.1 ∧ a.2.1.Fits endsWord false ∧
    a.2.1.text.head? ≠ some '\t' ∧ a.2.2.Fits endsWord true
  more_fits : ∀ m ∈ more, IsRun m.1 ∧ StartsInk m.2

namespace SeparatedLine

/-- What is written behind the header. -/
def restText : List (Text × TagValue × TagValue) → Option (Text × Text) → Text
  | [], none => []
  | [], some m => m.1 ++ m.2
  | a :: as, more => a.1 ++ (a.2.1.text ++ '=' :: (a.2.2.text ++ restText as more))

/-- Each value with the run behind it, from the value `v` before the attributes on. -/
def junctions : TagValue → List (Text × TagValue × TagValue) → Option (Text × Text) →
    List (TagValue × Text)
  | _, [], none => []
  | v, [], some m => [(v, m.1)]
  | v, a :: as, more => (v, a.1) :: junctions a.2.2 as more

variable (l : SeparatedLine)

/-- The line as it is written. -/
def text : Text := TagLine.headerText l.name l.marks ++ restText l.attributes l.more

/-- The values that end the header and the attributes, each with the run behind it. -/
def parted : List (TagValue × Text) :=
  (TagLine.lead? l.name l.marks).elim [] fun v => junctions v l.attributes l.more

/-- The same line with spaces in its runs. -/
def spaced : SeparatedLine where
  name := l.name
  marks := l.marks
  attributes := l.attributes.map fun a => (spacesFor a.1, a.2)
  more := l.more.map fun m => (spacesFor m.1, m.2)
  name_fits := l.name_fits
  marks_fit := l.marks_fit
  header_ne := l.header_ne
  attributes_fit := by
    intro b hb
    obtain ⟨a, ha, rfl⟩ := List.mem_map.1 hb
    obtain ⟨hrun, hfits⟩ := l.attributes_fit a ha
    exact ⟨hrun.spacesFor, hfits⟩
  more_fits := by
    intro n hn
    obtain ⟨m, hm, rfl⟩ := Option.map_eq_some_iff.1 hn
    obtain ⟨hrun, hink⟩ := l.more_fits m hm
    exact ⟨hrun.spacesFor, hink⟩

end SeparatedLine

/-! ## The tokens behind the header -/

section Pair

variable {n v : TagValue} {g rest : Text}

theorem startsInk_of_fits (hn : n.Fits endsWord false) (htab : n.text.head? ≠ some '\t')
    (rest : Text) : StartsInk (n.text ++ rest) := by
  obtain ⟨c, t, ht, hspace⟩ := hn.exists_cons
  rw [ht] at htab ⊢
  have htab : c ≠ '\t' := by simpa using htab
  rintro d ⟨⟩
  simp [isGap, hspace, htab]

theorem scanPair_of_value (hn : n.Fits endsWord false) {t : Text} {p : Piece}
    (hp : scanValue endsWord true t = some (p, rest)) :
    scanPair (n.text ++ '=' :: t) =
      some ([.token n.kind n.text, .token .equals ['='], p], rest) := by
  have hname : scanValue endsWord false (n.text ++ '=' :: t) =
      some (.token n.kind n.text, '=' :: t) := by
    apply TagValue.scanValue_text (fun _ h => h) hn
    rintro c ⟨⟩
    rfl
  rw [scanPair, hname, Option.bind_some, if_pos (by rfl), List.tail_cons, hp]
  rfl

theorem IsRun.tokensOf_of_pair {t : Text} {ps : List Piece} (hg : IsRun g) (ht : StartsInk t)
    (h : scanPair t = some (ps, rest)) :
    tokensOf (scanRest (g ++ t)) = tokensOf ps ++ tokensOf (scanRest rest) := by
  have hscan := hg.scanAttribute ht
  rw [h] at hscan
  rw [scanRest, scanAttributes_of_some hscan]
  simp [scanRest]

end Pair

namespace SeparatedLine

section Rest

variable {as : List (Text × TagValue × TagValue)} {more : Option (Text × Text)}

/-- Behind a value comes nothing, or a run. -/
theorem restText_cases (has : ∀ a ∈ as, IsRun a.1) (hmore : ∀ m ∈ more, IsRun m.1) :
    (as = [] ∧ more = none) ∨
      ∃ g t t', IsRun g ∧ restText as more = g ++ t ∧
        restText (as.map fun a => (spacesFor a.1, a.2)) (more.map fun m => (spacesFor m.1, m.2)) =
          spacesFor g ++ t' ∧
        ∀ v, (junctions v as more).head? = some (v, g) := by
  cases as with
  | nil =>
    cases more with
    | none => exact .inl ⟨rfl, rfl⟩
    | some m => exact .inr ⟨m.1, m.2, m.2, hmore m rfl, rfl, rfl, fun _ => rfl⟩
  | cons a as => exact .inr ⟨a.1, _, _, has a (List.mem_cons_self ..), rfl, rfl, fun _ => rfl⟩

/-- The tokens behind the header are those of the line with spaces in its runs if and only if the
runs behind the values of attributes part them from what follows. The run before the first attribute
does not matter here. -/
theorem tokensOf_restText_iff
    (has : ∀ a ∈ as, IsRun a.1 ∧ a.2.1.Fits endsWord false ∧ a.2.1.text.head? ≠ some '\t' ∧
      a.2.2.Fits endsWord true)
    (hmore : ∀ m ∈ more, IsRun m.1 ∧ StartsInk m.2) (v : TagValue) :
    tokensOf (scanRest (restText as more)) =
        tokensOf (scanRest (restText (as.map fun a => (spacesFor a.1, a.2))
          (more.map fun m => (spacesFor m.1, m.2)))) ↔
      ∀ j ∈ (junctions v as more).tail, j.1.Parts j.2 := by
  induction as generalizing v with
  | nil =>
    cases more with
    | none => simp [junctions, restText]
    | some m =>
      obtain ⟨hrun, hink⟩ := hmore m rfl
      have heq := hrun.tokensOf_scanRest hrun.spacesFor hink
      exact iff_of_true heq (by simp [junctions])
  | cons a as ih =>
    obtain ⟨⟨hrun, hn, htab, hv⟩, has⟩ := List.forall_mem_cons.1 has
    have hink := startsInk_of_fits hn htab
    rcases restText_cases (fun a ha => (has a ha).1) (fun m hm => (hmore m hm).1) with
      ⟨rfl, rfl⟩ | ⟨g, t, t', hg, ht, ht', hhead⟩
    · -- nothing follows the attribute
      have heq := hrun.tokensOf_scanRest hrun.spacesFor (hink ('=' :: (a.2.2.text ++ [])))
      exact iff_of_true heq (by simp [junctions])
    · obtain ⟨js, hjs⟩ := List.head?_eq_some_iff.1 (hhead a.2.2)
      have hjunctions : (junctions v (a :: as) more).tail = (a.2.2, g) :: js := hjs
      have hspaced := hrun.spacesFor.tokensOf_of_pair (hink _) (scanPair_of_value hn
        ((a.2.2.parts_spacesFor hg).scanValue (fun _ h => h) hv hg.spacesFor.1 t'))
      rw [← ht'] at hspaced
      have hih := ih has a.2.2
      rw [hjs, List.tail_cons] at hih
      rw [hjunctions, List.forall_mem_cons, ← hih]
      show tokensOf (scanRest (a.1 ++ (a.2.1.text ++ '=' :: (a.2.2.text ++ restText as more)))) =
        tokensOf (scanRest (spacesFor a.1 ++ _)) ↔ _
      rw [hspaced]
      by_cases hparts : a.2.2.Parts g
      · have hline := hrun.tokensOf_of_pair (hink _) (scanPair_of_value hn
          (hparts.scanValue (fun _ h => h) hv hg.1 t))
        rw [← ht] at hline
        rw [hline, List.append_cancel_left_eq, and_iff_right hparts]
      · -- the value is longer than the one that is parted by a space
        obtain ⟨more', rest', hp⟩ :=
          TagValue.exists_of_not_parts hparts hg (fun _ h => h) (by decide) hv t
        have hline := hrun.tokensOf_of_pair (hink _) (scanPair_of_value hn hp)
        rw [← ht] at hline
        rw [hline]
        refine iff_of_false ?_ fun h => hparts h.1
        intro heq
        have htokens := (List.append_inj heq rfl).1
        simp only [tokensOf_token, List.cons.injEq] at htokens
        exact a.2.2.token_ne more' htokens.2.2.1

end Rest

/-! ## The tokens of the line -/

variable (l : SeparatedLine)

theorem exists_cons_text : ∃ c t, l.text = c :: t ∧ (c = '%' ∨ c = '#' ∨ c = '.') :=
  TagLine.exists_cons_headerText l.header_ne (restText l.attributes l.more)

theorem scanFilter_text : scanFilter l.text = none := by
  obtain ⟨c, t, ht, hc⟩ := l.exists_cons_text
  rw [ht]
  rcases hc with rfl | rfl | rfl <;> rfl

/-- Without its header the line is text. -/
theorem tokensOf_of_no_header (h : scanHeader l.text = none) :
    tokensOf (scanBody l.text).1 = [(.text, l.text)] := by
  obtain ⟨c, t, ht, hc⟩ := l.exists_cons_text
  have houtput : scanOutput l.text = [.token .text l.text] := by
    rw [ht]
    rcases hc with rfl | rfl | rfl <;> rfl
  unfold scanBody
  rw [l.scanFilter_text, h]
  dsimp only
  rw [houtput]
  rfl

section Front

variable {l} {v : TagValue} {front : Text} {ps : List Piece} {g t : Text}

/-- A header that its run parts from what follows is found as it was written. -/
theorem tokensOf_of_parts (hf : TagLine.Front l.name l.marks v front ps) (hg : IsRun g)
    (hparts : v.Parts g) (hl : l.text = front ++ (v.text ++ (g ++ t))) :
    tokensOf (scanBody l.text).1 =
      tokensOf (TagLine.headerPieces l.name l.marks) ++ tokensOf (scanRest (g ++ t)) := by
  have hvalue := hparts.scanValue endsHeaderWord_of_endsWord hf.fits hg.1 t
  have hheader : scanHeader l.text = some (TagLine.headerPieces l.name l.marks, g ++ t) := by
    rw [hl, hf.read _ _ _ hvalue, hg.scanMarks, hf.pieces]
    rfl
  rw [scanBody_of_header l.scanFilter_text hheader, tokensOf_append]

/-- A header whose last word goes on behind it is not found as it was written: it has another word,
or it is no header at all. -/
theorem tokensOf_ne_of_not_parts (hf : TagLine.Front l.name l.marks v front ps) (hg : IsRun g)
    (hparts : ¬ v.Parts g) (hl : l.text = front ++ (v.text ++ (g ++ t)))
    (ts : List (TokenKind × Text)) :
    tokensOf (scanBody l.text).1 ≠ tokensOf (TagLine.headerPieces l.name l.marks) ++ ts := by
  obtain ⟨more, rest, hp⟩ :=
    TagValue.exists_of_not_parts hparts hg endsHeaderWord_of_endsWord (by decide) hf.fits t
  have hscan := hf.read _ _ _ hp
  rw [← hl] at hscan
  intro heq
  cases hmarks : scanMarks rest with
  | none =>
    rw [hmarks] at hscan
    obtain ⟨k, raw, us, hhead, hk⟩ := TagLine.exists_cons_headerPieces l.header_ne
    rw [l.tokensOf_of_no_header hscan, hhead] at heq
    exact hk (Prod.mk.inj (List.cons.inj heq).1).1.symm
  | some r =>
    rw [hmarks] at hscan
    rw [scanBody_of_header l.scanFilter_text hscan, hf.pieces] at heq
    simp only [tokensOf_append, tokensOf_token, List.append_assoc] at heq
    exact v.token_ne more (List.cons.inj (List.append_cancel_left heq)).1

end Front

/-- The tokens of the line are those of the line with spaces in its runs if and only if every run
parts the value before it from what follows. -/
theorem tokensOf_scanBody_iff :
    tokensOf (scanBody l.text).1 = tokensOf (scanBody l.spaced.text).1 ↔
      ∀ j ∈ l.parted, j.1.Parts j.2 := by
  obtain ⟨v, front, ps, hf⟩ := TagLine.exists_front l.name_fits l.marks_fit l.header_ne
  have hparted : l.parted = junctions v l.attributes l.more := by rw [parted, hf.lead]; rfl
  rw [hparted]
  rcases restText_cases (fun a ha => (l.attributes_fit a ha).1) (fun m hm => (l.more_fits m hm).1)
    with ⟨ha, hm⟩ | ⟨g, t, t', hg, ht, ht', hhead⟩
  · have hspaced : l.spaced.text = l.text := by simp [text, spaced, ha, hm]
    rw [hspaced, ha, hm]
    exact iff_of_true rfl (by simp [junctions])
  · obtain ⟨js, hjs⟩ := List.head?_eq_some_iff.1 (hhead v)
    have hline : l.text = front ++ (v.text ++ (g ++ t)) := by
      rw [text, hf.text, ht, List.append_assoc]
    have hline' : l.spaced.text = front ++ (v.text ++ (spacesFor g ++ t')) := by
      rw [← List.append_assoc, ← hf.text, ← ht']
      rfl
    have hspaced : tokensOf (scanBody l.spaced.text).1 =
        tokensOf (TagLine.headerPieces l.name l.marks) ++ tokensOf (scanRest (spacesFor g ++ t')) :=
      tokensOf_of_parts (l := l.spaced) hf hg.spacesFor (v.parts_spacesFor hg) hline'
    have hrest := tokensOf_restText_iff l.attributes_fit l.more_fits v
    rw [hjs, List.tail_cons, ht, ht'] at hrest
    rw [hjs, List.forall_mem_cons, ← hrest, hspaced]
    by_cases hparts : v.Parts g
    · rw [tokensOf_of_parts hf hg hparts hline, List.append_cancel_left_eq, and_iff_right hparts]
    · exact iff_of_false (tokensOf_ne_of_not_parts hf hg hparts hline _) fun h => hparts h.1

end SeparatedLine

/-! ## The line in its source -/

/-- A doctype line leaves no block open, as it would not if it were a line like any other. -/
theorem scanLine_snd (first : Bool) (block : Option Nat) (t : Text) :
    (scanLine first block t).2 = (scanLine false block t).2 := by
  cases hcut : Text.cut? ['!', '!', '!'] t with
  | none => rw [scanLine_of_not_doctype fun _ => hcut]
  | some rest =>
    cases first with
    | false => rfl
    | true =>
      have ht := cut?_eq_some_iff.1 hcut
      have hblank : t.isBlank = false := by rw [ht]; rfl
      cases hany : block.any (· < indentation t) with
      | true => rw [scanLine_of_raw hblank hany, scanLine_of_raw hblank hany]
      | false =>
        have hopens : (scanBody (t.dropWhile (· == ' '))).2 = false := by
          rw [Bool.eq_false_iff, ne_eq, scanBody_opens_iff]
          rintro ⟨name, -, -, h⟩
          rw [ht] at h
          rcases h with h | h <;> cases h
        rw [scanLine_of_doctype hblank hany hcut, scanLine_of_markup hblank hany, hopens]
        rfl

theorem lineTokens_lexLines (file : Text) {before ts : List Text} {block : Option Nat}
    (h : Tracks before block) (offset : Nat) {i : Nat} {t : Text} (hi : ts[i]? = some t)
    (hblank : t.isBlank = false)
    (hdoctype : before.length + i = 0 → Text.cut? ['!', '!', '!'] t = none)
    (hfree : ¬ Hangs (before ++ ts.take i) (indentation t)) :
    ((lexLines file before.length offset block ts).filter
        (·.start.line == before.length + i)).map (fun t => (t.kind, t.contents)) =
      (.indent, t.takeWhile (· == ' ')) :: tokensOf (scanBody (t.dropWhile (· == ' '))).1 := by
  induction ts generalizing before block offset i with
  | nil => cases hi
  | cons u us ih =>
    have hnext : Tracks (before ++ [u]) (scanLine (before.length == 0) block u).2 := by
      rw [scanLine_snd]
      exact h.next u
    cases i with
    | zero =>
      cases hi
      have hany : block.any (· < indentation t) = false := by
        rw [Bool.eq_false_iff, ne_eq, h]
        simpa using hfree
      have hfirst : (before.length == 0) = true → Text.cut? ['!', '!', '!'] t = none := by
        simpa using hdoctype
      rw [Nat.add_zero, filter_lexLines_first, map_placePieces, scanLine_of_not_doctype hfirst,
        scanLine_of_markup hblank hany]
      rfl
    | succ i =>
      have hrest := ih hnext (offset + u.length + 1) (i := i) hi
        (by simp) (by simpa using hfree)
      rw [List.length_append, List.length_singleton] at hrest
      rw [filter_lexLines_below]
      exact hrest

/-- The tokens of a line of markup are its indentation and those of its body. -/
theorem lineTokens_of_isMarkup {source : Text} {k : Nat} {t : Text}
    (h : IsMarkup (splitLines (normalise source)) k t) (file : Text) :
    lineTokens file source k =
      (.indent, t.takeWhile (· == ' ')) :: tokensOf (scanBody (t.dropWhile (· == ' '))).1 := by
  have hdoctype : ([] : List Text).length + k = 0 → Text.cut? ['!', '!', '!'] t = none := by
    intro hk
    cases hcut : Text.cut? ['!', '!', '!'] t with
    | none => rfl
    | some rest =>
      exact absurd ⟨by simpa using hk, rest, (cut?_eq_some_iff.1 hcut).symm⟩ h.not_doctype
  have hfree : ¬ Hangs ([] ++ (splitLines (normalise source)).take k) (indentation t) := by
    simpa [Swallowed, h.line] using h.not_swallowed
  have htokens := lineTokens_lexLines file tracks_nil 0 h.line h.not_blank hdoctype hfree
  rw [List.length_nil, Nat.zero_add] at htokens
  exact htokens

namespace SeparatedLine

section Indented

variable (l : SeparatedLine) (depth : Nat)

theorem takeWhile_indented_text :
    (indented depth l.text).takeWhile (· == ' ') = List.replicate depth ' ' := by
  obtain ⟨c, t, ht, hc⟩ := l.exists_cons_text
  rw [ht]
  exact takeWhile_indented (by rcases hc with rfl | rfl | rfl <;> decide) depth

theorem dropWhile_indented_text : (indented depth l.text).dropWhile (· == ' ') = l.text := by
  obtain ⟨c, t, ht, hc⟩ := l.exists_cons_text
  rw [ht]
  exact dropWhile_indented (by rcases hc with rfl | rfl | rfl <;> decide) depth

/-- Outside of raw blocks the line is markup. -/
theorem isMarkup {above : List Text} (hout : ¬ Hangs above depth) (below : List Text) :
    IsMarkup (above ++ indented depth l.text :: below) above.length (indented depth l.text) := by
  have hindent : indentation (indented depth l.text) = depth := by
    rw [indentation, l.takeWhile_indented_text, List.length_replicate]
  obtain ⟨c, t, ht, hc⟩ := l.exists_cons_text
  have hspace : isSpace c = false := by rcases hc with rfl | rfl | rfl <;> decide
  rw [ht] at hindent ⊢
  refine ⟨by simp, isBlank_indented hspace depth, ?_, ?_⟩
  · rintro ⟨-, rest, hrest⟩
    cases depth with
    | zero =>
      have hbang : '!' = c := (List.cons.inj hrest).1
      rcases hc with rfl | rfl | rfl <;> exact absurd hbang (by decide)
    | succ depth => exact absurd (List.cons.inj hrest).1 (by decide)
  · rintro ⟨u, hu, hhangs⟩
    have hu : u = indented depth (c :: t) := by simpa using hu.symm
    rw [hu, hindent] at hhangs
    exact hout (by simpa using hhangs)

end Indented

/-- Blanks of either kind in the runs of a tag line give the tokens that spaces give, if and only if
every run behind a word starts with a space. The line may stand anywhere in a source, but for the
block of a filter, where lines are not cut up. -/
theorem lineTokens_eq_spaced_iff (l : SeparatedLine) {file source source' : Text}
    {above below : List Text} {depth : Nat}
    (hlines : splitLines (normalise source) = above ++ indented depth l.text :: below)
    (hlines' : splitLines (normalise source') = above ++ indented depth l.spaced.text :: below)
    (hout : ¬ Hangs above depth) :
    lineTokens file source above.length = lineTokens file source' above.length ↔
      ∀ j ∈ l.parted, j.1.kind = .word → j.2.head? = some ' ' := by
  have hmarkup := l.isMarkup depth hout below
  have hmarkup' := l.spaced.isMarkup depth hout below
  rw [← hlines] at hmarkup
  rw [← hlines'] at hmarkup'
  rw [lineTokens_of_isMarkup hmarkup, lineTokens_of_isMarkup hmarkup', l.takeWhile_indented_text,
    l.dropWhile_indented_text, l.spaced.takeWhile_indented_text, l.spaced.dropWhile_indented_text,
    List.cons.injEq, and_iff_right rfl]
  exact l.tokensOf_scanBody_iff

/-- Tabs behind a name in braces and a quoted value, and a tab behind the space that ends a word. -/
theorem lineTokens_eq_spaced_of_tabs :
    lineTokens [] "%ul\n  .\x7bb\x7d\tt=\"c\"\tu=d \t:css e".toList 1 =
      lineTokens [] "%ul\n  .\x7bb\x7d t=\"c\" u=d  :css e".toList 1 := by
  let l : SeparatedLine := {
    name := none
    marks := [(.cls, .braced ['b'])]
    attributes := [(['\t'], .bare ['t'], .quoted ['c']), (['\t'], .bare ['u'], .bare ['d'])]
    more := some (" \t".toList, ":css e".toList)
    name_fits := by decide
    marks_fit := by decide
    header_ne := by decide
    attributes_fit := by unfold IsRun; decide
    more_fits := by
      rintro m ⟨⟩
      refine ⟨⟨by decide, by decide⟩, ?_⟩
      rintro c ⟨⟩
      decide }
  have hout : ¬ Hangs ["%ul".toList] 2 := by
    have htracks := tracks_nil.next "%ul".toList
    rw [List.nil_append] at htracks
    rw [← htracks]
    decide +kernel
  refine (@lineTokens_eq_spaced_iff l [] _ _ ["%ul".toList] [] 2 ?_ ?_ hout).2 ?_
  · decide +kernel
  · decide +kernel
  · decide +kernel

/-- A tab behind a word goes into the word, with the text behind it. -/
theorem lineTokens_ne_of_tab :
    lineTokens [] "%p\thello".toList 0 ≠ lineTokens [] "%p hello".toList 0 ∧
      lineTokens [] "%p\thello".toList 0 =
        [(.indent, []), (.tagMark, ['%']), (.word, "p\thello".toList)] := by
  decide +kernel

end SeparatedLine
end Offside
