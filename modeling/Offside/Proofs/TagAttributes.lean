import Offside.Proofs.LineReading

/-!
# The attributes of a tag

A tag line has ids and classes in its header and attributes behind it, any number of each. The
opening text has one list of attributes in their place (`Tag.Parts.listed`): first the id, then the
class, and then all other attributes in the order in which they are written. Only the first
attribute that is literally called `id`, and the first that is literally called `class`, is taken
out of its place. One that repeats the name stays where it is, and the opening text has the name
once more (`Tag.opening_of_read`).
-/

namespace Offside

/-! ## Joining lines -/

namespace Fragments

theorem merge_cons_congr {u v : Fragments} (h : merge u = merge v) (f : Fragment) :
    merge (f :: u) = merge (f :: v) := by
  cases f <;> simp only [merge, h]

theorem merge_literal_cons (a b : Text) (v : Fragments) :
    merge (.literal a :: .literal b :: v) = merge (.literal (a ++ b) :: v) := by
  rw [merge, merge, merge]
  cases merge v with
  | nil => rfl
  | cons f gs =>
    cases f with
    | literal c => simp
    | expression | filter => rfl

/-- A literal before a merged line is a fragment of its own, unless it meets a literal. -/
theorem merge_literal_cases (a : Text) (v : Fragments) :
    (∃ b gs, merge v = .literal b :: gs ∧ merge (.literal a :: v) = .literal (a ++ b) :: gs) ∨
      merge (.literal a :: v) = .literal a :: merge v := by
  rw [merge]
  cases h : merge v with
  | nil => exact .inr rfl
  | cons f gs =>
    cases f with
    | literal b => exact .inl ⟨b, gs, rfl, rfl⟩
    | expression | filter => exact .inr rfl

theorem merge_merge_append (u v : Fragments) : merge (merge u ++ v) = merge (u ++ v) := by
  induction u with
  | nil => rfl
  | cons f u ih =>
    cases f with
    | literal a =>
      rcases merge_literal_cases a u with ⟨b, gs, hu, he⟩ | he
      · rw [hu] at ih
        rw [he, List.cons_append, ← merge_literal_cons]
        exact merge_cons_congr ih _
      · rw [he]
        exact merge_cons_congr ih _
    | expression | filter => exact merge_cons_congr ih _

theorem merge_append_merge (u v : Fragments) : merge (u ++ merge v) = merge (u ++ v) := by
  induction u with
  | nil =>
    have h := merge_merge_append v []
    rwa [List.append_nil, List.append_nil] at h
  | cons f u ih => exact merge_cons_congr ih f

/-- Lines that are joined beforehand make no difference. -/
theorem join_append (us vs : List Fragments) : join (us ++ vs) = merge (join us ++ join vs) := by
  rw [join, join, join, merge_merge_append, merge_append_merge, List.flatten_append]

theorem join_append_congr {us us' vs vs' : List Fragments} (hu : join us = join us')
    (hv : join vs = join vs') : join (us ++ vs) = join (us' ++ vs') := by
  rw [join_append, join_append, hu, hv]

end Fragments

namespace Tag

/-! ## What the tokens of a tag line spell -/

/-- Tokens of ids and classes, with the values that they give. -/
inductive SpellsMarks : List Token → List (TokenKind × Fragments) → Prop
  | nil : SpellsMarks [] []
  | cons {m v : Token} {ts : List Token} {marks : List (TokenKind × Fragments)} :
      IsMark m.kind → v.kind ∈ wordKinds → SpellsMarks ts marks →
      SpellsMarks (m :: v :: ts) ((m.kind, tagValue v) :: marks)

/-- Tokens of attributes, with the names and values that they give. -/
inductive SpellsAttributes : List Token → List (Fragments × Fragments) → Prop
  | nil : SpellsAttributes [] []
  | cons {n e v : Token} {ts : List Token} {attributes : List (Fragments × Fragments)} :
      n.kind ∈ wordKinds → e.kind = .equals → v.kind ∈ valueKinds →
      SpellsAttributes ts attributes →
      SpellsAttributes (n :: e :: v :: ts) ((tagValue n, tagValue v) :: attributes)

/-- The parts of a tag line, all of them, in the order in which they are written. -/
structure Parts where
  name : Option Fragments
  /-- Ids and classes, each with the kind of its mark. -/
  marks : List (TokenKind × Fragments)
  attributes : List (Fragments × Fragments)

/-- Tokens of a tag line, with its parts. At least one part of the header is there. -/
inductive Spells : List Token → Parts → Prop
  | named {t v : Token} {hs as : List Token} {marks : List (TokenKind × Fragments)}
      {attributes : List (Fragments × Fragments)} :
      t.kind = .tagMark → v.kind ∈ wordKinds → SpellsMarks hs marks →
      SpellsAttributes as attributes →
      Spells (t :: v :: (hs ++ as)) ⟨some (tagValue v), marks, attributes⟩
  | unnamed {hs as : List Token} {marks : List (TokenKind × Fragments)}
      {attributes : List (Fragments × Fragments)} :
      marks ≠ [] → SpellsMarks hs marks → SpellsAttributes as attributes →
      Spells (hs ++ as) ⟨none, marks, attributes⟩

namespace Parts

/-- The ids of the header. -/
def ids (p : Parts) : List Fragments := (p.marks.filter (·.1 == .idMark)).map (·.2)

/-- The classes of the header. -/
def classes (p : Parts) : List Fragments := (p.marks.filter (·.1 == .classMark)).map (·.2)

/-- The tag that the parts make up. -/
def tag (p : Parts) : Tag where
  name := p.name
  id := p.ids.getLast?
  classes := p.classes
  attributes := p.attributes

end Parts

/-- A tag with more ids and classes. -/
def withMarks (tag : Tag) (marks : List (TokenKind × Fragments)) : Tag where
  name := tag.name
  id := ((marks.filter (·.1 == .idMark)).map (·.2)).getLast?.or tag.id
  classes := tag.classes ++ (marks.filter (·.1 == .classMark)).map (·.2)
  attributes := tag.attributes

theorem withMarks_nil (tag : Tag) : tag.withMarks [] = tag := by
  simp [withMarks]

/-- Ids and classes are added one after the other: of several ids the last one counts. -/
theorem withMarks_cons {kind : TokenKind} (hk : IsMark kind) (tag : Tag) (v : Fragments)
    (marks : List (TokenKind × Fragments)) :
    tag.withMarks ((kind, v) :: marks) =
      withMarks (if kind = .idMark then { tag with id := some v }
        else { tag with classes := tag.classes ++ [v] }) marks := by
  rcases hk with rfl | rfl
  · simp [withMarks, List.getLast?_cons, Option.or_some]
  · simp [withMarks]

section Reading

variable {stop : Location} {ts rest : List Token}

theorem readMarks_of_spells {marks : List (TokenKind × Fragments)} (h : SpellsMarks ts marks)
    (hrest : ∀ t ts, rest = t :: ts → ¬ IsMark t.kind) (tag : Tag) :
    readMarks stop tag (ts ++ rest) = .ok (tag.withMarks marks, rest) := by
  induction h generalizing tag with
  | nil =>
    rw [List.nil_append, withMarks_nil]
    cases rest with
    | nil => rfl
    | cons t ts =>
      have hne : ¬ (t.kind = .idMark ∨ t.kind = .classMark) := hrest t ts rfl
      unfold readMarks
      rw [if_neg hne]
  | @cons m v ts marks hm hv _ ih =>
    have hm' : m.kind = .idMark ∨ m.kind = .classMark := hm
    rw [List.cons_append, List.cons_append, readMarks, if_pos hm', if_pos hv, ih,
      withMarks_cons hm]

theorem exists_spells_of_readMarks {tag tag' : Tag}
    (h : readMarks stop tag ts = .ok (tag', rest)) :
    ∃ us marks, ts = us ++ rest ∧ SpellsMarks us marks ∧ tag' = tag.withMarks marks := by
  fun_induction readMarks stop tag ts with
  | case1 tag =>
    cases h
    exact ⟨[], [], rfl, .nil, (withMarks_nil _).symm⟩
  | case3 tag m hm v ts hv ih =>
    obtain ⟨us, marks, rfl, hus, rfl⟩ := ih h
    exact ⟨m :: v :: us, _, rfl, .cons hm hv hus, (withMarks_cons hm ..).symm⟩
  | case5 tag m ts hm =>
    cases h
    exact ⟨[], [], rfl, .nil, (withMarks_nil _).symm⟩
  | case2 | case4 => cases h

theorem readAttributes_of_spells {attributes : List (Fragments × Fragments)}
    (h : SpellsAttributes ts attributes) (hrest : ∀ t ts, rest = t :: ts → t.kind ∉ wordKinds)
    (tag : Tag) :
    readAttributes stop tag (ts ++ rest) =
      .ok ({ tag with attributes := tag.attributes ++ attributes }, rest) := by
  induction h generalizing tag with
  | nil =>
    rw [List.nil_append, List.append_nil]
    cases rest with
    | nil => rfl
    | cons t ts =>
      unfold readAttributes
      rw [if_neg (hrest t ts rfl)]
  | cons hn he hv _ ih =>
    rw [List.cons_append, List.cons_append, List.cons_append, readAttributes, if_pos hn,
      if_pos he, if_pos hv, ih, List.append_assoc]
    rfl

theorem exists_spells_of_readAttributes {tag tag' : Tag}
    (h : readAttributes stop tag ts = .ok (tag', rest)) :
    ∃ us attributes, ts = us ++ rest ∧ SpellsAttributes us attributes ∧
      tag' = { tag with attributes := tag.attributes ++ attributes } := by
  fun_induction readAttributes stop tag ts with
  | case1 | case7 =>
    cases h
    exact ⟨[], [], rfl, .nil, by rw [List.append_nil]⟩
  | case4 tag n hn e he v ts hv ih =>
    obtain ⟨us, attributes, rfl, hus, rfl⟩ := ih h
    refine ⟨n :: e :: v :: us, _, rfl, .cons hn he hv hus, ?_⟩
    rw [List.append_assoc]
    rfl
  | case2 | case3 | case5 | case6 => cases h

/-- A header is nothing if it has neither a name nor an id nor a class. -/
theorem isNothing_withMarks {marks : List (TokenKind × Fragments)} (h : SpellsMarks ts marks)
    (name : Option Fragments) :
    (withMarks { name } marks).isNothing = (name.isNone && marks.isEmpty) := by
  cases h with
  | nil => simp [withMarks, isNothing]
  | cons hm =>
    rcases hm with hm | hm <;> simp [withMarks, isNothing, hm, List.getLast?_cons]

/-- A name is read if the tokens start with its mark. -/
theorem readName_cases {tag : Tag} (h : readName stop ts = .ok (tag, rest)) :
    ts = rest ∧ tag = {} ∨
      ∃ t v, ts = t :: v :: rest ∧ t.kind = .tagMark ∧ v.kind ∈ wordKinds ∧
        tag = { name := some (tagValue v) } := by
  cases ts with
  | nil =>
    cases h
    exact .inl ⟨rfl, rfl⟩
  | cons t ts =>
    rw [readName] at h
    split at h
    · rename_i ht
      rw [bind_eq_ok] at h
      obtain ⟨⟨v, us⟩, hv, h⟩ := h
      obtain ⟨rfl, hk⟩ := takeOne_ok hv
      cases h
      exact .inr ⟨t, v, rfl, ht, hk, rfl⟩
    · cases h
      exact .inl ⟨rfl, rfl⟩

/-- Reading a tag is reading a name, ids and classes, which are something, and attributes. -/
theorem read_some_iff {tag : Tag} :
    read stop ts = .ok (some tag, rest) ↔
      ∃ named headed us vs, readName stop ts = .ok (named, us) ∧
        readMarks stop named us = .ok (headed, vs) ∧ headed.isNothing = false ∧
        readAttributes stop headed vs = .ok (tag, rest) := by
  constructor
  · intro h
    unfold read at h
    rw [bind_eq_ok] at h
    obtain ⟨⟨named, us⟩, h₁, h⟩ := h
    rw [bind_eq_ok] at h
    obtain ⟨⟨headed, vs⟩, h₂, h⟩ := h
    dsimp only at h₂ h
    split at h
    · cases h
    rename_i hsome
    rw [bind_eq_ok] at h
    obtain ⟨⟨tag', ws⟩, h₃, h⟩ := h
    cases h
    exact ⟨named, headed, us, vs, h₁, h₂, by simpa using hsome, h₃⟩
  · rintro ⟨named, headed, us, vs, h₁, h₂, hsome, h₃⟩
    unfold read
    rw [h₁]
    show (readMarks stop named us >>= _) = _
    rw [h₂]
    show (if headed.isNothing then _ else (readAttributes stop headed vs >>= _)) = _
    rw [hsome, h₃]
    rfl

/-- The tokens of a tag line are read as the tag that its parts make up. -/
theorem read_of_spells {p : Parts} (h : Spells ts p) (hrest : Ends rest) :
    read stop (ts ++ rest) = .ok (some p.tag, rest) := by
  -- attributes start with a word, so that they do not go on with ids and classes
  have hstop : ∀ {as attributes}, SpellsAttributes as attributes →
      ∀ t ts, as ++ rest = t :: ts → ¬ IsMark t.kind := by
    intro as attributes ha t ts he
    cases ha with
    | nil => exact (hrest t ts he).1
    | cons hn =>
      cases he
      rintro (hm | hm) <;> rw [hm] at hn <;> simp [wordKinds] at hn
  have hend : ∀ t ts, rest = t :: ts → t.kind ∉ wordKinds := fun t ts he => (hrest t ts he).2
  rw [read_some_iff]
  cases h with
  | @named t v hs as marks attributes ht hv hm ha =>
    refine ⟨{ name := some (tagValue v) }, _, hs ++ (as ++ rest), as ++ rest, ?_,
      readMarks_of_spells hm (hstop ha) _, ?_, ?_⟩
    · rw [List.cons_append, List.cons_append, List.append_assoc, readName, if_pos ht, takeOne,
        if_pos hv]
      rfl
    · rw [isNothing_withMarks hm]
      rfl
    · rw [readAttributes_of_spells ha hend]
      simp [withMarks, Parts.tag, Parts.ids, Parts.classes]
  | @unnamed hs as marks attributes hne hm ha =>
    refine ⟨{}, _, hs ++ (as ++ rest), as ++ rest, ?_, readMarks_of_spells hm (hstop ha) _, ?_, ?_⟩
    · rw [List.append_assoc]
      cases hm with
      | nil => exact absurd rfl hne
      | @cons m v ts marks hmark =>
        have hname : m.kind ≠ .tagMark := by
          rcases hmark with hmark | hmark <;> rw [hmark] <;> simp
        rw [List.cons_append, readName, if_neg hname]
    · rw [isNothing_withMarks hm none]
      simpa using hne
    · rw [readAttributes_of_spells ha hend]
      simp [withMarks, Parts.tag, Parts.ids, Parts.classes]

/-- Every tag that is read is made up of the parts of its line. -/
theorem exists_spells_of_read {tag : Tag} (h : read stop ts = .ok (some tag, rest)) :
    ∃ us p, ts = us ++ rest ∧ Spells us p ∧ tag = p.tag := by
  obtain ⟨named, headed, us, vs, h₁, h₂, hsome, h₃⟩ := read_some_iff.1 h
  obtain ⟨hs, marks, rfl, hm, rfl⟩ := exists_spells_of_readMarks h₂
  obtain ⟨as, attributes, rfl, ha, rfl⟩ := exists_spells_of_readAttributes h₃
  rcases readName_cases h₁ with ⟨rfl, rfl⟩ | ⟨t, v, rfl, ht, hv, rfl⟩
  · have hne : marks ≠ [] := by
      rw [isNothing_withMarks hm none] at hsome
      simpa using hsome
    refine ⟨hs ++ as, _, (List.append_assoc ..).symm, .unnamed hne hm ha, ?_⟩
    simp [withMarks, Parts.tag, Parts.ids, Parts.classes]
  · refine ⟨t :: v :: (hs ++ as), _, ?_, .named ht hv hm ha, ?_⟩
    · rw [List.cons_append, List.cons_append, List.append_assoc]
    · simp [withMarks, Parts.tag, Parts.ids, Parts.classes]

end Reading

/-! ## The attributes that are listed -/

/-- Whether an attribute is literally called `name`. -/
def isCalled (name : String) (a : Fragments × Fragments) : Bool :=
  a.1.isLiteral && a.1.describe == name.toList

/-- The attribute of that name, if there is a value for it. -/
def attribute? (name : String) (value? : Option Fragments) : List (Fragments × Fragments) :=
  value?.toList.map fun v => (Fragments.ofString name, v)

/-- The opening text of an element with the given attributes. -/
def openText (element : Fragments) (attributes : List (Fragments × Fragments)) : Fragments :=
  Fragments.join ([Fragments.ofString "<", element]
    ++ attributes.flatMap (fun a => attributeText a.1 a.2) ++ [Fragments.ofString ">"])

namespace Parts

/-- The attributes that are literally called `name`, in the order in which they are written. -/
def called (p : Parts) (name : String) : List (Fragments × Fragments) :=
  p.attributes.filter (isCalled name)

/-- The id of the element: the value of the first attribute that is called so, and otherwise the
last id of the header. -/
def idValue? (p : Parts) : Option Fragments :=
  ((p.called "id").head?.map (·.2)).or p.ids.getLast?

/-- The classes of the element: those of the header, and then the value of the first attribute that
is called so. -/
def allClasses (p : Parts) : List Fragments :=
  p.classes ++ ((p.called "class").head?.map (·.2)).toList

/-- The classes as one value, with a space between each two. -/
def classValue? (p : Parts) : Option Fragments :=
  if p.allClasses = [] then none else some (spaced p.allClasses).flatten

/-- The attributes that keep their place. -/
def others (p : Parts) : List (Fragments × Fragments) :=
  (p.attributes.eraseP (isCalled "id")).eraseP (isCalled "class")

/-- The attributes of the opening text. -/
def listed (p : Parts) : List (Fragments × Fragments) :=
  attribute? "id" p.idValue? ++ attribute? "class" p.classValue? ++ p.others

end Parts

section Erasing

variable {α : Type} {p q : α → Bool}

theorem eraseP_of_head?_filter {l : List α} (h : (l.filter p).head? = none) : l.eraseP p = l := by
  rw [List.head?_eq_none_iff, List.filter_eq_nil_iff] at h
  exact List.eraseP_of_forall_not h

theorem eraseP_of_length_filter_le {l : List α} (h : (l.filter p).length ≤ 1) :
    l.eraseP p = l.filter (!p ·) := by
  induction l with
  | nil => rfl
  | cons a l ih =>
    by_cases ha : p a = true
    · rw [List.filter_cons_of_pos ha, List.length_cons] at h
      have hnil : l.filter p = [] := List.length_eq_zero_iff.1 (by omega)
      have hself : l.filter (!p ·) = l := by
        rw [List.filter_eq_self]
        intro b hb
        simpa using List.filter_eq_nil_iff.1 hnil b hb
      rw [List.eraseP_cons_of_pos ha, List.filter_cons_of_neg (by simp [ha]), hself]
    · rw [List.filter_cons_of_neg ha] at h
      rw [List.eraseP_cons_of_neg ha, List.filter_cons_of_pos (by simp [ha]), ih h]

theorem filter_eraseP_self (l : List α) : (l.eraseP p).filter p = (l.filter p).tail := by
  induction l with
  | nil => rfl
  | cons a l ih =>
    by_cases ha : p a = true
    · rw [List.eraseP_cons_of_pos ha, List.filter_cons_of_pos ha, List.tail_cons]
    · rw [List.eraseP_cons_of_neg ha, List.filter_cons_of_neg ha, List.filter_cons_of_neg ha, ih]

theorem filter_eraseP_of_disjoint (h : ∀ a, p a = true → q a = false) (l : List α) :
    (l.eraseP p).filter q = l.filter q := by
  induction l with
  | nil => rfl
  | cons a l ih =>
    by_cases ha : p a = true
    · rw [List.eraseP_cons_of_pos ha, List.filter_cons_of_neg (by simp [h a ha])]
    · rw [List.eraseP_cons_of_neg ha, List.filter_cons, List.filter_cons, ih]

end Erasing

theorem isCalled_eq_false_of_ne {name other : String} (hne : name ≠ other)
    (a : Fragments × Fragments) (h : isCalled name a = true) : isCalled other a = false := by
  rw [isCalled, Bool.and_eq_true, beq_iff_eq] at h
  rw [isCalled, h.2, Bool.and_eq_false_iff]
  exact .inr (by simpa [String.toList_inj] using hne)

theorem isCalled_ofString (name other : String) (v : Fragments) :
    isCalled name (Fragments.ofString other, v) = (other == name) := by
  simp [isCalled, Fragments.ofString, Fragments.ofLiteral, Fragments.isLiteral,
    Fragments.describe, Fragment.isLiteral, Fragment.describe, String.toList_inj]

theorem filter_attribute?_self (name : String) (value? : Option Fragments) :
    (attribute? name value?).filter (isCalled name) = attribute? name value? := by
  cases value? <;> simp [attribute?, isCalled_ofString]

theorem filter_attribute?_of_ne {name other : String} (hne : other ≠ name)
    (value? : Option Fragments) : (attribute? other value?).filter (isCalled name) = [] := by
  cases value? <;> simp [attribute?, isCalled_ofString, hne]

theorem takeAttribute_eq (name : String) (attributes : List (Fragments × Fragments)) :
    takeAttribute name.toList attributes =
      (attributes.filter (isCalled name)).head?.map fun a =>
        (a.2, attributes.eraseP (isCalled name)) := by
  induction attributes with
  | nil => rfl
  | cons a as ih =>
    rw [takeAttribute, ih]
    show (if isCalled name a = true then _ else _) = _
    by_cases ha : isCalled name a = true
    · rw [if_pos ha, List.filter_cons_of_pos ha, List.eraseP_cons_of_pos ha]
      rfl
    · rw [if_neg ha, List.filter_cons_of_neg ha, List.eraseP_cons_of_neg ha, Option.map_map]
      rfl

namespace Parts

variable (p : Parts)

/-- Settling a tag gives it the id and the classes that count, and leaves the other attributes. -/
theorem settle_tag :
    p.tag.settle = {
      name := p.name
      id := p.idValue?
      classes := p.allClasses
      attributes := p.others } := by
  -- taking out an id does not touch what is called a class
  have hclass : (p.attributes.eraseP (isCalled "id")).filter (isCalled "class") =
      p.called "class" := filter_eraseP_of_disjoint (isCalled_eq_false_of_ne (by decide)) _
  rw [idValue?, allClasses, ← hclass, others, called]
  unfold settle
  rw [tag, takeAttribute_eq]
  cases hid : (p.attributes.filter (isCalled "id")).head? with
  | none =>
    rw [eraseP_of_head?_filter hid]
    dsimp only [Option.map_none]
    rw [takeAttribute_eq]
    cases h : (p.attributes.filter (isCalled "class")).head? with
    | none =>
      rw [eraseP_of_head?_filter h]
      simp
    | some b => simp
  | some a =>
    dsimp only [Option.map_some]
    rw [takeAttribute_eq]
    cases h : ((p.attributes.eraseP (isCalled "id")).filter (isCalled "class")).head? with
    | none =>
      rw [eraseP_of_head?_filter h]
      simp
    | some b => simp

/-- Of the attributes that are called `id` all but the first keep their place. -/
theorem filter_others_id : p.others.filter (isCalled "id") = (p.called "id").tail := by
  rw [others, filter_eraseP_of_disjoint (isCalled_eq_false_of_ne (by decide)), filter_eraseP_self,
    called]

/-- Of the attributes that are called `class` all but the first keep their place. -/
theorem filter_others_class : p.others.filter (isCalled "class") = (p.called "class").tail := by
  rw [others, filter_eraseP_self,
    filter_eraseP_of_disjoint (isCalled_eq_false_of_ne (by decide)), called]

theorem filter_listed_id :
    p.listed.filter (isCalled "id") = attribute? "id" p.idValue? ++ (p.called "id").tail := by
  rw [listed, List.filter_append, List.filter_append, filter_attribute?_self,
    filter_attribute?_of_ne (by decide), List.append_nil, filter_others_id]

theorem filter_listed_class :
    p.listed.filter (isCalled "class") =
      attribute? "class" p.classValue? ++ (p.called "class").tail := by
  rw [listed, List.filter_append, List.filter_append, filter_attribute?_self,
    filter_attribute?_of_ne (by decide), List.nil_append, filter_others_class]

/-- The id and the class come first, in this order, and then what repeats their names. -/
theorem filter_listed_or :
    p.listed.filter (fun a => isCalled "id" a || isCalled "class" a) =
      attribute? "id" p.idValue? ++ attribute? "class" p.classValue? ++
        p.others.filter (fun a => isCalled "id" a || isCalled "class" a) := by
  rw [listed, List.filter_append, List.filter_eq_self.2]
  intro a ha
  rw [Bool.or_eq_true]
  rcases List.mem_append.1 ha with ha | ha
  · rw [← filter_attribute?_self] at ha
    exact .inl (List.mem_filter.1 ha).2
  · rw [← filter_attribute?_self] at ha
    exact .inr (List.mem_filter.1 ha).2

/-- Nothing called `id` or `class` keeps its place if neither name is repeated. -/
theorem filter_others_or_eq_nil :
    p.others.filter (fun a => isCalled "id" a || isCalled "class" a) = [] ↔
      (p.called "id").length ≤ 1 ∧ (p.called "class").length ≤ 1 := by
  have hid := congrArg List.length p.filter_others_id
  have hclass := congrArg List.length p.filter_others_class
  rw [List.length_tail] at hid hclass
  have hsplit : p.others.filter (fun a => isCalled "id" a || isCalled "class" a) = [] ↔
      p.others.filter (isCalled "id") = [] ∧ p.others.filter (isCalled "class") = [] := by
    simp only [List.filter_eq_nil_iff, Bool.or_eq_true, not_or, forall_and]
  rw [hsplit, ← List.length_eq_zero_iff, ← List.length_eq_zero_iff]
  omega

/-- An attribute that has a name by rule and the attributes that repeat the name are one at most if
the line has the name once at most. -/
theorem length_attribute?_append_tail {name : String} {value? : Option Fragments}
    {attributes : List (Fragments × Fragments)} (h : attributes ≠ [] → value?.isSome = true) :
    (attribute? name value? ++ attributes.tail).length ≤ 1 ↔ attributes.length ≤ 1 := by
  cases attributes with
  | nil => cases value? <;> simp [attribute?]
  | cons a as =>
    obtain ⟨v, rfl⟩ := Option.isSome_iff_exists.1 (h (List.cons_ne_nil a as))
    simp [attribute?]

theorem isSome_idValue? (h : p.called "id" ≠ []) : p.idValue?.isSome = true := by
  obtain ⟨a, as, ha⟩ := List.exists_cons_of_ne_nil h
  simp [idValue?, ha]

theorem isSome_classValue? (h : p.called "class" ≠ []) : p.classValue?.isSome = true := by
  obtain ⟨a, as, ha⟩ := List.exists_cons_of_ne_nil h
  simp [classValue?, allClasses, ha]

/-- The classes of the element are all that the line has if no class attribute is repeated. -/
theorem allClasses_eq_iff :
    p.allClasses = p.classes ++ (p.called "class").map (·.2) ↔ (p.called "class").length ≤ 1 := by
  rw [allClasses, List.append_cancel_left_eq]
  rcases p.called "class" with _ | ⟨a, _ | ⟨b, as⟩⟩ <;> simp

end Parts

/-- An attribute whose name is given is written in the same way as any other. -/
theorem join_attributeText (name : String) (vs : List Fragments) :
    Fragments.join (Fragments.ofString (" " ++ name ++ "=\"") :: vs ++ [Fragments.ofString "\""]) =
      Fragments.join (attributeText (Fragments.ofString name) vs.flatten) := by
  simp [Fragments.join, attributeText, Fragments.ofString, Fragments.ofLiteral,
    Fragments.merge_literal_cons]

/-- The opening text has the listed attributes, one after the other. -/
theorem Parts.opening_tag (p : Parts) : p.tag.opening = openText p.tag.element p.listed := by
  rw [opening, p.settle_tag, openingOf, openText, listed, List.flatMap_append,
    List.flatMap_append]
  refine Fragments.join_append_congr ?_ rfl
  rw [← List.append_assoc, ← List.append_assoc]
  refine Fragments.join_append_congr (Fragments.join_append_congr
    (Fragments.join_append_congr rfl ?_) ?_) rfl
  · cases p.idValue? with
    | none => rfl
    | some v => simpa [attribute?] using join_attributeText "id" [v]
  · rw [classValue?]
    by_cases hp : p.allClasses = []
    · rw [if_pos hp, hp]
      rfl
    · simpa [attribute?, hp] using join_attributeText "class" (spaced p.allClasses)

/-- The opening text of every tag that is read has the attributes of its line: the id and then the
class come first, and each of the two names stands there once, with all classes in the order of the
line, exactly if no attribute of the line repeats it. -/
theorem opening_of_read {stop : Location} {ts rest : List Token} {tag : Tag}
    (h : read stop ts = .ok (some tag, rest)) :
    ∃ us p, ts = us ++ rest ∧ Spells us p ∧ tag.opening = openText tag.element p.listed ∧
      (p.listed.countP (isCalled "id") ≤ 1 ↔ (p.called "id").length ≤ 1) ∧
      (p.listed.countP (isCalled "class") ≤ 1 ↔ (p.called "class").length ≤ 1) ∧
      (p.listed.filter (fun a => isCalled "id" a || isCalled "class" a) =
          attribute? "id" p.idValue? ++ attribute? "class" p.classValue? ↔
        (p.called "id").length ≤ 1 ∧ (p.called "class").length ≤ 1) ∧
      (p.allClasses = p.classes ++ (p.called "class").map (·.2) ↔
        (p.called "class").length ≤ 1) := by
  obtain ⟨us, p, hts, hus, rfl⟩ := exists_spells_of_read h
  refine ⟨us, p, hts, hus, p.opening_tag, ?_, ?_, ?_, p.allClasses_eq_iff⟩
  · rw [List.countP_eq_length_filter, p.filter_listed_id]
    exact Parts.length_attribute?_append_tail p.isSome_idValue?
  · rw [List.countP_eq_length_filter, p.filter_listed_class]
    exact Parts.length_attribute?_append_tail p.isSome_classValue?
  · rw [p.filter_listed_or, List.append_right_eq_self, p.filter_others_or_eq_nil]

/-- The id and the class of the attributes join those of the header, before all else. -/
theorem opening_of_read_of_header_and_attributes :
    ∃ tag, read {} (lex [] "#x.a title=t id=y class=b".toList).tail = .ok (some tag, []) ∧
      tag.opening = [.literal "<div id=\"y\" class=\"a b\" title=\"t\">".toList] ∧
      ∃ us p, (lex [] "#x.a title=t id=y class=b".toList).tail = us ++ [] ∧ Spells us p ∧
        tag.opening = openText tag.element p.listed ∧
        (p.listed.countP (isCalled "id") ≤ 1 ↔ (p.called "id").length ≤ 1) ∧
        (p.listed.countP (isCalled "class") ≤ 1 ↔ (p.called "class").length ≤ 1) := by
  have h : read {} (lex [] "#x.a title=t id=y class=b".toList).tail = .ok (some {
      id := some [.literal ['x']]
      classes := [[.literal ['a']]]
      attributes := [
        ([.literal "title".toList], [.literal ['t']]),
        ([.literal "id".toList], [.literal ['y']]),
        ([.literal "class".toList], [.literal ['b']])] }, []) := by decide +kernel
  obtain ⟨us, p, hts, hus, hopening, hid, hclass, -⟩ := opening_of_read h
  exact ⟨_, h, by decide +kernel, us, p, hts, hus, hopening, hid, hclass⟩

/-- A line with two class attributes gives an element with two class attributes. -/
theorem class_listed_twice :
    ∃ tag, read {} (lex [] "%a class=x class=y".toList).tail = .ok (some tag, []) ∧
      tag.opening = openText [.literal ['a']] [
        (Fragments.ofString "class", [.literal ['x']]),
        (Fragments.ofString "class", [.literal ['y']])] ∧
      Program.ofTokens [] 0 (lex [] "%a class=x class=y".toList) = .ok ⟨[],
        #[.literal {} "<a class=\"x\" class=\"y\"></a>".toList 0]⟩ := by
  refine ⟨⟨some [.literal ['a']], none, [], [
      ([.literal "class".toList], [.literal ['x']]),
      ([.literal "class".toList], [.literal ['y']])]⟩, ?_, ?_, ?_⟩ <;> decide +kernel

end Tag
end Offside
