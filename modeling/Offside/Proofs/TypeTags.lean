import Offside.Data.TypeTag

/-!
# Tags identify types

A registry hands out tags call after call. Its search for a free tag stops at the first candidate
that no type has. Hence no two types ever share a tag, whatever their names are, and a type keeps
the tag that it was given first.

What one call does to the registry is said once, through `find?` (`find?_tag`); the invariant
`Distinct` and the stability of tags follow from it, and then hold of every sequence of calls.
-/

namespace Offside
namespace TypeRegistry

/-! ## The search for a free tag -/

/-- The tag that a name gets stands at place `n` of its candidates: the first free one. -/
structure FirstFree (r : TypeRegistry) (name : Text) (n : Nat) : Prop where
  free : r.taken (candidate name n) = false
  before : ∀ j, j < n → r.taken (candidate name j) = true

theorem FirstFree.le_length {r : TypeRegistry} {name : Text} {n : Nat}
    (h : r.FirstFree name n) : n ≤ r.tags.length :=
  le_length_of_taken h.before

theorem exists_firstFree_freshFrom (r : TypeRegistry) (name : Text) (i : Nat)
    (h : ∀ j, j < i → r.taken (candidate name j) = true) :
    ∃ n, r.FirstFree name n ∧ r.freshFrom name i h = candidate name n := by
  -- along the search itself: each round either stops or hands on one more taken candidate
  fun_induction freshFrom r name i h with
  | case1 i _ _ ih => exact ih
  | case2 i h hi => exact ⟨i, ⟨by simpa using hi, h⟩, rfl⟩

theorem exists_firstFree_fresh (r : TypeRegistry) (name : Text) :
    ∃ n, r.FirstFree name n ∧ r.fresh name = candidate name n :=
  exists_firstFree_freshFrom r name 0 _

theorem not_taken_fresh (r : TypeRegistry) (name : Text) : r.taken (r.fresh name) = false := by
  obtain ⟨n, hfirst, heq⟩ := exists_firstFree_fresh r name
  rw [heq]
  exact hfirst.free

/-! ## One call -/

theorem taken_of_find? {r : TypeRegistry} {type : TypeId} {t : Text}
    (h : r.find? type = some t) : r.taken t = true := by
  obtain ⟨entry, hfound, rfl⟩ := Option.map_eq_some_iff.mp h
  exact taken_iff.mpr (List.mem_map_of_mem (List.mem_of_find?_eq_some hfound))

theorem tag_of_find? {r : TypeRegistry} {type : TypeId} {t : Text} (h : r.find? type = some t) :
    r.tag type = (t, r) := by
  simp [tag, h]

theorem tag_of_find?_eq_none {r : TypeRegistry} {type : TypeId} (h : r.find? type = none) :
    r.tag type = (r.fresh type.name, { tags := r.tags ++ [(type, r.fresh type.name)] }) := by
  simp [tag, h]

theorem find?_append (r : TypeRegistry) (a b : TypeId) (t : Text) :
    find? { tags := r.tags ++ [(a, t)] } b
      = (r.find? b).or (if a = b then some t else none) := by
  cases hknown : r.tags.find? (·.1 == b) <;>
    by_cases h : a = b <;> simp [find?, List.find?_append, hknown, h]

/-- What giving a type its tag changes: this type has the tag, and the other types have what they
had. -/
theorem find?_tag (r : TypeRegistry) (a b : TypeId) :
    (r.tag a).2.find? b = if a = b then some (r.tag a).1 else r.find? b := by
  cases hknown : r.find? a with
  | some t =>
    rw [tag_of_find? hknown]
    by_cases h : a = b
    · rw [if_pos h, ← h, hknown]
    · rw [if_neg h]
  | none =>
    rw [tag_of_find?_eq_none hknown, find?_append]
    by_cases h : a = b
    · rw [if_pos h, if_pos h, ← h, hknown, Option.none_or]
    · rw [if_neg h, if_neg h, Option.or_none]

/-- No two types have one tag. -/
def Distinct (r : TypeRegistry) : Prop :=
  ∀ a b t, r.find? a = some t → r.find? b = some t → a = b

theorem distinct_empty : Distinct {} := by
  intro a b t h
  cases h

/-- The tag that a type is given belongs to no other type. -/
theorem Distinct.eq_of_find?_tag {r : TypeRegistry} (h : r.Distinct) {a b : TypeId}
    (hb : r.find? b = some (r.tag a).1) : a = b := by
  cases hknown : r.find? a with
  | some t =>
    rw [tag_of_find? hknown] at hb
    exact h a b t hknown hb
  | none =>
    rw [tag_of_find?_eq_none hknown] at hb
    have htaken := taken_of_find? hb
    rw [not_taken_fresh] at htaken
    cases htaken

theorem Distinct.tag {r : TypeRegistry} (h : r.Distinct) (type : TypeId) :
    (r.tag type).2.Distinct := by
  intro a b t ha hb
  rw [find?_tag] at ha hb
  by_cases hta : type = a
  · by_cases htb : type = b
    · exact hta.symm.trans htb
    · rw [if_pos hta, Option.some.injEq] at ha
      rw [if_neg htb, ← ha] at hb
      exact hta.symm.trans (h.eq_of_find?_tag hb)
  · rw [if_neg hta] at ha
    by_cases htb : type = b
    · rw [if_pos htb, Option.some.injEq] at hb
      rw [← hb] at ha
      exact (h.eq_of_find?_tag ha).symm.trans htb
    · rw [if_neg htb] at hb
      exact h a b t ha hb

theorem find?_tag_of_find? {r : TypeRegistry} {a : TypeId} {t : Text} (h : r.find? a = some t)
    (type : TypeId) : (r.tag type).2.find? a = some t := by
  rw [find?_tag]
  by_cases heq : type = a
  · rw [if_pos heq, heq, tag_of_find? h]
  · rw [if_neg heq, h]

end TypeRegistry

/-- Whether the registry chooses the tag: there is a value, and it does not name its type itself. -/
def Data.taggedByType (v : Data) : Bool :=
  match v with
  | .null => false
  | _ => (v.methodText? "TemplateType").isNone

namespace TypeRegistry

theorem typeOf_of_taggedByType (r : TypeRegistry) {v : Data} (h : v.taggedByType = true) :
    r.typeOf v = r.tag v.typeId := by
  unfold typeOf
  cases hnamed : v.methodText? "TemplateType" with
  | some t => cases v <;> simp [Data.taggedByType, hnamed] at h
  | none =>
    cases v with
    | null => cases h
    | _ => rfl

theorem typeOf_of_not_taggedByType (r : TypeRegistry) {v : Data} (h : v.taggedByType = false) :
    (r.typeOf v).2 = r := by
  unfold typeOf
  cases hnamed : v.methodText? "TemplateType" with
  | some t => rfl
  | none =>
    cases v with
    | null => rfl
    | _ => simp [Data.taggedByType, hnamed] at h

/-- A call either gives the type of its value a tag or leaves the registry alone, so what holds of
the tags that are given holds of the calls. -/
theorem typeOf_invariant {P : TypeRegistry → Prop} {r : TypeRegistry} (h : P r)
    (hstep : ∀ type, P (r.tag type).2) (v : Data) : P (r.typeOf v).2 := by
  cases hplain : v.taggedByType with
  | true =>
    rw [typeOf_of_taggedByType r hplain]
    exact hstep v.typeId
  | false =>
    rw [typeOf_of_not_taggedByType r hplain]
    exact h

theorem find?_typeOf {r : TypeRegistry} {v : Data} (h : v.taggedByType = true) :
    (r.typeOf v).2.find? v.typeId = some (r.typeOf v).1 := by
  rw [typeOf_of_taggedByType r h, find?_tag, if_pos rfl]

/-! ## Sequences of calls -/

/-- The answers to a sequence of calls, and the registry after them. -/
def typeOfAll (r : TypeRegistry) : List Data → List Text × TypeRegistry
  | [] => ([], r)
  | v :: vs =>
    let rest := (r.typeOf v).2.typeOfAll vs
    ((r.typeOf v).1 :: rest.1, rest.2)

theorem length_typeOfAll (r : TypeRegistry) (calls : List Data) :
    (r.typeOfAll calls).1.length = calls.length := by
  induction calls generalizing r with
  | nil => rfl
  | cons v vs ih => simp [typeOfAll, ih]

theorem Distinct.typeOfAll {r : TypeRegistry} (h : r.Distinct) (calls : List Data) :
    (r.typeOfAll calls).2.Distinct := by
  induction calls generalizing r with
  | nil => exact h
  | cons v vs ih => exact ih (typeOf_invariant h h.tag v)

theorem find?_typeOfAll_of_find? {r : TypeRegistry} {a : TypeId} {t : Text}
    (h : r.find? a = some t) (calls : List Data) : (r.typeOfAll calls).2.find? a = some t := by
  induction calls generalizing r with
  | nil => exact h
  | cons v vs ih =>
    exact ih (typeOf_invariant (P := fun r => r.find? a = some t) h (find?_tag_of_find? h) v)

/-- Every answer is on record at the end of the run. -/
theorem find?_of_mem_typeOfAll {r : TypeRegistry} {calls : List Data} {call : Data × Text}
    (h : call ∈ calls.zip (r.typeOfAll calls).1) (hplain : call.1.taggedByType = true) :
    (r.typeOfAll calls).2.find? call.1.typeId = some call.2 := by
  induction calls generalizing r with
  | nil => cases h
  | cons v vs ih =>
    rcases List.mem_cons.mp h with rfl | hlater
    · exact find?_typeOfAll_of_find? (find?_typeOf hplain) vs
    · exact ih hlater

/-- In every run of calls on a new registry: each call has an answer; in the state that is reached
the search for a free tag ends at the first free candidate of any name, after no more rounds than
there are tags; two values that do not name their own type have the same tag exactly when they have
the same type; and to ask again about the type of a value gives its tag again and changes
nothing. -/
theorem typeOfAll_identifies_types (calls : List Data) (tags : List Text) (r : TypeRegistry)
    (hrun : ({} : TypeRegistry).typeOfAll calls = (tags, r)) :
    tags.length = calls.length ∧
      (∀ name, ∃ n, n ≤ r.tags.length ∧ r.FirstFree name n ∧ r.fresh name = candidate name n) ∧
      (∀ c ∈ calls.zip tags, ∀ d ∈ calls.zip tags,
        c.1.taggedByType = true → d.1.taggedByType = true →
          (c.2 = d.2 ↔ c.1.typeId = d.1.typeId)) ∧
      ∀ c ∈ calls.zip tags, ∀ v : Data,
        c.1.taggedByType = true → v.taggedByType = true → v.typeId = c.1.typeId →
          r.typeOf v = (c.2, r) := by
  obtain rfl : (typeOfAll {} calls).1 = tags := congrArg Prod.fst hrun
  obtain rfl : (typeOfAll {} calls).2 = r := congrArg Prod.snd hrun
  refine ⟨length_typeOfAll _ calls, ?_, ?_, ?_⟩
  · intro name
    obtain ⟨n, hfirst, heq⟩ := exists_firstFree_fresh (typeOfAll {} calls).2 name
    exact ⟨n, hfirst.le_length, hfirst, heq⟩
  · intro c hc d hd hplainC hplainD
    have htagC := find?_of_mem_typeOfAll hc hplainC
    have htagD := find?_of_mem_typeOfAll hd hplainD
    constructor
    · intro hsame
      rw [← hsame] at htagD
      exact distinct_empty.typeOfAll calls _ _ _ htagC htagD
    · intro hsame
      rw [hsame, htagD] at htagC
      exact (Option.some.inj htagC).symm
  · intro c hc v hplainC hplainV hsame
    rw [typeOf_of_taggedByType _ hplainV, hsame]
    exact tag_of_find? (find?_of_mem_typeOfAll hc hplainC)

/-- A type without fields. -/
private def bare (name : String) (serial : Nat) : Data :=
  .record { name := name.toList, serial } [] []

/-- Two types named `A`, and between them one whose own name is the numbered tag. -/
theorem typeOfAll_identifies_clashing_names :
    ∃ r,
      typeOfAll {} [bare "A" 0, bare "A#2" 0, bare "A" 1, bare "A" 0]
        = (["A".toList, "A#2".toList, "A#3".toList, "A".toList], r) ∧
      ("A".toList = "A#3".toList ↔ (bare "A" 0).typeId = (bare "A" 1).typeId) ∧
      r.typeOf (bare "A" 1) = ("A#3".toList, r) := by
  have htags : (typeOfAll {} [bare "A" 0, bare "A#2" 0, bare "A" 1, bare "A" 0]).1
      = ["A".toList, "A#2".toList, "A#3".toList, "A".toList] := by decide +kernel
  have hrun : typeOfAll {} [bare "A" 0, bare "A#2" 0, bare "A" 1, bare "A" 0]
      = (["A".toList, "A#2".toList, "A#3".toList, "A".toList], _) := Prod.ext htags rfl
  obtain ⟨-, -, hdistinct, hstable⟩ := typeOfAll_identifies_types _ _ _ hrun
  refine ⟨_, hrun, ?_, ?_⟩
  · exact hdistinct (bare "A" 0, "A".toList) (by simp) (bare "A" 1, "A#3".toList) (by simp) rfl rfl
  · exact hstable (bare "A" 1, "A#3".toList) (by simp) (bare "A" 1) rfl rfl rfl

end TypeRegistry
end Offside
