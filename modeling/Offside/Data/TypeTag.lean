import Offside.Data

/-!
# Type tags

A template is compiled for contexts of one type, named by a tag. Different types have different
tags even when their names agree: the first one to be seen gets the name itself, the next ones the
name with a number from two on. A value may also choose its own tag, by a method `TemplateType`.

The numbers are tried in order and without a bound. The search ends because the candidates for a
name are all different, and a registry has only as many tags as it has types.
-/

namespace Offside

/-- The tags given so far. -/
structure TypeRegistry where
  tags : List (TypeId × Text) := []
deriving Repr

namespace TypeRegistry

/-- The tag that a type has. -/
def find? (r : TypeRegistry) (type : TypeId) : Option Text :=
  (r.tags.find? (·.1 == type)).map (·.2)

/-- Whether some type has the tag. -/
def taken (r : TypeRegistry) (tag : Text) : Bool := r.tags.any (·.2 == tag)

/-- The `i`-th tag to try for a name: the name, then the name with the numbers from two on. -/
def candidate (name : Text) (i : Nat) : Text :=
  if i = 0 then name else name ++ '#' :: Text.ofNat (i + 1)

theorem candidate_zero (name : Text) : candidate name 0 = name := rfl

theorem candidate_succ (name : Text) (i : Nat) :
    candidate name (i + 1) = name ++ '#' :: Text.ofNat (i + 2) := rfl

theorem candidate_inj {name : Text} {i j : Nat} (h : candidate name i = candidate name j) :
    i = j := by
  cases i with
  | zero =>
    cases j with
    | zero => rfl
    | succ j => simp [candidate_zero, candidate_succ] at h
  | succ i =>
    cases j with
    | zero => simp [candidate_zero, candidate_succ] at h
    | succ j =>
      rw [candidate_succ, candidate_succ, List.append_cancel_left_eq, List.cons.injEq] at h
      have hsame := Text.ofNat_inj h.2
      omega

theorem taken_iff {r : TypeRegistry} {tag : Text} :
    r.taken tag = true ↔ tag ∈ r.tags.map (·.2) := by
  simp [taken]

/-- No more candidates in a row can be taken than there are tags. -/
theorem le_length_of_taken {r : TypeRegistry} {name : Text} {i : Nat}
    (h : ∀ j, j < i → r.taken (candidate name j) = true) : i ≤ r.tags.length := by
  have hdistinct : ((List.range i).map (candidate name)).Nodup :=
    List.Pairwise.map _ (fun _ _ hdifferent hsame => hdifferent (candidate_inj hsame))
      List.nodup_range
  have hgiven : (List.range i).map (candidate name) ⊆ r.tags.map (·.2) := by
    intro tag ht
    obtain ⟨j, hj, rfl⟩ := List.mem_map.mp ht
    exact taken_iff.mp (h j (List.mem_range.mp hj))
  simpa using hdistinct.length_le_of_subset hgiven

/-- The first tag for a name that no type has, from the `i`-th candidate on, when the ones before
it are taken. -/
def freshFrom (r : TypeRegistry) (name : Text) (i : Nat)
    (h : ∀ j, j < i → r.taken (candidate name j) = true) : Text :=
  if hi : r.taken (candidate name i) = true then
    r.freshFrom name (i + 1) fun j hj =>
      (Nat.lt_succ_iff_lt_or_eq.mp hj).elim (h j) fun heq => heq ▸ hi
  else candidate name i
termination_by r.tags.length - i
decreasing_by
  have hbound : i + 1 ≤ r.tags.length := le_length_of_taken fun j hj =>
    (Nat.lt_succ_iff_lt_or_eq.mp hj).elim (h j) fun heq => heq ▸ hi
  omega

/-- The first tag for a name that no type has. -/
def fresh (r : TypeRegistry) (name : Text) : Text :=
  r.freshFrom name 0 fun _ hj => absurd hj (Nat.not_lt_zero _)

/-- The tag of a type, which gets one if it has none. -/
def tag (r : TypeRegistry) (type : TypeId) : Text × TypeRegistry :=
  match r.find? type with
  | some t => (t, r)
  | none =>
    let t := r.fresh type.name
    (t, { tags := r.tags ++ [(type, t)] })

/-- The tag of a value's type. -/
def typeOf (r : TypeRegistry) (v : Data) : Text × TypeRegistry :=
  match v.methodText? "TemplateType" with
  | some t => (t, r)
  | none =>
    match v with
    | .null => ("<nil>".toList, r)
    | v => r.tag v.typeId

end TypeRegistry
end Offside
