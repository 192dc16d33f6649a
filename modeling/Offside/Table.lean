import Offside.Text.Basic

/-!
# Tables

Values by name. Setting a name puts its entry first and drops the one it may have had, so a name
occurs once in a table that was made by setting names. What a table says is read by `get?`; the
lemmas tell what every operation does to that.
-/

namespace Offside

/-- Values by name. -/
abbrev Table (α : Type) := List (Text × α)

namespace Table

variable {α : Type}

/-- The value of a name. -/
def get? (t : Table α) (name : Text) : Option α := (t.find? (·.1 == name)).map (·.2)

/-- The table without a name. -/
def erase (t : Table α) (name : Text) : Table α := t.filter (·.1 ≠ name)

/-- Gives a name a value, in place of the one it may have. -/
def set (t : Table α) (name : Text) (value : α) : Table α := (name, value) :: t.erase name

@[simp] theorem get?_nil (name : Text) : get? ([] : Table α) name = none := rfl

@[simp] theorem get?_cons (e : Text × α) (t : Table α) (name : Text) :
    get? (e :: t) name = if e.1 = name then some e.2 else t.get? name := by
  by_cases h : e.1 = name <;> simp [get?, h]

/-- Only the name that is dropped is lost. -/
theorem get?_erase (t : Table α) (name other : Text) :
    (t.erase name).get? other = if name = other then none else t.get? other := by
  induction t with
  | nil => simp [erase]
  | cons e t ih =>
    by_cases h : e.1 = name
    · have : erase (e :: t) name = erase t name := by simp [erase, h]
      rw [this, ih, get?_cons, h]
      by_cases ho : name = other <;> simp [ho]
    · have : erase (e :: t) name = e :: erase t name := by simp [erase, h]
      rw [this, get?_cons, ih, get?_cons]
      by_cases ho : e.1 = other
      · have hn : name ≠ other := fun hn => h (ho.trans hn.symm)
        simp [ho, hn]
      · simp [ho]

/-- A name that is set has its value, and the others keep theirs. -/
theorem get?_set (t : Table α) (name other : Text) (value : α) :
    (t.set name value).get? other = if name = other then some value else t.get? other := by
  by_cases h : name = other <;> simp [set, get?_erase, h]

end Table
end Offside
