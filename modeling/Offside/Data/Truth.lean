import Offside.Data
import Offside.Data.Shown

/-!
# Conditions and loops over values

Which values count as true, and what a loop over a value runs through.
-/

namespace Offside.Data

/-- Whether a value counts as true in a condition. `null`, false, zero and whatever is empty do
not; a number that is not a number does. -/
def truthy : Data → Bool
  | null => false
  | bool b => b
  | int _ n => n != 0
  | float x => x != 0
  | float32 x => x != 0
  | text t => !t.isEmpty
  | list _ _ items => !items.isEmpty
  | dict _ _ _ entries => !entries.isEmpty
  | declared _ _ base => truthy base
  | record .. => true
  | reference _ _ value => value.isSome
  | method .. => true

/-- What a loop runs through: items with their keys, or the numbers below a bound as ordinary
integers, each with itself as key. -/
inductive Elements where
  | items (entries : List (Data × Data))
  | below (n : Nat)
deriving Inhabited

/-- The keys and items of a loop, in order. -/
def Elements.toList : Elements → List (Data × Data)
  | items entries => entries
  | below n => (List.range n).map fun i => (counted i, counted i)

/-- The values with their positions as keys. -/
def indexed (items : List Data) : List (Data × Data) :=
  items.zipIdx.map fun (v, (i : Nat)) => (ofInt i, v)

/-- Puts an entry in front of the first one whose key prints later. -/
def insertShown (e : Data × Data) : List (Data × Data) → List (Data × Data)
  | [] => [e]
  | f :: fs =>
    if Text.le (shownInside e.1) (shownInside f.1) then e :: f :: fs else f :: insertShown e fs

/-- The entries of a map in the order of the texts of their keys. -/
def sortShown (entries : List (Data × Data)) : List (Data × Data) :=
  entries.foldr insertShown []

/-- What a loop over a value runs through: keys and items, in order. Characters of a text and items
of a list have their position as key, the entries of a map come in the order of the texts of their
keys, and an integer counts up to itself. Other values cannot be looped over; of the declared types
those over integers, lists and maps can. -/
def elements? : Data → Option Elements
  | null => some (.items [])
  | text t => some (.items (indexed (t.map fun c => text [c])))
  | list _ _ items => some (.items (indexed items))
  | dict _ _ _ entries => some (.items (sortShown entries))
  | int .uintptr _ => none
  | int _ n => some (.below n.toNat)
  | declared _ _ (text _) => none
  | declared _ _ base => elements? base
  | _ => none

end Offside.Data
