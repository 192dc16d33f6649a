import Offside.Filter
import Offside.Text.CaseFold
import Offside.Text.Letter
import Offside.Text.Utf8

/-!
# Suggesting filter names

For a name that is not registered, the registered names that could be meant are ranked. A name
matches if the characters of the pattern occur in it in order, up to case. Matches at the start, at
a change from lower to upper case, after a separator and next to each other count more; characters
before the first match and characters that are not matched count less.
-/

namespace Offside

/-- How candidates are ranked: those that could be meant by a name, best first. -/
abbrev Ranking := (name : Text) → (candidates : List Text) → List Text

namespace Suggest

/-- What the walk over a candidate keeps. Positions count bytes. -/
structure Walk where
  /-- The characters of the pattern that are still to be matched. -/
  pattern : Text
  /-- The character before, and where it is. -/
  last : Option Char := none
  lastAt : Nat := 0
  /-- How much the next neighbouring match adds, apart from its fixed part. -/
  bonus : Int := 0
  /-- The best place for the current character of the pattern so far. -/
  best : Int := -1
  bestAt : Option Nat := none
  /-- The places of the characters matched so far, the newest first. -/
  matched : List Nat := []
  score : Int := 0

/-- The points for a match at the very start. -/
def startPoints : Int := 10

/-- The points for a match of an upper case letter after a lower case one. -/
def camelPoints : Int := 20

/-- The points for a match after a separator. -/
def separatorPoints : Int := 20

/-- The points for a match right after another one. -/
def adjacentPoints : Int := 5

/-- The most points that leading characters cost. -/
def leadingLimit : Int := -15

/-- The points that each leading character costs. -/
def leadingPoints : Int := -5

/-- Characters that separate the parts of a name. -/
def isSeparator (c : Char) : Bool :=
  c == '/' || c == '-' || c == '_' || c == ' ' || c == '.' || c == '\\'

/-- Whether a character is the next one of the pattern, up to case. -/
def matchesNext (pattern : Text) (c : Char) : Bool :=
  match pattern with
  | p :: _ => sameFold c p
  | [] => false

/-- The points of a match of `c` at byte `j`, and the bonus after it. -/
def points (w : Walk) (c : Char) (j : Nat) : Int × Int :=
  let start := if j = 0 then startPoints else 0
  let camel := if w.last.any isLower && isUpper c then camelPoints else 0
  let separated := if j != 0 && w.last.any isSeparator then separatorPoints else 0
  let adjacent := match w.matched with
    | [] => 0
    | m :: _ => if m = w.lastAt then w.bonus * 2 + adjacentPoints else 0
  (start + camel + separated + adjacent, w.bonus + adjacent)

/-- Takes the best place so far for the current character of the pattern. -/
def settle (w : Walk) (place : Nat) : Walk :=
  let leading := if w.matched.isEmpty then max (leadingPoints * place) leadingLimit else 0
  { w with
    score := w.score + w.best + leading
    matched := place :: w.matched
    best := -1
    pattern := w.pattern.drop 1 }

/-- Passes the character `c` at byte `j`, where `rest` follows. The best place is settled on when
the next character could match the next character of the pattern, or the candidate ends. -/
def pass (w : Walk) (c : Char) (j : Nat) (rest : Text) : Walk :=
  let w := if matchesNext w.pattern c then
      let (s, bonus) := points w c j
      let w := { w with bonus }
      if w.best < s then { w with best := s, bestAt := some j } else w
    else w
  let settles := match rest with
    | [] => true
    | d :: _ => matchesNext (w.pattern.drop 1) d
  let w := match settles, w.bestAt with
    | true, some k => settle w k
    | _, _ => w
  { w with last := some c, lastAt := j }

/-- Walks over a candidate from byte `j` on. -/
def walk (w : Walk) : (j : Nat) → Text → Walk
  | _, [] => w
  | j, c :: rest => walk (pass w c j rest) (j + c.utf8Size) rest

/-- The score of a candidate, if it matches. -/
def score? (pattern candidate : Text) : Option Int :=
  let w := walk { pattern } 0 candidate
  if w.matched.length = pattern.length then
    some (w.score + w.matched.length - candidate.byteLength)
  else none

/-- Puts a match in its place: before all that score no more than it. -/
def insertMatch (m : Text × Int) : List (Text × Int) → List (Text × Int)
  | [] => [m]
  | n :: ns => if n.2 ≤ m.2 then m :: n :: ns else n :: insertMatch m ns

/-- The candidates that match, best first; of equal ones the later one comes first. -/
def rank : Ranking := fun pattern candidates =>
  if pattern.isEmpty then []
  else
    let found := candidates.filterMap fun c => (score? pattern c).map fun s => (c, s)
    (found.foldl (fun acc m => insertMatch m acc) []).map (·.1)

end Suggest

namespace FilterRegistry

/-- The registered names that could be meant by a name, best first. -/
def suggest (r : FilterRegistry) (name : Text) (ranking : Ranking := Suggest.rank) : List Text :=
  ranking name r.names

end FilterRegistry
end Offside
