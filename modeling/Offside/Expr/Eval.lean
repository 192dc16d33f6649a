import Offside.Expr.Grammar
import Offside.Expr.Operator
import Offside.Expr.Plan
import Offside.Language

/-!
# Evaluating expressions

A plan runs in an environment and works on a stack of values; names that the environment does not
hold are `null`. The conditions of `and`, `or`, `not` and `? :` must be truth values, and operands
that are not needed are not evaluated. An absent value before `?.` ends the chain around it: the
values that were on the stack by then, such as the arguments of a call, stay there. The lists, maps
and ranges that a run makes may hold only so many values together.
-/

namespace Offside.Expr

/-- The state of a run: the values that wait to be used, the latest first, and how many values were
put into lists, maps and ranges. -/
structure Machine where
  stack : List Data := []
  spent : Nat := 0

/-- Why a run does not go on: it failed, or an absent value ended the chain. -/
inductive Halt where
  | failed
  | absent (m : Machine)

/-- The result of an operation that may not accept its operands. -/
def orFail {α : Type} : Option α → Except Halt α
  | some a => .ok a
  | none => .error .failed

/-- The truth value that a value is. -/
def asBool : Data → Except Halt Bool
  | .bool b => .ok b
  | _ => .error .failed

namespace Machine

/-- Lists, maps and ranges must hold fewer values than this together. -/
def budget : Nat := 1000000

/-- Puts a value on the stack. -/
def push (m : Machine) (v : Data) : Machine := { m with stack := v :: m.stack }

/-- Takes the latest value from the stack. -/
def pop (m : Machine) : Except Halt (Data × Machine) :=
  match m.stack with
  | v :: vs => .ok (v, { m with stack := vs })
  | [] => .error .failed

/-- The latest value on the stack. -/
def top (m : Machine) : Except Halt Data :=
  match m.stack with
  | v :: _ => .ok v
  | [] => .error .failed

/-- Takes the latest `n` values from the stack, the latest of them last. -/
def popMany (m : Machine) (n : Nat) : Except Halt (List Data × Machine) :=
  let vs := m.stack.take n
  if vs.length = n then .ok (vs.reverse, { m with stack := m.stack.drop n }) else .error .failed

/-- Notes that `n` values were put into a list, a map or a range. -/
def spend (m : Machine) (n : Nat) : Except Halt Machine :=
  if m.spent + n < budget then .ok { m with spent := m.spent + n } else .error .failed

/-- Replaces the latest value by what an operation makes of it. -/
def apply (m : Machine) (f : Data → Option Data) : Except Halt Machine := do
  let (v, m) ← m.pop
  let w ← orFail (f v)
  .ok (m.push w)

/-- Replaces the latest two values by what an operation makes of them. -/
def apply2 (m : Machine) (f : Data → Data → Option Data) : Except Halt Machine := do
  let (b, m) ← m.pop
  let (a, m) ← m.pop
  let v ← orFail (f a b)
  .ok (m.push v)

/-- Replaces the latest two values by the range between them. -/
def range (m : Machine) : Except Halt Machine := do
  let (b, m) ← m.pop
  let (a, m) ← m.pop
  let (lo, count) ← orFail (Data.rangeOf? a b)
  let m ← m.spend count
  .ok (m.push (Data.ofRange lo count))

end Machine

/-- A unary operator on a value. -/
def applyUnary : UnaryOp → Data → Option Data
  | .not, .bool b => some (.bool !b)
  | .not, _ => none
  | .neg, v => v.negate?
  | .pos, v => some v

/-- An operator that needs both of its operands. -/
def applyBinary (op : BinaryOp) (a b : Data) : Option Data :=
  match op with
  | .eq => some (.bool (a.equals b))
  | .ne => some (.bool !(a.equals b))
  | .lt => (a.before? b).map .bool
  | .gt => (b.before? a).map .bool
  | .le => (a.notAfter? b).map .bool
  | .ge => (b.notAfter? a).map .bool
  | .isIn => (a.isIn? b).map .bool
  | .contains => Data.onTexts? Text.contains a b
  | .startsWith => Data.onTexts? Text.startsWith a b
  | .endsWith => Data.onTexts? Text.endsWith a b
  | .add => a.add? b
  | .sub => a.sub? b
  | .mul => a.mul? b
  | .div => a.div? b
  | .mod => a.mod? b
  | .pow => a.pow? b
  | .range | .or | .and | .coalesce => none

/-- Equality of two integers. -/
def sameInt? : Data → Data → Option Data
  | .int .int a, .int .int b => some (.bool (a == b))
  | _, _ => none

/-- Equality of two texts. -/
def sameText? : Data → Data → Option Data
  | .text a, .text b => some (.bool (a == b))
  | _, _ => none

/-- The entries of a map from keys and values in turn. Keys must be texts. -/
def entriesOf? : List Data → Option (List (Text × Data))
  | [] => some []
  | .text k :: v :: vs => (entriesOf? vs).map ((k, v) :: ·)
  | _ => none

/-- How many of the arguments on the stack a function takes. -/
def takenBy (f : Builtin) (args : Nat) : Nat :=
  match f with
  | .trim => args
  | .len | .upper | .lower => 1

mutual

/-- Carries out a plan. It leaves its value on the stack. -/
def run (env : Env) : Plan → Machine → Except Halt Machine
  | .push v, m => .ok (m.push v)
  | .load n, m => .ok (m.push ((env.get? n).getD .null))
  | .names, m => .ok (m.push (Data.ofFields env))
  | .deref p, m => do
    let m ← run env p m
    m.apply fun v => some v.deref
  | .list items, m => do
    let m ← runAll env items m
    let m ← m.spend items.length
    let (vs, m) ← m.popMany items.length
    .ok (m.push (Data.ofList vs))
  | .map pairs, m => do
    let m ← runPairs env pairs m
    let m ← m.spend pairs.length
    let (vs, m) ← m.popMany (2 * pairs.length)
    let fields ← orFail (entriesOf? vs)
    .ok (m.push (Data.ofFields fields.reverse))
  | .unary op p, m => do
    let m ← run env p m
    m.apply (applyUnary op)
  | .binary op l r, m => do
    let m ← run env l m
    let m ← run env r m
    if op = .range then m.range else m.apply2 (applyBinary op)
  | .sameInt l r, m => do
    let m ← run env l m
    let m ← run env r m
    m.apply2 sameInt?
  | .sameText l r, m => do
    let m ← run env l m
    let m ← run env r m
    m.apply2 sameText?
  | .or l r, m => do
    let m ← run env l m
    let (v, below) ← m.pop
    let b ← asBool v
    if b then .ok m else run env r below
  | .and l r, m => do
    let m ← run env l m
    let (v, below) ← m.pop
    let b ← asBool v
    if b then run env r below else .ok m
  | .coalesce l r, m => do
    let m ← run env l m
    let (v, below) ← m.pop
    if v.isAbsent then run env r below else .ok m
  | .cond test yes no, m => do
    let m ← run env test m
    let (v, below) ← m.pop
    let b ← asBool v
    if b then run env yes below else run env no below
  | .member base key optional, m => do
    let m ← run env base m
    let v ← m.top
    if optional && v.isAbsent then .error (.absent m)
    else
      let m ← run env key m
      m.apply2 fun b k => b.member? k
  | .chain p keep, m => do
    let m ← match run env p m with
      | .error (.absent m) => .ok m
      | result => result
    if keep then .ok m
    else m.apply fun v => some (if v.isAbsent then .null else v)
  | .call callee args, m => do
    let m ← runAll env args m
    let m ← run env callee m
    let (f, m) ← m.pop
    let (vs, m) ← m.popMany args.length
    let v ← orFail (f.call? vs)
    .ok (m.push v)
  | .builtin f args, m => do
    let m ← runAll env args m
    let (vs, m) ← m.popMany (takenBy f args.length)
    let v ← orFail (Data.builtin? f vs)
    .ok (m.push v)
  | .seq items, m => runSeq env items m

/-- Carries out several plans, from left to right. -/
def runAll (env : Env) : List Plan → Machine → Except Halt Machine
  | [], m => .ok m
  | p :: ps, m => do
    let m ← run env p m
    runAll env ps m

/-- Carries out the plans of the entries of a map, from left to right. -/
def runPairs (env : Env) : List (Plan × Plan) → Machine → Except Halt Machine
  | [], m => .ok m
  | (k, v) :: ps, m => do
    let m ← run env k m
    let m ← run env v m
    runPairs env ps m

/-- Carries out plans of which only the last one leaves its value. -/
def runSeq (env : Env) : List Plan → Machine → Except Halt Machine
  | [], m => .ok m
  | [p], m => run env p m
  | p :: ps, m => do
    let m ← run env p m
    let (_, m) ← m.pop
    runSeq env ps m

end

/-- The language: an expression that parses is planned, and the value of a plan is what it leaves on
top of the stack. -/
def language : Language where
  Plan := Plan
  plan? source := ((parse? source).bind (plan? true)).map (·.plan)
  run plan env :=
    match (run env plan {}).bind Machine.top with
    | .ok v => .ok v
    | .error _ => .error .evaluation

/-- The value of the expression that a text writes. -/
def evaluate : Evaluation := language.evaluate

end Offside.Expr
