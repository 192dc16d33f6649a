import Offside.Expr.Token

/-!
# The grammar of expressions

Expressions are read from their tokens by operator precedence. A reading either fails or gives an
expression and the tokens after it. Every reading of an operand takes at least one token, so a
nesting budget that is a small multiple of the number of tokens is never used up. Expressions that
are too large are refused.
-/

namespace Offside.Expr

/-! ## Numbers -/

/-- A whole number, if it fits into 64 bits. -/
def wholeNumber? (base : Nat) (ds : Text) : Option Expr :=
  match Decimal.natOfDigits? base ds with
  | some n => if n < Nat.pow 2 63 then some (.int n) else none
  | none => none

/-- The value of a number token. -/
def number? (t : Text) : Option Expr :=
  let t := t.filter (· != '_')
  match t with
  | '0' :: 'x' :: ds => wholeNumber? 16 ds
  | '0' :: 'X' :: ds => wholeNumber? 16 ds
  | t =>
    if t.any fun c => c == '.' || c == 'e' || c == 'E' then (Decimal.float? t).map .float
    else match t with
      | '0' :: 'b' :: ds => wholeNumber? 2 ds
      | '0' :: 'B' :: ds => wholeNumber? 2 ds
      | '0' :: 'o' :: ds => wholeNumber? 8 ds
      | '0' :: 'O' :: ds => wholeNumber? 8 ds
      | ds => wholeNumber? 10 ds

/-! ## Operands and operators -/

/-- The name of a member after a point. Words that are operators are names there. -/
def memberName? : Token → Option Text
  | .name n => some n
  | .op s => if s ∈ wordOperators then some s.toList else none
  | _ => none

/-- The key of a map entry that is written as a name, a string or a number. -/
def plainKey? : Token → Option Text
  | .name n => some n
  | .text t => some t
  | .number t => some t
  | _ => none

/-- The binary operator that a token writes after `not`. A string may write it as well. -/
def negatable? : Token → Option BinaryOp
  | .op s => (BinaryOp.ofSymbol? s).filter (·.isNegatable)
  | .text t => (BinaryOp.ofSymbol? (String.ofList t)).filter (·.isNegatable)
  | _ => none

/-- A call of a function by its name. -/
def callOf (name : Text) (args : List Expr) : Expr :=
  match Builtin.ofName? name with
  | some f => .builtin f args
  | none => .call (.name name) args

/-- A member reached from an expression. A chain goes on through the member. -/
def extend (base : Expr) (optional : Bool) (f : Expr → Expr) : Expr :=
  match base with
  | .chain e => .chain (f e)
  | e => if optional then .chain (f e) else f e

mutual

/-- Expressions with semicolons between them; one may also stand at the very end. -/
def readSequence : (budget : Nat) → List Token → Option (Expr × List Token)
  | 0, _ => none
  | budget + 1, ts => do
    let (first, ts) ← readExpr budget 0 ts
    let (rest, ts) ← readSemicolons budget ts
    some (if rest.isEmpty then first else .seq (first :: rest), ts)

/-- The expressions after semicolons. -/
def readSemicolons : (budget : Nat) → List Token → Option (List Expr × List Token)
  | 0, _ => none
  | _ + 1, [.op ";"] => some ([], [])
  | budget + 1, .op ";" :: ts => do
    let (e, ts) ← readExpr budget 0 ts
    let (es, ts) ← readSemicolons budget ts
    some (e :: es, ts)
  | _ + 1, ts => some ([], ts)

/-- An expression whose operators bind at least as tightly as `precedence`. -/
def readExpr : (budget : Nat) → (precedence : Nat) → List Token → Option (Expr × List Token)
  | 0, _, _ => none
  | budget + 1, precedence, ts => do
    let (left, ts) ← readOperand budget ts
    let (e, ts) ← readOperators budget precedence none left ts
    if precedence = 0 then readCond budget e ts else some (e, ts)

/-- The operators after a left operand. `previous` is the operator before: `??` does not mix with
others. -/
def readOperators : (budget : Nat) → (precedence : Nat) → (previous : Option BinaryOp) → Expr →
    List Token → Option (Expr × List Token)
  | 0, _, _, _, _ => none
  | budget + 1, precedence, previous, left, ts =>
    let proceed (op : BinaryOp) (negate : Bool) (rest : List Token) : Option (Expr × List Token) :=
      if previous = some .coalesce ∧ op ≠ .coalesce then none
      else if op.isComparison then do
        let (e, ts) ← readComparison budget none left op rest
        readOperators budget precedence (some op) e ts
      else do
        let (right, ts) ← readExpr budget op.rightPrecedence rest
        let e := binary op left right
        readOperators budget precedence (some op) (if negate then .unary .not e else e) ts
    match ts with
    | .op "not" :: t :: rest =>
      match negatable? t with
      | some op => if precedence ≤ op.precedence then proceed op true rest else some (left, ts)
      | none => none
    | .op "not" :: _ => none
    | .op "|" :: rest =>
      if precedence = 0 then
        match rest with
        | .name n :: .bracket '(' :: ts => do
          let (args, ts) ← readItems budget ')' ts
          readOperators budget precedence none (callOf n (left :: args)) ts
        | _ => none
      else some (left, ts)
    | .op "matches" :: _ => if precedence ≤ 20 then none else some (left, ts)
    | .op s :: rest =>
      match BinaryOp.ofSymbol? s with
      | some op => if precedence ≤ op.precedence then proceed op false rest else some (left, ts)
      | none => some (left, ts)
    | ts => some (left, ts)

/-- A row of comparisons. Each of them compares neighbours, and all must hold. -/
def readComparison : (budget : Nat) → (before : Option Expr) → Expr → BinaryOp → List Token →
    Option (Expr × List Token)
  | 0, _, _, _, _ => none
  | budget + 1, before, left, op, ts => do
    let (right, ts) ← readExpr budget (op.precedence + 1) ts
    let e := binary op left right
    let e := match before with
      | some b => binary .and b e
      | none => e
    match ts with
    | .op s :: rest =>
      match BinaryOp.ofSymbol? s with
      | some next =>
        if next.isComparison then readComparison budget (some e) right next rest else some (e, ts)
      | none => some (e, ts)
    | ts => some (e, ts)

/-- A condition with its two branches, if a question mark follows. Without a first branch, the
condition itself is the value if it holds. -/
def readCond : (budget : Nat) → Expr → List Token → Option (Expr × List Token)
  | 0, _, _ => none
  | budget + 1, test, .op "?" :: .op ":" :: ts => do
    let (no, ts) ← readExpr budget 0 ts
    readCond budget (.fallback test no) ts
  | budget + 1, test, .op "?" :: ts => do
    let (yes, ts) ← readExpr budget 0 ts
    match ts with
    | .op ":" :: ts =>
      let (no, ts) ← readExpr budget 0 ts
      readCond budget (.cond test yes no) ts
    | _ => none
  | _ + 1, e, ts => some (e, ts)

/-- An operand with what is reached from it. -/
def readOperand : (budget : Nat) → List Token → Option (Expr × List Token)
  | 0, _ => none
  | _ + 1, [] => none
  | budget + 1, t :: ts =>
    match t with
    | .op s =>
      match UnaryOp.ofSymbol? s with
      | some op => do
        let (e, ts) ← readExpr budget op.precedence ts
        readMembers budget (.unary op e) ts
      | none => none
    | .bracket '(' => do
      let (e, ts) ← readSequence budget ts
      match ts with
      | .bracket ')' :: ts => readMembers budget e ts
      | _ => none
    | .bracket '[' => do
      let (items, ts) ← readItems budget ']' ts
      readMembers budget (.list items) ts
    | .bracket '{' => do
      let (pairs, ts) ← readPairs budget ts
      readMembers budget (.map pairs) ts
    | .bracket _ => none
    | .number n => (number? n).map (·, ts)
    | .text s => readMembers budget (.text s) ts
    | .name n =>
      if n = "true".toList then some (.bool true, ts)
      else if n = "false".toList then some (.bool false, ts)
      else if n = "nil".toList then some (.null, ts)
      else match ts with
        | .bracket '(' :: ts => do
          let (args, ts) ← readItems budget ')' ts
          readMembers budget (callOf n args) ts
        | ts => readMembers budget (.name n) ts

/-- The members reached from an expression. -/
def readMembers : (budget : Nat) → Expr → List Token → Option (Expr × List Token)
  | 0, _, _ => none
  | budget + 1, base, ts =>
    let named (optional : Bool) (ts : List Token) : Option (Expr × List Token) :=
      match ts with
      | [] => none
      | t :: ts => do
        let n ← memberName? t
        match ts with
        | .bracket '(' :: ts =>
          let (args, ts) ← readItems budget ')' ts
          readMembers budget
            (extend base optional fun e => .call (.member e (.text n) optional) args) ts
        | ts => readMembers budget (extend base optional fun e => .member e (.text n) optional) ts
    let indexed (optional : Bool) (ts : List Token) : Option (Expr × List Token) := do
      let (key, ts) ← readExpr budget 0 ts
      match ts with
      | .bracket ']' :: ts =>
        let e := member base key optional
        readMembers budget (if optional then .chain e else e) ts
      | _ => none
    match ts with
    | .op "." :: ts => named false ts
    | .op "?." :: .bracket '[' :: ts => indexed true ts
    | .op "?." :: ts => named true ts
    | .bracket '[' :: ts => indexed false ts
    | ts => some (base, ts)

/-- Expressions with commas between them, up to a closing bracket. One comma may stand before the
bracket. -/
def readItems : (budget : Nat) → (closing : Char) → List Token → Option (List Expr × List Token)
  | 0, _, _ => none
  | budget + 1, closing, ts =>
    match ts with
    | [] => none
    | t :: rest =>
      if t = .bracket closing then some ([], rest)
      else do
        let (e, ts) ← readExpr budget 0 ts
        match ts with
        | .op "," :: ts =>
          let (es, ts) ← readItems budget closing ts
          some (e :: es, ts)
        | t :: ts => if t = .bracket closing then some ([e], ts) else none
        | [] => none

/-- The entries of a map, up to the closing brace. -/
def readPairs : (budget : Nat) → List Token → Option (List (Expr × Expr) × List Token)
  | 0, _ => none
  | budget + 1, ts =>
    match ts with
    | [] => none
    | .bracket '}' :: rest => some ([], rest)
    | t :: rest => do
      let (key, ts) ← match t with
        | .bracket '(' => readExpr budget 0 ts
        | t => (plainKey? t).map fun k => (Expr.text k, rest)
      match ts with
      | .op ":" :: ts =>
        let (value, ts) ← readExpr budget 0 ts
        match ts with
        | .op "," :: ts =>
          let (pairs, ts) ← readPairs budget ts
          some ((key, value) :: pairs, ts)
        | .bracket '}' :: ts => some ([(key, value)], ts)
        | _ => none
      | _ => none

end

/-- An expression of more than this size is refused. -/
def sizeLimit : Nat := 10000

/-- The expression that a text writes, if it writes one. -/
def parse? (t : Text) : Option Expr := do
  let ts ← tokens? t
  match readSequence (8 * (ts.length + 2)) ts with
  | some (e, []) => if e.size ≤ sizeLimit then some e else none
  | _ => none

end Offside.Expr
