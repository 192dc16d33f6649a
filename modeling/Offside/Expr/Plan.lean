import Offside.Expr.Check
import Offside.Expr.Number

/-!
# Plans

Before an expression runs, its types are checked and it is turned into a plan. The plan says where
a reference is followed to its value: wherever an operator, a function or the name of a member
meets an operand of open type. What literals alone decide is decided in the plan: arithmetic on
numbers, sums of texts, conditions with a literal side, lists of literals. A membership test among
literals becomes a look-up of a key, and one in a range of literals two comparisons.

The arguments of a call are not checked when nothing is known of what is called; everything in
them is of open type.
-/

namespace Offside

/-- How an expression is carried out. -/
inductive Plan where
  | push (v : Data)
  | load (name : Text)
  /-- All names together, as a map. -/
  | names
  /-- Follows references to the value that they lead to. -/
  | deref (p : Plan)
  | list (items : List Plan)
  | map (pairs : List (Plan × Plan))
  | unary (op : UnaryOp) (p : Plan)
  | binary (op : BinaryOp) (left right : Plan)
  /-- Equality of two values that are known to be integers. -/
  | sameInt (left right : Plan)
  /-- Equality of two values that are known to be texts. -/
  | sameText (left right : Plan)
  | or (left right : Plan)
  | and (left right : Plan)
  | coalesce (left right : Plan)
  | cond (test yes no : Plan)
  | member (base key : Plan) (optional : Bool)
  /-- A chain; unless `keep` is set, an absent value at its end becomes `null`. -/
  | chain (p : Plan) (keep : Bool)
  | call (callee : Plan) (args : List Plan)
  | builtin (f : Builtin) (args : List Plan)
  | seq (items : List Plan)
deriving Inhabited

/-- A plan with what is known of the type of its value. -/
structure Planned where
  plan : Plan
  type : StaticType

namespace Planned

/-- The plan of an operand: references are followed if the type is open. -/
def operand (p : Planned) : Plan := if p.type.isOpen then .deref p.plan else p.plan

/-- The plan of a side of `??`, which looks at absent values by itself. -/
def alternative (p : Planned) : Plan :=
  match p.plan with
  | .chain q _ => operand ⟨.chain q true, p.type⟩
  | _ => p.operand

end Planned

namespace Plan

/-- The literal number that a plan is. -/
def number? : Plan → Option Number
  | push (.int .int n) => some (.int n)
  | push (.float x) => some (.float x)
  | _ => none

/-- The literal text that a plan is. -/
def text? : Plan → Option Text
  | push (.text t) => some t
  | _ => none

/-- The literal truth value that a plan is. -/
def bool? : Plan → Option Bool
  | push (.bool b) => some b
  | _ => none

/-- The literal that a plan is. -/
def literal? : Plan → Option Data
  | push (.int .int n) => some (.int .int n)
  | push (.float x) => some (.float x)
  | push (.text t) => some (.text t)
  | push (.bool b) => some (.bool b)
  | _ => none

/-- The plan of a unary operator, given the plan of its operand without and with references
followed. -/
def ofUnary (op : UnaryOp) (p : Planned) : Plan :=
  match op with
  | .not =>
    match p.plan.bool? with
    | some b => push (.bool !b)
    | none => unary .not p.operand
  | .neg =>
    match p.plan.number? with
    | some (.int n) => push (Data.ofInt (wrapSigned 64 (-n)))
    | some (.float x) => push (.float (-x))
    | none => unary .neg p.operand
  | .pos =>
    match p.plan.number? with
    | some n => push n.toData
    | none => p.operand

/-- Arithmetic on literals. -/
def ofNumbers (op : BinaryOp) (a b : Number) : Option Plan :=
  match op with
  | .add => some (push (Number.apply (· + ·) (· + ·) a b).toData)
  | .sub => some (push (Number.apply (· - ·) (· - ·) a b).toData)
  | .mul => some (push (Number.apply (· * ·) (· * ·) a b).toData)
  | .div => some (push (.float (a.toFloat / b.toFloat)))
  | .pow => some (push (.float (power a.toFloat b.toFloat)))
  | .mod =>
    match a, b with
    | .int m, .int n => some (push (Data.ofInt (Int.tmod m n)))
    | _, _ => none
  | .eq =>
    match a, b with
    | .int m, .int n => some (push (.bool (m == n)))
    | _, _ => none
  | _ => none

/-- What literals alone decide about a binary operator. A condition with a literal side is that
side or the other one. -/
def ofLiterals (op : BinaryOp) (l r : Plan) : Option Plan :=
  match op with
  | .and =>
    if l.bool? = some true then some r
    else if r.bool? = some true then some l
    else if l.bool? = some false || r.bool? = some false then some (push (.bool false))
    else none
  | .or =>
    if l.bool? = some false then some r
    else if r.bool? = some false then some l
    else if l.bool? = some true || r.bool? = some true then some (push (.bool true))
    else none
  | op =>
    match l.number?, r.number? with
    | some a, some b => ofNumbers op a b
    | _, _ =>
      match op, l.text?, r.text? with
      | .add, some s, some t => some (push (.text (s ++ t)))
      | .eq, some s, some t => some (push (.bool (s == t)))
      | .eq, _, _ =>
        match l.bool?, r.bool? with
        | some a, some b => some (push (.bool (a == b)))
        | _, _ => none
      | _, _, _ => none

/-- Equality, of which the types that are known choose the kind. -/
def ofEqual (l r : Planned) : Plan :=
  if l.type = .int && r.type = .int then sameInt l.operand r.operand
  else if l.type = .text && r.type = .text then sameText l.operand r.operand
  else binary .eq l.operand r.operand

/-- The plan of a binary operator. A remainder of literals by zero is refused. -/
def ofBinary? (op : BinaryOp) (l r : Planned) : Option Plan :=
  match op, l.plan.number?, r.plan.number? with
  | .mod, some (.int _), some (.int 0) => none
  | op, _, _ =>
    match ofLiterals op l.plan r.plan with
    | some p => some p
    | none =>
      match op with
      | .eq => some (ofEqual l r)
      | .ne => some (unary .not (ofEqual l r))
      | .or => some (or l.operand r.operand)
      | .and => some (and l.operand r.operand)
      | .coalesce => some (coalesce l.alternative r.alternative)
      | .isIn =>
        match l.type, r.plan with
        | .int, binary .range (push (.int .int lo)) (push (.int .int hi)) =>
          some (and (binary .ge l.plan (push (Data.ofInt lo)))
            (binary .le l.plan (push (Data.ofInt hi))))
        | _, _ => some (binary .isIn l.operand r.operand)
      | op => some (binary op l.operand r.operand)

end Plan

namespace Expr

/-- The integers of a list of integer literals. -/
def literalInts? : List Expr → Option (List Int)
  | [] => some []
  | .int n :: es => (literalInts? es).map (n :: ·)
  | _ => none

/-- The texts of a list of string literals. -/
def literalTexts? : List Expr → Option (List Text)
  | [] => some []
  | .text t :: es => (literalTexts? es).map (t :: ·)
  | _ => none

/-- The keys among which a value of the given type is looked up instead of in a list of literals:
integers if it is known to be one, or texts. -/
def literalKeys? (type : StaticType) : Expr → Option Data
  | .list (e :: es) =>
    match type, literalInts? (e :: es) with
    | .int, some ns => some (Data.ofEntries .int .any (ns.map fun n => (Data.ofInt n, .null)))
    | _, _ => (literalTexts? (e :: es)).map fun ts => Data.ofFields (ts.map fun t => (t, .null))
  | _ => none

/-- The name of the map of all names. -/
def namesName : Text := "$env".toList

mutual

/-- The plan of an expression, or none if it is refused. Where types are not checked, they are all
open. -/
def plan? (checked : Bool) : Expr → Option Planned
  | null => some ⟨.push .null, known .null⟩
  | bool b => some ⟨.push (.bool b), known .bool⟩
  | int n => some ⟨.push (Data.ofInt n), known .int⟩
  | float x => some ⟨.push (.float x), known .float⟩
  | text t => some ⟨.push (.text t), known .text⟩
  | name n =>
    if n = namesName then some ⟨.names, .unknown⟩
    else some ⟨.load n, if isFunctionName n then known .function else .unknown⟩
  | list items => do
    let ps ← plans? checked items
    let type := known (StaticType.ofItems (ps.map (·.type)))
    match ps.mapM fun p => p.plan.literal? with
    | some (v :: vs) => some ⟨.push (Data.ofList (v :: vs)), type⟩
    | _ => some ⟨.list (ps.map (·.plan)), type⟩
  | map pairs => do
    let ps ← planPairs? checked pairs
    some ⟨.map ps, known .map⟩
  | unary op e => do
    let p ← plan? checked e
    let type ← accepted (StaticType.ofUnary op p.type)
    some ⟨Plan.ofUnary op p, type⟩
  | binary op l r => do
    let pl ← plan? checked l
    let pr ← plan? checked r
    let type ← accepted (StaticType.ofBinary op pl.type pr.type)
    match op, literalKeys? pl.type r with
    | .isIn, some keys => some ⟨.binary .isIn pl.operand (.push keys), type⟩
    | op, _ =>
      let plan ← Plan.ofBinary? op pl pr
      some ⟨plan, type⟩
  | cond test yes no => do
    let pt ← plan? checked test
    let py ← plan? checked yes
    let pn ← plan? checked no
    let type ← accepted (ofBranches pt.type py.type pn.type)
    some ⟨.cond pt.operand py.plan pn.plan, type⟩
  | fallback test no => do
    let pt ← plan? checked test
    let pn ← plan? checked no
    let type ← accepted (ofBranches pt.type pt.type pn.type)
    some ⟨.cond pt.operand pt.plan pn.plan, type⟩
  | member base key optional => do
    let pb ← plan? checked base
    let pk ← plan? (checked && !isNames base) key
    let type ← accepted (StaticType.ofMember pb.type pk.type)
    some ⟨.member pb.plan pk.operand optional, type⟩
  | chain e => do
    let p ← plan? checked e
    some ⟨.chain p.plan false, p.type⟩
  | call callee args => do
    let pc ← plan? checked callee
    let ps ← plans? false args
    if pc.type.isOpen then some ⟨.call pc.plan (ps.map (·.plan)), .unknown⟩ else none
  | builtin f args => do
    let ps ← plans? checked args
    let type ← accepted (StaticType.ofBuiltin f (ps.map (·.type)))
    some ⟨.builtin f (ps.map (·.operand)), type⟩
  | seq items => do
    let ps ← plans? checked items
    let last ← ps.getLast?
    some ⟨.seq (ps.map (·.plan)), last.type⟩
where
  /-- A type, which is open where types are not checked. -/
  known (t : StaticType) : StaticType := if checked then t else .unknown
  /-- The type that a check gives, which is open where types are not checked. -/
  accepted (t : Option StaticType) : Option StaticType := if checked then t else some .unknown
  /-- The type of a condition with its branches. -/
  ofBranches (test yes no : StaticType) : Option StaticType :=
    if test = .bool || test.isOpen then some (StaticType.ofEither yes no) else none
  /-- Whether an expression is the map of all names. -/
  isNames : Expr → Bool
    | name n => n = namesName
    | _ => false

/-- The plans of several expressions, if none is refused. -/
def plans? (checked : Bool) : List Expr → Option (List Planned)
  | [] => some []
  | e :: es => do
    let p ← plan? checked e
    let ps ← plans? checked es
    some (p :: ps)

/-- The plans of the entries of a map, if none is refused. -/
def planPairs? (checked : Bool) : List (Expr × Expr) → Option (List (Plan × Plan))
  | [] => some []
  | (k, v) :: es => do
    let pk ← plan? checked k
    let pv ← plan? checked v
    let ps ← planPairs? checked es
    some ((pk.plan, pv.plan) :: ps)

end

end Expr
end Offside
