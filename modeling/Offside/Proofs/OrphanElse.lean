import Offside.Proofs.ConditionalChains
import Offside.Proofs.Execution

/-!
# An `else` that follows no control block

All that a control block learns of the past is one outcome. An `else` is refused where there is none
(`ControlBlock.scope_eq_fail_iff`), and every control block that does not fail leaves one
(`ControlBlock.tells_scope`). What a moment of a run knows is therefore a matter of the program:
there is an outcome just if the thing directly before the instruction, in the body that it belongs
to, is a control block (`Moment.Placed`, kept by every step).

So an `else` is refused where it is the first thing in its body, or follows something that is no
control block, and rendering a program fails in this way only if it comes to such an `else`
(`Program.render_orphan_else_iff`). How expressions are evaluated does not matter, as long as their
own failures are others (`Evaluation.KeepsToItself`).
-/

namespace Offside

/-! ## Outcomes -/

namespace Schedule

/-- Wherever the schedule ends without a failure, it has an outcome to tell. -/
def Tells : Schedule → Prop
  | stop outcome failure => failure = none → outcome ≠ .none
  | enter _ next => ∀ failure, (next failure).Tells

theorem Tells.outcome_ne {σ : Type} {body : Env → σ → σ × Option Failure} {schedule : Schedule}
    {s s' : σ} {outcome : Outcome} (h : schedule.Tells)
    (hexec : schedule.exec body s = (s', outcome, none)) : outcome ≠ .none := by
  induction schedule generalizing s with
  | stop outcome failure =>
    cases hexec
    exact h rfl
  | enter env next ih =>
    rw [exec_enter] at hexec
    exact ih _ (h _) hexec

theorem tells_fail (e : Failure) : (fail e).Tells := by
  intro h
  cases h

theorem tells_each (envs : List Env) : (each envs).Tells := by
  induction envs with
  | nil => exact fun _ => by decide
  | cons env envs ih =>
    rintro (_ | e)
    · exact ih
    · exact tells_fail e

theorem tells_counting (env : Nat → Env) (i count : Nat) : (counting env i count).Tells := by
  induction count generalizing i with
  | zero => exact fun _ => by decide
  | succ count ih =>
    rintro (_ | e)
    · exact ih (i + 1)
    · exact tells_fail e

/-- The block is not refused for want of a block before it, and has an outcome to tell. -/
structure Accepts (schedule : Schedule) : Prop where
  tells : schedule.Tells
  ne_fail : schedule ≠ .fail .elseWithoutIf

theorem accepts_fail {e : Failure} (h : e ≠ .elseWithoutIf) : (fail e).Accepts where
  tells := tells_fail e
  ne_fail := by
    intro he
    cases he
    exact h rfl

theorem accepts_skip {outcome : Outcome} (h : outcome ≠ .none) : (skip outcome).Accepts where
  tells _ := h
  ne_fail := by simp [skip, fail]

theorem accepts_once (env : Env) : (once env).Accepts where
  tells _ _ := by decide
  ne_fail := by simp [once, fail]

theorem accepts_each (envs : List Env) : (each envs).Accepts where
  tells := tells_each envs
  ne_fail := by cases envs <;> simp [each, fail]

theorem accepts_counting (env : Nat → Env) (i count : Nat) : (counting env i count).Accepts where
  tells := tells_counting env i count
  ne_fail := by cases count <;> simp [counting, fail]

end Schedule

namespace ControlBlock

open Schedule

theorem accepts_rounds (envOf : (key item : Data) → Env) (elements : Data.Elements) :
    (rounds envOf elements).Accepts := by
  unfold rounds
  split
  · exact accepts_skip (by decide)
  · exact accepts_each _
  · exact accepts_skip (by decide)
  · exact accepts_counting ..

theorem accepts_loop (v : Data) (vars : List Text) (env : Env) : (loop v vars env).Accepts := by
  unfold loop
  split
  · exact accepts_fail (by simp)
  split
  · exact accepts_fail (by simp)
  · exact accepts_rounds ..

end ControlBlock

/-! ## Blocks that are refused -/

/-- Evaluating an expression does not itself fail for want of a control block. -/
def Evaluation.KeepsToItself (evaluate : Evaluation) : Prop :=
  ∀ source env, evaluate source env ≠ .error .elseWithoutIf

theorem Expr.keepsToItself_evaluate : Evaluation.KeepsToItself Expr.evaluate := by
  intro source env h
  rw [evaluate, Language.evaluate] at h
  cases hplan : language.compile source with
  | error problem =>
    rw [hplan] at h
    cases h
  | ok plan =>
    rw [hplan] at h
    cases language_run_error h

namespace ControlBlock

open Schedule

/-- The source of the block is `else`, or `else if` with a condition behind it. -/
def IsElse (source : Text) : Prop :=
  source.trim = "else".toList ∨ ∃ condition, Heads "else if" source condition

section Refused

variable {evaluate : Evaluation} (hown : Evaluation.KeepsToItself evaluate)
include hown

theorem accepts_conditional (condition : Text) (negate : Bool) (env : Env) :
    (conditional evaluate condition negate env).Accepts := by
  rw [conditional]
  cases hvalue : evaluate condition env with
  | error e =>
    refine accepts_fail fun he => hown condition env ?_
    rw [hvalue, he]
  | ok v =>
    dsimp only
    split
    · exact accepts_skip (by decide)
    · exact accepts_once env

theorem accepts_unkeyed (source : Text) (vars : List Text) (env : Env) :
    (unkeyed evaluate source vars env).Accepts := by
  rw [unkeyed]
  cases hvalue : evaluate source env with
  | error e =>
    refine accepts_fail fun he => hown source env ?_
    rw [hvalue, he]
  | ok v =>
    dsimp only
    split
    · split
      · exact accepts_once env
      · exact accepts_skip (by decide)
    · exact accepts_loop v vars env

/-- An `else` goes on from the block before, and is itself not refused. -/
theorem scope_of_isElse {source : Text} (h : IsElse source) (vars : List Text) (env : Env)
    (prior : Outcome) :
    ∃ run, scope evaluate source vars env prior = following prior run ∧ run.Accepts := by
  rcases h with h | ⟨condition, h⟩
  · rw [scope_of_else evaluate vars env prior h]
    exact ⟨_, rfl, accepts_once env⟩
  · rw [scope_of_else_if evaluate vars env prior h]
    exact ⟨_, rfl, accepts_conditional hown condition false env⟩

/-- No other block is refused. -/
theorem accepts_scope_of_not_else {source : Text} (h : ¬ IsElse source) (vars : List Text)
    (env : Env) (prior : Outcome) : (scope evaluate source vars env prior).Accepts := by
  have hnone : afterKeyword? "else if" source.trim = none :=
    afterKeyword?_eq_none fun condition hcondition => h (.inr ⟨condition, hcondition⟩)
  unfold scope
  dsimp only
  rw [if_neg fun helse => h (.inl helse), hnone]
  cases afterKeyword? "if" source.trim with
  | some condition => exact accepts_conditional hown condition false env
  | none =>
    cases afterKeyword? "unless" source.trim with
    | some condition => exact accepts_conditional hown condition true env
    | none => exact accepts_unkeyed hown source.trim vars env

/-- A control block that does not fail has an outcome. -/
theorem tells_scope (source : Text) (vars : List Text) (env : Env) (prior : Outcome) :
    (scope evaluate source vars env prior).Tells := by
  by_cases h : IsElse source
  · obtain ⟨run, hscope, hrun⟩ := scope_of_isElse hown h vars env prior
    rw [hscope]
    cases prior with
    | none => exact tells_fail _
    | entered => exact (accepts_skip (by decide)).tells
    | skipped => exact hrun.tells
  · exact (accepts_scope_of_not_else hown h vars env prior).tells

/-- A block is refused for want of a block before it just if it is an `else` and there is no
outcome. -/
theorem scope_eq_fail_iff (source : Text) (vars : List Text) (env : Env) (prior : Outcome) :
    scope evaluate source vars env prior = .fail .elseWithoutIf ↔
      IsElse source ∧ prior = .none := by
  by_cases h : IsElse source
  · obtain ⟨run, hscope, hrun⟩ := scope_of_isElse hown h vars env prior
    rw [hscope]
    rw [and_iff_right h]
    cases prior with
    | none => exact iff_of_true rfl rfl
    | entered => exact iff_of_false (accepts_skip (by decide)).ne_fail (by decide)
    | skipped => exact iff_of_false hrun.ne_fail (by decide)
  · have hne := (accepts_scope_of_not_else hown h vars env prior).ne_fail
    exact iff_of_false hne fun hboth => h hboth.1

end Refused
end ControlBlock

open ControlBlock

/-! ## What comes directly before an instruction -/

/-- What comes directly before the instruction at an index, in the body that it belongs to: nothing,
an instruction that stands for itself, or a scope, which is given by the instruction that opens
it. -/
inductive ComesAfter (code : List Instruction) : Nat → Option Instruction → Prop
  | start : ComesAfter code 0 none
  | first {i : Nat} {x : Instruction} : code[i]? = some x → x.opens = true →
      ComesAfter code (i + 1) none
  | leaf {i : Nat} {x : Instruction} : code[i]? = some x → x.isLeaf = true →
      ComesAfter code (i + 1) (some x)
  | scope {a c : Nat} {x : Instruction} : code[a]? = some x → ClosedAt code a c →
      ComesAfter code (c + 1) (some x)

/-- The opening instruction of a control block. -/
def Instruction.isControl : Instruction → Bool
  | openControl .. => true
  | _ => false

theorem Instruction.isControl_of_isLeaf {x : Instruction} (h : x.isLeaf = true) :
    x.isControl = false := by
  cases x with
  | openControl => cases h
  | literal | output | exec | filtered | openTag | close => rfl

/-- The instruction directly before the one at index `i` closes a control block. -/
def FollowsControl (code : List Instruction) (i : Nat) : Prop :=
  ∃ a c x, i = c + 1 ∧ ClosedAt code a c ∧ code[a]? = some x ∧ x.isControl = true

/-- The instruction at index `i` is the first one in its body, or it follows an instruction that
stands for itself, or a tag. -/
inductive Orphan (code : List Instruction) (i : Nat) : Prop
  | first : ComesAfter code i none → Orphan code i
  | leaf {x : Instruction} : ComesAfter code i (some x) → x.isLeaf = true → Orphan code i
  | tag {pos : Location} {opening closing : Fragments} {depth last : Nat} :
      ComesAfter code i (some (.openTag pos opening closing depth last)) → Orphan code i

section Before

variable {code : List Instruction} {i : Nat} {o : Option Instruction}

/-- The scope that an instruction closes is what comes before the next one. -/
theorem ComesAfter.of_closedAt {a c : Nat} {x : Instruction} (h : ComesAfter code (c + 1) o)
    (hclosed : ClosedAt code a c) (hx : code[a]? = some x) : o = some x := by
  cases h with
  | first hy ho =>
    rw [hclosed.closing] at hy
    cases hy
    cases ho
  | leaf hy hleaf =>
    rw [hclosed.closing] at hy
    cases hy
    cases hleaf
  | scope hy hclosed' =>
    rw [hclosed.opening_unique hclosed'] at hx
    exact hy.symm.trans hx

theorem ComesAfter.followsControl_iff (h : ComesAfter code i o) :
    FollowsControl code i ↔ o.any (·.isControl) = true := by
  constructor
  · rintro ⟨a, c, x, rfl, hclosed, hx, hcontrol⟩
    rw [h.of_closedAt hclosed hx]
    exact hcontrol
  · intro hcontrol
    cases h with
    | start | first => cases hcontrol
    | leaf hx hleaf =>
      rw [Option.any_some, Instruction.isControl_of_isLeaf hleaf] at hcontrol
      cases hcontrol
    | scope hx hclosed => exact ⟨_, _, _, rfl, hclosed, hx, hcontrol⟩

/-- What has no control block directly before it has nothing there, or something else. -/
theorem ComesAfter.orphan_iff (h : ComesAfter code i o) :
    Orphan code i ↔ ¬ FollowsControl code i := by
  constructor
  · intro horphan
    cases horphan with
    | first hfirst =>
      rw [hfirst.followsControl_iff]
      exact Bool.false_ne_true
    | leaf hleaf hx =>
      rw [hleaf.followsControl_iff, Option.any_some, Instruction.isControl_of_isLeaf hx]
      exact Bool.false_ne_true
    | tag htag =>
      rw [htag.followsControl_iff]
      exact Bool.false_ne_true
  · intro hnot
    cases h with
    | start => exact .first .start
    | first hx ho => exact .first (.first hx ho)
    | leaf hx hleaf => exact .leaf (.leaf hx hleaf) hleaf
    | @scope a c x hx hclosed =>
      obtain ⟨y, hy, ho⟩ := hclosed.opening
      cases hy.symm.trans hx
      cases x with
      | openTag => exact .tag (.scope hx hclosed)
      | openControl => exact absurd ⟨a, c, _, rfl, hclosed, hx, rfl⟩ hnot
      | literal | output | exec | filtered | close => cases ho

end Before

/-! ## Rows of nodes -/

/-- From index `i` up to, but not including, index `stop` there is a row of nodes. -/
def RowAt (code : Array Instruction) (i stop : Nat) : Prop :=
  ∃ nodes, Node.StandsAt code i (Node.codeAll i nodes) ∧ stop = i + Node.sizeAll nodes

section Rows

variable {code : Array Instruction} {i stop : Nat} {x : Instruction}

theorem Node.StandsAt.closedAt {body : List Instruction}
    (h : StandsAt code i (x :: (body ++ [.close]))) (hx : x.opens = true) (hbody : Balanced body) :
    ClosedAt code.toList i (i + 1 + body.length) := by
  have hi := h.lt_size
  obtain ⟨after, hafter⟩ := h
  refine ⟨code.toList.take i, x, body, after, ?_, hx, hbody, ?_, rfl⟩
  · have hdrop : x :: (body ++ .close :: after) = code.toList.drop i := by
      rw [← hafter, List.cons_append, List.append_assoc, List.singleton_append]
    rw [hdrop, List.take_append_drop]
  · rw [List.length_take, Array.length_toList]
    omega

/-- A scope holds a row, and another row follows it. -/
theorem RowAt.scope {body : List Node}
    (h : Node.StandsAt code i (x :: (Node.codeAll (i + 1) body ++ [.close])))
    (hx : x.opens = true) (hrest : RowAt code (i + (Node.sizeAll body + 2)) stop) :
    ClosedAt code.toList i (i + 1 + Node.sizeAll body) ∧
      RowAt code (i + 1) (i + 1 + Node.sizeAll body) ∧
      RowAt code (i + 1 + Node.sizeAll body + 1) stop := by
  have hclosed := h.closedAt hx (Node.balanced_codeAll (i + 1) body)
  rw [Node.length_codeAll] at hclosed
  rw [show i + (Node.sizeAll body + 2) = i + 1 + Node.sizeAll body + 1 by omega] at hrest
  exact ⟨hclosed, ⟨body, h.body, rfl⟩, hrest⟩

/-- A row starts with an instruction that stands for itself, or with a scope that holds a row; then
comes another row. -/
theorem RowAt.cases (h : RowAt code i stop) (hi : i < stop) (hx : code[i]? = some x) :
    x.isLeaf = true ∧ RowAt code (i + 1) stop ∨
      ∃ last, x.stop? = some last ∧ ClosedAt code.toList i last ∧ RowAt code (i + 1) last ∧
        RowAt code (last + 1) stop := by
  obtain ⟨nodes, hnodes, rfl⟩ := h
  cases nodes with
  | nil => exact absurd hi (Nat.lt_irrefl i)
  | cons n ns =>
    have hn := hnodes.left
    have hrest : RowAt code (i + n.size) (i + Node.sizeAll (n :: ns)) := by
      have hright := hnodes.right
      rw [Node.length_code] at hright
      exact ⟨ns, hright, (Nat.add_assoc ..).symm⟩
    cases n with
    | literal | output | exec | filtered =>
      cases hn.first.symm.trans hx
      exact .inl ⟨rfl, hrest⟩
    | tag pos opening closing depth body =>
      cases hn.first.symm.trans hx
      exact .inr ⟨_, rfl, RowAt.scope hn rfl hrest⟩
    | control pos head depth body =>
      cases hn.first.symm.trans hx
      exact .inr ⟨_, rfl, RowAt.scope hn rfl hrest⟩

end Rows

/-! ## What a moment knows of the past -/

/-- What is left of the body is a row of nodes, and there is an outcome just if a control block
comes directly before. -/
structure Moment.Placed {σ : Type} (code : Array Instruction) (m : Moment σ) : Prop where
  row : RowAt code m.index m.stop
  before : ∃ o, ComesAfter code.toList m.index o ∧
    (m.prior = .none ↔ o.any (·.isControl) = false)

namespace Moment.Placed

variable {σ : Type} {code : Array Instruction} {m : Moment σ} {x : Instruction} {last : Nat}

theorem prior_eq_none_iff (h : m.Placed code) :
    m.prior = .none ↔ ¬ FollowsControl code.toList m.index := by
  obtain ⟨o, hafter, hprior⟩ := h.before
  rw [hprior, hafter.followsControl_iff, Bool.not_eq_true]

theorem orphan_iff (h : m.Placed code) :
    Orphan code.toList m.index ↔ ¬ FollowsControl code.toList m.index := by
  obtain ⟨o, hafter, -⟩ := h.before
  exact hafter.orphan_iff

theorem past (hx : m.At code x) (hleaf : x.isLeaf = true)
    (hrow : RowAt code (m.index + 1) m.stop) (s : σ) : (m.past s).Placed code := by
  refine ⟨hrow, some x, .leaf hx.getElem?_toList hleaf, ?_⟩
  exact iff_of_true rfl (Instruction.isControl_of_isLeaf hleaf)

theorem into (hx : m.At code x) (ho : x.opens = true) (hrow : RowAt code (m.index + 1) last)
    (env : Env) (s : σ) : (m.into last env s).Placed code := by
  refine ⟨hrow, none, .first hx.getElem?_toList ho, ?_⟩
  exact iff_of_true rfl rfl

theorem beyond {outcome : Outcome} (hx : m.At code x) (hclosed : ClosedAt code.toList m.index last)
    (hrow : RowAt code (last + 1) m.stop) (houtcome : outcome = .none ↔ x.isControl = false)
    (s : σ) : (m.beyond last outcome s).Placed code := by
  have hindex : (m.beyond last outcome s).index = last + 1 :=
    congrArg (· + 1) (Nat.max_eq_right (Nat.le_of_lt hclosed.lt))
  refine ⟨hindex ▸ hrow, some x, ?_, houtcome⟩
  rw [hindex]
  exact .scope hx.getElem?_toList hclosed

end Moment.Placed

section Runs

variable {σ : Type} {S : Sink σ} {code : Array Instruction} {m m' : Moment σ} {x : Instruction}
  {evaluate : Evaluation} (hown : Evaluation.KeepsToItself evaluate)
include hown

/-- A step leads to a moment that knows what comes before it. -/
theorem Sink.Leads.placed (h : S.Leads (.ofEvaluation evaluate) code m x m') (hx : m.At code x)
    (hm : m.Placed code) : m'.Placed code := by
  rcases hm.row.cases hx.1 hx.2 with ⟨hleaf, hrow⟩ | ⟨last, hlast, hclosed, hbody, hrow⟩
  · cases h with
    | past => exact .past hx hleaf hrow _
    | intoTag | beyondTag | intoControl | beyondControl => cases hleaf
  · cases h with
    | past ho =>
      cases x with
      | openTag | openControl => cases ho
      | literal | output | exec | filtered | close => cases hlast
    | intoTag =>
      cases hlast
      exact .into hx rfl hbody ..
    | beyondTag =>
      cases hlast
      exact .beyond hx hclosed hrow (iff_of_true rfl rfl) _
    | intoControl =>
      cases hlast
      exact .into hx rfl hbody ..
    | beyondControl hexec =>
      cases hlast
      have hne := (tells_scope hown ..).outcome_ne hexec
      exact .beyond hx hclosed hrow (iff_of_false hne (by simp [Instruction.isControl])) _

theorem Sink.Reaches.placed {start : Moment σ} (h : S.Reaches (.ofEvaluation evaluate) code start m)
    (hstart : start.Placed code) : m.Placed code := by
  induction h with
  | refl => exact hstart
  | tail _ hstep ih =>
    obtain ⟨x, hx, hleads⟩ := hstep
    exact hleads.placed hown hx ih

theorem Renderer.sink_line_ne_elseWithoutIf (filters : FilterRegistry) (env : Env) (depth : Nat)
    (value : Fragments) (w : Output) :
    ((sink ⟨filters, some (.ofEvaluation evaluate)⟩).line env depth value w).2 ≠
      some .elseWithoutIf := by
  cases hline : line ⟨filters, some (.ofEvaluation evaluate)⟩ env value with
  | ok t =>
    rw [sink_line_of_ok hline]
    exact nofun
  | error e =>
    rw [sink_line_of_error hline]
    intro he
    cases he
    obtain ⟨source, -, -, hfail⟩ := exists_evaluate_of_line_error hline
    exact hown source env hfail

/-- Only an `else` without an outcome before it fails for want of a block. -/
theorem Sink.raises_elseWithoutIf_iff {filters : FilterRegistry} {m : Moment Output} :
    (Renderer.sink ⟨filters, some (.ofEvaluation evaluate)⟩).Raises (.ofEvaluation evaluate) code m
        x .elseWithoutIf ↔
      ∃ pos head depth last, x = .openControl pos head depth last ∧ IsElse head.source ∧
        m.prior = .none := by
  have hline := Renderer.sink_line_ne_elseWithoutIf hown filters
  constructor
  · intro h
    cases h with
    | leaf hx hput =>
      cases x with
      | openTag | openControl => cases hx
      | literal | filtered | close => cases hput
      | output pos value depth => exact (hline _ _ _ _ hput).elim
      | exec pos source =>
        rw [put] at hput
        cases hvalue : (Evaluator.ofEvaluation evaluate).evaluate source m.env with
        | ok v =>
          rw [hvalue] at hput
          cases hput
        | error e =>
          rw [hvalue] at hput
          cases hput
          exact (hown source m.env hvalue).elim
    | opening hfail => exact (hline _ _ _ _ hfail).elim
    | closing _ _ hfail => exact (hline _ _ _ _ hfail).elim
    | @control pos head depth last _ hfail =>
      exact ⟨pos, head, depth, last, rfl, (scope_eq_fail_iff hown ..).1 hfail⟩
  · rintro ⟨pos, head, depth, last, rfl, helse⟩
    exact .control ((scope_eq_fail_iff hown ..).2 helse)

end Runs

/-! ## Rendering -/

theorem Evaluator.settled_ofEvaluation (evaluate : Evaluation) :
    (Evaluator.ofEvaluation evaluate).Settled := settled_scope evaluate

namespace Program

variable {evaluate : Evaluation}

/-- The moment at which rendering a program starts. -/
def startIn (p : Program) (indent : Bool) (context : Data) : Moment Output :=
  ⟨0, p.code.size, ControlBlock.bind context, .none, { indent }⟩

/-- Rendering a program comes to a moment. -/
def Reaches (p : Program) (evaluate : Evaluation) (filters : FilterRegistry) (indent : Bool)
    (context : Data) (m : Moment Output) : Prop :=
  (Renderer.sink ⟨filters, some (.ofEvaluation evaluate)⟩).Reaches (.ofEvaluation evaluate) p.code
    (p.startIn indent context) m

theorem placed_startIn {contextType : Text} {maxDepth : Int} {tokens : List Token} {p : Program}
    (h : ofTokens contextType maxDepth tokens = .ok p) (indent : Bool) (context : Data) :
    (p.startIn indent context).Placed p.code := by
  obtain ⟨-, nodes, -, -, -, hnodes⟩ := ofTokens_ok h
  refine ⟨⟨nodes, ?_, ?_⟩, none, .start, iff_of_true rfl rfl⟩
  · show Node.codeAll 0 nodes <+: p.code.toList.drop 0
    rw [hnodes]
    exact List.prefix_rfl
  · show p.code.size = 0 + Node.sizeAll nodes
    rw [← Node.length_codeAll 0, hnodes, Array.length_toList, Nat.zero_add]

/-- Rendering a context of the right type fails just if it reaches a moment at which an instruction
fails of itself. -/
theorem render_eq_error_iff {types : TypeRegistry} (filters : FilterRegistry) (indent : Bool)
    {p : Program} {context : Data} {e : Failure}
    (htype : (types.typeOf context).1 = p.contextType) :
    p.render types ⟨filters, some (.ofEvaluation evaluate)⟩ indent context = .error e ↔
      ∃ m x, p.Reaches evaluate filters indent context m ∧ m.At p.code x ∧
        (Renderer.sink ⟨filters, some (.ofEvaluation evaluate)⟩).Raises (.ofEvaluation evaluate)
          p.code m x e := by
  have hrun : p.runIn types (some (.ofEvaluation evaluate))
      (Renderer.sink ⟨filters, some (.ofEvaluation evaluate)⟩) context { indent } =
        (Renderer.sink ⟨filters, some (.ofEvaluation evaluate)⟩).runFrom (.ofEvaluation evaluate)
          p.code (p.startIn indent context) := if_neg (not_not_intro htype)
  rw [render_eq, hrun]
  refine Iff.trans ?_ (Sink.failure_iff_reaches (Evaluator.settled_ofEvaluation evaluate) _ e)
  obtain ⟨w, _ | f⟩ := Sink.runFrom _ _ _ _
  · simp [answer]
  · simp [answer]

/-- Wherever rendering comes to an `else`, that is refused just if the instruction directly before
it does not close a control block: if it is the first one in its body, or follows an instruction
that stands for itself, or a tag. Rendering reports an `else` without an `if` in no other case. The
expressions may be evaluated in any way whose own failures are not that one. -/
theorem render_orphan_else_iff (hown : Evaluation.KeepsToItself evaluate) {contextType : Text}
    {maxDepth : Int} {tokens : List Token} {p : Program}
    (h : ofTokens contextType maxDepth tokens = .ok p) (types : TypeRegistry)
    (filters : FilterRegistry) (indent : Bool) (context : Data) :
    (∀ m pos head depth last, p.Reaches evaluate filters indent context m →
      m.At p.code (.openControl pos head depth last) → IsElse head.source →
        (scope evaluate head.source head.vars m.env m.prior = .fail .elseWithoutIf ↔
          ¬ FollowsControl p.code.toList m.index) ∧
        (¬ FollowsControl p.code.toList m.index ↔ Orphan p.code.toList m.index)) ∧
      (p.render types ⟨filters, some (.ofEvaluation evaluate)⟩ indent context =
          .error .elseWithoutIf ↔
        (types.typeOf context).1 = p.contextType ∧
          ∃ m pos head depth last, p.Reaches evaluate filters indent context m ∧
            m.At p.code (.openControl pos head depth last) ∧ IsElse head.source ∧
            ¬ FollowsControl p.code.toList m.index) := by
  have hplaced : ∀ {m}, p.Reaches evaluate filters indent context m → m.Placed p.code :=
    fun hm => Sink.Reaches.placed hown hm (placed_startIn h indent context)
  refine ⟨fun m pos head depth last hm _ helse => ⟨?_, (hplaced hm).orphan_iff.symm⟩, ?_⟩
  · rw [← (hplaced hm).prior_eq_none_iff]
    exact (scope_eq_fail_iff hown ..).trans (and_iff_right helse)
  by_cases htype : (types.typeOf context).1 = p.contextType
  · rw [render_eq_error_iff filters indent htype]
    constructor
    · rintro ⟨m, x, hm, hx, hraises⟩
      obtain ⟨pos, head, depth, last, rfl, helse, hprior⟩ :=
        (Sink.raises_elseWithoutIf_iff hown).1 hraises
      exact ⟨htype, m, pos, head, depth, last, hm, hx, helse,
        (hplaced hm).prior_eq_none_iff.1 hprior⟩
    · rintro ⟨-, m, pos, head, depth, last, hm, hx, helse, hfollows⟩
      refine ⟨m, _, hm, hx, (Sink.raises_elseWithoutIf_iff hown).2 ?_⟩
      exact ⟨pos, head, depth, last, rfl, helse, (hplaced hm).prior_eq_none_iff.2 hfollows⟩
  · have hrender : p.render types ⟨filters, some (.ofEvaluation evaluate)⟩ indent context =
        .error (.invalidType p.contextType (types.typeOf context).1) := if_pos htype
    rw [hrender]
    exact iff_of_false nofun fun hboth => htype hboth.1

/-- An `else` that is fine, and in its body one that follows a line of text. -/
theorem render_orphan_else_iff_of_nested :
    ∃ p : Program,
      ofTokens "<nil>".toList 0
          (lex [] "- if 1 == 2\n  a\n- else\n  b\n  - else if true\n    c".toList) = .ok p ∧
        p.render {} ⟨.defaults, some .standard⟩ false .null = .error .elseWithoutIf ∧
        ∃ m pos head depth last, p.Reaches Expr.evaluate .defaults false .null m ∧
          m.At p.code (.openControl pos head depth last) ∧ IsElse head.source ∧
          ¬ FollowsControl p.code.toList m.index := by
  let p : Program := ⟨"<nil>".toList, #[
    .openControl { column := 2, offset := 2 } ⟨"if 1 == 2".toList, [], false⟩ 0 2,
    .literal { line := 1, column := 2, offset := 14 } ['a'] 2, .close,
    .openControl { line := 2, column := 2, offset := 18 } ⟨"else".toList, [], false⟩ 0 8,
    .literal { line := 3, column := 2, offset := 25 } ['b'] 2,
    .openControl { line := 4, column := 4, offset := 31 } ⟨"else if true".toList, [], false⟩ 2 7,
    .literal { line := 5, column := 4, offset := 48 } ['c'] 4, .close, .close]⟩
  have h : ofTokens "<nil>".toList 0
      (lex [] "- if 1 == 2\n  a\n- else\n  b\n  - else if true\n    c".toList) = .ok p := by
    decide +kernel
  have hrender : p.render {} ⟨.defaults, some .standard⟩ false .null = .error .elseWithoutIf := by
    decide +kernel
  have hiff := render_orphan_else_iff Expr.keepsToItself_evaluate h {} .defaults false .null
  exact ⟨p, h, hrender, (hiff.2.1 hrender).2⟩

end Program
end Offside
