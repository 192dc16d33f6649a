import Mathlib.Logic.Relation
import Offside.Proofs.Checking
import Offside.Proofs.Sinks

/-!
# Which instructions a run reaches

A run jumps over scopes and leaves the bodies of control blocks to the evaluator, which may run them
any number of times. `Sink.Step` says which moment of a run leads to which: past an instruction,
into a body, or beyond a whole scope once its body has run. A moment is reached if steps lead to it.

If the evaluator fails of itself only before a body runs, as the standard one does, then a run fails
just where a moment is reached at which an instruction fails of itself
(`Sink.failure_iff_reaches`): a line or an expression that cannot be evaluated, or a control block
that is refused.
-/

namespace Offside

/-! ## Bodies that are entered -/

namespace Schedule

variable {σ : Type} (body : Env → σ → σ × Option Failure)

/-- Carrying a schedule out from a state comes to run the body in an environment and a state. -/
inductive Enters : Schedule → σ → Env → σ → Prop
  | here {env : Env} {next : Option Failure → Schedule} {s : σ} : Enters (.enter env next) s env s
  | later {env env' : Env} {next : Option Failure → Schedule} {s s' : σ} :
      Enters (next (body env s).2) (body env s).1 env' s' → Enters (.enter env next) s env' s'

variable {body}

/-- A faithful schedule fails just if the body does somewhere. -/
theorem Faithful.failure_iff {schedule : Schedule} (h : schedule.Faithful) (s : σ) (e : Failure) :
    (schedule.exec body s).2.2 = some e ↔
      ∃ env s', schedule.Enters body s env s' ∧ (body env s').2 = some e := by
  induction h generalizing s with
  | stop outcome =>
    constructor
    · intro h
      cases h
    · rintro ⟨env, s', ⟨⟩, -⟩
  | @enter env next outcome hfail hnext ih =>
    rw [exec_enter]
    cases hbody : (body env s).2 with
    | none =>
      rw [ih]
      constructor
      · rintro ⟨env', s', henters, he⟩
        exact ⟨env', s', .later (hbody ▸ henters), he⟩
      · rintro ⟨env', s', henters, he⟩
        cases henters with
        | here =>
          rw [hbody] at he
          cases he
        | later henters => exact ⟨env', s', hbody ▸ henters, he⟩
    | some f =>
      rw [hfail f]
      constructor
      · intro he
        exact ⟨env, s, .here, hbody.trans he⟩
      · rintro ⟨env', s', henters, he⟩
        cases henters with
        | here => exact hbody.symm.trans he
        | later henters =>
          rw [hbody, hfail f] at henters
          cases henters

end Schedule

/-- A settled schedule fails of itself, or just if the body does somewhere. -/
theorem ControlBlock.Settled.failure_iff {σ : Type} {body : Env → σ → σ × Option Failure}
    {schedule : Schedule} (h : Settled schedule) (s : σ) (e : Failure) :
    (schedule.exec body s).2.2 = some e ↔ schedule = .fail e ∨
      ∃ env s', schedule.Enters body s env s' ∧ (body env s').2 = some e := by
  rcases h with ⟨f, rfl⟩ | h
  · constructor
    · intro he
      cases he
      exact .inl rfl
    · rintro (he | ⟨env, s', henters, -⟩)
      · cases he
        rfl
      · cases henters
  · rw [h.failure_iff]
    refine ⟨.inr, ?_⟩
    rintro (he | he)
    · rw [he] at h
      cases h
    · exact he

/-- The evaluator fails of itself only before a body runs. -/
def Evaluator.Settled (evaluator : Evaluator) : Prop :=
  ∀ source vars env prior, ControlBlock.Settled (evaluator.scope source vars env prior)

/-! ## Moments -/

/-- A moment of a run: the instruction to be run next, where the body that it belongs to ends, the
environment, the outcome of the control block directly before it, and the state. -/
structure Moment (σ : Type) where
  index : Nat
  stop : Nat
  env : Env
  prior : Outcome
  state : σ

namespace Moment

variable {σ : Type}

/-- The moment is before the instruction `x`. -/
def At (code : Array Instruction) (m : Moment σ) (x : Instruction) : Prop :=
  m.index < m.stop ∧ code[m.index]? = some x

/-- Past one instruction, which is no control block. -/
def past (m : Moment σ) (s : σ) : Moment σ :=
  { m with index := m.index + 1, prior := .none, state := s }

/-- At the start of the body of a scope that ends at `last`. -/
def into (m : Moment σ) (last : Nat) (env : Env) (s : σ) : Moment σ :=
  ⟨m.index + 1, last, env, .none, s⟩

/-- Beyond a scope that ends at `last`. -/
def beyond (m : Moment σ) (last : Nat) (outcome : Outcome) (s : σ) : Moment σ :=
  { m with index := max m.index last + 1, prior := outcome, state := s }

variable {code : Array Instruction} {m : Moment σ} {x y : Instruction}

theorem At.lt_size (h : m.At code x) : m.index < code.size := by
  obtain ⟨hi, -⟩ := Array.getElem?_eq_some_iff.1 h.2
  exact hi

theorem At.getElem?_toList (h : m.At code x) : code.toList[m.index]? = some x := by
  rw [Array.getElem?_toList]
  exact h.2

theorem At.unique (h : m.At code x) (h' : m.At code y) : x = y :=
  Option.some.inj (h.2.symm.trans h'.2)

end Moment

namespace Sink

variable {σ : Type} (S : Sink σ) (evaluator : Evaluator) (code : Array Instruction)

/-- The run from a moment on. -/
def runFrom (m : Moment σ) : σ × Option Failure :=
  S.run (some evaluator) code m.index m.stop m.env m.prior m.state

/-- Runs the body of the scope that opens at `i` and ends at `last`. -/
def bodyOf (i last : Nat) (env : Env) (s : σ) : σ × Option Failure :=
  S.run (some evaluator) code (i + 1) last env .none s

/-- What an instruction does that opens no scope. -/
def put (env : Env) (s : σ) : Instruction → σ × Option Failure
  | .literal _ text depth => (S.literal depth text s, none)
  | .output _ value depth => S.line env depth value s
  | .exec _ source =>
    match evaluator.evaluate source env with
    | .error e => (s, some e)
    | .ok _ => (s, none)
  | .filtered _ filter text depth => (S.filtered depth filter text s, none)
  | _ => (s, none)

/-- An instruction leads from one moment to another. -/
inductive Leads (m : Moment σ) : Instruction → Moment σ → Prop
  | past {x : Instruction} {s : σ} : x.opens = false →
      S.put evaluator m.env m.state x = (s, none) → Leads m x (m.past s)
  | intoTag {pos : Location} {opening closing : Fragments} {depth last : Nat} {s : σ} :
      S.line m.env depth opening m.state = (s, none) →
      Leads m (.openTag pos opening closing depth last) (m.into last m.env s)
  | beyondTag {pos : Location} {opening closing : Fragments} {depth last : Nat} {s s' s'' : σ} :
      S.line m.env depth opening m.state = (s, none) →
      S.bodyOf evaluator code m.index last m.env s = (s', none) →
      S.line m.env depth closing s' = (s'', none) →
      Leads m (.openTag pos opening closing depth last) (m.beyond last .none s'')
  | intoControl {pos : Location} {head : Control} {depth last : Nat} {env : Env} {s : σ} :
      (evaluator.scope head.source head.vars m.env m.prior).Enters
        (S.bodyOf evaluator code m.index last) (S.enter head.capture m.state) env s →
      Leads m (.openControl pos head depth last) (m.into last env s)
  | beyondControl {pos : Location} {head : Control} {depth last : Nat} {outcome : Outcome}
      {s : σ} :
      (evaluator.scope head.source head.vars m.env m.prior).exec
        (S.bodyOf evaluator code m.index last) (S.enter head.capture m.state) =
          (s, outcome, none) →
      Leads m (.openControl pos head depth last)
        (m.beyond last outcome (S.leave head.capture m.state s))

/-- One step of a run. -/
def Step (m m' : Moment σ) : Prop := ∃ x, m.At code x ∧ S.Leads evaluator code m x m'

/-- Steps lead from one moment to the other. -/
def Reaches : Moment σ → Moment σ → Prop := Relation.ReflTransGen (S.Step evaluator code)

/-- An instruction fails of itself, and not because something in its body does. -/
inductive Raises (m : Moment σ) : Instruction → Failure → Prop
  | leaf {x : Instruction} {e : Failure} : x.opens = false →
      (S.put evaluator m.env m.state x).2 = some e → Raises m x e
  | opening {pos : Location} {opening closing : Fragments} {depth last : Nat} {e : Failure} :
      (S.line m.env depth opening m.state).2 = some e →
      Raises m (.openTag pos opening closing depth last) e
  | closing {pos : Location} {opening closing : Fragments} {depth last : Nat} {s s' : σ}
      {e : Failure} : S.line m.env depth opening m.state = (s, none) →
      S.bodyOf evaluator code m.index last m.env s = (s', none) →
      (S.line m.env depth closing s').2 = some e →
      Raises m (.openTag pos opening closing depth last) e
  | control {pos : Location} {head : Control} {depth last : Nat} {e : Failure} :
      evaluator.scope head.source head.vars m.env m.prior = .fail e →
      Raises m (.openControl pos head depth last) e

variable {S evaluator code} {m : Moment σ} {x : Instruction} {e : Failure}

/-! ## One step -/

theorem andThen_failure_iff {part : σ × Option Failure} {next : σ → σ × Option Failure} :
    (andThen part next).2 = some e ↔
      part.2 = some e ∨ ∃ s, part = (s, none) ∧ (next s).2 = some e := by
  obtain ⟨s, _ | f⟩ := part
  · simp [andThen]
  · simp [andThen]

/-- A control block fails, or what comes after it does. -/
theorem control_failure_iff {capture : Bool} {schedule : Schedule}
    {body : Env → σ → σ × Option Failure} {next : Outcome → σ → σ × Option Failure} {s : σ} :
    (S.control capture schedule body next s).2 = some e ↔
      (schedule.exec body (S.enter capture s)).2.2 = some e ∨
      ∃ s' outcome, schedule.exec body (S.enter capture s) = (s', outcome, none) ∧
        (next outcome (S.leave capture s s')).2 = some e := by
  rw [control]
  obtain ⟨s', outcome, _ | f⟩ := schedule.exec body (S.enter capture s)
  · simp
  · simp

theorem runFrom_of_end (h : ∀ x, ¬ m.At code x) : S.runFrom evaluator code m = (m.state, none) := by
  rw [runFrom, run, dif_neg]
  rintro ⟨hstop, hsize⟩
  exact h code[m.index] ⟨hstop, Array.getElem?_eq_getElem hsize⟩

theorem runFrom_of_leaf (h : m.At code x) (hx : x.opens = false) :
    S.runFrom evaluator code m =
      andThen (S.put evaluator m.env m.state x) fun s => S.runFrom evaluator code (m.past s) := by
  rw [runFrom, run, dif_pos ⟨h.1, h.lt_size⟩, h.2]
  cases x with
  | literal | output | filtered | close => rfl
  | openTag | openControl => cases hx
  | exec pos source =>
    rw [put]
    dsimp only [Evaluator.evaluation]
    cases evaluator.evaluate source m.env <;> rfl

/-- An instruction that opens no scope fails of itself, or what comes after it fails. -/
theorem failure_of_leaf (h : m.At code x) (hx : x.opens = false) :
    (S.runFrom evaluator code m).2 = some e ↔ S.Raises evaluator code m x e ∨
      ∃ m', S.Leads evaluator code m x m' ∧ (S.runFrom evaluator code m').2 = some e := by
  rw [runFrom_of_leaf h hx, andThen_failure_iff]
  constructor
  · rintro (he | ⟨s, hput, he⟩)
    · exact .inl (.leaf hx he)
    · exact .inr ⟨_, .past hx hput, he⟩
  · rintro (hraises | ⟨m', hleads, he⟩)
    · cases hraises with
      | leaf _ he => exact .inl he
      | opening | closing | control => cases hx
    · cases hleads with
      | past _ hput => exact .inr ⟨_, hput, he⟩
      | intoTag | beyondTag | intoControl | beyondControl => cases hx

/-- A tag fails by one of its lines, or what is in it or comes after it fails. -/
theorem failure_of_tag {pos : Location} {opening closing : Fragments} {depth last : Nat}
    (h : m.At code (.openTag pos opening closing depth last)) :
    (S.runFrom evaluator code m).2 = some e ↔
      S.Raises evaluator code m (.openTag pos opening closing depth last) e ∨
      ∃ m', S.Leads evaluator code m (.openTag pos opening closing depth last) m' ∧
        (S.runFrom evaluator code m').2 = some e := by
  have hrun : S.runFrom evaluator code m =
      andThen (S.line m.env depth opening m.state) fun s =>
      andThen (S.bodyOf evaluator code m.index last m.env s) fun s =>
      andThen (S.line m.env depth closing s) fun s =>
      S.runFrom evaluator code (m.beyond last .none s) := by
    rw [runFrom, run, dif_pos ⟨h.1, h.lt_size⟩, h.2]
    rfl
  rw [hrun, andThen_failure_iff]
  constructor
  · rintro (he | ⟨s, hopening, he⟩)
    · exact .inl (.opening he)
    rcases andThen_failure_iff.1 he with he | ⟨s', hbody, he⟩
    · exact .inr ⟨_, .intoTag hopening, he⟩
    rcases andThen_failure_iff.1 he with he | ⟨s'', hclosing, he⟩
    · exact .inl (.closing hopening hbody he)
    · exact .inr ⟨_, .beyondTag hopening hbody hclosing, he⟩
  · rintro (hraises | ⟨m', hleads, he⟩)
    · cases hraises with
      | leaf hx => cases hx
      | opening he => exact .inl he
      | closing hopening hbody he =>
        refine .inr ⟨_, hopening, andThen_failure_iff.2 (.inr ⟨_, hbody, ?_⟩)⟩
        exact andThen_failure_iff.2 (.inl he)
    · cases hleads with
      | past hx => cases hx
      | intoTag hopening => exact .inr ⟨_, hopening, andThen_failure_iff.2 (.inl he)⟩
      | beyondTag hopening hbody hclosing =>
        refine .inr ⟨_, hopening, andThen_failure_iff.2 (.inr ⟨_, hbody, ?_⟩)⟩
        exact andThen_failure_iff.2 (.inr ⟨_, hclosing, he⟩)

/-- A control block is refused, or what is in it or comes after it fails. -/
theorem failure_of_control {pos : Location} {head : Control} {depth last : Nat}
    (h : m.At code (.openControl pos head depth last))
    (hsettled : ControlBlock.Settled (evaluator.scope head.source head.vars m.env m.prior)) :
    (S.runFrom evaluator code m).2 = some e ↔
      S.Raises evaluator code m (.openControl pos head depth last) e ∨
      ∃ m', S.Leads evaluator code m (.openControl pos head depth last) m' ∧
        (S.runFrom evaluator code m').2 = some e := by
  have hrun : S.runFrom evaluator code m =
      S.control head.capture (evaluator.scope head.source head.vars m.env m.prior)
        (S.bodyOf evaluator code m.index last)
        (fun outcome s => S.runFrom evaluator code (m.beyond last outcome s)) m.state := by
    rw [runFrom, run, dif_pos ⟨h.1, h.lt_size⟩, h.2]
    rfl
  rw [hrun, control_failure_iff, hsettled.failure_iff]
  constructor
  · rintro ((he | ⟨env, s, henters, he⟩) | ⟨s, outcome, hexec, he⟩)
    · exact .inl (.control he)
    · exact .inr ⟨_, .intoControl henters, he⟩
    · exact .inr ⟨_, .beyondControl hexec, he⟩
  · rintro (hraises | ⟨m', hleads, he⟩)
    · cases hraises with
      | leaf hx => cases hx
      | control he => exact .inl (.inl he)
    · cases hleads with
      | past hx => cases hx
      | intoControl henters => exact .inl (.inr ⟨_, _, henters, he⟩)
      | beyondControl hexec => exact .inr ⟨_, _, hexec, he⟩

/-! ## Whole runs -/

/-- A run fails where it is, or after a step. -/
theorem failure_iff_step (hev : evaluator.Settled) :
    (S.runFrom evaluator code m).2 = some e ↔
      (∃ x, m.At code x ∧ S.Raises evaluator code m x e) ∨
      ∃ m', S.Step evaluator code m m' ∧ (S.runFrom evaluator code m').2 = some e := by
  by_cases hend : ∀ x, ¬ m.At code x
  · rw [runFrom_of_end hend]
    constructor
    · intro he
      cases he
    · rintro (⟨x, hx, -⟩ | ⟨m', ⟨x, hx, -⟩, -⟩)
      · exact absurd hx (hend x)
      · exact absurd hx (hend x)
  · obtain ⟨x, hx⟩ := not_forall_not.1 hend
    have hstep : (S.runFrom evaluator code m).2 = some e ↔ S.Raises evaluator code m x e ∨
        ∃ m', S.Leads evaluator code m x m' ∧ (S.runFrom evaluator code m').2 = some e := by
      cases x with
      | literal | output | exec | filtered | close => exact failure_of_leaf hx rfl
      | openTag => exact failure_of_tag hx
      | openControl => exact failure_of_control hx (hev _ _ _ _)
    rw [hstep]
    constructor
    · rintro (he | ⟨m', hleads, he⟩)
      · exact .inl ⟨x, hx, he⟩
      · exact .inr ⟨m', ⟨x, hx, hleads⟩, he⟩
    · rintro (⟨y, hy, he⟩ | ⟨m', ⟨y, hy, hleads⟩, he⟩)
      · cases hx.unique hy
        exact .inl he
      · cases hx.unique hy
        exact .inr ⟨m', hleads, he⟩

theorem Leads.index_lt {m' : Moment σ} (h : S.Leads evaluator code m x m') :
    m.index < m'.index := by
  cases h with
  | past | intoTag | intoControl => exact Nat.lt_succ_self _
  | beyondTag | beyondControl => exact Nat.lt_succ_of_le (Nat.le_max_left _ _)

/-- A run fails just if it reaches a moment at which an instruction fails of itself. -/
theorem failure_iff_reaches (hev : evaluator.Settled) (start : Moment σ) (e : Failure) :
    (S.runFrom evaluator code start).2 = some e ↔
      ∃ m x, S.Reaches evaluator code start m ∧ m.At code x ∧ S.Raises evaluator code m x e := by
  constructor
  · -- every step goes to a later instruction
    induction hn : code.size - start.index using Nat.strong_induction_on generalizing start with
    | _ n ih =>
      intro he
      rcases (failure_iff_step hev).1 he with ⟨x, hx, hraises⟩ | ⟨m', hstep, he⟩
      · exact ⟨start, x, .refl, hx, hraises⟩
      · obtain ⟨y, hy, hleads⟩ := hstep
        have hlt : code.size - m'.index < n := by
          have := hleads.index_lt
          have := hy.lt_size
          omega
        obtain ⟨m, x, hreach, hx⟩ := ih _ hlt m' rfl he
        exact ⟨m, x, .head ⟨y, hy, hleads⟩ hreach, hx⟩
  · rintro ⟨m, x, hreach, hx, hraises⟩
    induction hreach using Relation.ReflTransGen.head_induction_on with
    | refl => exact (failure_iff_step hev).2 (.inl ⟨x, hx, hraises⟩)
    | head hstep _ ih => exact (failure_iff_step hev).2 (.inr ⟨_, hstep, ih⟩)

end Sink

end Offside
