import Offside.Engine

/-!
# Runs over any output

A run sees little of its output: it adds entries, and it keeps the output of a captured block apart
from that around it. `Sink` names these operations, and `Sink.run` runs a program over any state
that has them. The run that renders a program is the one whose state is the output
(`Renderer.run_eq`).

What is to be shown of two runs of a program, over two sinks, is shown of the parts that runs are
made of (`Respects`), and then holds of the runs (`Respects.run`). There are two such relations:

* sinks whose operations keep a relation between their states, and fail alike, are run alike
  (`Simulates`);
* a sink that does other than another one only where that one leaves a mark in its state is run as
  that one, if no mark is left in the end (`Shadows`).
-/

namespace Offside

/-- Where the entries of a run go. -/
structure Sink (σ : Type) where
  /-- Adds an entry of literal text. -/
  literal : (depth : Nat) → Text → σ → σ
  /-- Adds an entry of fragments, unless one of them fails. -/
  line : Env → (depth : Nat) → Fragments → σ → σ × Option Failure
  /-- Adds what a filter makes of a text. -/
  filtered : (depth : Nat) → (filter text : Text) → σ → σ
  /-- Where the entries of a captured block go. -/
  fresh : σ → σ
  /-- What is left after a captured block, given the states around it and at its end. -/
  captured : (around inner : σ) → σ
  /-- What is left if a captured block fails. -/
  abandoned : (around inner : σ) → σ

namespace Sink

variable {σ τ : Type}

/-- Goes on after a part of a run, unless it failed. -/
def andThen (part : σ × Option Failure) (next : σ → σ × Option Failure) : σ × Option Failure :=
  match part with
  | (s, some e) => (s, some e)
  | (s, none) => next s

/-- An operation that cannot fail, as a part of a run. -/
def always (f : σ → σ) (s : σ) : σ × Option Failure := (f s, none)

/-- The state that the body of a control block starts with. -/
def enter (S : Sink σ) (capture : Bool) (s : σ) : σ := if capture then S.fresh s else s

/-- The state after a control block. -/
def leave (S : Sink σ) (capture : Bool) (around inner : σ) : σ :=
  if capture then S.captured around inner else inner

/-- The state after a control block that fails. -/
def abandon (S : Sink σ) (capture : Bool) (around inner : σ) : σ :=
  if capture then S.abandoned around inner else inner

/-- Runs a control block as its schedule says, and then goes on with the outcome of the block,
unless it failed. -/
def control (S : Sink σ) (capture : Bool) (schedule : Schedule)
    (body : Env → σ → σ × Option Failure) (next : Outcome → σ → σ × Option Failure) (s : σ) :
    σ × Option Failure :=
  match schedule.exec body (S.enter capture s) with
  | (out, _, some e) => (S.abandon capture s out, some e)
  | (out, outcome, none) => next outcome (S.leave capture s out)

/-- Runs the instructions of `code` from index `i` up to, but not including, index `stop`. `prior`
is the outcome of the control block directly before. -/
def run (S : Sink σ) (evaluator : Option Evaluator) (code : Array Instruction) (i stop : Nat)
    (env : Env) (prior : Outcome) (s : σ) : σ × Option Failure :=
  if _h : i < stop ∧ i < code.size then
    match code[i]? with
    | none => (s, none)
    | some (.literal _ text depth) =>
      S.run evaluator code (i + 1) stop env .none (S.literal depth text s)
    | some (.output _ value depth) =>
      andThen (S.line env depth value s) fun s => S.run evaluator code (i + 1) stop env .none s
    | some (.exec _ source) =>
      match Evaluator.evaluation evaluator source env with
      | .error e => (s, some e)
      | .ok _ => S.run evaluator code (i + 1) stop env .none s
    | some (.filtered _ filter text depth) =>
      S.run evaluator code (i + 1) stop env .none (S.filtered depth filter text s)
    | some (.openTag _ opening closing depth last) =>
      andThen (S.line env depth opening s) fun s =>
      andThen (S.run evaluator code (i + 1) last env .none s) fun s =>
      andThen (S.line env depth closing s) fun s =>
      S.run evaluator code (max i last + 1) stop env .none s
    | some (.openControl _ head _ last) =>
      match evaluator with
      | none => (s, some .noEvaluator)
      | some e =>
        S.control head.capture (e.scope head.source head.vars env prior)
          (fun env s => S.run (some e) code (i + 1) last env .none s)
          (fun outcome s => S.run (some e) code (max i last + 1) stop env outcome s) s
    | some .close => S.run evaluator code (i + 1) stop env .none s
  else (s, none)
termination_by code.size - i

/-! ## Relations between runs -/

/-- The relation holds of all parts that runs are made of, as long as they have no filters but the
named ones, and of what is put together from such parts. -/
structure Respects (names : List Text) (S : Sink σ) (T : Sink τ)
    (Φ : (σ → σ × Option Failure) → (τ → τ × Option Failure) → Prop) : Prop where
  done : Φ (always id) (always id)
  fail : ∀ e, Φ (fun s => (s, some e)) (fun t => (t, some e))
  literal : ∀ depth text, Φ (always (S.literal depth text)) (always (T.literal depth text))
  line : ∀ env depth value, value.filterNames ⊆ names →
    Φ (S.line env depth value) (T.line env depth value)
  filtered : ∀ depth filter text, filter ∈ names →
    Φ (always (S.filtered depth filter text)) (always (T.filtered depth filter text))
  andThen : ∀ {f g h k}, Φ f g → Φ h k →
    Φ (fun s => Sink.andThen (f s) h) (fun t => Sink.andThen (g t) k)
  control : ∀ capture schedule {f g h k}, (∀ env, Φ (f env) (g env)) →
    (∀ outcome, Φ (h outcome) (k outcome)) →
    Φ (S.control capture schedule f h) (T.control capture schedule g k)

/-- What holds of the parts of runs holds of the runs. -/
theorem Respects.run {names : List Text} {S : Sink σ} {T : Sink τ}
    {Φ : (σ → σ × Option Failure) → (τ → τ × Option Failure) → Prop}
    (h : Respects names S T Φ) (evaluator : Option Evaluator) {code : Array Instruction}
    (hcode : ∀ i ∈ code.toList, i.filterNames ⊆ names) (i stop : Nat) (env : Env)
    (prior : Outcome) :
    Φ (S.run evaluator code i stop env prior) (T.run evaluator code i stop env prior) := by
  change Φ (fun s => S.run evaluator code i stop env prior s)
    (fun t => T.run evaluator code i stop env prior t)
  unfold Sink.run
  by_cases hi : i < stop ∧ i < code.size
  · simp only [dif_pos hi]
    cases here : code[i]? with
    | none => exact h.done
    | some instruction =>
      have hnames := hcode instruction (Array.mem_toList_iff.2 (Array.mem_of_getElem? here))
      cases instruction with
      | literal pos text depth =>
        exact h.andThen (h.literal depth text) (h.run evaluator hcode ..)
      | output pos value depth =>
        exact h.andThen (h.line env depth value hnames) (h.run evaluator hcode ..)
      | exec pos source =>
        dsimp only
        cases Evaluator.evaluation evaluator source env with
        | error e => exact h.fail e
        | ok v => exact h.run evaluator hcode ..
      | filtered pos filter text depth =>
        exact h.andThen (h.filtered depth filter text (hnames (List.mem_singleton_self filter)))
          (h.run evaluator hcode ..)
      | openTag pos opening closing depth last =>
        obtain ⟨hopening, hclosing⟩ := List.append_subset.1 hnames
        exact h.andThen (h.line env depth opening hopening) <|
          h.andThen (h.run evaluator hcode ..) <|
          h.andThen (h.line env depth closing hclosing) (h.run evaluator hcode ..)
      | openControl pos head depth last =>
        cases evaluator with
        | none => exact h.fail .noEvaluator
        | some e =>
          exact h.control head.capture _ (fun env => h.run (some e) hcode ..)
            (fun outcome => h.run (some e) hcode ..)
      | close => exact h.run evaluator hcode ..
  · simp only [dif_neg hi]
    exact h.done
termination_by code.size - i

/-! ## Related states -/

section Related

variable {R : σ → τ → Prop}

/-- The parts of two runs end in related states, with the same failure or none. -/
def Alike (R : σ → τ → Prop) (x : σ × Option Failure) (y : τ × Option Failure) : Prop :=
  R x.1 y.1 ∧ x.2 = y.2

theorem Alike.andThen {x : σ × Option Failure} {y : τ × Option Failure} (h : Alike R x y)
    {next : σ → σ × Option Failure} {next' : τ → τ × Option Failure}
    (hnext : ∀ s t, R s t → Alike R (next s) (next' t)) :
    Alike R (Sink.andThen x next) (Sink.andThen y next') := by
  obtain ⟨s, failure⟩ := x
  obtain ⟨t, failure'⟩ := y
  obtain ⟨hst, rfl⟩ : R s t ∧ failure = failure' := h
  cases failure with
  | some e => exact ⟨hst, rfl⟩
  | none => exact hnext s t hst

/-- The operations of the sinks keep a relation between their states and fail alike, as long as
they are given no filters but the named ones. -/
structure Simulates (names : List Text) (R : σ → τ → Prop) (S : Sink σ) (T : Sink τ) : Prop where
  literal : ∀ depth text {s t}, R s t → R (S.literal depth text s) (T.literal depth text t)
  line : ∀ env depth value {s t}, value.filterNames ⊆ names → R s t →
    Alike R (S.line env depth value s) (T.line env depth value t)
  filtered : ∀ depth filter text {s t}, filter ∈ names → R s t →
    R (S.filtered depth filter text s) (T.filtered depth filter text t)
  fresh : ∀ {s t}, R s t → R (S.fresh s) (T.fresh t)
  captured : ∀ {s t s' t'}, R s t → R s' t' → R (S.captured s s') (T.captured t t')
  abandoned : ∀ {s t s' t'}, R s t → R s' t' → R (S.abandoned s s') (T.abandoned t t')

namespace Simulates

variable {names : List Text} {S : Sink σ} {T : Sink τ}

theorem control (h : Simulates names R S T) (capture : Bool) (schedule : Schedule)
    {body : Env → σ → σ × Option Failure} {body' : Env → τ → τ × Option Failure}
    (hbody : ∀ env s t, R s t → Alike R (body env s) (body' env t))
    {next : Outcome → σ → σ × Option Failure} {next' : Outcome → τ → τ × Option Failure}
    (hnext : ∀ outcome s t, R s t → Alike R (next outcome s) (next' outcome t)) {s : σ} {t : τ}
    (hst : R s t) :
    Alike R (S.control capture schedule body next s)
      (T.control capture schedule body' next' t) := by
  have hstart : R (S.enter capture s) (T.enter capture t) := by
    cases capture with
    | true => exact h.fresh hst
    | false => exact hst
  -- the evaluator sees the failures of the body only, and those are the same
  obtain ⟨hout, halike⟩ := Schedule.exec_related hbody schedule hstart
  unfold Sink.control
  generalize schedule.exec body (S.enter capture s) = inner at hout halike ⊢
  generalize schedule.exec body' (T.enter capture t) = inner' at hout halike ⊢
  obtain ⟨out, outcome, failure⟩ := inner
  obtain ⟨out', outcome', failure'⟩ := inner'
  obtain ⟨rfl, rfl⟩ : outcome = outcome' ∧ failure = failure' := Prod.mk.inj halike
  cases failure with
  | some e =>
    refine ⟨?_, rfl⟩
    cases capture with
    | true => exact h.abandoned hst hout
    | false => exact hout
  | none =>
    refine hnext outcome _ _ ?_
    cases capture with
    | true => exact h.captured hst hout
    | false => exact hout

theorem respects (h : Simulates names R S T) :
    Respects names S T fun f g => ∀ s t, R s t → Alike R (f s) (g t) where
  done _ _ hst := ⟨hst, rfl⟩
  fail _ _ _ hst := ⟨hst, rfl⟩
  literal depth text _ _ hst := ⟨h.literal depth text hst, rfl⟩
  line env depth value hnames _ _ hst := h.line env depth value hnames hst
  filtered depth filter text hname _ _ hst := ⟨h.filtered depth filter text hname hst, rfl⟩
  andThen hpart hnext s t hst := (hpart s t hst).andThen hnext
  control capture schedule _ _ _ _ hbody hnext _ _ hst :=
    h.control capture schedule hbody hnext hst

end Simulates
end Related

/-! ## Marked states -/

section Marked

variable {α : Type} {marked : σ → Prop}

/-- `g` does what `f` does, except where `f` leaves a mark; and `f` removes no mark. -/
def Follows (marked : σ → Prop) (f g : σ → σ × α) : Prop :=
  ∀ s, (marked s → marked (f s).1) ∧ (¬ marked (f s).1 → g s = f s)

theorem follows_self {f : σ → σ × α} (h : ∀ s, marked s → marked (f s).1) : Follows marked f f :=
  fun s => ⟨h s, fun _ => rfl⟩

namespace Follows

theorem andThen {f g h k : σ → σ × Option Failure} (hfg : Follows marked f g)
    (hhk : Follows marked h k) :
    Follows marked (fun s => Sink.andThen (f s) h) (fun s => Sink.andThen (g s) k) := by
  intro s
  obtain ⟨hkeep, hsame⟩ := hfg s
  dsimp only
  generalize f s = part at hkeep hsame ⊢
  obtain ⟨t, _ | e⟩ := part
  · obtain ⟨hkeep', hsame'⟩ := hhk t
    refine ⟨fun hs => hkeep' (hkeep hs), fun hnone => ?_⟩
    rw [hsame (mt hkeep' hnone)]
    exact hsame' hnone
  · refine ⟨hkeep, fun hnone => ?_⟩
    rw [hsame hnone]
    rfl

theorem exec {f g : Env → σ → σ × Option Failure} (h : ∀ env, Follows marked (f env) (g env))
    (schedule : Schedule) : Follows marked (schedule.exec f) (schedule.exec g) := by
  induction schedule with
  | stop outcome failure => exact follows_self fun _ hs => hs
  | enter env next ih =>
    intro s
    obtain ⟨hkeep, hsame⟩ := h env s
    obtain ⟨hkeep', hsame'⟩ := ih (f env s).2 (f env s).1
    rw [Schedule.exec_enter, Schedule.exec_enter]
    refine ⟨fun hs => hkeep' (hkeep hs), fun hnone => ?_⟩
    rw [hsame (mt hkeep' hnone)]
    exact hsame' hnone

end Follows

/-- What `T` does is what `S` does, except where `S` leaves a mark; and `S` removes no mark. -/
structure Shadows (marked : σ → Prop) (S T : Sink σ) : Prop where
  literal : ∀ depth text, Follows marked (always (S.literal depth text))
    (always (T.literal depth text))
  line : ∀ env depth value, Follows marked (S.line env depth value) (T.line env depth value)
  filtered : ∀ depth filter text, Follows marked (always (S.filtered depth filter text))
    (always (T.filtered depth filter text))
  fresh : Follows marked (always S.fresh) (always T.fresh)
  captured : ∀ around, Follows marked (always (S.captured around)) (always (T.captured around))
  abandoned : ∀ around, Follows marked (always (S.abandoned around)) (always (T.abandoned around))

namespace Shadows

variable {S T : Sink σ}

theorem enter (h : Shadows marked S T) (capture : Bool) :
    Follows marked (always (S.enter capture)) (always (T.enter capture)) := by
  cases capture with
  | true => exact h.fresh
  | false => exact follows_self fun _ hs => hs

theorem leave (h : Shadows marked S T) (capture : Bool) (around : σ) :
    Follows marked (always (S.leave capture around)) (always (T.leave capture around)) := by
  cases capture with
  | true => exact h.captured around
  | false => exact follows_self fun _ hs => hs

theorem abandon (h : Shadows marked S T) (capture : Bool) (around : σ) :
    Follows marked (always (S.abandon capture around)) (always (T.abandon capture around)) := by
  cases capture with
  | true => exact h.abandoned around
  | false => exact follows_self fun _ hs => hs

theorem control (h : Shadows marked S T) (capture : Bool) (schedule : Schedule)
    {body body' : Env → σ → σ × Option Failure} {next next' : Outcome → σ → σ × Option Failure}
    (hbody : ∀ env, Follows marked (body env) (body' env))
    (hnext : ∀ outcome, Follows marked (next outcome) (next' outcome)) :
    Follows marked (S.control capture schedule body next)
      (T.control capture schedule body' next') := by
  intro s
  obtain ⟨hkeep₁, hsame₁⟩ := h.enter capture s
  obtain ⟨hkeep₂, hsame₂⟩ := Follows.exec hbody schedule (S.enter capture s)
  unfold Sink.control
  -- a mark at the end of the body stays, so that without one all before it was the same
  have hstart : ¬ marked (schedule.exec body (S.enter capture s)).1 →
      schedule.exec body' (T.enter capture s) = schedule.exec body (S.enter capture s) := by
    intro hnone
    rw [← hsame₂ hnone]
    exact congrArg _ (congrArg Prod.fst (hsame₁ (mt hkeep₂ hnone)))
  have hkeep : marked s → marked (schedule.exec body (S.enter capture s)).1 :=
    fun hs => hkeep₂ (hkeep₁ hs)
  generalize schedule.exec body (S.enter capture s) = inner at hstart hkeep ⊢
  obtain ⟨out, outcome, _ | e⟩ := inner
  · obtain ⟨hkeep₃, hsame₃⟩ := h.leave capture s out
    obtain ⟨hkeep₄, hsame₄⟩ := hnext outcome (S.leave capture s out)
    refine ⟨fun hs => hkeep₄ (hkeep₃ (hkeep hs)), fun hnone => ?_⟩
    have hleft := mt hkeep₄ hnone
    rw [hstart (mt hkeep₃ hleft)]
    dsimp only
    rw [show T.leave capture s out = S.leave capture s out from congrArg Prod.fst (hsame₃ hleft)]
    exact hsame₄ hnone
  · obtain ⟨hkeep₃, hsame₃⟩ := h.abandon capture s out
    refine ⟨fun hs => hkeep₃ (hkeep hs), fun hnone => ?_⟩
    rw [hstart (mt hkeep₃ hnone)]
    exact congrArg (·.1, some e) (hsame₃ hnone)

theorem respects (h : Shadows marked S T) (names : List Text) :
    Respects names S T (Follows marked) where
  done := follows_self fun _ hs => hs
  fail _ := follows_self fun _ hs => hs
  literal := h.literal
  line env depth value _ := h.line env depth value
  filtered depth filter text _ := h.filtered depth filter text
  andThen hpart hnext := hpart.andThen hnext
  control capture schedule _ _ _ _ hbody hnext := h.control capture schedule hbody hnext

end Shadows
end Marked
end Sink

/-! ## Rendering -/

namespace Renderer

/-- The sink of rendering: its state is the output. -/
def sink (r : Renderer) : Sink Output where
  literal depth text w := w.line depth text
  line env depth value w :=
    match r.line env value with
    | .error e => (w, some e)
    | .ok t => (w.line depth t, none)
  filtered depth filter text w := w.block depth (r.filters.apply filter text)
  fresh w := { indent := w.indent }
  captured w out := if out.entries.isEmpty then w else w.line 0 out.text
  abandoned w _ := w

theorem sink_line_of_error {r : Renderer} {env : Env} {value : Fragments} {e : Failure}
    (h : r.line env value = .error e) (depth : Nat) (w : Output) :
    r.sink.line env depth value w = (w, some e) := by
  simp only [sink, h]

theorem sink_line_of_ok {r : Renderer} {env : Env} {value : Fragments} {t : Text}
    (h : r.line env value = .ok t) (depth : Nat) (w : Output) :
    r.sink.line env depth value w = (w.line depth t, none) := by
  simp only [sink, h]

/-- Rendering runs a program over the sink whose state is the output. -/
theorem run_eq (r : Renderer) (code : Array Instruction) (i stop : Nat) (env : Env)
    (prior : Outcome) (w : Output) :
    r.run code i stop env prior w = r.sink.run r.evaluator code i stop env prior w := by
  unfold run Sink.run
  split
  · cases code[i]? with
    | none => rfl
    | some instruction =>
      cases instruction with
      | literal pos text depth => exact run_eq ..
      | output pos value depth =>
        dsimp only
        cases hline : r.line env value with
        | error e => rw [sink_line_of_error hline, Sink.andThen]
        | ok t =>
          rw [sink_line_of_ok hline]
          exact run_eq ..
      | exec pos source =>
        dsimp only [evaluate]
        cases Evaluator.evaluation r.evaluator source env with
        | error e => rfl
        | ok v => exact run_eq ..
      | filtered pos filter text depth => exact run_eq ..
      | openTag pos opening closing depth last =>
        dsimp only
        cases hopening : r.line env opening with
        | error e => rw [sink_line_of_error hopening, Sink.andThen]
        | ok t =>
          rw [sink_line_of_ok hopening, Sink.andThen]
          dsimp only
          rw [run_eq r code (i + 1) last env .none (w.line depth t)]
          generalize Sink.run _ _ _ _ _ _ _ (w.line depth t) = inner
          obtain ⟨u, _ | e⟩ := inner
          · dsimp only [Sink.andThen]
            cases hclosing : r.line env closing with
            | error e => rw [sink_line_of_error hclosing]
            | ok t =>
              rw [sink_line_of_ok hclosing]
              exact run_eq ..
          · rfl
      | openControl pos head depth last =>
        dsimp only
        cases he : r.evaluator with
        | none => rfl
        | some e =>
          -- whatever environments the evaluator asks for, the body is run in the same way
          have hbody : (fun env w => r.run code (i + 1) last env .none w) =
              fun env w => r.sink.run (some e) code (i + 1) last env .none w := by
            funext env w
            rw [run_eq, he]
          have hstart : r.sink.enter head.capture w =
              if head.capture then { indent := w.indent } else w := rfl
          dsimp only [Sink.control]
          rw [hbody, hstart]
          generalize Schedule.exec _ _ _ = inner
          obtain ⟨out, outcome, _ | failure⟩ := inner
          · dsimp only
            rw [run_eq, he]
            cases head.capture <;> rfl
          · rfl
      | close => exact run_eq ..
  · rfl
termination_by code.size - i

end Renderer

namespace Program

variable {σ τ : Type}

/-- Runs a program against a context, which must be of the type that it was compiled for. -/
def runIn (types : TypeRegistry) (evaluator : Option Evaluator) (S : Sink σ) (p : Program)
    (context : Data) (s : σ) : σ × Option Failure :=
  let type := (types.typeOf context).1
  if type ≠ p.contextType then (s, some (.invalidType p.contextType type))
  else
    let env := match evaluator with
      | some e => e.bind context
      | none => []
    S.run evaluator p.code 0 p.code.size env .none s

/-- The answer of a run: its failure, or the text that it ended with. -/
def answer (text : σ → Text) : σ × Option Failure → Except Failure Text
  | (_, some e) => .error e
  | (s, none) => .ok (text s)

/-- Runs that end alike give the same failure, or the texts of related states. -/
theorem answer_of_alike {R : σ → τ → Prop} {x : σ × Option Failure} {y : τ × Option Failure}
    (h : Sink.Alike R x y) (text : σ → Text) (text' : τ → Text) :
    (∃ e, answer text x = .error e ∧ answer text' y = .error e) ∨
      ∃ s t, R s t ∧ answer text x = .ok (text s) ∧ answer text' y = .ok (text' t) := by
  obtain ⟨s, failure⟩ := x
  obtain ⟨t, failure'⟩ := y
  obtain ⟨hst, rfl⟩ : R s t ∧ failure = failure' := h
  cases failure with
  | some e => exact .inl ⟨e, rfl, rfl⟩
  | none => exact .inr ⟨s, t, hst, rfl, rfl⟩

theorem runIn_respects {S : Sink σ} {T : Sink τ} {p : Program}
    {Φ : (σ → σ × Option Failure) → (τ → τ × Option Failure) → Prop}
    (h : Sink.Respects (p.code.toList.flatMap (·.filterNames)) S T Φ) (types : TypeRegistry)
    (evaluator : Option Evaluator) (context : Data) :
    Φ (p.runIn types evaluator S context) (p.runIn types evaluator T context) := by
  change Φ (fun s => p.runIn types evaluator S context s)
    (fun t => p.runIn types evaluator T context t)
  unfold runIn
  by_cases htype : (types.typeOf context).1 ≠ p.contextType
  · simp only [if_pos htype]
    exact h.fail _
  · simp only [if_neg htype]
    exact h.run evaluator (fun i hi name hname => List.mem_flatMap.2 ⟨i, hi, hname⟩) ..

theorem render_eq (types : TypeRegistry) (r : Renderer) (indent : Bool) (p : Program)
    (context : Data) :
    p.render types r indent context =
      answer Output.text (p.runIn types r.evaluator r.sink context { indent }) := by
  unfold render runIn
  dsimp only
  split
  · rfl
  · rw [r.run_eq]
    generalize Sink.run _ _ _ _ _ _ _ _ = ended
    obtain ⟨w, _ | e⟩ := ended <;> rfl

end Program
end Offside
