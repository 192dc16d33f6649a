import Offside.Engine
import Offside.Proofs.Escaping
import Offside.Proofs.TreeRendering

/-!
# Compiling checks every expression but the heads of control blocks

An engine that compiles expressions in advance goes through the flat list of instructions; rendering
goes through the tree and evaluates what it comes to. The two fit together: of a template that
compiles, rendering finds a bad expression only in the head of a control block.

This holds for every language of expressions, as long as a plan that fails while it runs does not
fail as a text does that is no expression (`Language.KeepsApart`).

To say so without a record of what is evaluated, the evaluator is exchanged. An evaluator that
answers as it likes where an expression does not compile, and that reports such an expression in its
own way if it is the head of a control block (`Evaluator.IsVariant`), renders the same, but for that
way of reporting (`Engine.render_variant`). So no bad expression was evaluated anywhere else, and
every report of one came from a head.
-/

namespace Offside

/-! ## What is compiled in advance -/

/-- The text is an expression of the language. -/
def Language.Compiles (l : Language) (source : Text) : Prop := ∃ plan, l.compile source = .ok plan

/-- Every expression that an instruction evaluates itself compiles. -/
structure Instruction.Checked (l : Language) (i : Instruction) : Prop where
  fragments : ∀ source escape, .expression source escape ∈ i.fragments → l.Compiles source
  exec : ∀ pos source, i = .exec pos source → l.Compiles source

theorem Fragments.mem_sources {v : Fragments} {source : Text} {escape : Bool}
    (h : .expression source escape ∈ v) : source ∈ v.sources :=
  List.mem_filterMap.2 ⟨_, h, rfl⟩

theorem Instruction.mem_sources {i : Instruction} {source : Text} {escape : Bool}
    (h : .expression source escape ∈ i.fragments) : source ∈ i.sources := by
  cases i with
  | output pos value depth => exact Fragments.mem_sources h
  | openTag pos opening closing depth stop =>
    rcases List.mem_append.1 h with h | h
    · exact List.mem_append_left _ (Fragments.mem_sources h)
    · exact List.mem_append_right _ (Fragments.mem_sources h)
  | literal | exec | filtered | openControl | close => cases h

namespace Engine

/-- The engine evaluates the expressions of a language and compiles them in advance. -/
structure Speaks (e : Engine) (l : Language) : Prop where
  evaluator : e.evaluator = l.evaluator
  prepare : e.prepare = some l.check

theorem prepareAll_ok {prepare : Text → Except ExprProblem Unit} {pos : Location}
    {sources : List Text} (h : prepareAll prepare pos sources = .ok ()) :
    ∀ source ∈ sources, prepare source = .ok () := by
  fun_induction prepareAll prepare pos sources with
  | case1 => simp
  | case2 => cases h
  | case3 source sources u hu ih => exact List.forall_mem_cons.2 ⟨hu, ih h⟩

theorem prepareCode_ok {prepare : Text → Except ExprProblem Unit} {code : List Instruction}
    (h : prepareCode prepare code = .ok ()) :
    ∀ i ∈ code, ∀ source ∈ i.sources, prepare source = .ok () := by
  induction code with
  | nil => simp
  | cons i is ih =>
    rw [prepareCode] at h
    cases hi : prepareAll prepare i.pos i.sources with
    | error e =>
      rw [hi] at h
      cases h
    | ok u =>
      rw [hi] at h
      exact List.forall_mem_cons.2 ⟨prepareAll_ok hi, ih h⟩

/-- A template that compiles was laid out, its filters were listed, and its expressions were
compiled in advance. -/
theorem compile_ok {e : Engine} {name source contextType : Text} {t : Template}
    (h : e.compile name source contextType = .ok t) :
    Program.ofTokens contextType e.maxDepth (lex name source) = .ok t.program ∧
      t.filters = filterUses t.program.code.toList ∧
      ∀ prepare, e.prepare = some prepare →
        prepareCode prepare t.program.code.toList = .ok () := by
  unfold compile at h
  split at h
  · cases h
  rename_i program hprogram
  cases hp : e.prepare with
  | none =>
    rw [hp] at h
    cases h
    exact ⟨hprogram, rfl, fun _ hp => nomatch hp⟩
  | some prepare =>
    rw [hp] at h
    dsimp only at h
    cases hcode : prepareCode prepare program.code.toList with
    | error p =>
      rw [hcode] at h
      cases h
    | ok u =>
      rw [hcode] at h
      cases h
      refine ⟨hprogram, rfl, ?_⟩
      rintro _ ⟨⟩
      exact hcode

/-- Of a template that compiles, every expression outside the heads of control blocks does. -/
theorem checked_of_compile {l : Language} {e : Engine} (he : e.Speaks l)
    {name source contextType : Text} {t : Template}
    (h : e.compile name source contextType = .ok t) :
    ∀ i ∈ t.program.code.toList, i.Checked l := by
  have hcompiles : ∀ i ∈ t.program.code.toList, ∀ source ∈ i.sources, l.Compiles source := by
    intro i hi source hs
    have hok := prepareCode_ok ((compile_ok h).2.2 _ he.prepare) i hi source hs
    cases hc : l.compile source with
    | error p =>
      rw [Language.check, hc] at hok
      cases hok
    | ok plan => exact ⟨plan, hc⟩
  intro i hi
  constructor
  · intro source escape hmem
    exact hcompiles i hi source (Instruction.mem_sources hmem)
  · rintro pos source rfl
    exact hcompiles _ hi source (List.mem_singleton_self source)

end Engine

/-! ## Failures of evaluation -/

/-- The failure, with the report of a bad expression exchanged for another. -/
def Failure.mapProblem (report : ExprProblem → Failure) : Failure → Failure
  | expression problem => report problem
  | failure => failure

/-- The schedule, with the report of a bad expression exchanged for another if it stops at once. -/
def Schedule.mapProblem (report : ExprProblem → Failure) : Schedule → Schedule
  | stop outcome failure => stop outcome (failure.map (·.mapProblem report))
  | enter env next => enter env next

/-- Only a bad expression is reported in another way. -/
theorem Failure.mapProblem_of_ne {failure : Failure} (h : ∀ problem, failure ≠ .expression problem)
    (report : ExprProblem → Failure) : failure.mapProblem report = failure := by
  cases failure with
  | expression problem => exact absurd rfl (h problem)
  | _ => rfl

namespace Language

/-- A plan does not fail while it runs in the way of a text that is no expression. -/
def KeepsApart (l : Language) : Prop :=
  ∀ plan env problem, l.run plan env ≠ .error (.expression problem)

theorem ne_expression_of_compiles {l : Language} (hl : l.KeepsApart) {source : Text} {env : Env}
    {failure : Failure} (hc : l.Compiles source) (h : l.evaluate source env = .error failure)
    (problem : ExprProblem) : failure ≠ .expression problem := by
  obtain ⟨plan, hplan⟩ := hc
  rw [evaluate, hplan] at h
  rintro rfl
  exact hl plan env problem h

end Language

theorem Expr.language_run_error {plan : language.Plan} {env : Env} {e : Failure}
    (h : language.run plan env = .error e) : e = .evaluation := by
  unfold language at h
  dsimp only at h
  split at h
  · cases h
  · cases h
    rfl

theorem Expr.keepsApart_language : Expr.language.KeepsApart := by
  intro plan env problem h
  cases language_run_error h

namespace Renderer

variable {r r' : Renderer} {env : Env}

/-- A line depends on the filters and on the values of its expressions. -/
theorem line_congr {v : Fragments} (hfilters : r.filters = r'.filters)
    (hv : ∀ source escape, .expression source escape ∈ v →
      r.evaluate source env = r'.evaluate source env) : r.line env v = r'.line env v := by
  induction v with
  | nil => rfl
  | cons f fs ih =>
    have hf : r.fragment env f = r'.fragment env f := by
      cases f with
      | literal text => rfl
      | expression source escape =>
        rw [fragment, fragment, hv source escape (List.mem_cons_self ..)]
      | filter name text => rw [fragment, fragment, hfilters]
    have hfs := ih fun source escape hmem => hv source escape (List.mem_cons_of_mem _ hmem)
    rw [line, line, hf, hfs]

theorem fragment_eq_error {f : Fragment} {failure : Failure}
    (h : r.fragment env f = .error failure) :
    ∃ source escape, f = .expression source escape ∧ r.evaluate source env = .error failure := by
  cases f with
  | literal | filter => cases h
  | expression source escape =>
    refine ⟨source, escape, rfl, ?_⟩
    cases hx : r.evaluate source env with
    | ok x =>
      rw [fragment, hx] at h
      cases h
    | error failure' =>
      rw [fragment, hx] at h
      cases h
      rfl

/-- A line fails by one of its expressions. -/
theorem exists_evaluate_of_line_error {v : Fragments} {failure : Failure}
    (h : r.line env v = .error failure) :
    ∃ source escape, .expression source escape ∈ v ∧ r.evaluate source env = .error failure := by
  induction v with
  | nil => cases h
  | cons f fs ih =>
    cases hf : r.fragment env f with
    | error failure' =>
      rw [line, hf] at h
      cases h
      obtain ⟨source, escape, rfl, hfail⟩ := fragment_eq_error hf
      exact ⟨source, escape, List.mem_cons_self .., hfail⟩
    | ok x =>
      have hfs : r.line env fs = .error failure := by
        cases hy : r.line env fs with
        | error failure' =>
          rw [line, hf, hy] at h
          cases h
          rfl
        | ok y =>
          rw [line, hf, hy] at h
          cases h
      obtain ⟨source, escape, hmem, hfail⟩ := ih hfs
      exact ⟨source, escape, List.mem_cons_of_mem _ hmem, hfail⟩

end Renderer

namespace Schedule

/-- The schedule hands on the failures of the body and has none of its own. -/
inductive Faithful : Schedule → Prop
  | stop (outcome : Outcome) : Faithful (.stop outcome none)
  | enter (env : Env) {next : Option Failure → Schedule} (outcome : Outcome) :
      (∀ failure, next (some failure) = .stop outcome (some failure)) → Faithful (next none) →
      Faithful (.enter env next)

theorem faithful_once (env : Env) : (once env).Faithful :=
  .enter env .entered (fun _ => rfl) (.stop .entered)

theorem faithful_each (envs : List Env) : (each envs).Faithful := by
  induction envs with
  | nil => exact .stop .entered
  | cons env envs ih => exact .enter env .none (fun _ => rfl) ih

theorem faithful_counting (env : Nat → Env) (i count : Nat) : (counting env i count).Faithful := by
  induction count generalizing i with
  | zero => exact .stop .entered
  | succ count ih => exact .enter (env i) .none (fun _ => rfl) (ih (i + 1))

theorem Faithful.mapProblem {s : Schedule} (h : s.Faithful) (report : ExprProblem → Failure) :
    s.mapProblem report = s := by
  cases h <;> rfl

/-- Where the body reports a bad expression in another way, so does a faithful schedule. -/
theorem Faithful.exec_mapProblem {σ : Type} {report : ExprProblem → Failure}
    {body body' : Env → σ → σ × Option Failure} {s : Schedule} (h : s.Faithful)
    (hbody : ∀ env x, body' env x =
      ((body env x).1, (body env x).2.map (·.mapProblem report))) (x : σ) :
    s.exec body' x =
      ((s.exec body x).1, (s.exec body x).2.1,
        (s.exec body x).2.2.map (·.mapProblem report)) := by
  induction h generalizing x with
  | stop outcome => rfl
  | @enter env next outcome hfail hnext ih =>
    simp only [exec, hbody]
    rcases body env x with ⟨y, _ | failure⟩
    · exact ih y
    · simp only [Option.map_some, hfail]
      rfl

end Schedule

namespace ControlBlock

/-- The schedule fails before the body runs, or it has no failure of its own. -/
def Settled (s : Schedule) : Prop := (∃ failure, s = .fail failure) ∨ s.Faithful

variable (evaluate : Evaluation)

theorem settled_conditional (condition : Text) (negate : Bool) (env : Env) :
    Settled (conditional evaluate condition negate env) := by
  unfold conditional
  split
  · exact .inl ⟨_, rfl⟩
  · split
    · exact .inr (.stop .skipped)
    · exact .inr (Schedule.faithful_once env)

theorem settled_following {run : Schedule} (prior : Outcome) (h : Settled run) :
    Settled (following prior run) := by
  cases prior with
  | none => exact .inl ⟨_, rfl⟩
  | entered => exact .inr (.stop .entered)
  | skipped => exact h

theorem settled_loop (v : Data) (vars : List Text) (env : Env) : Settled (loop v vars env) := by
  unfold loop
  split
  · exact .inl ⟨_, rfl⟩
  split
  · exact .inl ⟨_, rfl⟩
  · right
    unfold rounds
    split
    · exact .stop .skipped
    · exact Schedule.faithful_each _
    · exact .stop .skipped
    · exact Schedule.faithful_counting ..

theorem settled_unkeyed (source : Text) (vars : List Text) (env : Env) :
    Settled (unkeyed evaluate source vars env) := by
  unfold unkeyed
  split
  · exact .inl ⟨_, rfl⟩
  split
  · split
    · exact .inr (Schedule.faithful_once env)
    · exact .inr (.stop .skipped)
  · exact settled_loop ..

/-- A control block can fail by its head, before the body runs, and otherwise only by its body. -/
theorem settled_scope (source : Text) (vars : List Text) (env : Env) (prior : Outcome) :
    Settled (scope evaluate source vars env prior) := by
  unfold scope
  dsimp only
  split
  · exact settled_following prior (.inr (Schedule.faithful_once env))
  split
  · exact settled_following prior (settled_conditional ..)
  split
  · exact settled_conditional ..
  split
  · exact settled_conditional ..
  · exact settled_unkeyed ..

end ControlBlock

/-! ## Another evaluator -/

/-- The evaluator differs from that of the language only where an expression does not compile.
Outside the heads of control blocks it may then answer anything; at the head of a control block of
`code` it reports the expression by `report`. -/
structure Evaluator.IsVariant (l : Language) (report : ExprProblem → Failure)
    (code : List Instruction) (e : Evaluator) : Prop where
  bind : e.bind = ControlBlock.bind
  evaluate : ∀ source env, l.Compiles source → e.evaluate source env = l.evaluate source env
  scope : ∀ pos head depth stop, .openControl pos head depth stop ∈ code → ∀ env prior,
    e.scope head.source head.vars env prior =
      (ControlBlock.scope l.evaluate head.source head.vars env prior).mapProblem report

section Variant

variable {l : Language} (filters : FilterRegistry) {e : Evaluator} {report : ExprProblem → Failure}
  {program : List Instruction}

section Lines

variable (hl : l.KeepsApart) (he : e.IsVariant l report program)
include hl he

theorem Renderer.evaluate_variant {source : Text} (hc : l.Compiles source) (env : Env) :
    evaluate ⟨filters, some e⟩ source env =
        evaluate ⟨filters, some l.evaluator⟩ source env ∧
      ∀ failure, evaluate ⟨filters, some l.evaluator⟩ source env = .error failure →
        failure.mapProblem report = failure := by
  refine ⟨he.evaluate source env hc, ?_⟩
  intro failure h
  exact Failure.mapProblem_of_ne (Language.ne_expression_of_compiles hl hc h) report

/-- A line of expressions that compile is the same for both, and no bad expression is reported. -/
theorem Renderer.line_variant {v : Fragments}
    (hv : ∀ source escape, .expression source escape ∈ v → l.Compiles source) (env : Env) :
    line ⟨filters, some e⟩ env v = line ⟨filters, some l.evaluator⟩ env v ∧
      ∀ failure, line ⟨filters, some l.evaluator⟩ env v = .error failure →
        failure.mapProblem report = failure := by
  constructor
  · refine line_congr ?_ ?_
    · rfl
    intro source escape hmem
    exact (evaluate_variant filters hl he (hv source escape hmem) env).1
  · intro failure h
    obtain ⟨source, escape, hmem, hfail⟩ := exists_evaluate_of_line_error h
    exact (evaluate_variant filters hl he (hv source escape hmem) env).2 failure hfail

end Lines

namespace Node

mutual

/-- A node, whose expressions outside of heads compile, is evaluated in the same way; only the
report of a bad head differs. -/
theorem run_variant (hl : l.KeepsApart) (he : e.IsVariant l report program)
    (hcode : ∀ i ∈ program, i.Checked l) (n : Node) {i : Nat} (hn : n.code i ⊆ program)
    (env : Env) (prior : Outcome) (w : Output) :
    n.run ⟨filters, some e⟩ env prior w =
      ((n.run ⟨filters, some l.evaluator⟩ env prior w).1,
        (n.run ⟨filters, some l.evaluator⟩ env prior w).2.mapError (·.mapProblem report)) := by
  cases n with
  | literal pos text depth => rfl
  | output pos value depth =>
    have hvalue := (hcode _ (hn (List.mem_singleton_self _))).fragments
    obtain ⟨heq, hfail⟩ := Renderer.line_variant filters hl he hvalue env
    simp only [run, Instruction.fragments] at heq hfail ⊢
    rw [heq]
    split
    · rename_i failure hx
      show _ = (w, Except.error (failure.mapProblem report))
      rw [hfail failure hx]
    · rfl
  | exec pos source =>
    have hc := (hcode _ (hn (List.mem_singleton_self _))).exec pos source rfl
    obtain ⟨heq, hfail⟩ := Renderer.evaluate_variant filters hl he hc env
    simp only [run]
    rw [heq]
    split
    · rename_i failure hx
      show _ = (w, Except.error (failure.mapProblem report))
      rw [hfail failure hx]
    · rfl
  | filtered pos filter text depth => rfl
  | tag pos opening closing depth body =>
    rw [code] at hn
    have htag := (hcode _ (hn (List.mem_cons_self ..))).fragments
    obtain ⟨hopen, hopenfail⟩ := Renderer.line_variant filters hl he
      (fun source escape hmem => htag source escape (List.mem_append_left _ hmem)) env
    obtain ⟨hclose, hclosefail⟩ := Renderer.line_variant filters hl he
      (fun source escape hmem => htag source escape (List.mem_append_right _ hmem)) env
    have hbody : codeAll (i + 1) body ⊆ program := fun x hx => hn (by simp [hx])
    simp only [run]
    rw [hopen, hclose]
    split
    · rename_i failure hx
      show _ = (w, Except.error (failure.mapProblem report))
      rw [hopenfail failure hx]
    rename_i t ht
    rw [runAll_variant hl he hcode body hbody]
    rcases runAll ⟨filters, some l.evaluator⟩ env .none body (w.line depth t) with ⟨w', _ | failure⟩
    · dsimp only [Option.map_none]
      split
      · rename_i failure hx
        show _ = (w', Except.error (failure.mapProblem report))
        rw [hclosefail failure hx]
      · rfl
    · rfl
  | control pos head depth body =>
    rw [code] at hn
    have hscope := he.scope pos head depth _ (hn (List.mem_cons_self ..)) env prior
    have hbody : codeAll (i + 1) body ⊆ program := fun x hx => hn (by simp [hx])
    simp only [run]
    rw [hscope]
    rcases ControlBlock.settled_scope l.evaluate head.source head.vars env prior with
      ⟨failure, hs⟩ | hs
    · -- the head itself fails: this is the one place where the reports differ
      have hown : l.evaluator.scope head.source head.vars env prior = .fail failure := hs
      rw [hs, hown]
      rfl
    · have hown : l.evaluator.scope head.source head.vars env prior =
        ControlBlock.scope l.evaluate head.source head.vars env prior := rfl
      rw [hs.mapProblem, hown,
        hs.exec_mapProblem fun env w => runAll_variant hl he hcode body hbody env .none w]
      rcases Schedule.exec _ _ _ with ⟨out, outcome, _ | failure⟩ <;> rfl
termination_by sizeOf n

theorem runAll_variant (hl : l.KeepsApart) (he : e.IsVariant l report program)
    (hcode : ∀ i ∈ program, i.Checked l) (ns : List Node) {i : Nat}
    (hns : codeAll i ns ⊆ program) (env : Env) (prior : Outcome) (w : Output) :
    runAll ⟨filters, some e⟩ env prior ns w =
      ((runAll ⟨filters, some l.evaluator⟩ env prior ns w).1,
        (runAll ⟨filters, some l.evaluator⟩ env prior ns w).2.map (·.mapProblem report)) := by
  cases ns with
  | nil => rfl
  | cons n ns =>
    rw [codeAll] at hns
    have hn : n.code i ⊆ program := fun x hx => hns (List.mem_append_left _ hx)
    have hrest : codeAll (i + n.size) ns ⊆ program := fun x hx => hns (List.mem_append_right _ hx)
    simp only [runAll]
    rw [run_variant hl he hcode n hn]
    rcases n.run ⟨filters, some l.evaluator⟩ env prior w with ⟨w', failure | outcome⟩
    · rfl
    · exact runAll_variant hl he hcode ns hrest env outcome w'
termination_by sizeOf ns

end

end Node
end Variant

namespace Engine

section Covered

variable {l : Language} {e : Engine} {name source contextType : Text} {t : Template}

/-- A template that compiles renders in the same way with a variant of the evaluator, but for its
reports of bad heads. -/
theorem render_variant (hl : l.KeepsApart) (he : e.Speaks l)
    (h : e.compile name source contextType = .ok t) {report : ExprProblem → Failure}
    {variant : Evaluator} (hv : variant.IsVariant l report t.program.code.toList)
    (context : Data) :
    render { e with evaluator := variant } t context =
      (e.render t context).mapError (·.mapProblem report) := by
  obtain ⟨-, nodes, -, -, -, hnodes⟩ := Program.ofTokens_ok (compile_ok h).1
  have hall := checked_of_compile he h
  have hbind : variant.bind context = l.evaluator.bind context := by rw [hv.bind]; rfl
  simp only [render, Program.render, he.evaluator]
  split
  · rfl
  rw [Node.run_toList hnodes, Node.run_toList hnodes, hbind,
    Node.runAll_variant e.filters hl hv hall nodes (i := 0) (fun x hx => hnodes ▸ hx)]
  rcases Node.runAll _ _ _ _ _ with ⟨w, _ | failure⟩ <;> rfl

/-- If a bad expression stops a template that compiled, some head of a control block is bad in this
very way. -/
theorem exists_bad_head (hl : l.KeepsApart) (he : e.Speaks l)
    (h : e.compile name source contextType = .ok t) {context : Data} {problem : ExprProblem}
    (hr : e.render t context = .error (.expression problem)) :
    ∃ pos head depth stop env prior,
      .openControl pos head depth stop ∈ t.program.code.toList ∧
        ControlBlock.scope l.evaluate head.source head.vars env prior =
          .fail (.expression problem) := by
  by_contra hno
  push Not at hno
  -- were no head bad in this way, another report of it would change nothing
  let report : ExprProblem → Failure := fun q => if q = problem then .evaluation else .expression q
  have hreport : ∀ failure : Failure, failure ≠ .expression problem →
      failure.mapProblem report = failure := by
    intro failure hne
    cases failure with
    | expression q =>
      have hq : q ≠ problem := fun he => hne (he ▸ rfl)
      simp [Failure.mapProblem, report, hq]
    | _ => rfl
  have hvariant : l.evaluator.IsVariant l report t.program.code.toList := by
    refine ⟨rfl, fun _ _ _ => rfl, ?_⟩
    intro pos head depth stop hmem env prior
    change ControlBlock.scope l.evaluate head.source head.vars env prior = _
    rcases ControlBlock.settled_scope l.evaluate head.source head.vars env prior with
      ⟨failure, hs⟩ | hs
    · have hne : failure ≠ .expression problem := by
        rintro rfl
        exact hno pos head depth stop env prior hmem hs
      rw [hs, Schedule.fail, Schedule.mapProblem, Option.map_some, hreport failure hne]
    · rw [hs.mapProblem]
  have hsame := render_variant hl he h hvariant context
  have hengine : { e with evaluator := l.evaluator } = e := by rw [← he.evaluator]
  rw [hengine, hr] at hsame
  simp [Except.mapError, Failure.mapProblem, report] at hsame

/-- Compiling in advance covers rendering, whatever the language. Of a template that compiles, every
expression that a line of output, an opening or closing text or a line of silent code holds
compiles; rendering is stopped by a bad expression only if that is the head of a control block; and
no bad expression is evaluated anywhere else, since rendering does not depend on what the evaluator
would answer there. -/
theorem expression_failure_only_from_head (hl : l.KeepsApart) (he : e.Speaks l)
    (h : e.compile name source contextType = .ok t) :
    (∀ i ∈ t.program.code.toList, i.Checked l) ∧
      (∀ context problem, e.render t context = .error (.expression problem) →
        ∃ pos head depth stop env prior,
          .openControl pos head depth stop ∈ t.program.code.toList ∧
            ControlBlock.scope l.evaluate head.source head.vars env prior =
              .fail (.expression problem)) ∧
      ∀ (report : ExprProblem → Failure) (variant : Evaluator),
        variant.IsVariant l report t.program.code.toList → ∀ context,
          render { e with evaluator := variant } t context =
            (e.render t context).mapError (·.mapProblem report) := by
  refine ⟨checked_of_compile he h, ?_, ?_⟩
  · intro context problem hr
    exact exists_bad_head hl he h hr
  · intro report variant hv context
    exact render_variant hl he h hv context

end Covered

/-- A good expression in a line of output, and a control block with a bad head. With an evaluator
that takes any bad expression for null the output line is the same, and only the head is reported in
another way. -/
theorem expression_failure_only_from_bracket :
    ∃ (t : Template) (variant : Evaluator),
      ({} : Engine).compile [] "= 1\n- )\n  x".toList "<nil>".toList = .ok t ∧
      ({} : Engine).render t .null = .error (.expression (.invalid [')'])) ∧
      (∃ pos head depth stop env prior,
        .openControl pos head depth stop ∈ t.program.code.toList ∧
          ControlBlock.scope Expr.language.evaluate head.source head.vars env prior =
            .fail (.expression (.invalid [')']))) ∧
      variant.evaluate [')'] [] = .ok .null ∧
      render { evaluator := variant } t .null = .error (.custom []) := by
  let t : Template := ⟨[], ⟨"<nil>".toList, #[
    .output { column := 2, offset := 2 } [.expression ['1'] true] 0,
    .openControl { line := 1, column := 2, offset := 6 } ⟨[')'], [], false⟩ 0 3,
    .literal { line := 2, column := 2, offset := 10 } ['x'] 2, .close]⟩, []⟩
  let variant : Evaluator :=
    { bind := ControlBlock.bind
      evaluate := fun source env =>
        if (Expr.language.compile source).isOk then Expr.language.evaluate source env
        else .ok .null
      scope := fun source vars env prior =>
        (ControlBlock.scope Expr.language.evaluate source vars env prior).mapProblem
          fun _ => .custom [] }
  have h : ({} : Engine).compile [] "= 1\n- )\n  x".toList "<nil>".toList = .ok t := by
    decide +kernel
  have hr : ({} : Engine).render t .null = .error (.expression (.invalid [')'])) := by
    decide +kernel
  have hbad : (Expr.language.compile [')']).isOk = false := by decide +kernel
  have hvariant : variant.IsVariant Expr.language (fun _ => .custom [])
      t.program.code.toList := by
    refine ⟨rfl, ?_, fun _ _ _ _ _ _ _ => rfl⟩
    rintro source env ⟨plan, hplan⟩
    have hok : (Expr.language.compile source).isOk = true := by rw [hplan]; rfl
    exact if_pos hok
  obtain ⟨-, hhead, hrender⟩ :=
    expression_failure_only_from_head (e := {}) Expr.keepsApart_language ⟨rfl, rfl⟩ h
  refine ⟨t, variant, h, hr, hhead _ _ hr, ?_, ?_⟩
  · show (if (Expr.language.compile [')']).isOk then Expr.language.evaluate [')'] []
      else Except.ok Data.null) = .ok .null
    exact if_neg (Bool.eq_false_iff.1 hbad)
  · rw [hrender _ variant hvariant, hr]
    rfl

end Engine
end Offside
