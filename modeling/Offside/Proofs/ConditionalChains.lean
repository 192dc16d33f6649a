import Offside.Expr.Eval
import Offside.ControlBlock
import Offside.Proofs.Sheet
import Offside.Proofs.TreeRendering

/-!
# Chains of conditions

A chain is an `if` or `unless`, any number of `else if`, and perhaps an `else`, one directly after
the other (`Chain`). The blocks are run one by one, and all that a block learns of the ones before
it is the outcome of the last one; still the chain as a whole decides as one would expect
(`Chain.run_decides`): its conditions are evaluated in order up to the first one that selects its
block, the body of that block runs, and nothing else does.

How expressions are evaluated is left open. `Decides` lists the conditions that a decision asks for,
and another way to evaluate that agrees on those conditions gives the same run: no other expression
has a part in it. Rendering runs the blocks of a chain in just this way, also where it captures what
they put out (`Node.runAll_of_chain`).
-/

namespace Offside

namespace ControlBlock

/-! ## Keywords -/

/-- The source of a block is the keyword with a condition behind it. -/
def Heads (keyword : String) (source condition : Text) : Prop :=
  ∃ c rest, source.trim = keyword.toList ++ c :: rest ∧ (c = ' ' ∨ c = '(') ∧
    condition = Text.trim (c :: rest)

theorem Heads.afterKeyword? {keyword : String} {source condition : Text}
    (h : Heads keyword source condition) :
    ControlBlock.afterKeyword? keyword source.trim = some condition := by
  obtain ⟨c, rest, hsource, hc, rfl⟩ := h
  unfold ControlBlock.afterKeyword?
  rw [hsource, cut?_eq_some_iff.2 rfl]
  exact if_pos (by simpa using hc)

theorem heads_of_afterKeyword? {keyword : String} {source condition : Text}
    (h : afterKeyword? keyword source.trim = some condition) : Heads keyword source condition := by
  unfold afterKeyword? at h
  cases hcut : Text.cut? keyword.toList source.trim with
  | none =>
    rw [hcut] at h
    cases h
  | some rest =>
    rw [hcut] at h
    cases rest with
    | nil => cases h
    | cons c rest =>
      obtain ⟨hc, hcondition⟩ := Option.ite_none_right_eq_some.1 h
      exact ⟨c, rest, cut?_eq_some_iff.1 hcut, by simpa using hc, (Option.some.inj hcondition).symm⟩

theorem afterKeyword?_eq_none {keyword : String} {source : Text}
    (h : ∀ condition, ¬ Heads keyword source condition) :
    afterKeyword? keyword source.trim = none := by
  apply Option.eq_none_iff_forall_ne_some.mpr
  intro condition hcondition
  exact h condition (heads_of_afterKeyword? hcondition)

theorem afterKeyword?_of_head {keyword : String} {k c : Char} {kw t : Text}
    (hk : keyword.toList = k :: kw) (hne : k ≠ c) : afterKeyword? keyword (c :: t) = none := by
  unfold afterKeyword?
  rw [hk, Text.cut?, if_neg hne]

section Forms

variable (evaluate : Evaluation) {source condition : Text} (vars : List Text) (env : Env)
  (prior : Outcome)

theorem scope_of_if (h : Heads "if" source condition) :
    scope evaluate source vars env prior = conditional evaluate condition false env := by
  have hif := h.afterKeyword?
  obtain ⟨c, rest, hsource, -⟩ := h
  have helse : afterKeyword? "else if" source.trim = none := by
    rw [hsource]
    exact afterKeyword?_of_head (k := 'e') rfl (by decide)
  unfold scope
  dsimp only
  rw [if_neg (by rw [hsource]; simp), helse, hif]

theorem scope_of_unless (h : Heads "unless" source condition) :
    scope evaluate source vars env prior = conditional evaluate condition true env := by
  have hunless := h.afterKeyword?
  obtain ⟨c, rest, hsource, -⟩ := h
  have helse : afterKeyword? "else if" source.trim = none := by
    rw [hsource]
    exact afterKeyword?_of_head (k := 'e') rfl (by decide)
  have hif : afterKeyword? "if" source.trim = none := by
    rw [hsource]
    exact afterKeyword?_of_head (k := 'i') rfl (by decide)
  unfold scope
  dsimp only
  rw [if_neg (by rw [hsource]; simp), helse, hif, hunless]

theorem scope_of_first {negate : Bool}
    (h : Heads (if negate then "unless" else "if") source condition) :
    scope evaluate source vars env prior = conditional evaluate condition negate env := by
  cases negate with
  | false => exact scope_of_if evaluate vars env prior h
  | true => exact scope_of_unless evaluate vars env prior h

theorem scope_of_else_if (h : Heads "else if" source condition) :
    scope evaluate source vars env prior =
      following prior (conditional evaluate condition false env) := by
  have helse := h.afterKeyword?
  obtain ⟨c, rest, hsource, -⟩ := h
  unfold scope
  dsimp only
  rw [if_neg (by rw [hsource]; simp), helse]

theorem scope_of_else (h : source.trim = "else".toList) :
    scope evaluate source vars env prior = following prior (.once env) := by
  unfold scope
  exact if_pos h

end Forms

end ControlBlock

open ControlBlock

/-! ## Blocks one after the other -/

/-- A control block with its body, which changes a state and may fail. -/
structure Block (σ : Type) where
  source : Text
  vars : List Text
  body : Env → σ → σ × Option Failure

variable {σ : Type}

/-- Runs blocks one after the other, each with the outcome of the one before it, up to the first
failure. -/
def runBlocks (e : Evaluator) (env : Env) :
    (prior : Outcome) → List (Block σ) → σ → σ × Outcome × Option Failure
  | prior, [], s => (s, prior, none)
  | prior, b :: bs, s =>
    match (e.scope b.source b.vars env prior).exec b.body s with
    | (s, outcome, some failure) => (s, outcome, some failure)
    | (s, outcome, none) => runBlocks e env outcome bs s

section Step

variable {e : Evaluator} {env : Env} {prior outcome : Outcome} {b : Block σ} {s s' : σ}

/-- A block that fails is the last one. -/
theorem runBlocks_of_failure {failure : Failure} (bs : List (Block σ))
    (h : (e.scope b.source b.vars env prior).exec b.body s = (s', outcome, some failure)) :
    runBlocks e env prior (b :: bs) s = (s', outcome, some failure) := by
  rw [runBlocks, h]

/-- After a block that does not fail come the others. -/
theorem runBlocks_of_ok (bs : List (Block σ))
    (h : (e.scope b.source b.vars env prior).exec b.body s = (s', outcome, none)) :
    runBlocks e env prior (b :: bs) s = runBlocks e env outcome bs s' := by
  rw [runBlocks, h]

/-- A block whose body runs once gives the state and the failure of the body, if the others then do
nothing. -/
theorem runBlocks_of_once {bs : List (Block σ)}
    (hscope : e.scope b.source b.vars env prior = .once env)
    (hdone : ∀ s', runBlocks e env .entered bs s' = (s', .entered, none)) :
    runBlocks e env prior (b :: bs) s = ((b.body env s).1, .entered, (b.body env s).2) := by
  have hexec : (e.scope b.source b.vars env prior).exec b.body s =
      ((b.body env s).1, .entered, (b.body env s).2) := by
    rw [hscope]
    rfl
  cases hfailure : (b.body env s).2 with
  | none =>
    rw [hfailure] at hexec
    rw [runBlocks_of_ok bs hexec, hdone]
  | some failure =>
    rw [hfailure] at hexec
    exact runBlocks_of_failure bs hexec

end Step

/-! ## Decisions -/

/-- A condition, the truth value that does not select its body, and the body. -/
structure Test (σ : Type) where
  condition : Text
  negate : Bool
  body : Env → σ → σ × Option Failure

namespace Test

/-- The condition has a value that does not select the body. -/
def Rejects (evaluate : Evaluation) (env : Env) (t : Test σ) : Prop :=
  ∃ v, evaluate t.condition env = .ok v ∧ v.truthy = t.negate

/-- The condition has a value that selects the body. -/
def Selects (evaluate : Evaluation) (env : Env) (t : Test σ) : Prop :=
  ∃ v, evaluate t.condition env = .ok v ∧ v.truthy ≠ t.negate

variable {evaluate : Evaluation} {env : Env} {t : Test σ}

theorem Rejects.ne_error (h : t.Rejects evaluate env) (failure : Failure) :
    evaluate t.condition env ≠ .error failure := by
  obtain ⟨v, hv, -⟩ := h
  simp [hv]

theorem Selects.ne_error (h : t.Selects evaluate env) (failure : Failure) :
    evaluate t.condition env ≠ .error failure := by
  obtain ⟨v, hv, -⟩ := h
  simp [hv]

theorem Rejects.not_selects (h : t.Rejects evaluate env) : ¬ t.Selects evaluate env := by
  obtain ⟨v, hv, heq⟩ := h
  rintro ⟨u, hu, hne⟩
  rw [hv] at hu
  cases hu
  exact hne heq

end Test

/-- A body runs once, in the environment of its block: the state, the outcome and the failure. -/
def enterBody (body : Env → σ → σ × Option Failure) (env : Env) (s : σ) :
    σ × Outcome × Option Failure :=
  ((body env s).1, .entered, (body env s).2)

/-- How tests are decided, one after the other: which conditions are asked for, in order, and how it
ends. A condition that fails ends it with its failure and an unchanged state. The first condition
that selects its body has it run. If all of them reject, what remains is `otherwise`. -/
inductive Decides (evaluate : Evaluation) (env : Env) (s : σ)
    (otherwise : σ × Outcome × Option Failure) :
    List (Test σ) → (asked : List Text) → σ × Outcome × Option Failure → Prop
  | fails {t : Test σ} {ts : List (Test σ)} {failure : Failure}
    (h : evaluate t.condition env = .error failure) :
    Decides evaluate env s otherwise (t :: ts) [t.condition] (s, .none, some failure)
  | selects {t : Test σ} {ts : List (Test σ)} (h : t.Selects evaluate env) :
    Decides evaluate env s otherwise (t :: ts) [t.condition] (enterBody t.body env s)
  | rejects {t : Test σ} {ts : List (Test σ)} {asked : List Text}
    {ended : σ × Outcome × Option Failure} (h : t.Rejects evaluate env)
    (hrest : Decides evaluate env s otherwise ts asked ended) :
    Decides evaluate env s otherwise (t :: ts) (t.condition :: asked) ended
  | exhausted : Decides evaluate env s otherwise [] [] otherwise

/-- Two ways to evaluate give the same answers for the given expressions in an environment. -/
def Evaluation.AgreeOn (env : Env) (sources : List Text) (evaluate evaluate' : Evaluation) : Prop :=
  ∀ source ∈ sources, evaluate source env = evaluate' source env

namespace Decides

variable {evaluate evaluate' : Evaluation} {env : Env} {s : σ}
  {otherwise ended ended' : σ × Outcome × Option Failure} {t : Test σ} {ts : List (Test σ)}
  {asked asked' : List Text}

/-- A decision rests on the conditions that it asks for. -/
theorem congr (h : Decides evaluate env s otherwise ts asked ended)
    (hagree : Evaluation.AgreeOn env asked evaluate evaluate') :
    Decides evaluate' env s otherwise ts asked ended := by
  induction h with
  | @fails t ts failure h =>
    apply fails
    rw [← hagree _ (List.mem_singleton_self _)]
    exact h
  | @selects t ts h =>
    obtain ⟨v, hv, hselects⟩ := h
    rw [hagree _ (List.mem_singleton_self _)] at hv
    exact selects ⟨v, hv, hselects⟩
  | @rejects t ts asked ended h _ ih =>
    obtain ⟨v, hv, hrejects⟩ := h
    obtain ⟨hfirst, hothers⟩ := List.forall_mem_cons.1 hagree
    rw [hfirst] at hv
    exact rejects ⟨v, hv, hrejects⟩ (ih hothers)
  | exhausted => exact exhausted

/-- Tests are decided in one way only. -/
theorem unique (h : Decides evaluate env s otherwise ts asked ended)
    (h' : Decides evaluate env s otherwise ts asked' ended') : ended = ended' := by
  induction h generalizing asked' with
  | fails hfails =>
    cases h' with
    | fails hfails' =>
      rw [hfails] at hfails'
      cases hfails'
      rfl
    | selects hselects => exact absurd hfails (hselects.ne_error _)
    | rejects hrejects => exact absurd hfails (hrejects.ne_error _)
  | selects hselects =>
    cases h' with
    | fails hfails => exact absurd hfails (hselects.ne_error _)
    | selects => rfl
    | rejects hrejects => exact absurd hselects hrejects.not_selects
  | rejects hrejects _ ih =>
    cases h' with
    | fails hfails => exact absurd hfails (hrejects.ne_error _)
    | selects hselects => exact absurd hselects hrejects.not_selects
    | rejects _ hrest => exact ih hrest
  | exhausted =>
    cases h'
    rfl

/-- A block with the condition of a test decides by it: if the test rejects, the blocks after it
decide, and if it selects, they must do nothing any more. -/
theorem of_conditional {prior : Outcome} {b : Block σ} {bs : List (Block σ)}
    (hbody : b.body = t.body)
    (hscope : scope evaluate b.source b.vars env prior =
      conditional evaluate t.condition t.negate env)
    (hrest : ∃ asked, Decides evaluate env s otherwise ts asked
      (runBlocks (.ofEvaluation evaluate) env .skipped bs s))
    (hdone : ∀ s', runBlocks (.ofEvaluation evaluate) env .entered bs s' = (s', .entered, none)) :
    ∃ asked, Decides evaluate env s otherwise (t :: ts) asked
      (runBlocks (.ofEvaluation evaluate) env prior (b :: bs) s) := by
  have hscope : (Evaluator.ofEvaluation evaluate).scope b.source b.vars env prior =
      conditional evaluate t.condition t.negate env := hscope
  unfold conditional at hscope
  cases hvalue : evaluate t.condition env with
  | error failure =>
    rw [hvalue] at hscope
    rw [runBlocks_of_failure bs (by rw [hscope]; rfl)]
    exact ⟨_, fails hvalue⟩
  | ok v =>
    rw [hvalue] at hscope
    dsimp only at hscope
    by_cases hv : v.truthy = t.negate
    · rw [if_pos (by simpa using hv)] at hscope
      rw [runBlocks_of_ok bs (by rw [hscope]; rfl)]
      obtain ⟨asked, hdecides⟩ := hrest
      exact ⟨_, rejects ⟨v, hvalue, hv⟩ hdecides⟩
    · rw [if_neg (by simpa using hv)] at hscope
      rw [runBlocks_of_once hscope hdone, hbody]
      exact ⟨_, selects ⟨v, hvalue, hv⟩⟩

end Decides

/-! ## Chains -/

/-- A block with a condition behind the keyword. -/
structure Branch (σ : Type) (keyword : String) where
  block : Block σ
  condition : Text
  heads : Heads keyword block.source condition

/-- An `if` or `unless`, blocks with `else if`, and perhaps an `else`. -/
structure Chain (σ : Type) where
  /-- Whether the first block is an `unless`. -/
  negate : Bool
  first : Branch σ (if negate then "unless" else "if")
  others : List (Branch σ "else if")
  last : Option { b : Block σ // b.source.trim = "else".toList }

namespace Chain

/-- The blocks of a chain. -/
def blocks (c : Chain σ) : List (Block σ) :=
  c.first.block :: (c.others.map (·.block) ++ c.last.toList.map (·.1))

/-- The tests of a chain. -/
def tests (c : Chain σ) : List (Test σ) :=
  ⟨c.first.condition, c.negate, c.first.block.body⟩ ::
    c.others.map fun b => ⟨b.condition, false, b.block.body⟩

/-- What a chain does if no condition selects: the body of its `else` runs, if it has one. -/
def otherwise (c : Chain σ) (env : Env) (s : σ) : σ × Outcome × Option Failure :=
  c.last.elim (s, .skipped, none) fun b => enterBody b.1.body env s

variable {evaluate : Evaluation} {env : Env}

/-- Nothing runs behind a block that was entered. -/
theorem runBlocks_entered (others : List (Branch σ "else if"))
    (last : Option { b : Block σ // b.source.trim = "else".toList }) (s : σ) :
    runBlocks (.ofEvaluation evaluate) env .entered
      (others.map (·.block) ++ last.toList.map (·.1)) s = (s, .entered, none) := by
  have hskip : ∀ (b : Block σ) (bs : List (Block σ)) (run : Schedule),
      scope evaluate b.source b.vars env .entered = following .entered run →
      runBlocks (.ofEvaluation evaluate) env .entered bs s = (s, .entered, none) →
      runBlocks (.ofEvaluation evaluate) env .entered (b :: bs) s = (s, .entered, none) := by
    intro b bs run hscope hbs
    have hexec : ((Evaluator.ofEvaluation evaluate).scope b.source b.vars env .entered).exec
        b.body s = (s, .entered, none) := by
      show (scope evaluate b.source b.vars env .entered).exec b.body s = _
      rw [hscope]
      rfl
    rw [runBlocks_of_ok bs hexec, hbs]
  induction others with
  | nil =>
    cases last with
    | none => rfl
    | some b => exact hskip b.1 [] _ (scope_of_else _ _ _ _ b.2) rfl
  | cons b others ih => exact hskip b.block _ _ (scope_of_else_if _ _ _ _ b.heads) ih

/-- Behind a block that was skipped, the others decide. -/
theorem runBlocks_skipped (others : List (Branch σ "else if"))
    (last : Option { b : Block σ // b.source.trim = "else".toList }) (s : σ) :
    ∃ asked, Decides evaluate env s
      (last.elim (s, .skipped, none) fun b => enterBody b.1.body env s)
      (others.map fun b => ⟨b.condition, false, b.block.body⟩) asked
      (runBlocks (.ofEvaluation evaluate) env .skipped
        (others.map (·.block) ++ last.toList.map (·.1)) s) := by
  induction others with
  | nil =>
    refine ⟨[], ?_⟩
    cases last with
    | none => exact .exhausted
    | some b =>
      have hscope : (Evaluator.ofEvaluation evaluate).scope b.1.source b.1.vars env .skipped =
          .once env := scope_of_else evaluate b.1.vars env .skipped b.2
      show Decides _ _ _ _ [] [] (runBlocks _ env .skipped [b.1] s)
      rw [runBlocks_of_once hscope fun _ => rfl]
      exact .exhausted
  | cons b others ih =>
    refine Decides.of_conditional rfl ?_ ih (runBlocks_entered others last)
    exact scope_of_else_if evaluate _ env .skipped b.heads

/-- A chain decides, whatever happened before it. -/
theorem exists_decides (c : Chain σ) (evaluate : Evaluation) (env : Env) (prior : Outcome)
    (s : σ) :
    ∃ asked, Decides evaluate env s (c.otherwise env s) c.tests asked
      (runBlocks (.ofEvaluation evaluate) env prior c.blocks s) := by
  refine Decides.of_conditional rfl ?_ (runBlocks_skipped c.others c.last s)
    (runBlocks_entered c.others c.last)
  exact scope_of_first evaluate _ env prior c.first.heads

/-- The conditions of a chain are evaluated in order, up to and with the first one that selects its
body or fails. The body that is selected runs once, and nothing else of the chain does; if no
condition selects, the body of the `else` runs. The chain fails with the condition or the body that
fails, and only so. This does not depend on what happened before the chain, nor on the value of any
expression but the conditions that were asked for: another way to evaluate that agrees on them gives
the same run. -/
theorem run_decides (c : Chain σ) (evaluate : Evaluation) (env : Env) (prior : Outcome) (s : σ) :
    ∃ asked, Decides evaluate env s (c.otherwise env s) c.tests asked
        (runBlocks (.ofEvaluation evaluate) env prior c.blocks s) ∧
      ∀ evaluate', Evaluation.AgreeOn env asked evaluate evaluate' →
        runBlocks (.ofEvaluation evaluate') env prior c.blocks s =
          runBlocks (.ofEvaluation evaluate) env prior c.blocks s := by
  obtain ⟨asked, hdecides⟩ := c.exists_decides evaluate env prior s
  refine ⟨asked, hdecides, ?_⟩
  intro evaluate' hagree
  obtain ⟨asked', hdecides'⟩ := c.exists_decides evaluate' env prior s
  exact hdecides'.unique (hdecides.congr hagree)

/-- Where an `unless` and an `else if` are both not selected, the `else` runs. -/
theorem run_decides_of_else :
    let say : String → Env → List String → List String × Option Failure :=
      fun word _ said => (said ++ [word], none)
    let c : Chain (List String) := {
      negate := true
      first := ⟨⟨" unless a".toList, [], say "unless"⟩, ['a'], ' ', ['a'], by decide +kernel⟩
      others := [⟨⟨"else if(b)".toList, [], say "else if"⟩, "(b)".toList, '(', "b)".toList,
        by decide +kernel⟩]
      last := some ⟨⟨"else ".toList, [], say "else"⟩, by decide +kernel⟩ }
    let env : Env := [(['a'], .bool true), (['b'], .bool false)]
    let ran := runBlocks (.ofEvaluation Expr.evaluate) env .entered c.blocks []
    ran = (["else"], .entered, none) ∧
      ∃ asked, Decides Expr.evaluate env [] (c.otherwise env []) c.tests asked ran ∧
        ∀ evaluate', Evaluation.AgreeOn env asked Expr.evaluate evaluate' →
          runBlocks (.ofEvaluation evaluate') env .entered c.blocks [] = ran := by
  intro say c env ran
  exact ⟨by decide +kernel, c.run_decides Expr.evaluate env .entered []⟩

end Chain

/-! ## Rendering a chain -/

/-- The schedule runs the body once, in the environment that it was made for, or not at all. -/
def Schedule.AtMostOnce (env : Env) (s : Schedule) : Prop :=
  s = .once env ∨ ∃ outcome failure, s = .stop outcome failure

theorem ControlBlock.atMostOnce_conditional (evaluate : Evaluation) (condition : Text)
    (negate : Bool) (env : Env) : (conditional evaluate condition negate env).AtMostOnce env := by
  unfold conditional
  split
  · exact .inr ⟨_, _, rfl⟩
  · split
    · exact .inr ⟨_, _, rfl⟩
    · exact .inl rfl

theorem ControlBlock.atMostOnce_following {env : Env} {run : Schedule} (h : run.AtMostOnce env)
    (prior : Outcome) : (following prior run).AtMostOnce env := by
  cases prior with
  | none | entered => exact .inr ⟨_, _, rfl⟩
  | skipped => exact h

/-- No block of a chain is a loop. -/
theorem Chain.atMostOnce {c : Chain σ} {b : Block σ} (hb : b ∈ c.blocks) (evaluate : Evaluation)
    (env : Env) (prior : Outcome) :
    (scope evaluate b.source b.vars env prior).AtMostOnce env := by
  rcases List.mem_cons.1 hb with rfl | hb
  · rw [scope_of_first _ _ _ _ c.first.heads]
    exact atMostOnce_conditional ..
  · rcases List.mem_append.1 hb with hb | hb
    · obtain ⟨branch, -, rfl⟩ := List.mem_map.1 hb
      rw [scope_of_else_if _ _ _ _ branch.heads]
      exact atMostOnce_following (atMostOnce_conditional ..) prior
    · obtain ⟨last, -, rfl⟩ := List.mem_map.1 hb
      rw [scope_of_else _ _ _ _ last.2]
      exact atMostOnce_following (.inl rfl) prior

namespace Node

/-- A control node as a block. Its body is evaluated into the output; what is captured is put out as
one entry, if there is anything. -/
def blockOf (r : Renderer) (head : Control) (body : List Node) : Block Output where
  source := head.source
  vars := head.vars
  body env w :=
    if head.capture then
      let ran := runAll r env .none body { indent := w.indent }
      (if ran.2.isSome || ran.1.entries.isEmpty then w else w.line 0 ran.1.text, ran.2)
    else runAll r env .none body w

variable {r : Renderer} {e : Evaluator} {env : Env} {prior : Outcome}

/-- A control node is run as its block is, if its body runs once at most. -/
theorem run_control (hr : r.evaluator = some e) {pos : Location} {head : Control} {depth : Nat}
    {body : List Node} {w w' : Output} {outcome : Outcome} {failure : Option Failure}
    (h : (e.scope head.source head.vars env prior).AtMostOnce env)
    (hexec : (e.scope head.source head.vars env prior).exec (blockOf r head body).body w =
      (w', outcome, failure)) :
    (control pos head depth body).run r env prior w = (w', failure.elim (.ok outcome) .error) := by
  rw [Node.run, hr]
  dsimp only
  generalize e.scope head.source head.vars env prior = schedule at h hexec ⊢
  cases hc : head.capture with
  | false =>
    have hbody : (blockOf r head body).body = fun env w => runAll r env .none body w := by
      simp [blockOf, hc]
    rw [hbody] at hexec
    rw [if_neg Bool.false_ne_true, hexec]
    cases failure <;> rfl
  | true =>
    rcases h with rfl | ⟨o, f, rfl⟩
    · -- what was captured is put out, unless the body failed or put out nothing
      have hbody : (blockOf r head body).body env w =
          (if (runAll r env .none body { indent := w.indent }).2.isSome ||
              (runAll r env .none body { indent := w.indent }).1.entries.isEmpty then w
            else w.line 0 (runAll r env .none body { indent := w.indent }).1.text,
            (runAll r env .none body { indent := w.indent }).2) := if_pos hc
      rw [Schedule.once, Schedule.exec_enter, hbody] at hexec
      rw [if_pos rfl, Schedule.once, Schedule.exec_enter]
      generalize runAll r env .none body { indent := w.indent } = ran at hexec ⊢
      obtain ⟨out, _ | failure⟩ := ran
      · cases hexec
        rfl
      · cases hexec
        rfl
    · cases hexec
      cases failure with
      | none => rfl
      | some failure => rfl

/-- The node is a control node with the given block. -/
def HasBlock (r : Renderer) (n : Node) (b : Block Output) : Prop :=
  ∃ pos head depth body, n = .control pos head depth body ∧ b = blockOf r head body

/-- Control nodes are evaluated as their blocks are run, and what follows them goes on from
there. -/
theorem runAll_of_blocks (hr : r.evaluator = some e) {nodes : List Node} {bs : List (Block Output)}
    (hnodes : List.Forall₂ (HasBlock r) nodes bs)
    (hbs : ∀ b ∈ bs, ∀ prior, (e.scope b.source b.vars env prior).AtMostOnce env)
    (rest : List Node) (prior : Outcome) (w : Output) :
    runAll r env prior (nodes ++ rest) w =
      (runBlocks e env prior bs w).2.2.elim
        (runAll r env (runBlocks e env prior bs w).2.1 rest (runBlocks e env prior bs w).1)
        fun failure => ((runBlocks e env prior bs w).1, some failure) := by
  induction hnodes generalizing prior w with
  | nil => rfl
  | @cons n b nodes bs hn hnodes ih =>
    obtain ⟨pos, head, depth, body, rfl, rfl⟩ := hn
    rw [List.forall_mem_cons] at hbs
    rw [List.cons_append, runAll]
    cases hexec : (e.scope head.source head.vars env prior).exec (blockOf r head body).body w with
    | mk w' ended =>
      obtain ⟨outcome, _ | failure⟩ := ended
      · rw [run_control hr (hbs.1 prior) hexec, runBlocks_of_ok bs hexec]
        exact ih hbs.2 outcome w'
      · rw [run_control hr (hbs.1 prior) hexec, runBlocks_of_failure bs hexec]
        rfl

/-- A chain among the nodes of a program is run as the chain that it is, and what follows it goes on
from there. -/
theorem runAll_of_chain {evaluate : Evaluation} (hr : r.evaluator = some (.ofEvaluation evaluate))
    (c : Chain Output) {nodes : List Node} (hnodes : List.Forall₂ (HasBlock r) nodes c.blocks)
    (rest : List Node) (w : Output) :
    let ran := runBlocks (.ofEvaluation evaluate) env prior c.blocks w
    runAll r env prior (nodes ++ rest) w =
      ran.2.2.elim (runAll r env ran.2.1 rest ran.1) fun failure => (ran.1, some failure) :=
  runAll_of_blocks hr hnodes (fun _ hb prior => Chain.atMostOnce hb evaluate env prior) rest prior w

end Node

end Offside
