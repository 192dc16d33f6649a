import Offside.Proofs.Checking
import Offside.Proofs.PrettyOutput

/-!
# Capturing does not show

The output of a captured block is collected apart and then put out as one entry. In the joined text
that makes no difference: the entries of the block are joined by the same line breaks, and without
entries there is no entry either. Two programs that differ only in what they capture therefore put
out the same text.

A part of a run adds entries to an output, and what it adds depends on nothing that is there already
(`Adds`). Two parts match if they fail alike and add rows of entries that read the same (`Matches`);
a captured block matches the same block without capture, and so does everything that runs are put
together from.

There is one condition. What a captured block had put out before it failed is dropped, and without
capture it is not. An evaluator has to let the failure of a body be a failure of its block
(`Evaluator.FailsWithBody`); then nothing that was put out before is seen again. The one that runs
control blocks here does, however it evaluates expressions
(`Evaluator.failsWithBody_ofEvaluation`). One that goes on after a failure can tell the two apart
(`Program.capture_shows_if_failures_are_forgiven`), though only by its output: the failures of the
two programs are the same with every evaluator.
-/

namespace Offside

/-! ## Programs without capture -/

/-- The instruction, but its block is not captured. -/
def Instruction.uncaptured : Instruction → Instruction
  | openControl pos head depth stop => openControl pos { head with capture := false } depth stop
  | i => i

/-- The program, but none of its blocks is captured. -/
def Program.uncaptured (p : Program) : Program :=
  { p with code := p.code.map Instruction.uncaptured }

/-! ## Evaluators that let a failure be one -/

namespace Schedule

/-- Ends with a failure, whatever the runs of the body come to. -/
def Fails : Schedule → Prop
  | stop _ failure => failure ≠ none
  | enter _ next => ∀ failure, (next failure).Fails

/-- Ends with a failure once a run of the body has failed. -/
def FailsWithBody : Schedule → Prop
  | stop _ _ => True
  | enter _ next => (next none).FailsWithBody ∧ ∀ failure, (next (some failure)).Fails

theorem Fails.exec {σ : Type} {s : Schedule} (h : s.Fails)
    (body : Env → σ → σ × Option Failure) (x : σ) : (s.exec body x).2.2 ≠ none := by
  induction s generalizing x with
  | stop outcome failure => exact h
  | enter env next ih =>
    rw [exec_enter]
    exact ih _ (h _) _

theorem Faithful.failsWithBody {s : Schedule} (h : s.Faithful) : s.FailsWithBody := by
  induction h with
  | stop outcome => trivial
  | enter env outcome hfail _ ih =>
    refine ⟨ih, fun failure => ?_⟩
    rw [hfail]
    exact Option.some_ne_none failure

end Schedule

/-- If a run of the body of a block fails, so does the block. -/
def Evaluator.FailsWithBody (e : Evaluator) : Prop :=
  ∀ source vars env prior, (e.scope source vars env prior).FailsWithBody

theorem Evaluator.failsWithBody_ofEvaluation (evaluate : Evaluation) :
    (Evaluator.ofEvaluation evaluate).FailsWithBody := by
  intro source vars env prior
  rcases ControlBlock.settled_scope evaluate source vars env prior with ⟨failure, hfail⟩ | hfaithful
  · show (ControlBlock.scope evaluate source vars env prior).FailsWithBody
    rw [hfail]
    trivial
  · exact hfaithful.failsWithBody

/-! ## Rows of entries -/

/-- Rows of entries, the newest first, that are joined to the same text. That only one of them is
empty is ruled out, since an entry without text makes a line. -/
structure ReadAlike (es fs : List Text) : Prop where
  empty_iff : es = [] ↔ fs = []
  text : Text.join ['\n'] es.reverse = Text.join ['\n'] fs.reverse

namespace ReadAlike

theorem refl (es : List Text) : ReadAlike es es := ⟨Iff.rfl, rfl⟩

theorem append {es fs es' fs' : List Text} (h : ReadAlike es fs) (h' : ReadAlike es' fs') :
    ReadAlike (es ++ es') (fs ++ fs') := by
  by_cases he : es = []
  · rw [he, h.empty_iff.1 he]
    exact h'
  by_cases he' : es' = []
  · rw [he', h'.empty_iff.1 he', List.append_nil, List.append_nil]
    exact h
  have hf : fs ≠ [] := mt h.empty_iff.2 he
  have hf' : fs' ≠ [] := mt h'.empty_iff.2 he'
  refine ⟨by simp [he, hf], ?_⟩
  -- the older entries come first in the text
  calc Text.join ['\n'] (es ++ es').reverse
      = Text.join ['\n'] es'.reverse ++ ['\n'] ++ Text.join ['\n'] es.reverse := by
        rw [List.reverse_append, Text.join_append (by simpa using he') (by simpa using he)]
    _ = Text.join ['\n'] fs'.reverse ++ ['\n'] ++ Text.join ['\n'] fs.reverse := by
        rw [h.text, h'.text]
    _ = Text.join ['\n'] (fs ++ fs').reverse := by
        rw [List.reverse_append, Text.join_append (by simpa using hf') (by simpa using hf)]

/-- Entries that are put out again as one. -/
theorem joined {es fs : List Text} (h : ReadAlike es fs) :
    ReadAlike (if es.isEmpty then [] else [Text.join ['\n'] es.reverse]) fs := by
  cases es with
  | nil =>
    rw [h.empty_iff.1 rfl]
    exact refl []
  | cons e es => exact ⟨by simp [← h.empty_iff], h.text⟩

end ReadAlike

/-! ## What the parts of a run add -/

namespace Sink

/-- The part adds the entries to any output of the indentation, and ends with the failure. -/
def Adds (part : Output → Output × Option Failure) (indent : Bool) (added : List Text)
    (failure : Option Failure) : Prop :=
  ∀ before, part ⟨indent, before⟩ = (⟨indent, added ++ before⟩, failure)

/-- The parts fail alike and, without a failure, add entries that read the same. The latter is
promised only if `strict` holds. -/
structure Matches (strict : Prop) (f g : Output → Output × Option Failure) : Prop where
  adds : ∀ indent, ∃ added added' failure,
    Adds f indent added failure ∧ Adds g indent added' failure ∧
      (strict → failure = none → ReadAlike added added')

variable {strict : Prop} {f g h k : Output → Output × Option Failure}

theorem matches_self (hf : ∀ indent, ∃ added failure, Adds f indent added failure) :
    Matches strict f f := by
  refine ⟨fun indent => ?_⟩
  obtain ⟨added, failure, hadds⟩ := hf indent
  exact ⟨added, added, failure, hadds, hadds, fun _ _ => .refl added⟩

theorem matches_done : Matches strict (always id) (always id) :=
  matches_self fun _ => ⟨[], none, fun _ => rfl⟩

theorem matches_fail (e : Failure) :
    Matches strict (fun w => (w, some e)) (fun w => (w, some e)) :=
  matches_self fun _ => ⟨[], some e, fun _ => rfl⟩

theorem matches_literal (r : Renderer) (depth : Nat) (text : Text) :
    Matches strict (always (r.sink.literal depth text)) (always (r.sink.literal depth text)) :=
  matches_self fun indent => ⟨[Output.margin ⟨indent, []⟩ depth ++ text], none, fun _ => rfl⟩

theorem matches_filtered (r : Renderer) (depth : Nat) (filter text : Text) :
    Matches strict (always (r.sink.filtered depth filter text))
      (always (r.sink.filtered depth filter text)) :=
  matches_self fun indent => ⟨[Output.margin ⟨indent, []⟩ depth ++ Text.replace ['\n']
    ('\n' :: Output.margin ⟨indent, []⟩ depth) (r.filters.apply filter text)], none, fun _ => rfl⟩

theorem matches_line (r : Renderer) (env : Env) (depth : Nat) (value : Fragments) :
    Matches strict (r.sink.line env depth value) (r.sink.line env depth value) := by
  refine matches_self fun indent => ?_
  cases hline : r.line env value with
  | error e => exact ⟨[], some e, fun _ => Renderer.sink_line_of_error hline depth _⟩
  | ok t =>
    exact ⟨[Output.margin ⟨indent, []⟩ depth ++ t], none,
      fun before => Renderer.sink_line_of_ok hline depth ⟨indent, before⟩⟩

section AndThen

variable {indent : Bool} {added more : List Text} {failure : Option Failure}

theorem Adds.andThen (hf : Adds f indent added none) (hh : Adds h indent more failure) :
    Adds (fun w => Sink.andThen (f w) h) indent (more ++ added) failure := by
  intro before
  dsimp only
  rw [hf before, Sink.andThen, hh, List.append_assoc]

theorem Adds.andThen_of_failure {e : Failure} (hf : Adds f indent added (some e)) :
    Adds (fun w => Sink.andThen (f w) h) indent added (some e) := by
  intro before
  dsimp only
  rw [hf before, Sink.andThen]

end AndThen

theorem Matches.andThen (hfg : Matches strict f g) (hhk : Matches strict h k) :
    Matches strict (fun w => Sink.andThen (f w) h) (fun w => Sink.andThen (g w) k) := by
  refine ⟨fun indent => ?_⟩
  obtain ⟨added, added', failure, hf, hg, halike⟩ := hfg.adds indent
  cases failure with
  | some e =>
    exact ⟨added, added', some e, hf.andThen_of_failure, hg.andThen_of_failure,
      fun _ hnone => by cases hnone⟩
  | none =>
    obtain ⟨more, more', failure, hh, hk, halike'⟩ := hhk.adds indent
    refine ⟨more ++ added, more' ++ added', failure, hf.andThen hh, hg.andThen hk, ?_⟩
    intro hstrict hnone
    exact (halike' hstrict hnone).append (halike hstrict rfl)

variable {body body' : Env → Output → Output × Option Failure}

/-- A schedule that runs matching bodies: the runs fail alike, so that it goes on in the same way
with both. -/
theorem Matches.exec (hbody : ∀ env, Matches strict (body env) (body' env)) (schedule : Schedule)
    (indent : Bool) :
    ∃ added added' outcome failure,
      (∀ before, schedule.exec body ⟨indent, before⟩ =
        (⟨indent, added ++ before⟩, outcome, failure)) ∧
      (∀ before, schedule.exec body' ⟨indent, before⟩ =
        (⟨indent, added' ++ before⟩, outcome, failure)) ∧
      (strict → schedule.FailsWithBody → failure = none → ReadAlike added added') := by
  induction schedule with
  | stop outcome failure =>
    exact ⟨[], [], outcome, failure, fun _ => rfl, fun _ => rfl, fun _ _ _ => .refl []⟩
  | enter env next ih =>
    obtain ⟨added, added', failure, hf, hg, halike⟩ := (hbody env).adds indent
    obtain ⟨more, more', outcome, failure', hf', hg', halike'⟩ := ih failure
    refine ⟨more ++ added, more' ++ added', outcome, failure', ?_, ?_, ?_⟩
    · intro before
      rw [Schedule.exec_enter, hf before, hf', List.append_assoc]
    · intro before
      rw [Schedule.exec_enter, hg before, hg', List.append_assoc]
    · rintro hstrict ⟨hnext, hfails⟩ hnone
      cases failure with
      | none => exact (halike' hstrict hnext hnone).append (halike hstrict rfl)
      | some e =>
        -- the failed run is not made good for
        have hend := (hfails e).exec body ⟨indent, []⟩
        rw [hf'] at hend
        exact absurd hnone hend

/-- A block, captured or not, matches the same block without capture. -/
theorem Matches.control (r : Renderer) (capture : Bool) {schedule : Schedule}
    (hschedule : strict → schedule.FailsWithBody)
    (hbody : ∀ env, Matches strict (body env) (body' env))
    {next next' : Outcome → Output → Output × Option Failure}
    (hnext : ∀ outcome, Matches strict (next outcome) (next' outcome)) :
    Matches strict (r.sink.control capture schedule body next)
      (r.sink.control false schedule body' next') := by
  refine ⟨fun indent => ?_⟩
  obtain ⟨added, added', outcome, failure, hf, hg, halike⟩ := Matches.exec hbody schedule indent
  have hleft : ∀ before, schedule.exec body (r.sink.enter capture ⟨indent, before⟩) =
      (⟨indent, added ++ if capture then [] else before⟩, outcome, failure) := by
    intro before
    cases capture with
    | true => exact hf []
    | false => exact hf before
  have hright : ∀ before, schedule.exec body' (r.sink.enter false ⟨indent, before⟩) =
      (⟨indent, added' ++ before⟩, outcome, failure) := hg
  cases failure with
  | some e =>
    refine ⟨if capture then [] else added, added', some e, ?_, ?_, fun _ hnone => by cases hnone⟩
    · intro before
      rw [Sink.control, hleft before]
      cases capture <;> rfl
    · intro before
      rw [Sink.control, hright before]
      rfl
  | none =>
    -- what the block leaves behind: its entries, or one entry with their text
    let left := if capture then if added.isEmpty then [] else [Text.join ['\n'] added.reverse]
      else added
    have hleave : ∀ before, r.sink.leave capture ⟨indent, before⟩
        ⟨indent, added ++ if capture then [] else before⟩ = ⟨indent, left ++ before⟩ := by
      intro before
      cases capture with
      | false => rfl
      | true =>
        show (if (added ++ []).isEmpty then (⟨indent, before⟩ : Output)
          else (⟨indent, before⟩ : Output).line 0 (Output.text ⟨indent, added ++ []⟩)) = _
        rw [List.append_nil]
        cases added with
        | nil => rfl
        | cons e es => cases indent <;> rfl
    obtain ⟨more, more', failure, hf', hg', halike'⟩ := (hnext outcome).adds indent
    refine ⟨more ++ left, more' ++ added', failure, ?_, ?_, ?_⟩
    · intro before
      rw [Sink.control, hleft before]
      dsimp only
      rw [hleave, hf', List.append_assoc]
    · intro before
      rw [Sink.control, hright before]
      dsimp only
      rw [show r.sink.leave false ⟨indent, before⟩ ⟨indent, added' ++ before⟩ =
        ⟨indent, added' ++ before⟩ from rfl, hg', List.append_assoc]
    · intro hstrict hnone
      have hblock : ReadAlike left added' := by
        have := halike hstrict (hschedule hstrict) rfl
        cases capture with
        | true => exact this.joined
        | false => exact this
      exact (halike' hstrict hnone).append hblock

end Sink

/-! ## Runs -/

/-- A run matches the run of the program without capture, strictly so if the evaluator lets the
failure of a body be one. -/
theorem Renderer.sink_run_uncaptured (r : Renderer) (evaluator : Option Evaluator)
    (code : Array Instruction) (i stop : Nat) (env : Env) (prior : Outcome) :
    Sink.Matches (∀ e, evaluator = some e → e.FailsWithBody)
      (r.sink.run evaluator code i stop env prior)
      (r.sink.run evaluator (code.map Instruction.uncaptured) i stop env prior) := by
  change Sink.Matches _ (fun w => r.sink.run evaluator code i stop env prior w)
    (fun w => r.sink.run evaluator (code.map Instruction.uncaptured) i stop env prior w)
  unfold Sink.run
  simp only [Array.size_map, Array.getElem?_map]
  by_cases hi : i < stop ∧ i < code.size
  · simp only [dif_pos hi]
    cases here : code[i]? with
    | none => exact Sink.matches_done
    | some instruction =>
      cases instruction with
      | literal pos text depth =>
        exact (Sink.matches_literal r depth text).andThen (r.sink_run_uncaptured evaluator ..)
      | output pos value depth =>
        exact (Sink.matches_line r env depth value).andThen (r.sink_run_uncaptured evaluator ..)
      | exec pos source =>
        dsimp only [Option.map_some, Instruction.uncaptured]
        cases Evaluator.evaluation evaluator source env with
        | error e => exact Sink.matches_fail e
        | ok v => exact r.sink_run_uncaptured evaluator ..
      | filtered pos filter text depth =>
        exact (Sink.matches_filtered r depth filter text).andThen
          (r.sink_run_uncaptured evaluator ..)
      | openTag pos opening closing depth last =>
        exact (Sink.matches_line r env depth opening).andThen <|
          (r.sink_run_uncaptured evaluator ..).andThen <|
          (Sink.matches_line r env depth closing).andThen (r.sink_run_uncaptured evaluator ..)
      | openControl pos head depth last =>
        cases evaluator with
        | none => exact Sink.matches_fail .noEvaluator
        | some e =>
          exact Sink.Matches.control r head.capture (fun he => he e rfl _ _ _ _)
            (fun env => r.sink_run_uncaptured (some e) ..)
            (fun outcome => r.sink_run_uncaptured (some e) ..)
      | close => exact r.sink_run_uncaptured evaluator ..
  · simp only [dif_neg hi]
    exact Sink.matches_done
termination_by code.size - i

namespace Program

theorem runIn_uncaptured (types : TypeRegistry) (evaluator : Option Evaluator) (r : Renderer)
    (p : Program) (context : Data) :
    Sink.Matches (∀ e, evaluator = some e → e.FailsWithBody)
      (p.runIn types evaluator r.sink context)
      (p.uncaptured.runIn types evaluator r.sink context) := by
  change Sink.Matches _ (fun w => p.runIn types evaluator r.sink context w)
    (fun w => p.uncaptured.runIn types evaluator r.sink context w)
  have hcontext : p.uncaptured.contextType = p.contextType := rfl
  have hsize : p.uncaptured.code.size = p.code.size := Array.size_map
  unfold runIn
  by_cases htype : (types.typeOf context).1 ≠ p.contextType
  · simp only [hcontext, if_pos htype]
    exact Sink.matches_fail _
  · simp only [hcontext, if_neg htype, hsize]
    exact r.sink_run_uncaptured evaluator ..

/-- Without capture a program fails with the same failure, and puts out the same text unless the
evaluator forgives failures. -/
theorem render_uncaptured (types : TypeRegistry) (r : Renderer) (indent : Bool) (p : Program)
    (context : Data) :
    (∀ failure, p.render types r indent context = .error failure ↔
        p.uncaptured.render types r indent context = .error failure) ∧
      ((∀ e, r.evaluator = some e → e.FailsWithBody) →
        p.render types r indent context = p.uncaptured.render types r indent context) := by
  obtain ⟨added, added', failure, hrun, hrun', halike⟩ :=
    (p.runIn_uncaptured types r.evaluator r context).adds indent
  rw [render_eq, render_eq, hrun [], hrun' []]
  cases failure with
  | some e => exact ⟨fun _ => Iff.rfl, fun _ => rfl⟩
  | none =>
    refine ⟨fun failure => by simp [answer], fun hstrict => ?_⟩
    have htext := (halike hstrict rfl).text
    rw [answer, answer, Output.text, Output.text, List.append_nil, List.append_nil, htext]

/-- Capturing does not show. Two programs that differ only in what their control blocks capture fail
with the same failure, whatever the filters, the evaluator and the context, or neither fails; and
they put out the same text if the evaluator lets the failure of a body be a failure of its block. -/
theorem render_eq_of_uncaptured_eq {p q : Program} (h : p.uncaptured = q.uncaptured)
    (types : TypeRegistry) (r : Renderer) (indent : Bool) (context : Data) :
    (∀ failure, p.render types r indent context = .error failure ↔
        q.render types r indent context = .error failure) ∧
      ((∀ e, r.evaluator = some e → e.FailsWithBody) →
        p.render types r indent context = q.render types r indent context) := by
  obtain ⟨hfail, hsame⟩ := p.render_uncaptured types r indent context
  obtain ⟨hfail', hsame'⟩ := q.render_uncaptured types r indent context
  rw [h] at hfail hsame
  refine ⟨fun failure => (hfail failure).trans (hfail' failure).symm, ?_⟩
  intro hstrict
  rw [hsame hstrict, hsame' hstrict]

/-- A loop whose body, another block, puts out nothing in the first round and two entries in the
second. -/
theorem render_eq_of_uncaptured_eq_of_loop :
    ∃ p q : Program,
      ofTokens "<nil>".toList 0
          (lex [] "= [1, 2] -> x\n  = if x == 2\n    %b= x\n    done".toList) = .ok p ∧
        ofTokens "<nil>".toList 0
          (lex [] "- [1, 2] -> x\n  - if x == 2\n    %b= x\n    done".toList) = .ok q ∧
        p ≠ q ∧ p.uncaptured = q.uncaptured ∧
        p.render {} ⟨.defaults, some .standard⟩ true .null =
          q.render {} ⟨.defaults, some .standard⟩ true .null ∧
        p.render {} ⟨.defaults, some .standard⟩ true .null =
          .ok "    <b>2</b>\n    done".toList := by
  let program (capture : Bool) : Program := ⟨"<nil>".toList, #[
    .openControl { column := 2, offset := 2 } ⟨"[1, 2]".toList, [['x']], capture⟩ 0 5,
    .openControl { line := 1, column := 4, offset := 18 } ⟨"if x == 2".toList, [], capture⟩ 2 4,
    .output { line := 2, column := 4, offset := 32 }
      [.literal "<b>".toList, .expression ['x'] true, .literal "</b>".toList] 4,
    .literal { line := 3, column := 4, offset := 42 } "done".toList 4, .close, .close]⟩
  have hp : ofTokens "<nil>".toList 0
      (lex [] "= [1, 2] -> x\n  = if x == 2\n    %b= x\n    done".toList) = .ok (program true) := by
    decide +kernel
  have hq : ofTokens "<nil>".toList 0
      (lex [] "- [1, 2] -> x\n  - if x == 2\n    %b= x\n    done".toList) =
        .ok (program false) := by
    decide +kernel
  have hsame : (program true).uncaptured = (program false).uncaptured := by decide +kernel
  refine ⟨program true, program false, hp, hq, by decide +kernel, hsame, ?_, by decide +kernel⟩
  refine (render_eq_of_uncaptured_eq hsame {} ⟨.defaults, some .standard⟩ true .null).2 ?_
  rintro e ⟨⟩
  exact Evaluator.failsWithBody_ofEvaluation _

/-- A block that goes on although its body, another block, has failed: what that one had put out is
there if it was not captured. -/
theorem capture_shows_if_failures_are_forgiven :
    ∃ (p q : Program) (e : Evaluator),
      ofTokens "<nil>".toList 0 (lex [] "- a\n  = b\n    x\n    - c".toList) = .ok p ∧
        ofTokens "<nil>".toList 0 (lex [] "- a\n  - b\n    x\n    - c".toList) = .ok q ∧
        p.uncaptured = q.uncaptured ∧ ¬ e.FailsWithBody ∧
        p.render {} ⟨{}, some e⟩ false .null = .ok [] ∧
        q.render {} ⟨{}, some e⟩ false .null = .ok ['x'] := by
  let program (capture : Bool) : Program := ⟨"<nil>".toList, #[
    .openControl { column := 2, offset := 2 } ⟨['a'], [], false⟩ 0 5,
    .openControl { line := 1, column := 4, offset := 8 } ⟨['b'], [], capture⟩ 2 4,
    .literal { line := 2, column := 4, offset := 14 } ['x'] 4,
    .exec { line := 3, column := 6, offset := 22 } ['c'], .close, .close]⟩
  let e : Evaluator :=
    { bind := fun _ => []
      evaluate := fun _ _ => .error .evaluation
      scope := fun source _ env _ =>
        .enter env fun failure => .stop .entered (if source = ['a'] then none else failure) }
  refine ⟨program true, program false, e, by decide +kernel, by decide +kernel, by decide +kernel,
    ?_, by decide +kernel, by decide +kernel⟩
  intro h
  exact (h ['a'] [] [] .none).2 .evaluation rfl

end Program
end Offside
