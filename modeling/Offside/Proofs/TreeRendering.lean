import Offside.Proofs.ScopeInvariant
import Offside.Render

/-!
# Rendering a program is evaluating its tree

`Node.run` evaluates a tree: a tag puts out its opening text, its body and its closing text, and a
control block gives its body to the evaluator, which runs it as often as it likes. What a control
block learns of the past is what the node directly before it did: a node that is no control block
did nothing (`Outcome.none`).

Running the flat list of instructions, with its jumps, comes to the same (`run_codeAll`), so
rendering a program that was laid out is evaluating the tree of its scopes.
-/

namespace Offside
namespace Node

mutual

/-- Evaluates a node. `prior` is the outcome of the node before it; the answer is the output with
the outcome of the node itself, or with a failure. -/
def run (r : Renderer) (env : Env) (prior : Outcome) :
    Node → Output → Output × Except Failure Outcome
  | literal _ text depth, w => (w.line depth text, .ok .none)
  | output _ value depth, w =>
    match r.line env value with
    | .error e => (w, .error e)
    | .ok t => (w.line depth t, .ok .none)
  | exec _ source, w =>
    match r.evaluate source env with
    | .error e => (w, .error e)
    | .ok _ => (w, .ok .none)
  | filtered _ filter text depth, w => (w.block depth (r.filters.apply filter text), .ok .none)
  | tag _ opening closing depth body, w =>
    match r.line env opening with
    | .error e => (w, .error e)
    | .ok t =>
      match runAll r env .none body (w.line depth t) with
      | (w, some e) => (w, .error e)
      | (w, none) =>
        match r.line env closing with
        | .error e => (w, .error e)
        | .ok t => (w.line depth t, .ok .none)
  | control _ head _ body, w =>
    match r.evaluator with
    | none => (w, .error .noEvaluator)
    | some evaluator =>
      let schedule := evaluator.scope head.source head.vars env prior
      let target := if head.capture then { indent := w.indent } else w
      match schedule.exec (fun env w => runAll r env .none body w) target with
      | (out, _, some e) => (if head.capture then w else out, .error e)
      | (out, outcome, none) =>
        (if !head.capture then out
          else if out.entries.isEmpty then w
          else w.line 0 out.text, .ok outcome)

/-- Evaluates nodes one after the other, each with the outcome of the one before it, up to the
first failure. -/
def runAll (r : Renderer) (env : Env) (prior : Outcome) :
    List Node → Output → Output × Option Failure
  | [], w => (w, none)
  | n :: ns, w =>
    match n.run r env prior w with
    | (w, .error e) => (w, some e)
    | (w, .ok outcome) => runAll r env outcome ns w

end

/-- The output of a tree for a context. -/
def render (r : Renderer) (indent : Bool) (nodes : List Node) (context : Data) :
    Except Failure Text :=
  let env := match r.evaluator with
    | some e => e.bind context
    | none => []
  match runAll r env .none nodes { indent } with
  | (_, some e) => .error e
  | (w, none) => .ok w.text

/-! ## Running instructions -/

/-- The instructions of `l` stand in the program from index `i` on. -/
def StandsAt (code : Array Instruction) (i : Nat) (l : List Instruction) : Prop :=
  l <+: code.toList.drop i

namespace StandsAt

variable {code : Array Instruction} {i : Nat} {x : Instruction} {l m : List Instruction}

theorem first (h : StandsAt code i (x :: l)) : code[i]? = some x := by
  obtain ⟨rest, hrest⟩ := h
  rw [← Array.getElem?_toList, ← Nat.add_zero i, ← List.getElem?_drop, ← hrest]
  rfl

theorem lt_size (h : StandsAt code i (x :: l)) : i < code.size := by
  obtain ⟨hi, -⟩ := Array.getElem?_eq_some_iff.1 h.first
  exact hi

theorem left (h : StandsAt code i (l ++ m)) : StandsAt code i l :=
  (List.prefix_append l m).trans h

theorem right (h : StandsAt code i (l ++ m)) : StandsAt code (i + l.length) m := by
  obtain ⟨rest, hrest⟩ := h
  refine ⟨rest, ?_⟩
  rw [← List.drop_drop, ← hrest, List.append_assoc, List.drop_left]

/-- The body of a scope stands after the instruction that opens it. -/
theorem body (h : StandsAt code i (x :: (l ++ [.close]))) : StandsAt code (i + 1) l := by
  have htail : StandsAt code i ([x] ++ (l ++ [.close])) := h
  exact htail.right.left

end StandsAt

section Running

variable {r : Renderer} {code : Array Instruction}

mutual

/-- Running the instructions of a node is evaluating it and going on after them. -/
theorem run_code (n : Node) {i stop : Nat} {env : Env} {prior : Outcome} {w : Output}
    (h : StandsAt code i (n.code i)) (hstop : i + n.size ≤ stop) :
    r.run code i stop env prior w =
      match n.run r env prior w with
      | (w, .error e) => (w, some e)
      | (w, .ok outcome) => r.run code (i + n.size) stop env outcome w := by
  cases n with
  | literal pos text depth =>
    have hi : i < stop := hstop
    rw [Renderer.run, dif_pos ⟨hi, h.lt_size⟩, h.first]
    rfl
  | output pos value depth =>
    have hi : i < stop := hstop
    rw [Renderer.run, dif_pos ⟨hi, h.lt_size⟩, h.first, Node.run]
    dsimp only
    cases r.line env value <;> rfl
  | exec pos source =>
    have hi : i < stop := hstop
    rw [Renderer.run, dif_pos ⟨hi, h.lt_size⟩, h.first, Node.run]
    dsimp only
    cases r.evaluate source env <;> rfl
  | filtered pos filter text depth =>
    have hi : i < stop := hstop
    rw [Renderer.run, dif_pos ⟨hi, h.lt_size⟩, h.first]
    rfl
  | tag pos opening closing depth body =>
    have hi : i < stop := by rw [size] at hstop; omega
    -- the jump after the scope leads just past the node
    have hjump : max i (i + 1 + sizeAll body) + 1 =
        i + (tag pos opening closing depth body).size := by
      rw [size]
      omega
    rw [Renderer.run, dif_pos ⟨hi, h.lt_size⟩, h.first, Node.run]
    dsimp only
    cases r.line env opening with
    | error e => rfl
    | ok t =>
      dsimp only
      rw [run_codeAll body h.body, hjump]
      rcases runAll r env .none body (w.line depth t) with ⟨w', _ | e⟩
      · dsimp only
        cases r.line env closing <;> rfl
      · rfl
  | control pos head depth body =>
    have hi : i < stop := by rw [size] at hstop; omega
    have hjump : max i (i + 1 + sizeAll body) + 1 = i + (control pos head depth body).size := by
      rw [size]
      omega
    -- the evaluator is given the same body, so it runs it in the same way
    have hbody : (fun env w => r.run code (i + 1) (i + 1 + sizeAll body) env .none w) =
        fun env w => runAll r env .none body w := by
      funext env w
      exact run_codeAll body h.body
    rw [Renderer.run, dif_pos ⟨hi, h.lt_size⟩, h.first, Node.run]
    dsimp only
    cases r.evaluator with
    | none => rfl
    | some evaluator =>
      dsimp only
      rw [hbody, hjump]
      rcases Schedule.exec _ _ _ with ⟨out, outcome, _ | e⟩ <;> rfl
termination_by sizeOf n

/-- Running the instructions of a row of nodes is evaluating them. -/
theorem run_codeAll (ns : List Node) {i : Nat} {env : Env} {prior : Outcome} {w : Output}
    (h : StandsAt code i (codeAll i ns)) :
    r.run code i (i + sizeAll ns) env prior w = runAll r env prior ns w := by
  cases ns with
  | nil =>
    rw [Renderer.run, dif_neg (by simp [sizeAll])]
    rfl
  | cons n ns =>
    have hrest := h.right
    rw [length_code] at hrest
    rw [run_code n h.left (by rw [sizeAll]; omega), runAll, sizeAll, ← Nat.add_assoc]
    rcases n.run r env prior w with ⟨w', e | outcome⟩
    · rfl
    · exact run_codeAll ns hrest
termination_by sizeOf ns

end

/-- Running a program that is a tree written out is evaluating the tree. -/
theorem run_toList {nodes : List Node} (h : codeAll 0 nodes = code.toList) (env : Env)
    (prior : Outcome) (w : Output) :
    r.run code 0 code.size env prior w = runAll r env prior nodes w := by
  have hsize : 0 + sizeAll nodes = code.size := by
    rw [Nat.zero_add, ← length_codeAll 0 nodes, h, Array.length_toList]
  have hstands : StandsAt code 0 (codeAll 0 nodes) := by
    rw [h]
    exact List.prefix_refl _
  rw [← hsize, run_codeAll nodes hstands]

end Running
end Node

namespace Program

/-- Rendering a program that was laid out is evaluating its tree: the scopes of the program, each
matched with its end, are the nodes of a tree that is the program again when it is written out, and
for every context of the right type the tree gives the same output or the same failure. -/
theorem render_eq_render_tree {contextType : Text} {maxDepth : Int} {tokens : List Token}
    {p : Program} (h : Program.ofTokens contextType maxDepth tokens = .ok p) :
    ∃ nodes, Node.ofCode? p.code.toList = some nodes ∧ Node.codeAll 0 nodes = p.code.toList ∧
      ∀ (types : TypeRegistry) (r : Renderer) (indent : Bool) (context : Data),
        (types.typeOf context).1 = p.contextType →
        p.render types r indent context = Node.render r indent nodes context := by
  obtain ⟨-, nodes, -, -, hnodes, hcode⟩ := ofTokens_ok h
  refine ⟨nodes, hnodes, hcode, ?_⟩
  intro types r indent context htype
  rw [render, Node.render, if_neg (not_not_intro htype)]
  dsimp only
  rewrite [Node.run_toList hcode]
  rfl

/-- A control block whose body the evaluator runs twice. -/
theorem render_eq_render_tree_of_loop :
    ∃ (p : Program) (nodes : List Node), Program.ofTokens "<nil>".toList 0
        [⟨.silentMark, {}, ['-']⟩, ⟨.code, {}, ['c']⟩, ⟨.indent, { line := 1 }, [' ']⟩,
          ⟨.text, { line := 1 }, ['x']⟩] = .ok p ∧
      Node.ofCode? p.code.toList = some nodes ∧
      ∀ r : Renderer, r.evaluator = some
          { bind := fun _ => [], evaluate := fun _ _ => .error .evaluation,
            scope := fun _ _ env _ => .each [env, env] } →
        Program.render {} r false p .null = Node.render r false nodes .null ∧
          Node.render r false nodes .null = .ok ['x', '\n', 'x'] := by
  have h : Program.ofTokens "<nil>".toList 0
      [⟨.silentMark, {}, ['-']⟩, ⟨.code, {}, ['c']⟩, ⟨.indent, { line := 1 }, [' ']⟩,
        ⟨.text, { line := 1 }, ['x']⟩] =
      .ok ⟨"<nil>".toList, #[.openControl {} ⟨['c'], [], false⟩ 0 2,
        .literal { line := 1 } ['x'] 1, .close]⟩ := by
    decide +kernel
  obtain ⟨nodes, hnodes, -, hrender⟩ := render_eq_render_tree h
  refine ⟨_, nodes, h, hnodes, ?_⟩
  intro r hr
  refine ⟨hrender {} r false .null rfl, ?_⟩
  cases hnodes
  simp only [Node.render, hr, Node.runAll, Node.run]
  rfl

end Program
end Offside
