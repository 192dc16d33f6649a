import Offside.Proofs.Escaping
import Offside.Proofs.TreeRendering

/-!
# Data cannot add markup

The characters `<`, `>`, `"` and `'` delimit tags and attribute values. In a template without
control blocks, all of whose expressions are escaped, they come from the template alone:
`Node.delimitersAll` reads them off its tree, with nothing but the filters at hand, and every run
that succeeds puts out exactly these, whatever the context and the evaluator are
(`Program.delimiters_render`). Two runs hence differ in no delimiter.
-/

namespace Offside

/-! ## Delimiters of text -/

namespace Text

/-- The markup delimiters of a text, in their order. -/
def delimiters (t : Text) : Text := t.filter isMarkupDelimiter

@[simp] theorem delimiters_append (s t : Text) :
    delimiters (s ++ t) = delimiters s ++ delimiters t :=
  List.filter_append ..

/-- Escaped text has no delimiters. -/
@[simp] theorem delimiters_escape (t : Text) : delimiters (escape t) = [] := by
  have hchar : ∀ c, delimiters (escapeChar c) = [] := by
    intro c
    unfold escapeChar
    split_ifs <;> first | rfl | simp_all [delimiters, isMarkupDelimiter]
  induction t with
  | nil => rfl
  | cons c t ih =>
    rw [escape, List.flatMap_cons, delimiters_append, hchar]
    exact ih

theorem delimiters_join_newline (ts : List Text) :
    delimiters (join ['\n'] ts) = ts.flatMap delimiters := by
  fun_induction join ['\n'] ts with
  | case1 => rfl
  | case2 t => simp
  | case3 t ts _ ih =>
    rw [delimiters_append, delimiters_append, ih, List.flatMap_cons]
    simp [delimiters, isMarkupDelimiter]

/-- Indenting the lines of a text leaves its delimiters as they are. -/
theorem delimiters_replace_newline {margin : Text} (h : delimiters margin = []) (t : Text) :
    delimiters (replace ['\n'] ('\n' :: margin) t) = delimiters t := by
  have hbreak : delimiters ('\n' :: margin) = [] := h
  have hstarts : ∀ (c : Char) (t : Text), startsWith (c :: t) ['\n'] = true → c = '\n' := by
    intro c t hc
    by_contra hne
    simp [startsWith, cut?, Ne.symm hne] at hc
  unfold replace
  induction t with
  | nil => rfl
  | cons c t ih =>
    rw [replaceFrom]
    split
    · rename_i hc
      rw [hstarts c t hc, delimiters_append, hbreak]
      exact ih
    · have hcons : ∀ t, delimiters (c :: t) = delimiters [c] ++ delimiters t :=
        fun t => delimiters_append [c] t
      rw [hcons, hcons t, ih]

end Text

namespace Output

theorem delimiters_margin (w : Output) (depth : Nat) : Text.delimiters (w.margin depth) = [] := by
  unfold margin
  split
  · rw [Text.delimiters, List.filter_replicate]
    rfl
  · rfl

theorem delimiters_text_cons (w : Output) (t : Text) :
    Text.delimiters (text { w with entries := t :: w.entries }) =
      Text.delimiters w.text ++ Text.delimiters t := by
  simp only [text, Text.delimiters_join_newline, List.reverse_cons, List.flatMap_append,
    List.flatMap_singleton]

@[simp] theorem delimiters_text_line (w : Output) (depth : Nat) (t : Text) :
    Text.delimiters (w.line depth t).text = Text.delimiters w.text ++ Text.delimiters t := by
  rw [line, delimiters_text_cons, Text.delimiters_append, delimiters_margin, List.nil_append]

@[simp] theorem delimiters_text_block (w : Output) (depth : Nat) (t : Text) :
    Text.delimiters (w.block depth t).text = Text.delimiters w.text ++ Text.delimiters t := by
  rw [block, delimiters_text_cons, Text.delimiters_append, delimiters_margin, List.nil_append,
    Text.delimiters_replace_newline (w.delimiters_margin depth)]

end Output

/-! ## Delimiters of a template -/

/-- The delimiters that a fragment has without its expressions. -/
def Fragment.delimiters (filters : FilterRegistry) : Fragment → Text
  | literal text => Text.delimiters text
  | expression _ _ => []
  | filter name text => Text.delimiters (filters.apply name text)

/-- The delimiters that a line has without its expressions. -/
def Fragments.delimiters (filters : FilterRegistry) (v : Fragments) : Text :=
  v.flatMap (Fragment.delimiters filters)

namespace Node

mutual

/-- The delimiters that a node has without its expressions; those in the body of a control block do
not count. -/
def delimiters (filters : FilterRegistry) : Node → Text
  | literal _ text _ => Text.delimiters text
  | output _ value _ => value.delimiters filters
  | exec _ _ => []
  | filtered _ filter text _ => Text.delimiters (filters.apply filter text)
  | tag _ opening closing _ body =>
    opening.delimiters filters ++ delimitersAll filters body ++ closing.delimiters filters
  | control _ _ _ _ => []

/-- The delimiters that a row of nodes has without its expressions. -/
def delimitersAll (filters : FilterRegistry) : List Node → Text
  | [] => []
  | n :: ns => n.delimiters filters ++ delimitersAll filters ns

end

end Node

/-! ## Rendering -/

/-- The instruction leaves no way for data to add markup: it opens no control block, and what it
puts out is escaped. -/
structure Instruction.Inert (i : Instruction) : Prop where
  not_control : ∀ pos head depth stop, i ≠ .openControl pos head depth stop
  escaped : ∀ source, .expression source false ∉ i.fragments

namespace Renderer

variable {r : Renderer} {env : Env}

theorem line_cons_eq_ok {f : Fragment} {fs : Fragments} {t : Text}
    (h : r.line env (f :: fs) = .ok t) :
    ∃ a b, r.fragment env f = .ok a ∧ r.line env fs = .ok b ∧ t = a ++ b := by
  rw [line] at h
  cases ha : r.fragment env f with
  | error e =>
    rw [ha] at h
    cases h
  | ok a =>
    cases hb : r.line env fs with
    | error e =>
      rw [ha, hb] at h
      cases h
    | ok b =>
      rw [ha, hb] at h
      cases h
      exact ⟨a, b, rfl, rfl, rfl⟩

theorem delimiters_fragment {f : Fragment} {t : Text} (hf : ∀ source, f ≠ .expression source false)
    (h : r.fragment env f = .ok t) : Text.delimiters t = f.delimiters r.filters := by
  cases f with
  | literal text =>
    cases h
    rfl
  | filter name text =>
    cases h
    rfl
  | expression source escape =>
    obtain rfl : escape = true := by
      cases escape with
      | true => rfl
      | false => exact absurd rfl (hf source)
    cases hv : r.evaluate source env with
    | error e =>
      rw [fragment, hv] at h
      cases h
    | ok v =>
      rw [fragment, hv] at h
      cases h
      exact Text.delimiters_escape v.shown

/-- A line whose expressions are escaped has the delimiters of its literals and filters. -/
theorem delimiters_line {v : Fragments} {t : Text} (hv : ∀ source, .expression source false ∉ v)
    (h : r.line env v = .ok t) : Text.delimiters t = v.delimiters r.filters := by
  induction v generalizing t with
  | nil =>
    cases h
    rfl
  | cons f fs ih =>
    obtain ⟨a, b, ha, hb, rfl⟩ := line_cons_eq_ok h
    have hf : ∀ source, f ≠ .expression source false := by
      rintro source rfl
      exact hv source (List.mem_cons_self ..)
    have hfs : ∀ source, .expression source false ∉ fs :=
      fun source hmem => hv source (List.mem_cons_of_mem _ hmem)
    rw [Text.delimiters_append, delimiters_fragment hf ha, ih hfs hb]
    rfl

end Renderer

namespace Node

variable {r : Renderer} {env : Env}

mutual

/-- Evaluating a node without control blocks adds its own delimiters. -/
theorem delimiters_run (n : Node) {i : Nat} {prior outcome : Outcome} {w w' : Output}
    (hn : ∀ x ∈ n.code i, x.Inert) (h : n.run r env prior w = (w', .ok outcome)) :
    Text.delimiters w'.text = Text.delimiters w.text ++ n.delimiters r.filters := by
  cases n with
  | literal pos text depth =>
    cases h
    rw [Output.delimiters_text_line, delimiters]
  | output pos value depth =>
    have hvalue : ∀ source, .expression source false ∉ value :=
      (hn (.output pos value depth) (List.mem_singleton_self _)).escaped
    unfold run at h
    split at h
    · cases h
    · rename_i t ht
      cases h
      rw [Output.delimiters_text_line, Renderer.delimiters_line hvalue ht, delimiters]
  | exec pos source =>
    unfold run at h
    split at h
    · cases h
    · cases h
      rw [delimiters, List.append_nil]
  | filtered pos filter text depth =>
    cases h
    rw [Output.delimiters_text_block, delimiters]
  | tag pos opening closing depth body =>
    have htag := (hn _ (by rw [code]; exact List.mem_cons_self ..)).escaped
    have hopening : ∀ source, .expression source false ∉ opening :=
      fun source hmem => htag source (List.mem_append_left _ hmem)
    have hclosing : ∀ source, .expression source false ∉ closing :=
      fun source hmem => htag source (List.mem_append_right _ hmem)
    have hbody : ∀ x ∈ codeAll (i + 1) body, x.Inert :=
      fun x hx => hn x (by rw [code]; simp [hx])
    unfold run at h
    split at h
    · cases h
    rename_i t ht
    split at h
    · cases h
    rename_i w₁ hrun
    split at h
    · cases h
    rename_i t' ht'
    cases h
    rw [Output.delimiters_text_line, delimiters_runAll body hbody hrun,
      Output.delimiters_text_line, Renderer.delimiters_line hopening ht,
      Renderer.delimiters_line hclosing ht', delimiters]
    simp only [List.append_assoc]
  | control pos head depth body =>
    have hcontrol := (hn _ (by rw [code]; exact List.mem_cons_self ..)).not_control
    exact absurd rfl (hcontrol _ _ _ _)
termination_by sizeOf n

theorem delimiters_runAll (ns : List Node) {i : Nat} {prior : Outcome} {w w' : Output}
    (hns : ∀ x ∈ codeAll i ns, x.Inert) (h : runAll r env prior ns w = (w', none)) :
    Text.delimiters w'.text = Text.delimiters w.text ++ delimitersAll r.filters ns := by
  cases ns with
  | nil =>
    cases h
    rw [delimitersAll, List.append_nil]
  | cons n ns =>
    have hn : ∀ x ∈ n.code i, x.Inert := fun x hx => hns x (by rw [codeAll]; simp [hx])
    have hrest : ∀ x ∈ codeAll (i + n.size) ns, x.Inert :=
      fun x hx => hns x (by rw [codeAll]; simp [hx])
    unfold runAll at h
    split at h
    · cases h
    rename_i w₁ outcome hrun
    rw [delimiters_runAll ns hrest h, delimiters_run n hn hrun, delimitersAll, List.append_assoc]
termination_by sizeOf ns

end

end Node

namespace Program

/-- The delimiters of what is rendered are those of the tree. -/
theorem delimiters_render {p : Program} {nodes : List Node}
    (hnodes : Node.codeAll 0 nodes = p.code.toList) (hp : ∀ i ∈ p.code.toList, i.Inert)
    {types : TypeRegistry} {r : Renderer} {indent : Bool} {context : Data} {out : Text}
    (h : p.render types r indent context = .ok out) :
    Text.delimiters out = Node.delimitersAll r.filters nodes := by
  unfold render at h
  dsimp only at h
  split at h
  · cases h
  rw [Node.run_toList hnodes] at h
  split at h
  · cases h
  · rename_i w hrun
    cases h
    exact Node.delimiters_runAll nodes (hnodes ▸ hp) hrun

/-- Data cannot add markup. In a program that is laid out, only what stands behind an output mark
other than `=` is put out unescaped. Where there is nothing of the kind and no control block, any
two runs that succeed with the same filters put out the same markup delimiters, whatever contexts
and evaluators they have. -/
theorem delimiters_eq_of_render {contextType : Text} {maxDepth : Int} {tokens : List Token}
    {p : Program} (h : Program.ofTokens contextType maxDepth tokens = .ok p) :
    (∀ i ∈ p.code.toList, i.BareOnlyIf tokens) ∧
      ((∀ pos head depth stop, .openControl pos head depth stop ∉ p.code.toList) →
        (∀ i ∈ p.code.toList, ∀ source, .expression source false ∉ i.fragments) →
        ∀ (filters : FilterRegistry) (evaluator₁ evaluator₂ : Option Evaluator)
          (types₁ types₂ : TypeRegistry) (indent₁ indent₂ : Bool) (context₁ context₂ : Data)
          (out₁ out₂ : Text),
          p.render types₁ ⟨filters, evaluator₁⟩ indent₁ context₁ = .ok out₁ →
          p.render types₂ ⟨filters, evaluator₂⟩ indent₂ context₂ = .ok out₂ →
          out₁.filter isMarkupDelimiter = out₂.filter isMarkupDelimiter) := by
  refine ⟨bare_of_ofTokens h, ?_⟩
  intro hcontrol hescaped filters ev₁ ev₂ types₁ types₂ indent₁ indent₂ c₁ c₂ out₁ out₂ h₁ h₂
  obtain ⟨-, nodes, -, -, -, hnodes⟩ := ofTokens_ok h
  have hinert : ∀ i ∈ p.code.toList, i.Inert := by
    intro i hi
    refine ⟨?_, hescaped i hi⟩
    rintro pos head depth stop rfl
    exact hcontrol pos head depth stop hi
  calc Text.delimiters out₁
      = Node.delimitersAll filters nodes := delimiters_render hnodes hinert h₁
    _ = Text.delimiters out₂ := (delimiters_render hnodes hinert h₂).symm

/-- A link with an address and a text, both of them the context, which is markup in one run and
empty in the other. -/
theorem delimiters_eq_of_link :
    ∃ (p : Program) (e : Evaluator) (out₁ out₂ : Text), Program.ofTokens "string".toList 0
        [⟨.tagMark, {}, ['%']⟩, ⟨.word, {}, ['a']⟩, ⟨.word, {}, "href".toList⟩,
          ⟨.equals, {}, ['=']⟩, ⟨.braced, {}, "{x}".toList⟩, ⟨.outputMark, {}, ['=']⟩,
          ⟨.code, {}, ['x']⟩] = .ok p ∧
      p.render {} ⟨{}, some e⟩ false (.text "<b>".toList) = .ok out₁ ∧
      p.render {} ⟨{}, some e⟩ false (.text []) = .ok out₂ ∧
      out₁ = "<a href=\"&lt;b&gt;\">&lt;b&gt;</a>".toList ∧ out₂ = "<a href=\"\"></a>".toList ∧
      out₁.filter isMarkupDelimiter = out₂.filter isMarkupDelimiter := by
  let p : Program := ⟨"string".toList, #[.output {} [.literal "<a href=\"".toList,
    .expression ['x'] true, .literal "\">".toList, .expression ['x'] true,
    .literal "</a>".toList] 0]⟩
  let e : Evaluator :=
    { bind := fun context => [(['x'], context)],
      evaluate := fun source env => .ok ((env.get? source).getD .null),
      scope := fun _ _ _ _ => .skip .none }
  have h : Program.ofTokens "string".toList 0
      [⟨.tagMark, {}, ['%']⟩, ⟨.word, {}, ['a']⟩, ⟨.word, {}, "href".toList⟩,
        ⟨.equals, {}, ['=']⟩, ⟨.braced, {}, "{x}".toList⟩, ⟨.outputMark, {}, ['=']⟩,
        ⟨.code, {}, ['x']⟩] = .ok p := by
    decide +kernel
  have h₁ : p.render {} ⟨{}, some e⟩ false (.text "<b>".toList) =
      .ok "<a href=\"&lt;b&gt;\">&lt;b&gt;</a>".toList := by
    decide +kernel
  have h₂ : p.render {} ⟨{}, some e⟩ false (.text []) = .ok "<a href=\"\"></a>".toList := by
    decide +kernel
  refine ⟨p, e, _, _, h, h₁, h₂, rfl, rfl, ?_⟩
  exact (delimiters_eq_of_render h).2 (by simp [p]) (by simp [p, Instruction.fragments])
    {} _ _ {} {} _ _ _ _ _ _ h₁ h₂

end Program
end Offside
