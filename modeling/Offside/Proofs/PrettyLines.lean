import Offside.Proofs.TreeRendering
import Offside.Proofs.UnbrokenText

/-!
# Indented output, line by line

What a template without expressions and control blocks puts out can be read off its tree: the
entries of the tree, in order (`Node.entriesAll`), each of which has lines of its own
(`Entry.lines`). A line of fragments is indented once, before its first line. What a filter line
puts out is indented before each of its lines.

The two come to the same as long as a line of fragments is one line, and it is unless a filter
stands behind a tag. So all lines of the output are indented as deep as the line of the source that
they come from, except for the further lines of what a filter behind a tag puts out: these start as
the filter wrote them (`Program.pretty_lines`).
-/

namespace Offside

/-! ## Text without expressions -/

/-- The text of a fragment that is no expression. -/
def Fragment.staticText (filters : FilterRegistry) : Fragment → Text
  | literal text => text
  | expression _ _ => []
  | filter name text => filters.apply name text

namespace Fragments

/-- The text of a line without expressions. -/
def staticText (filters : FilterRegistry) (v : Fragments) : Text :=
  v.flatMap (Fragment.staticText filters)

variable (filters : FilterRegistry)

theorem staticText_merge (v : Fragments) : v.merge.staticText filters = v.staticText filters := by
  fun_induction merge v with
  | case1 => rfl
  | case2 a fs b gs hm ih =>
    rw [hm] at ih
    simp only [staticText, List.flatMap_cons, Fragment.staticText] at ih ⊢
    rw [List.append_assoc, ih]
  | case3 a fs hm ih =>
    simp only [staticText, List.flatMap_cons] at ih ⊢
    rw [ih]
  | case4 f fs hf ih =>
    simp only [staticText, List.flatMap_cons] at ih ⊢
    rw [ih]

theorem staticText_join (vs : List Fragments) :
    (join vs).staticText filters = vs.flatMap (staticText filters) := by
  rw [join, staticText_merge, staticText, List.flatten_eq_flatMap, List.flatMap_assoc]
  rfl

/-- Without filters and expressions, a line is what its literals are. -/
theorem Plain.newline_not_mem {v : Fragments} (h : v.Plain) : '\n' ∉ v.staticText filters := by
  intro hmem
  obtain ⟨f, hf, hin⟩ := List.mem_flatMap.1 hmem
  cases f with
  | literal t => exact h.unbroken t hf hin
  | expression => cases hin
  | filter name text => exact filterNames_eq_nil_iff.1 h.filterNames_eq name text hf

end Fragments

/-- A line without expressions renders to its text. -/
theorem Renderer.line_of_sources_eq_nil (r : Renderer) (env : Env) {v : Fragments}
    (h : v.sources = []) : r.line env v = .ok (v.staticText r.filters) := by
  induction v with
  | nil => rfl
  | cons f v ih =>
    cases f with
    | literal t =>
      rw [line, ih h]
      rfl
    | filter name t =>
      rw [line, ih h]
      rfl
    | expression => cases h

/-! ## The entries of a tree -/

/-- Something that a template without expressions puts out. -/
inductive Entry where
  /-- A line of fragments; it is indented once. -/
  | line (pos : Location) (depth : Nat) (value : Fragments)
  /-- What a filter line puts out; every line of it is indented. -/
  | block (pos : Location) (depth : Nat) (filter text : Text)
deriving DecidableEq, Repr

namespace Entry

/-- Where the entry comes from. -/
def pos : Entry → Location
  | line pos .. => pos
  | block pos .. => pos

/-- How deep it is indented. -/
def depth : Entry → Nat
  | line _ depth _ => depth
  | block _ depth .. => depth

/-- Whether a filter puts out a part of the entry only. -/
def splices : Entry → Bool
  | line _ _ value => !value.filterNames.isEmpty
  | block .. => false

/-- The lines that the entry shows as. -/
def lines (filters : FilterRegistry) : Entry → List Text
  | line _ depth value =>
    (Text.splitAt '\n' (value.staticText filters)).modifyHead (List.replicate depth ' ' ++ ·)
  | block _ depth filter text =>
    (Text.splitAt '\n' (filters.apply filter text)).map (List.replicate depth ' ' ++ ·)

end Entry

namespace Node

mutual

/-- The entries of a node. -/
def entries : Node → List Entry
  | literal pos text depth => [.line pos depth (Fragments.ofLiteral text)]
  | output pos value depth => [.line pos depth value]
  | exec .. => []
  | filtered pos filter text depth => [.block pos depth filter text]
  | tag pos opening closing depth body =>
    .line pos depth opening :: (entriesAll body ++ [.line pos depth closing])
  | control .. => []

/-- The entries of a row of nodes. -/
def entriesAll : List Node → List Entry
  | [] => []
  | n :: ns => n.entries ++ entriesAll ns

end

end Node

/-! ## Running a tree without expressions -/

/-- Whether the instruction evaluates nothing: it has no expression, and it opens no control
block. -/
def Instruction.isStatic : Instruction → Bool
  | openControl .. => false
  | i => i.sources.isEmpty

theorem Instruction.sources_of_isStatic {i : Instruction} (h : i.isStatic = true) :
    i.sources = [] := by
  cases i with
  | openControl => cases h
  | literal | output | exec | filtered | openTag | close => exact List.isEmpty_iff.1 h

/-- Adds an entry. -/
def Output.add (filters : FilterRegistry) (w : Output) : Entry → Output
  | .line _ depth value => w.line depth (value.staticText filters)
  | .block _ depth filter text => w.block depth (filters.apply filter text)

namespace Node

variable {r : Renderer} {env : Env}

mutual

/-- Evaluating a node that has no expressions adds its entries. -/
theorem run_of_static (n : Node) {i : Nat} {prior : Outcome} {w : Output}
    (hn : ∀ x ∈ n.code i, x.isStatic = true) :
    n.run r env prior w = (n.entries.foldl (Output.add r.filters) w, .ok .none) := by
  cases n with
  | literal pos text depth =>
    rw [run, entries, List.foldl_cons, List.foldl_nil, Output.add, Fragments.staticText,
      Fragments.ofLiteral, List.flatMap_singleton, Fragment.staticText]
  | output pos value depth =>
    have hvalue : value.sources = [] :=
      Instruction.sources_of_isStatic (hn (.output pos value depth) (List.mem_singleton_self _))
    rw [run, r.line_of_sources_eq_nil env hvalue]
    rfl
  | exec pos source => cases hn (.exec pos source) (List.mem_singleton_self _)
  | filtered pos filter text depth => rfl
  | tag pos opening closing depth body =>
    have htag := hn _ (by rw [code]; exact List.mem_cons_self)
    obtain ⟨hopening, hclosing⟩ :=
      List.append_eq_nil_iff.1 (Instruction.sources_of_isStatic htag)
    have hbody : ∀ x ∈ codeAll (i + 1) body, x.isStatic = true :=
      fun x hx => hn x (by rw [code]; simp [hx])
    rw [run, r.line_of_sources_eq_nil env hopening]
    dsimp only
    rw [runAll_of_static body hbody]
    dsimp only
    rw [r.line_of_sources_eq_nil env hclosing, entries, List.foldl_cons, List.foldl_append]
    rfl
  | control pos head depth body =>
    have hcontrol := hn _ (by rw [code]; exact List.mem_cons_self)
    cases hcontrol
termination_by sizeOf n

theorem runAll_of_static (ns : List Node) {i : Nat} {prior : Outcome} {w : Output}
    (hns : ∀ x ∈ codeAll i ns, x.isStatic = true) :
    runAll r env prior ns w = ((entriesAll ns).foldl (Output.add r.filters) w, none) := by
  cases ns with
  | nil => rfl
  | cons n ns =>
    have hn : ∀ x ∈ n.code i, x.isStatic = true := fun x hx => hns x (by rw [codeAll]; simp [hx])
    have hrest : ∀ x ∈ codeAll (i + n.size) ns, x.isStatic = true :=
      fun x hx => hns x (by rw [codeAll]; simp [hx])
    rw [runAll, run_of_static n hn]
    dsimp only
    rw [runAll_of_static ns hrest, entriesAll, List.foldl_append]
termination_by sizeOf ns

end

end Node

/-! ## The lines of the output -/

namespace Output

variable (filters : FilterRegistry)

/-- An entry adds a text that has its lines. -/
theorem exists_add {w : Output} (hw : w.indent = true) (e : Entry) :
    ∃ t, w.add filters e = { w with entries := t :: w.entries } ∧
      Text.splitAt '\n' t = e.lines filters := by
  have hmargin : ∀ depth, w.margin depth = List.replicate depth ' ' := by
    intro depth
    rw [margin, hw, if_pos rfl]
  cases e with
  | line pos depth value =>
    refine ⟨_, rfl, ?_⟩
    rw [hmargin]
    exact Text.splitAt_replicate_append (by decide) depth _
  | block pos depth filter text =>
    refine ⟨_, rfl, ?_⟩
    rw [hmargin]
    exact Text.splitAt_indented depth _

/-- Entries add texts that have their lines. -/
theorem exists_foldl_add {w : Output} (hw : w.indent = true) (es : List Entry) :
    ∃ ts : List Text, (es.foldl (add filters) w).entries = ts.reverse ++ w.entries ∧
      ts.map (Text.splitAt '\n') = es.map (·.lines filters) := by
  induction es generalizing w with
  | nil => exact ⟨[], rfl, rfl⟩
  | cons e es ih =>
    obtain ⟨t, hadd, ht⟩ := exists_add filters hw e
    obtain ⟨ts, hfold, hts⟩ := ih (w := { w with entries := t :: w.entries }) hw
    refine ⟨t :: ts, ?_, ?_⟩
    · rw [List.foldl_cons, hadd, hfold]
      simp
    · rw [List.map_cons, List.map_cons, ht, hts]

/-- The lines of an output are those of its entries. -/
theorem splitAt_text_foldl_add (es : List Entry) :
    (es = [] → (es.foldl (add filters) { indent := true }).text = []) ∧
      (es ≠ [] → Text.splitAt '\n' (es.foldl (add filters) { indent := true }).text =
        es.flatMap (·.lines filters)) := by
  refine ⟨fun h => by rw [h]; rfl, ?_⟩
  intro hne
  obtain ⟨ts, hentries, hts⟩ := exists_foldl_add filters (w := { indent := true }) rfl es
  have htext : ts ≠ [] := by
    rintro rfl
    exact hne (List.map_eq_nil_iff.1 hts.symm)
  rw [text, hentries, List.append_nil, List.reverse_reverse, Text.splitAt_join_eq_flatMap htext,
    List.flatMap_def, hts, ← List.flatMap_def]

end Output

/-! ## The lines of an entry -/

namespace Entry

variable {filters : FilterRegistry} {pos : Location} {depth : Nat} {v : Fragments}

/-- All but the first line of a line of fragments are as they stand. -/
theorem indented_iff (pos : Location) (depth : Nat) (v : Fragments) :
    (∀ l ∈ (Entry.line pos depth v).lines filters, List.replicate depth ' ' <+: l) ↔
      ∀ l ∈ (Text.splitAt '\n' (v.staticText filters)).tail, List.replicate depth ' ' <+: l := by
  rw [lines]
  cases Text.splitAt '\n' (v.staticText filters) with
  | nil => simp
  | cons l ls => simp

theorem indented_of_plain (h : v.Plain) :
    ∀ l ∈ (Entry.line pos depth v).lines filters, List.replicate depth ' ' <+: l := by
  rw [indented_iff, Text.splitAt_of_not_mem (h.newline_not_mem filters)]
  simp

theorem indented_of_block {filter text : Text} :
    ∀ l ∈ (Entry.block pos depth filter text).lines filters, List.replicate depth ' ' <+: l := by
  intro l hl
  obtain ⟨t, -, rfl⟩ := List.mem_map.1 hl
  exact List.prefix_append ..

end Entry

/-- The entry is that of a tag with a filter behind it: one of the tokens leads off the tag, another
one on its line is the mark of the filter. The tag is indented, and with it the first line of what
the filter puts out. So the whole entry is indented just if the filter starts all its further lines
with as many spaces by itself. -/
def Entry.FilterBehindTag (tokens : List Token) (filters : FilterRegistry) (e : Entry) : Prop :=
  ∃ lead ∈ tokens, ∃ mark ∈ tokens, lead.kind ∈ [.tagMark, .idMark, .classMark] ∧
    mark.kind = .filterMark ∧ lead.start = e.pos ∧ mark.start.line = e.pos.line ∧
    ∃ opening text closing : Text, '\n' ∉ opening ∧ '\n' ∉ closing ∧
      e.lines filters =
        (Text.splitAt '\n' (opening ++ (filters.apply (Layout.filterName mark.contents) text ++
          closing))).modifyHead (List.replicate e.depth ' ' ++ ·) ∧
      ((∀ l ∈ e.lines filters, List.replicate e.depth ' ' <+: l) ↔
        ∀ l ∈ (Text.splitAt '\n' (filters.apply (Layout.filterName mark.contents) text ++
          closing)).tail, List.replicate e.depth ' ' <+: l)

theorem Entry.filterBehindTag_of_splices {tokens : List Token} {filters : FilterRegistry}
    {l : MarkupLine} {pos : Location} {depth : Nat} {v : Fragments} (hl : l.body ⊆ tokens)
    (h : Splices l.body pos v) : (Entry.line pos depth v).FilterBehindTag tokens filters := by
  obtain ⟨text, hlead, hkind, rfl, hmark, hm, hopening, hclosing⟩ := h
  rename_i lead mark opening closing
  have htext : (Fragments.join [opening, [.filter (Layout.filterName mark.contents) text],
      closing]).staticText filters = opening.staticText filters ++
        (filters.apply (Layout.filterName mark.contents) text ++ closing.staticText filters) := by
    rw [Fragments.staticText_join]
    simp [Fragments.staticText, Fragment.staticText]
  have hfirst := hopening.newline_not_mem filters
  have hlines : mark.start.line = lead.start.line := by
    rw [l.line_eq mark (List.mem_cons_of_mem _ hmark),
      l.line_eq lead (List.mem_cons_of_mem _ hlead)]
  refine ⟨lead, hl hlead, mark, hl hmark, hkind, hm, rfl, hlines, _, text, _, hfirst,
    hclosing.newline_not_mem filters, ?_, ?_⟩
  · rw [lines, htext]
    rfl
  · refine (indented_iff lead.start depth _).trans ?_
    rw [htext, Text.splitAt_append_of_not_mem hfirst, List.tail_modifyHead]
    rfl

/-! ## Where entries come from -/

/-- The entries that an instruction makes, apart from what is in its scope. -/
def Instruction.entries : Instruction → List Entry
  | literal pos text depth => [.line pos depth (Fragments.ofLiteral text)]
  | output pos value depth => [.line pos depth value]
  | filtered pos filter text depth => [.block pos depth filter text]
  | openTag pos opening closing depth _ => [.line pos depth opening, .line pos depth closing]
  | _ => []

theorem Instruction.place_of_mem_entries {x : Instruction} {e : Entry} (h : e ∈ x.entries) :
    x.closes = false ∧ x.pos = e.pos ∧ x.depth? = some e.depth := by
  cases x with
  | literal | output | filtered =>
    rw [List.mem_singleton.1 h]
    exact ⟨rfl, rfl, rfl⟩
  | openTag =>
    simp only [entries, List.mem_cons, List.not_mem_nil, or_false] at h
    rcases h with rfl | rfl
    · exact ⟨rfl, rfl, rfl⟩
    · exact ⟨rfl, rfl, rfl⟩
  | exec | openControl | close => cases h

theorem Instruction.mem_lines_of_mem_entries {x : Instruction} {pos : Location} {depth : Nat}
    {v : Fragments} (h : .line pos depth v ∈ x.entries) : v ∈ x.lines := by
  cases x with
  | literal | output =>
    cases List.mem_singleton.1 h
    exact List.mem_singleton_self _
  | openTag =>
    simp only [entries, List.mem_cons, List.not_mem_nil, or_false, Entry.line.injEq] at h
    rcases h with ⟨-, -, rfl⟩ | ⟨-, -, rfl⟩
    · exact List.mem_cons_self
    · exact List.mem_cons_of_mem _ List.mem_cons_self
  | filtered => cases List.mem_singleton.1 h
  | exec | openControl | close => cases h

namespace Node

mutual

/-- The entries of a node are made by its instructions. -/
theorem exists_of_mem_entries (n : Node) (i : Nat) {e : Entry} (h : e ∈ n.entries) :
    ∃ x ∈ n.code i, e ∈ x.entries := by
  cases n with
  | literal | output | filtered => exact ⟨_, List.mem_singleton_self _, h⟩
  | exec | control =>
    rw [entries] at h
    cases h
  | tag pos opening closing depth body =>
    rw [entries, List.mem_cons, List.mem_append, List.mem_singleton] at h
    rw [code]
    rcases h with rfl | h | rfl
    · exact ⟨_, List.mem_cons_self, List.mem_cons_self⟩
    · obtain ⟨x, hx, he⟩ := exists_of_mem_entriesAll body (i + 1) h
      exact ⟨x, List.mem_cons_of_mem _ (List.mem_append_left _ hx), he⟩
    · exact ⟨_, List.mem_cons_self, List.mem_cons_of_mem _ List.mem_cons_self⟩
termination_by sizeOf n

theorem exists_of_mem_entriesAll (ns : List Node) (i : Nat) {e : Entry} (h : e ∈ entriesAll ns) :
    ∃ x ∈ codeAll i ns, e ∈ x.entries := by
  cases ns with
  | nil =>
    rw [entriesAll] at h
    cases h
  | cons n ns =>
    rw [entriesAll, List.mem_append] at h
    rw [codeAll]
    rcases h with h | h
    · obtain ⟨x, hx, he⟩ := exists_of_mem_entries n i h
      exact ⟨x, List.mem_append_left _ hx, he⟩
    · obtain ⟨x, hx, he⟩ := exists_of_mem_entriesAll ns (i + n.size) h
      exact ⟨x, List.mem_append_right _ hx, he⟩
termination_by sizeOf ns

end

end Node

namespace Program

variable {file source contextType : Text} {maxDepth : Int} {p : Program}

/-- What a line of the source makes is as deep as the line is indented. -/
theorem exists_source_line (h : Program.ofTokens contextType maxDepth (lex file source) = .ok p)
    {x : Instruction} (hx : x ∈ p.code.toList) (hc : x.closes = false) {d : Nat}
    (hd : x.depth? = some d) :
    ∃ t, (splitLines (normalise source))[x.pos.line]? = some t ∧ d = indentation t := by
  obtain ⟨s, nodes, hs, hmatch, -⟩ := ofTokens_ok h
  obtain ⟨start, rows, hrows, hstart, hmarkup⟩ := exists_byRows hs
  obtain ⟨a, ha⟩ := List.getElem?_of_mem hx
  rw [Array.getElem?_toList] at ha
  rcases exists_row_of_code hmatch hrows ha hc with ⟨i, hi, he⟩ | ⟨row, hrow, hline, hdepth⟩
  · obtain ⟨⟨t, ht, hmark⟩, pos, text, rfl, hzero⟩ := hstart i hi
    obtain rfl := Instruction.eq_of_withStop_eq_literal he
    cases hd
    refine ⟨t, ?_, ?_⟩
    · show _[pos.line]? = some t
      rw [hzero, ← List.head?_eq_getElem?]
      exact ht
    · -- a doctype line starts with its mark
      obtain ⟨rest, rfl⟩ := hmark
      rfl
  · obtain ⟨t, ht, hind⟩ := (hmarkup row.1 row.2).1 hrow
    rw [hline]
    exact ⟨t, ht.line, (hdepth d hd).trans hind⟩

/-- A template without expressions and control blocks renders to its entries. -/
theorem render_of_static {nodes : List Node} (hcode : Node.codeAll 0 nodes = p.code.toList)
    (hstatic : ∀ i ∈ p.code.toList, i.isStatic = true) (types : TypeRegistry) (r : Renderer)
    {context : Data} (htype : (types.typeOf context).1 = p.contextType) :
    p.render types r true context =
      .ok ((Node.entriesAll nodes).foldl (Output.add r.filters) { indent := true }).text := by
  unfold render
  dsimp only
  rw [if_neg (not_not_intro htype), Node.run_toList hcode,
    Node.runAll_of_static nodes (hcode ▸ hstatic)]

/-- Indented output, line by line. A template without expressions and control blocks renders for
every context of its type, with any filters. The lines of the output are those of its entries one
after the other, and each entry is as deep as the line of the source that it comes from. All lines
of an entry start with that many spaces, those of a filter line included, unless the entry is that
of a tag with a filter behind it. -/
theorem pretty_lines (h : Program.ofTokens contextType maxDepth (lex file source) = .ok p)
    (hstatic : ∀ i ∈ p.code.toList, i.isStatic = true) (types : TypeRegistry) (r : Renderer)
    {context : Data} (htype : (types.typeOf context).1 = p.contextType) :
    ∃ nodes out, Node.ofCode? p.code.toList = some nodes ∧
      p.render types r true context = .ok out ∧
      (Node.entriesAll nodes = [] → out = []) ∧
      (Node.entriesAll nodes ≠ [] →
        Text.splitAt '\n' out = (Node.entriesAll nodes).flatMap (·.lines r.filters)) ∧
      ∀ e ∈ Node.entriesAll nodes,
        (∃ t, (splitLines (normalise source))[e.pos.line]? = some t ∧ e.depth = indentation t) ∧
        (e.splices = false → ∀ l ∈ e.lines r.filters, List.replicate e.depth ' ' <+: l) ∧
        (e.splices = true → e.FilterBehindTag (lex file source) r.filters) := by
  obtain ⟨-, nodes, -, -, hnodes, hcode⟩ := ofTokens_ok h
  obtain ⟨hempty, hlines⟩ :=
    Output.splitAt_text_foldl_add r.filters (Node.entriesAll nodes)
  refine ⟨nodes, _, hnodes, render_of_static hcode hstatic types r htype, hempty, hlines, ?_⟩
  intro e he
  obtain ⟨x, hx, hex⟩ := Node.exists_of_mem_entriesAll nodes 0 he
  rw [hcode] at hx
  obtain ⟨hc, hpos, hd⟩ := Instruction.place_of_mem_entries hex
  refine ⟨hpos ▸ exists_source_line h hx hc hd, ?_⟩
  cases e with
  | block => exact ⟨fun _ => Entry.indented_of_block, fun hs => by cases hs⟩
  | line pos depth v =>
    rcases plain_or_splices h hx (Instruction.mem_lines_of_mem_entries hex) with
      hplain | ⟨l, hl, hsplices⟩
    · refine ⟨fun _ => Entry.indented_of_plain hplain, fun hs => ?_⟩
      simp [Entry.splices, hplain.filterNames_eq] at hs
    · rw [hpos] at hsplices
      refine ⟨fun hs => ?_, fun _ => Entry.filterBehindTag_of_splices hl hsplices⟩
      simp [Entry.splices, hsplices.filterNames_ne] at hs

/-- A filter line and a filter behind a tag, both of them two spaces deep: every line of the first
is indented, and of the second the one with the tag. -/
theorem pretty_lines_of_two_filters :
    let source := "%a\n  :css\n    x\n  %p :css y".toList
    ∃ p : Program, Program.ofTokens "<nil>".toList 0 (lex [] source) = .ok p ∧
      (∀ i ∈ p.code.toList, i.isStatic = true) ∧
      ∃ out, p.render {} ⟨.defaults, none⟩ true .null = .ok out ∧
        Text.splitAt '\n' out =
          ["<a>", "  <style>", "  x", "  </style>", "  <p><style>", "y", "</style></p>",
            "</a>"].map (·.toList) ∧
        ∃ e : Entry, e.depth = 2 ∧ e.FilterBehindTag (lex [] source) .defaults := by
  intro source
  let filterPos : Location := { line := 1, column := 2, offset := 5 }
  let tagPos : Location := { line := 3, column := 2, offset := 18 }
  let value : Fragments :=
    [.literal "<p>".toList, .filter "css".toList ['y'], .literal "</p>".toList]
  let p : Program := ⟨"<nil>".toList, #[
    .openTag {} [.literal "<a>".toList] [.literal "</a>".toList] 0 3,
    .filtered filterPos "css".toList ['x'] 2, .output tagPos value 2, .close]⟩
  have hp : Program.ofTokens "<nil>".toList 0 (lex [] source) = .ok p := by decide +kernel
  have hstatic : ∀ i ∈ p.code.toList, i.isStatic = true := by decide
  have htype : (({} : TypeRegistry).typeOf .null).1 = p.contextType := by decide
  obtain ⟨nodes, out, hnodes, hout, -, hlines, hentries⟩ :=
    pretty_lines hp hstatic {} ⟨.defaults, none⟩ htype
  have htree : Node.ofCode? p.code.toList = some [.tag {} [.literal "<a>".toList]
      [.literal "</a>".toList] 0 [.filtered filterPos "css".toList ['x'] 2,
        .output tagPos value 2]] := rfl
  rw [htree] at hnodes
  cases hnodes
  refine ⟨p, hp, hstatic, out, hout, ?_, .line tagPos 2 value, rfl, ?_⟩
  · rw [hlines (by decide)]
    decide +kernel
  · exact (hentries (.line tagPos 2 value) (by decide)).2.2 (by decide)

/-- The filter behind the tag puts out three lines, and the line of the source is two spaces deep;
but only the first of the three is indented. -/
theorem filter_behind_tag_not_indented :
    let source := "%a\n  %p :css x".toList
    ∃ (p : Program) (out : Text), Program.ofTokens "<nil>".toList 0 (lex [] source) = .ok p ∧
      (∀ i ∈ p.code.toList, i.isStatic = true) ∧
      p.render {} ⟨.defaults, none⟩ true .null = .ok out ∧
      Text.splitAt '\n' out =
        ["<a>", "  <p><style>", "x", "</style></p>", "</a>"].map (·.toList) ∧
      (∃ t, (splitLines (normalise source))[1]? = some t ∧ indentation t = 2) ∧
      ¬ List.replicate 2 ' ' <+: ['x'] := by
  intro source
  let value : Fragments :=
    [.literal "<p>".toList, .filter "css".toList ['x'], .literal "</p>".toList]
  let pos : Location := { line := 1, column := 2, offset := 5 }
  let p : Program := ⟨"<nil>".toList, #[
    .openTag {} [.literal "<a>".toList] [.literal "</a>".toList] 0 2, .output pos value 2, .close]⟩
  have htype : (({} : TypeRegistry).typeOf .null).1 = p.contextType := by decide
  have hcode : Node.codeAll 0 [.tag {} [.literal "<a>".toList] [.literal "</a>".toList] 0
      [.output pos value 2]] = p.code.toList := by
    decide
  refine ⟨p, _, by decide +kernel, by decide,
    render_of_static hcode (by decide) {} ⟨.defaults, none⟩ htype, by decide +kernel,
    ⟨"  %p :css x".toList, by decide +kernel, by decide⟩, by decide⟩

end Program

end Offside
