import Offside.Editor.Diagnostic
import Offside.Proofs.Checking
import Offside.Proofs.FilterUses
import Offside.Proofs.Sinks

/-!
# The filters that a rendering looks up

`Program.renderLogged` renders a program and writes down every lookup of a filter, also those of a
rendering that fails. It answers what rendering answers, and all that it writes down are filters
that the program uses (`Program.renderLogged_ok`). Nothing is missing: a rendering cannot tell
registries apart that agree on what is written down (`Program.render_of_agreeOn`).

A template lists the filters that its program uses, and these are the filter marks of its source. So
a template without a warning about an unknown filter is rendered with filters that are all found.
-/

namespace Offside

/-- A lookup of a filter. -/
structure Lookup where
  name : Text
  found : Bool
deriving DecidableEq, Repr

/-- An output, and the lookups that were made for it, in order. -/
structure LoggedOutput where
  output : Output
  lookups : List Lookup := []
deriving DecidableEq, Repr

namespace FilterRegistry

variable (r : FilterRegistry)

/-- The output of the named filter for a text, and the lookup of the filter. -/
def applyLogged (name text : Text) : Text × Lookup :=
  match r.lookup? name with
  | some f => (f text, { name, found := true })
  | none => (Filter.notFound name, { name, found := false })

theorem applyLogged_eq (name text : Text) :
    r.applyLogged name text =
      (r.apply name text, { name, found := (r.lookup? name).isSome }) := by
  unfold applyLogged apply
  cases r.lookup? name <;> rfl

/-- What is written down is the answer of the registry for one of the names. -/
def Records (names : List Text) (l : Lookup) : Prop :=
  l.name ∈ names ∧ l.found = (r.lookup? l.name).isSome

theorem Records.mono {r : FilterRegistry} {names names' : List Text} {l : Lookup}
    (hl : r.Records names l) (h : names ⊆ names') : r.Records names' l :=
  ⟨h hl.1, hl.2⟩

theorem records_applyLogged {names : List Text} {name : Text} (h : name ∈ names) (text : Text) :
    r.Records names (r.applyLogged name text).2 := by
  rw [applyLogged_eq]
  exact ⟨h, rfl⟩

/-- The registries have the same filters, or none, under the names that were looked up. -/
def AgreeOn (ls : List Lookup) (r r' : FilterRegistry) : Prop :=
  ∀ l ∈ ls, r'.lookup? l.name = r.lookup? l.name

theorem AgreeOn.applyLogged_eq {name text : Text} {r r' : FilterRegistry}
    (h : AgreeOn [(r.applyLogged name text).2] r r') :
    r'.applyLogged name text = r.applyLogged name text := by
  have hname := h _ (List.mem_singleton_self _)
  rw [r.applyLogged_eq] at hname
  simp only [FilterRegistry.applyLogged_eq, apply, hname]

end FilterRegistry

/-! ## Lines -/

namespace Renderer

/-- The text of a fragment, and the lookups made for it. -/
def fragmentLogged (r : Renderer) (env : Env) : Fragment → Except Failure Text × List Lookup
  | .filter name text =>
    let (t, l) := r.filters.applyLogged name text
    (.ok t, [l])
  | f => (r.fragment env f, [])

/-- The text of a line of fragments, and the lookups made for it, up to the first failure. -/
def lineLogged (r : Renderer) (env : Env) : Fragments → Except Failure Text × List Lookup
  | [] => (.ok [], [])
  | f :: fs =>
    match r.fragmentLogged env f with
    | (.error e, ls) => (.error e, ls)
    | (.ok t, ls) =>
      let (rest, more) := r.lineLogged env fs
      (rest.map (t ++ ·), ls ++ more)

variable (r : Renderer) (env : Env)

theorem fragmentLogged_ok (f : Fragment) :
    (r.fragmentLogged env f).1 = r.fragment env f ∧
      ∀ l ∈ (r.fragmentLogged env f).2, r.filters.Records (Fragments.filterNames [f]) l := by
  cases f with
  | literal text => exact ⟨rfl, by simp [fragmentLogged]⟩
  | expression source escape => exact ⟨rfl, by simp [fragmentLogged]⟩
  | filter name text =>
    constructor
    · simp only [fragmentLogged, fragment, FilterRegistry.applyLogged_eq]
    · intro l hl
      rw [List.mem_singleton.1 hl]
      exact r.filters.records_applyLogged (List.mem_singleton_self name) text

theorem line_cons (f : Fragment) (fs : Fragments) :
    r.line env (f :: fs) = (r.fragment env f).bind fun t => (r.line env fs).map (t ++ ·) := by
  rw [line]
  cases r.fragment env f with
  | error e => rfl
  | ok t => cases r.line env fs <;> rfl

/-- Writing the lookups down does not change a line, and they are those of its filters. -/
theorem lineLogged_ok (v : Fragments) :
    (r.lineLogged env v).1 = r.line env v ∧
      ∀ l ∈ (r.lineLogged env v).2, r.filters.Records v.filterNames l := by
  induction v with
  | nil => exact ⟨rfl, by simp [lineLogged]⟩
  | cons f fs ih =>
    obtain ⟨hfragment, hls⟩ := r.fragmentLogged_ok env f
    rw [line_cons, ← hfragment, ← ih.1, lineLogged, ← List.singleton_append,
      Fragments.filterNames_append]
    generalize r.fragmentLogged env f = first at hls ⊢
    obtain ⟨_ | t, ls⟩ := first
    · -- the line ends here, and nothing behind the fragment is looked up
      refine ⟨rfl, fun l hl => ?_⟩
      exact (hls l hl).mono (List.subset_append_left ..)
    · refine ⟨rfl, fun l hl => ?_⟩
      rcases List.mem_append.1 hl with hl | hl
      · exact (hls l hl).mono (List.subset_append_left ..)
      · exact (ih.2 l hl).mono (List.subset_append_right ..)

/-- A line depends on the filters that are looked up for it. -/
theorem lineLogged_of_agreeOn {filters : FilterRegistry} {v : Fragments}
    (h : FilterRegistry.AgreeOn (r.lineLogged env v).2 r.filters filters) :
    { r with filters }.lineLogged env v = r.lineLogged env v := by
  induction v with
  | nil => rfl
  | cons f fs ih =>
    have hfragment : FilterRegistry.AgreeOn (r.fragmentLogged env f).2 r.filters filters →
        { r with filters }.fragmentLogged env f = r.fragmentLogged env f := by
      intro hagree
      cases f with
      | literal text => rfl
      | expression source escape => rfl
      | filter name text => simp only [fragmentLogged, hagree.applyLogged_eq]
    rw [lineLogged] at h ⊢
    rw [lineLogged]
    cases hfirst : r.fragmentLogged env f with
    | mk answer ls =>
      rw [hfirst] at h hfragment
      cases answer with
      | error e => rw [hfragment h]
      | ok t =>
        obtain ⟨hls, hmore⟩ := List.forall_mem_append.1 h
        rw [hfragment hls]
        dsimp only
        rw [ih hmore]

/-! ## Runs -/

/-- The sink of rendering that writes lookups down. What a captured block looked up stays written
down, whatever becomes of its entries. -/
def loggingSink : Sink LoggedOutput where
  literal depth text s := { s with output := r.sink.literal depth text s.output }
  line env depth value s :=
    match r.lineLogged env value with
    | (.error e, ls) => ({ s with lookups := s.lookups ++ ls }, some e)
    | (.ok t, ls) => ({ output := s.output.line depth t, lookups := s.lookups ++ ls }, none)
  filtered depth filter text s :=
    let (t, l) := r.filters.applyLogged filter text
    { output := s.output.block depth t, lookups := s.lookups ++ [l] }
  fresh s := { s with output := r.sink.fresh s.output }
  captured s inner := { inner with output := r.sink.captured s.output inner.output }
  abandoned s inner := { inner with output := r.sink.abandoned s.output inner.output }

theorem lookups_loggingSink_line (depth : Nat) (value : Fragments) (s : LoggedOutput) :
    (r.loggingSink.line env depth value s).1.lookups =
      s.lookups ++ (r.lineLogged env value).2 := by
  dsimp only [loggingSink]
  rcases r.lineLogged env value with ⟨_ | t, ls⟩ <;> rfl

/-- The output is the one that is kept without a log, and the log holds lookups of the names. -/
structure LogOf (names : List Text) (w : Output) (s : LoggedOutput) : Prop where
  output : s.output = w
  records : ∀ l ∈ s.lookups, r.filters.Records names l

/-- Writing the lookups down changes no operation of rendering. -/
theorem loggingSink_simulates (names : List Text) :
    Sink.Simulates names (r.LogOf names) r.sink r.loggingSink where
  literal depth text w s h := ⟨by rw [← h.output]; rfl, h.records⟩
  line env depth value w s hnames h := by
    obtain ⟨hline, hls⟩ := r.lineLogged_ok env value
    have hrecords : ∀ l ∈ s.lookups ++ (r.lineLogged env value).2, r.filters.Records names l := by
      intro l hl
      rcases List.mem_append.1 hl with hl | hl
      · exact h.records l hl
      · exact (hls l hl).mono hnames
    dsimp only [loggingSink]
    generalize r.lineLogged env value = logged at hline hrecords ⊢
    obtain ⟨_ | t, ls⟩ := logged
    · rw [sink_line_of_error hline.symm]
      exact ⟨⟨h.output, hrecords⟩, rfl⟩
    · rw [sink_line_of_ok hline.symm]
      exact ⟨⟨by rw [← h.output], hrecords⟩, rfl⟩
  filtered depth filter text w s hname h := by
    refine ⟨?_, ?_⟩
    · simp only [loggingSink, sink, FilterRegistry.applyLogged_eq, h.output]
    · intro l hl
      rcases List.mem_append.1 hl with hl | hl
      · exact h.records l hl
      · rw [List.mem_singleton.1 hl]
        exact r.filters.records_applyLogged hname text
  fresh h := ⟨by rw [← h.output]; rfl, h.records⟩
  captured h hinner := ⟨by rw [← h.output, ← hinner.output]; rfl, hinner.records⟩
  abandoned h hinner := ⟨by rw [← h.output]; rfl, hinner.records⟩

/-- A part of a run that writes down `ls` is the same with another registry if the registries agree
on these; and what is written down stays. -/
theorem follows_of_lookups {α : Type} {r : Renderer} {filters : FilterRegistry}
    {f g : LoggedOutput → LoggedOutput × α} {ls : List Lookup}
    (hf : ∀ s, (f s).1.lookups = s.lookups ++ ls)
    (hfg : FilterRegistry.AgreeOn ls r.filters filters → g = f) :
    Sink.Follows (fun s => ¬ FilterRegistry.AgreeOn s.lookups r.filters filters) f g := by
  intro s
  dsimp only
  rw [hf]
  constructor
  · intro hs hall
    exact hs (List.forall_mem_append.1 hall).1
  · intro hagree
    rw [hfg (List.forall_mem_append.1 (not_not.1 hagree)).2]

/-- With another registry the same is done and written down, unless something is looked up on which
the registries do not agree. -/
theorem loggingSink_shadows (filters : FilterRegistry) :
    Sink.Shadows (fun s => ¬ FilterRegistry.AgreeOn s.lookups r.filters filters) r.loggingSink
      { r with filters }.loggingSink where
  literal _ _ := Sink.follows_self fun _ hs => hs
  line env depth value := by
    refine follows_of_lookups (r.lookups_loggingSink_line env depth value) fun hagree => ?_
    funext s
    dsimp only [loggingSink]
    rw [r.lineLogged_of_agreeOn env hagree]
  filtered depth filter text := by
    refine follows_of_lookups (fun _ => rfl) fun hagree => ?_
    funext s
    dsimp only [Sink.always, loggingSink]
    rw [FilterRegistry.AgreeOn.applyLogged_eq hagree]
  fresh := Sink.follows_self fun _ hs => hs
  captured _ := Sink.follows_self fun _ hs => hs
  abandoned _ := Sink.follows_self fun _ hs => hs

end Renderer

namespace Program

/-- Renders a program against a context and writes down every lookup of a filter. -/
def renderLogged (types : TypeRegistry) (r : Renderer) (indent : Bool) (p : Program)
    (context : Data) : Except Failure Text × List Lookup :=
  let ended := p.runIn types r.evaluator r.loggingSink context { output := { indent } }
  (answer (·.output.text) ended, ended.1.lookups)

variable (types : TypeRegistry) (r : Renderer) (indent : Bool) (p : Program) (context : Data)

/-- Writing the lookups down does not change the answer, and they are those of filters that the
program uses. -/
theorem renderLogged_ok :
    (p.renderLogged types r indent context).1 = p.render types r indent context ∧
      ∀ l ∈ (p.renderLogged types r indent context).2,
        r.filters.Records (p.code.toList.flatMap (·.filterNames)) l := by
  have hempty : r.LogOf (p.code.toList.flatMap (·.filterNames)) { indent }
      { output := { indent } } := ⟨rfl, by simp⟩
  have hended :=
    p.runIn_respects (r.loggingSink_simulates _).respects types r.evaluator context _ _ hempty
  refine ⟨?_, hended.1.records⟩
  rw [render_eq]
  dsimp only [renderLogged]
  rcases answer_of_alike hended Output.text (·.output.text) with
    ⟨e, hplain, hlogged⟩ | ⟨w, s, hlog, hplain, hlogged⟩
  · rw [hlogged, hplain]
  · rw [hlogged, hplain, hlog.output]

/-- A rendering depends on the filters that it looks up. -/
theorem render_of_agreeOn {filters : FilterRegistry}
    (h : FilterRegistry.AgreeOn (p.renderLogged types r indent context).2 r.filters filters) :
    p.render types { r with filters } indent context = p.render types r indent context := by
  obtain ⟨-, hsame⟩ := p.runIn_respects ((r.loggingSink_shadows filters).respects _) types
    r.evaluator context { output := { indent } }
  have hlogged : p.renderLogged types { r with filters } indent context =
      p.renderLogged types r indent context := by
    unfold renderLogged
    rw [hsame (not_not_intro h)]
  rw [← (p.renderLogged_ok types { r with filters } indent context).1, hlogged,
    (p.renderLogged_ok types r indent context).1]

end Program

/-! ## Templates -/

theorem Engine.map_name_filterUses (code : List Instruction) :
    (filterUses code).map (·.name) = code.flatMap (·.filterNames) := by
  rw [filterUses, List.map_flatMap]
  simp only [List.map_map]
  exact congrArg (code.flatMap ·) (funext fun i => List.map_id _)

/-- A template is without warnings just if all filters that it lists are registered. -/
theorem Editor.Diagnostic.ofTemplate_eq_nil_iff {engine : Engine} {t : Template} :
    ofTemplate engine t = [] ↔
      ∀ name ∈ t.filters.map (·.name), (engine.filters.lookup? name).isSome := by
  rw [ofTemplate, List.filterMap_eq_nil_iff, List.forall_mem_map]
  refine forall₂_congr fun use _ => ?_
  rw [ofFilterUse?]
  split <;> simp_all

namespace Engine

/-- The filters that a template lists are the filter marks of its source, in order. A rendering of
it looks up no others, and it depends on nothing of the registry but what it looks up. So if there
is nothing to be warned about, every lookup finds its filter. -/
theorem compile_lists_filters {e : Engine} {name source contextType : Text} {t : Template}
    (h : e.compile name source contextType = .ok t) :
    ((lex name source).filter (·.kind == .filterMark)).map (·.contents) =
        t.filters.map (fun use => ':' :: use.name) ∧
      ∀ (types : TypeRegistry) (r : Renderer) (indent : Bool) (context : Data),
        (t.program.renderLogged types r indent context).1 =
            t.program.render types r indent context ∧
          (∀ l ∈ (t.program.renderLogged types r indent context).2,
            l.name ∈ t.filters.map (·.name) ∧ l.found = (r.filters.lookup? l.name).isSome) ∧
          (∀ filters, FilterRegistry.AgreeOn (t.program.renderLogged types r indent context).2
              r.filters filters →
            t.program.render types { r with filters } indent context =
              t.program.render types r indent context) ∧
          ∀ engine : Engine, engine.filters = r.filters →
            Editor.Diagnostic.ofTemplate engine t = [] →
            ∀ l ∈ (t.program.renderLogged types r indent context).2, l.found = true := by
  obtain ⟨hprogram, hfilters, -⟩ := compile_ok h
  have hnames : t.filters.map (·.name) = t.program.code.toList.flatMap (·.filterNames) := by
    rw [hfilters, map_name_filterUses]
  constructor
  · rw [map_contents_filterMarks, ← Program.filterNames_of_ofTokens_lex hprogram, ← hnames,
      List.map_map]
    rfl
  · intro types r indent context
    obtain ⟨hanswer, hrecords⟩ := t.program.renderLogged_ok types r indent context
    rw [← hnames] at hrecords
    refine ⟨hanswer, hrecords, ?_, ?_⟩
    · intro filters hagree
      exact t.program.render_of_agreeOn types r indent context hagree
    · intro engine hengine hnone l hl
      obtain ⟨hname, hfound⟩ := hrecords l hl
      rw [hfound, ← hengine]
      exact Editor.Diagnostic.ofTemplate_eq_nil_iff.1 hnone l.name hname

/-- A style sheet and a paragraph, rendered with the filters that are always there. -/
theorem compile_lists_filters_of_style_sheet :
    ∃ t : Template,
      ({} : Engine).compile [] ":css\n  a\n%p :plain b".toList "<nil>".toList = .ok t ∧
      t.filters.map (fun use => ':' :: use.name) = [":css".toList, ":plain".toList] ∧
      ((lex [] ":css\n  a\n%p :plain b".toList).filter (·.kind == .filterMark)).map (·.contents) =
        [":css".toList, ":plain".toList] ∧
      (t.program.renderLogged {} ⟨.defaults, none⟩ false .null).2 =
        [⟨"css".toList, true⟩, ⟨"plain".toList, true⟩] ∧
      (∀ l ∈ (t.program.renderLogged {} ⟨.defaults, none⟩ false .null).2, l.found = true) ∧
      t.program.render {} ⟨FilterRegistry.defaults.insert ['x'] Filter.plain, none⟩ false .null =
        t.program.render {} ⟨.defaults, none⟩ false .null := by
  let t : Template := ⟨[], ⟨"<nil>".toList, #[
    .filtered {} "css".toList ['a'] 0,
    .output { line := 2, offset := 9 } [.literal "<p>".toList, .filter "plain".toList ['b'],
      .literal "</p>".toList] 0]⟩,
    [⟨"css".toList, {}⟩, ⟨"plain".toList, { line := 2, offset := 9 }⟩]⟩
  have h : ({} : Engine).compile [] ":css\n  a\n%p :plain b".toList "<nil>".toList = .ok t := by
    decide +kernel
  have hlisted : t.filters.map (fun use => ':' :: use.name) = [":css".toList, ":plain".toList] := by
    decide +kernel
  have hlog : (t.program.renderLogged {} ⟨.defaults, none⟩ false .null).2 =
      [⟨"css".toList, true⟩, ⟨"plain".toList, true⟩] := by
    decide +kernel
  have hnone : Editor.Diagnostic.ofTemplate {} t = [] := by decide +kernel
  have hagree : FilterRegistry.AgreeOn (t.program.renderLogged {} ⟨.defaults, none⟩ false .null).2
      .defaults (FilterRegistry.defaults.insert ['x'] Filter.plain) := by
    intro l hl
    rw [hlog] at hl
    rcases List.mem_cons.1 hl with rfl | hl
    · rfl
    · rw [List.mem_singleton.1 hl]
      rfl
  obtain ⟨hmarks, hrenders⟩ := compile_lists_filters h
  obtain ⟨-, -, hdepends, hfound⟩ := hrenders {} ⟨.defaults, none⟩ false .null
  exact ⟨t, h, hlisted, hmarks.trans hlisted, hlog, hfound {} rfl hnone, hdepends _ hagree⟩

end Engine
end Offside
