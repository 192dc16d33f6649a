import Offside.Command
import Offside.Proofs.DiskWrites
import Offside.Proofs.WorkspaceRuns

/-!
# Rendered files on the disk

The render command reads, compiles and writes file after file. What it leaves on the disk is said
for a whole run: the rendering of a file is at its output path at the end, unless a file that is
listed after it has the same output path (`Command.run_delivers`). Files of the same name in
different folders have, and then only the last of them is delivered
(`Command.run_overwrites_namesake`).

One step keeps the other files as they are, and what the workspace keeps compiled is what the disk
had at the start (`Rendering.Underway`). How the command line is understood, how a context file is
decoded, which engine there is and how files are written is left open (`Command.Parts`,
`Disk.Writing.Replaces`).
-/

namespace Offside

/-! ## Jobs that only read -/

namespace Job

variable {α β : Type} (w : World) (writing : Disk.Writing)

/-- The job writes nothing, and tells nothing either. -/
def OnlyReads : Job α → Prop
  | done _ => True
  | read _ next => ∀ found, (next found).OnlyReads
  | _ => False

namespace OnlyReads

theorem runOn_snd {j : Job α} (h : j.OnlyReads) : (j.runOn w writing).2 = w := by
  induction j with
  | done a => rfl
  | read path next ih => exact ih _ (h _)
  | write | watch | print | log => cases h

theorem andThen {j : Job α} {f : α → Job β} (hj : j.OnlyReads) (hf : ∀ a, (f a).OnlyReads) :
    (j >>= f).OnlyReads := by
  change (j.bind f).OnlyReads
  induction j with
  | done a => exact hf a
  | read path next ih =>
    intro found
    exact ih found (hj found)
  | write | watch | print | log => cases hj

theorem pure (a : α) : OnlyReads (Pure.pure a : Job α) := trivial

theorem readFile (path : Text) : (Job.readFile path).OnlyReads := fun _ => trivial

end OnlyReads

@[simp] theorem runOn_pure (a : α) : (Pure.pure a : Job α).runOn w writing = (a, w) := rfl

@[simp] theorem runOn_readFile (path : Text) :
    (Job.readFile path).runOn w writing = (w.disk.read path, w) := rfl

end Job

namespace CommandLine

open Job

theorem onlyReads_readList (path : Text) : (readList path).OnlyReads := by
  unfold readList
  split
  · exact .pure _
  · refine .andThen (.readFile path) ?_
    intro found
    split
    · exact .pure _
    · split <;> exact .pure _

theorem onlyReads_readWords (lists budget : Nat) (verb : Option Verb)
    (waiting : Option (Item × Switch)) (entries : List Entry) (words : Words) :
    (readWords lists budget verb waiting entries words).OnlyReads := by
  fun_induction readWords lists budget verb waiting entries words with
  | case2 lists verb entries words budget rest path waiting _ ih =>
    refine .andThen (onlyReads_readList path) ?_
    intro listed
    have hlisted := ih listed
    split
    · split <;> exact .pure _
    · exact .pure _
    · exact hlisted
  | case12 lists entries words budget item rest _ _ _ _ hswitch ih =>
    rw [hswitch]
    exact ih
  | case13 lists entries words budget item rest verb _ _ _ _ hswitch =>
    rw [hswitch]
    exact .pure _
  | case14 lists verb entries words budget item rest _ switch on hswitch hvalue _ _ _ ih =>
    rw [hswitch]
    dsimp only
    rw [if_pos hvalue]
    exact ih
  | case15 lists verb entries words budget item rest _ switch on hswitch hvalue _ _ _ ih =>
    rw [hswitch]
    dsimp only
    rw [if_neg hvalue]
    exact ih
  | _ => first | exact .pure _ | assumption

/-- A word that is neither a command nor a switch chooses the rendering command. -/
theorem readWords_of_choice {lists budget : Nat} {entries : List Entry} {words rest : Words}
    {text : Text} (hnext : words.next (shortForms none) = (.value text, rest))
    (hname : Verb.ofName? text = none) :
    readWords lists (budget + 1) none none entries words =
      readWords lists budget (some .render) none entries (rest.push (.value text)) := by
  rw [readWords.eq_def]
  simp [hnext, hname]

theorem readWords_of_file {lists budget : Nat} {entries : List Entry} {words rest : Words}
    {text : Text} (hnext : words.next (shortForms (some .render)) = (.value text, rest)) :
    readWords lists (budget + 1) (some .render) none entries words =
      readWords lists budget (some .render) none (.argument text :: entries) rest := by
  rw [readWords.eq_def]
  simp [hnext]

theorem readWords_of_stop {lists budget : Nat} {verb : Option Verb} {entries : List Entry}
    {words rest : Words} (hnext : words.next (shortForms verb) = (.stop, rest)) :
    readWords lists (budget + 1) verb none entries words =
      Pure.pure (.ok (verb.getD .render, entries.reverse)) := by
  rw [readWords.eq_def]
  simp [hnext]

theorem onlyReads_checkFile (path : Text) : (checkFile path).OnlyReads := by
  refine .andThen (.readFile path) ?_
  intro found
  split <;> exact .pure _

namespace Invocation

theorem onlyReads_fill (i : Invocation) (seen : List Switch) (entries : List Entry) :
    (i.fill seen entries).OnlyReads := by
  induction entries generalizing i seen with
  | nil => exact .pure _
  | cons entry entries ih =>
    cases entry with
    | flag switch on =>
      rw [fill]
      split
      · exact .pure _
      · exact ih _ _
    | setting switch value =>
      rw [fill]
      split
      · exact .pure _
      · dsimp only
        split
        · refine .andThen (onlyReads_checkFile value) ?_
          intro checked
          split
          · exact .pure _
          · exact ih _ _
        · exact ih _ _
    | argument text =>
      refine .andThen (onlyReads_checkFile text) ?_
      intro checked
      split
      · exact .pure _
      · exact ih _ _

/-- Understanding a command line changes nothing. -/
theorem onlyReads_ofLine (line : List Text) : (ofLine line).OnlyReads := by
  refine .andThen (onlyReads_readWords ..) ?_
  intro read
  split
  · exact .pure _
  · refine .andThen (onlyReads_fill ..) ?_
    intro filled
    split <;> exact .pure _

end Invocation
end CommandLine

/-! ## One file -/

theorem eq_ok_of_mapError {ε ε' α : Type} {x : Except ε α} {f : ε → ε'} {a : α}
    (h : x.mapError f = .ok a) : x = .ok a := by
  cases x with
  | error e => cases h
  | ok b =>
    cases h
    rfl

namespace Workspace

/-- What rendering needs in order to succeed: a template that is kept, or the contents of the file,
compiled. Whichever it is, it is kept afterwards. -/
theorem render_ok {w w' : Workspace} {read : Text → Except ReadError Text} {path out : Text}
    {context : Data} (h : w.render read path context = (.ok out, w')) :
    ∃ template, w.engine.render template context = .ok out ∧
      ((∃ c, w.get? (w.fullPath path) = some c ∧ c.template = template ∧
          w' = w.request (w.fullPath path)) ∨
        ∃ contents, read (w.fullPath path) = .ok contents ∧
          w.engine.compile path contents w.contextType = .ok template ∧
          w' = (w.request (w.fullPath path)).keep (w.fullPath path) template) := by
  unfold render at h
  rcases w.load_cases read path with ⟨c, hkept, hload⟩ |
    ⟨contents, template, -, hread, hcompile, hload⟩ | ⟨-, e, hload⟩
  · rw [hload] at h
    obtain ⟨hout, rfl⟩ := Prod.mk.inj h
    exact ⟨c.template, eq_ok_of_mapError hout, .inl ⟨c, hkept, rfl, rfl⟩⟩
  · rw [hload] at h
    obtain ⟨hout, rfl⟩ := Prod.mk.inj h
    exact ⟨template, eq_ok_of_mapError hout, .inr ⟨contents, hread, hcompile, rfl⟩⟩
  · rw [hload] at h
    cases h

end Workspace

namespace Rendering

variable {r : Rendering} {w w' : Workspace} {world world' : Job.World} {writing : Disk.Writing}

theorem isFull_outputPath (h : Path.isRooted r.outDir = true) (file : Text) :
    Path.IsFull (r.outputPath file) :=
  Path.isFull_join h _

/-- A file that is rendered is read, and its output is written. -/
theorem renderFile_ok {file path : Text}
    (h : (r.renderFile w file).runOn world writing = ((.ok path, w'), world')) :
    ∃ out, w.render (fun _ => world.disk.read (w.fullPath file)) file r.context = (.ok out, w') ∧
      writing world.disk (r.outputPath file) out = .ok world'.disk := by
  rw [renderFile, Job.runOn_bind, Job.runOn_readFile] at h
  dsimp only at h
  cases hrender : w.render (fun _ => world.disk.read (w.fullPath file)) file r.context with
  | mk result w₁ =>
    rw [hrender] at h
    cases result with
    | error e => cases h
    | ok out =>
      dsimp only at h
      rw [Job.runOn_bind, Job.writeFile, Job.runOn] at h
      cases hwrite : writing world.disk (r.outputPath file) out with
      | error e =>
        rw [hwrite] at h
        cases h
      | ok disk =>
        rw [hwrite] at h
        cases h
        exact ⟨out, rfl, hwrite⟩

theorem renderAll_cons {file : Text} {files : List Text}
    (h : (r.renderAll w (file :: files)).runOn world writing = (.ok (), world')) :
    ∃ path w₁ world₁, (r.renderFile w file).runOn world writing = ((.ok path, w₁), world₁) ∧
      (r.renderAll w₁ files).runOn world₁ writing = (.ok (), world') := by
  rw [renderAll, Job.runOn_bind] at h
  cases hfile : (r.renderFile w file).runOn world writing with
  | mk answer world₁ =>
    rw [hfile] at h
    obtain ⟨result, w₁⟩ := answer
    cases result with
    | error e => cases h
    | ok path => exact ⟨path, w₁, world₁, rfl, h⟩

/-! ## All files -/

/-- The rendering of a file: what the disk has there, compiled under the file's own name and
rendered. -/
def rendering? (r : Rendering) (w : Workspace) (disk : Disk) (file : Text) : Option Text := do
  let contents ← (disk.read (w.fullPath file)).toOption
  let template ← (w.engine.compile file contents w.contextType).toOption
  (w.engine.render template r.context).toOption

theorem rendering?_eq_some {disk : Disk} {file contents out : Text} {template : Template}
    (hread : disk.read (w.fullPath file) = .ok contents)
    (hcompile : w.engine.compile file contents w.contextType = .ok template)
    (hrender : w.engine.render template r.context = .ok out) :
    r.rendering? w disk file = some out := by
  rw [rendering?, hread]
  change (w.engine.compile file contents w.contextType).toOption >>= _ = _
  rw [hcompile]
  change (w.engine.render template r.context).toOption = _
  rw [hrender]
  rfl

/-- The files that are listed are different files, and none of them is written to. Relative paths
start from a rooted one. -/
structure Separate (r : Rendering) (start : Workspace) (files : List Text) : Prop where
  root : Path.isRooted start.root = true
  outDir : Path.isRooted r.outDir = true
  differ : ∀ f ∈ files, ∀ g ∈ files, start.fullPath f = start.fullPath g → f = g
  apart : ∀ f ∈ files, ∀ g ∈ files, start.fullPath f ≠ r.outputPath g

/-- Between two files of a run that started with the workspace `start` and the disk `disk`: the
workspace keeps nothing but what the disk had at the start, and the files that are to be read are
as they were. -/
structure Underway (start : Workspace) (disk : Disk) (files : List Text) (w : Workspace)
    (now : Disk) : Prop where
  root : w.root = start.root
  engine : w.engine = start.engine
  contextType : w.contextType = start.contextType
  kept : ∀ full c, w.get? full = some c → ∃ file ∈ files, start.fullPath file = full ∧
    ∃ contents, disk.read full = .ok contents ∧
      start.engine.compile file contents start.contextType = .ok c.template
  inputs : ∀ file ∈ files, ∀ contents,
    now.read (start.fullPath file) = .ok contents ↔ disk.read (start.fullPath file) = .ok contents

section Run

variable {start : Workspace} {disk : Disk} {files : List Text}

theorem Underway.fullPath (h : Underway start disk files w world.disk) (path : Text) :
    w.fullPath path = start.fullPath path := by
  rw [Workspace.fullPath, Workspace.fullPath, h.root]

/-- One file: its rendering is at its output path, all other files are as before, and the run goes
on. -/
theorem Underway.renderFile (hwriting : writing.Replaces)
    (h : Underway start disk files w world.disk) (hfiles : r.Separate start files)
    {file path : Text} (hfile : file ∈ files)
    (hrun : (r.renderFile w file).runOn world writing = ((.ok path, w'), world')) :
    Underway start disk files w' world'.disk ∧
      (∃ out, r.rendering? start disk file = some out ∧
        world'.disk.read (r.outputPath file) = .ok out) ∧
      ∀ q, Path.IsFull q → q ≠ r.outputPath file →
        ∀ c, world'.disk.read q = .ok c ↔ world.disk.read q = .ok c := by
  obtain ⟨out, hrender, hwrite⟩ := renderFile_ok hrun
  have hpath := isFull_outputPath hfiles.outDir file
  have hothers : ∀ q, Path.IsFull q → q ≠ r.outputPath file →
      ∀ c, world'.disk.read q = .ok c ↔ world.disk.read q = .ok c :=
    fun q hq hne c => hwriting.others hpath hq hwrite hne
  have hinputs : ∀ f ∈ files, ∀ contents, world'.disk.read (start.fullPath f) = .ok contents ↔
      disk.read (start.fullPath f) = .ok contents := by
    intro f hf contents
    have hsame := hothers _ (Path.isFull_resolve hfiles.root f) (hfiles.apart f hf file hfile)
    exact (hsame contents).trans (h.inputs f hf contents)
  obtain ⟨template, htemplate, ⟨c, hkept, rfl, rfl⟩ | ⟨contents, hread, hcompile, rfl⟩⟩ :=
    Workspace.render_ok hrender
  · -- the template is kept, and no other file has the same path
    rw [h.fullPath] at hkept
    obtain ⟨f, hf, hsame, contents, hread, hcompile⟩ := h.kept _ _ hkept
    obtain rfl := hfiles.differ f hf file hfile hsame
    refine ⟨⟨h.root, h.engine, h.contextType, h.kept, hinputs⟩, ⟨out, ?_, ?_⟩, hothers⟩
    · exact rendering?_eq_some hread hcompile (h.engine ▸ htemplate)
    · exact hwriting.written hpath hwrite
  · rw [h.fullPath] at hread
    rw [h.engine, h.contextType] at hcompile
    have hread := (h.inputs file hfile contents).1 hread
    refine ⟨⟨h.root, h.engine, h.contextType, ?_, hinputs⟩, ⟨out, ?_, ?_⟩, hothers⟩
    · intro full c hc
      rw [Workspace.get?_keep, h.fullPath] at hc
      split at hc
      · rename_i hfull
        cases hc
        exact ⟨file, hfile, hfull, contents, hfull ▸ hread, hcompile⟩
      · exact h.kept full c hc
    · exact rendering?_eq_some hread hcompile (h.engine ▸ htemplate)
    · exact hwriting.written hpath hwrite

/-- All files: every file that no file has the output path of is as before, and the rendering of
each file is at its output path, unless a file after it has the same output path. -/
theorem Underway.renderAll (hwriting : writing.Replaces)
    (h : Underway start disk files w world.disk) (hfiles : r.Separate start files)
    {rest : List Text} (hrest : rest ⊆ files)
    (hrun : (r.renderAll w rest).runOn world writing = (.ok (), world')) :
    (∀ q, Path.IsFull q → (∀ g ∈ rest, r.outputPath g ≠ q) →
      ∀ c, world'.disk.read q = .ok c ↔ world.disk.read q = .ok c) ∧
    ∀ before file after, rest = before ++ file :: after →
      (∀ g ∈ after, r.outputPath g ≠ r.outputPath file) →
      ∃ out, r.rendering? start disk file = some out ∧
        world'.disk.read (r.outputPath file) = .ok out := by
  induction rest generalizing w world with
  | nil =>
    cases hrun
    refine ⟨fun _ _ _ _ => Iff.rfl, ?_⟩
    intro before file after hsplit
    simp at hsplit
  | cons file rest ih =>
    obtain ⟨hfile, hrest⟩ := List.cons_subset.1 hrest
    obtain ⟨path, w₁, world₁, hfirst, hmore⟩ := renderAll_cons hrun
    obtain ⟨hnext, ⟨out, hrendering, hread⟩, hothers⟩ :=
      h.renderFile hwriting hfiles hfile hfirst
    obtain ⟨hframe, hdelivered⟩ := ih hnext hrest hmore
    constructor
    · intro q hq hne c
      obtain ⟨hne, hnes⟩ := List.forall_mem_cons.1 hne
      rw [hframe q hq hnes, hothers q hq (Ne.symm hne)]
    · intro before f after hsplit hlast
      rcases List.cons_eq_append_iff.1 hsplit with ⟨rfl, hcons⟩ | ⟨before, rfl, rfl⟩
      · -- what was written for the first file stays, since the others have other output paths
        obtain ⟨rfl, rfl⟩ := List.cons.inj hcons
        refine ⟨out, hrendering, ?_⟩
        rw [hframe _ (isFull_outputPath hfiles.outDir f) hlast, hread]
      · exact hdelivered before f after rfl hlast

end Run
end Rendering

namespace Command

open CommandLine

/-! ## The command -/

/-- The context of an invocation. -/
def contextOf (parts : Parts) (disk : Disk) (i : Invocation) : Except ContextError Data :=
  match i.context? with
  | none => .ok ContextFile.empty
  | some path => ContextFile.load path (disk.read path) parts.decode

/-- How an invocation renders files. -/
def renderingOf (here : Text) (i : Invocation) (context : Data) : Rendering :=
  { context, here, outDir := Path.resolve here i.outDir, ext := i.ext }

/-- What an invocation starts with. -/
def workspaceOf (parts : Parts) (here : Text) (i : Invocation) (context : Data) : Workspace :=
  let engine := { parts.engine with indent := i.pretty }
  { root := here, engine, contextType := (engine.types.typeOf context).1 }

/-- Where an invocation puts the output of a file. The context has no part in it. -/
def outputOf (here : Text) (i : Invocation) (file : Text) : Text :=
  (renderingOf here i ContextFile.empty).outputPath file

/-- Renders the files of an invocation once. -/
def renderOnce (parts : Parts) (here : Text) (i : Invocation) (context : Data) : Job Outcome := do
  match ← (renderingOf here i context).renderAll (workspaceOf parts here i context)
      i.files.reverse with
  | .error e => fail ("failed to render files: ".toList ++ e)
  | .ok _ => pure { exit := 0 }

section Invocation

variable {parts : Parts} {writing : Disk.Writing} {here : Text} {line : List Text} {i : Invocation}
  {world : Job.World}

theorem runOn_renderFiles_of_error {e : ContextError}
    (h : contextOf parts world.disk i = .error e) :
    (renderFiles here i parts).runOn world writing = (fail e.message).runOn world writing := by
  unfold contextOf at h
  unfold renderFiles
  cases hcontext : i.context? with
  | none =>
    rw [hcontext] at h
    cases h
  | some path =>
    rw [hcontext] at h
    dsimp only at h ⊢
    simp only [Job.runOn_bind, Job.runOn_readFile, Job.runOn_pure, h]

theorem runOn_renderFiles {context : Data} (hwatch : i.watch = false)
    (h : contextOf parts world.disk i = .ok context) :
    (renderFiles here i parts).runOn world writing =
      (renderOnce parts here i context).runOn world writing := by
  unfold contextOf at h
  unfold renderFiles
  cases hcontext : i.context? with
  | none =>
    rw [hcontext] at h
    cases h
    simp only [hwatch]
    rfl
  | some path =>
    rw [hcontext] at h
    dsimp only at h ⊢
    rw [Job.runOn_bind, Job.runOn_readFile, Job.runOn_bind, Job.runOn_pure, h]
    simp only [hwatch]
    rfl

/-- The render command succeeds if there is a context and all files are rendered. -/
theorem renderFiles_ok (hwatch : i.watch = false)
    (hexit : ((renderFiles here i parts).runOn world writing).1.exit = 0) :
    ∃ context, contextOf parts world.disk i = .ok context ∧
      ((renderingOf here i context).renderAll (workspaceOf parts here i context)
        i.files.reverse).runOn world writing =
          (.ok (), ((renderFiles here i parts).runOn world writing).2) := by
  cases hcontext : contextOf parts world.disk i with
  | error e =>
    rw [runOn_renderFiles_of_error hcontext] at hexit
    cases hexit
  | ok context =>
    refine ⟨context, rfl, ?_⟩
    rw [runOn_renderFiles hwatch hcontext, renderOnce, Job.runOn_bind] at hexit ⊢
    cases hall : ((renderingOf here i context).renderAll (workspaceOf parts here i context)
        i.files.reverse).runOn world writing with
    | mk result world' =>
      rw [hall] at hexit
      cases result with
      | error e => cases hexit
      | ok u => rfl

/-- The command renders files as the command line is understood. -/
theorem runOn_run (hline : (parts.understand line).runOn world writing = (.ok i, world))
    (hverb : i.verb = .render) :
    (run here line parts).runOn world writing = (renderFiles here i parts).runOn world writing := by
  rw [run, Job.runOn_bind, hline]
  simp only [hverb]

/-- Suppose that a command line is understood as one that asks to render files once, without a
change to the disk, and that the command succeeds. Then there is a context, and the rendering of a
listed file is found at its output path afterwards unless a file that is listed after it has the
same output path. The files that are listed must be different files, and none of them may be an
output path. Files may be written in any way that leaves the others as they are. -/
theorem run_delivers (hwriting : writing.Replaces) (hhere : Path.isRooted here = true)
    (hline : (parts.understand line).runOn world writing = (.ok i, world))
    (hverb : i.verb = .render) (hwatch : i.watch = false)
    (hexit : ((run here line parts).runOn world writing).1.exit = 0)
    (hdiffer : ∀ f ∈ i.files, ∀ g ∈ i.files, Path.resolve here f = Path.resolve here g → f = g)
    (hapart : ∀ f ∈ i.files, ∀ g ∈ i.files, Path.resolve here f ≠ outputOf here i g) :
    ∃ context, contextOf parts world.disk i = .ok context ∧
      ∀ before file after, i.files.reverse = before ++ file :: after →
        (∀ g ∈ after, outputOf here i g ≠ outputOf here i file) →
        ∃ out, (renderingOf here i context).rendering? (workspaceOf parts here i context) world.disk
            file = some out ∧
          ((run here line parts).runOn world writing).2.disk.read (outputOf here i file) =
            .ok out := by
  rw [runOn_run hline hverb] at hexit ⊢
  obtain ⟨context, hcontext, hall⟩ := renderFiles_ok hwatch hexit
  have hfiles : (renderingOf here i context).Separate (workspaceOf parts here i context) i.files :=
    ⟨hhere, (Path.isFull_resolve hhere i.outDir).isRooted, hdiffer, hapart⟩
  have hstart : Rendering.Underway (workspaceOf parts here i context) world.disk i.files
      (workspaceOf parts here i context) world.disk := by
    refine ⟨rfl, rfl, rfl, ?_, fun _ _ _ => Iff.rfl⟩
    intro full c hc
    cases hc
  have hlisted : i.files.reverse ⊆ i.files := fun _ hf => List.mem_reverse.1 hf
  exact ⟨context, hcontext, (hstart.renderAll hwriting hfiles hlisted hall).2⟩

end Invocation

/-- Two templates of the same name in different folders. -/
def namesakes : Job.World :=
  { disk := (Disk.put { here := "/w".toList } "/w/a/x.kor".toList "%p a".toList).put
      "/w/b/x.kor".toList "%p b".toList }

theorem ofLine_namesakes :
    (Invocation.ofLine ["a/x.kor".toList, "b/x.kor".toList]).runOn namesakes =
      (.ok { verb := .render, files := ["b/x.kor".toList, "a/x.kor".toList] }, namesakes) := by
  refine Prod.ext ?_ ((Invocation.onlyReads_ofLine _).runOn_snd namesakes Disk.write)
  have hline : readLine ["a/x.kor".toList, "b/x.kor".toList] =
      pure (.ok (.render, [.argument "a/x.kor".toList, .argument "b/x.kor".toList])) := by
    refine (readWords_of_choice rfl rfl).trans ?_
    refine (readWords_of_file rfl).trans ?_
    refine (readWords_of_file rfl).trans ?_
    exact readWords_of_stop rfl
  rw [Invocation.ofLine, hline]
  decide +kernel

/-- Of two templates of the same name the last one is delivered. -/
theorem run_delivers_last_namesake :
    let here := "/w".toList
    let line := ["a/x.kor".toList, "b/x.kor".toList]
    let i : Invocation := { verb := .render, files := ["b/x.kor".toList, "a/x.kor".toList] }
    (Invocation.ofLine line).runOn namesakes = (.ok i, namesakes) ∧
      ((run here line).runOn namesakes).1.exit = 0 ∧
      (∀ f ∈ i.files, ∀ g ∈ i.files, Path.resolve here f = Path.resolve here g → f = g) ∧
      (∀ f ∈ i.files, ∀ g ∈ i.files, Path.resolve here f ≠ outputOf here i g) ∧
      ∃ context, contextOf {} namesakes.disk i = .ok context ∧
        ∃ out, (renderingOf here i context).rendering? (workspaceOf {} here i context)
            namesakes.disk "b/x.kor".toList = some out ∧
          ((run here line).runOn namesakes).2.disk.read "/w/x.html".toList = .ok out := by
  intro here line i
  have hline : (({} : Parts).understand line).runOn namesakes = (.ok i, namesakes) :=
    ofLine_namesakes
  have hexit : ((run here line).runOn namesakes).1.exit = 0 := by
    rw [runOn_run hline rfl]
    decide +kernel
  have hdiffer : ∀ f ∈ i.files, ∀ g ∈ i.files,
      Path.resolve here f = Path.resolve here g → f = g := by decide +kernel
  have hapart : ∀ f ∈ i.files, ∀ g ∈ i.files, Path.resolve here f ≠ outputOf here i g := by
    decide +kernel
  obtain ⟨context, hcontext, hdelivered⟩ :=
    run_delivers Disk.replaces_write (by decide) hline rfl rfl hexit hdiffer hapart
  have hpath : outputOf here i "b/x.kor".toList = "/w/x.html".toList := by decide +kernel
  have hlast := hdelivered ["a/x.kor".toList] "b/x.kor".toList [] (by decide) (by simp)
  rw [hpath] at hlast
  exact ⟨hline, hexit, hdiffer, hapart, context, hcontext, hlast⟩

/-- The other one is not: its output path holds the rendering of its namesake, though the command
succeeds, the two are different files, and none of them is written to. -/
theorem run_overwrites_namesake :
    let here := "/w".toList
    let line := ["a/x.kor".toList, "b/x.kor".toList]
    let i : Invocation := { verb := .render, files := ["b/x.kor".toList, "a/x.kor".toList] }
    (Invocation.ofLine line).runOn namesakes = (.ok i, namesakes) ∧
      ((run here line).runOn namesakes).1.exit = 0 ∧
      (i.files.map (Path.resolve here)).Nodup ∧
      (∀ f ∈ i.files, ∀ g ∈ i.files, Path.resolve here f ≠ outputOf here i g) ∧
      ∃ context, contextOf {} namesakes.disk i = .ok context ∧
        (renderingOf here i context).rendering? (workspaceOf {} here i context) namesakes.disk
          "a/x.kor".toList = some "<p>a</p>".toList ∧
        ((run here line).runOn namesakes).2.disk.read (outputOf here i "a/x.kor".toList) =
          .ok "<p>b</p>".toList := by
  intro here line i
  have hline : (({} : Parts).understand line).runOn namesakes = (.ok i, namesakes) :=
    ofLine_namesakes
  rw [runOn_run hline rfl]
  exact ⟨hline, by decide +kernel, by decide +kernel, by decide +kernel, ContextFile.empty, rfl,
    by decide +kernel, by decide +kernel⟩

end Command
end Offside
