import Mathlib.Data.List.Induction
import Mathlib.Data.List.Nodup
import Offside.Proofs.TextOrder
import Offside.Workspace

/-!
# Workspaces over whole runs

A workspace is used operation by operation, and the disk may be a different one each time. What it
keeps for a full path is determined by the history: the last operation that had a say in the path
compiled a template, and this template is what is kept (`get?_run`). What one operation does is
said once for loading (`load_cases`) and once for loading contents (`loadContents_cases`).

The full paths that were asked for come out in strictly ascending order, each once.
-/

namespace Offside

namespace Workspace

/-! ## Operations -/

/-- A use of a workspace. Where a file may be read, `disk` says what reading a full path gives at
that moment. -/
inductive Op where
  | load (disk : Text → Except ReadError Text) (path : Text)
  | render (disk : Text → Except ReadError Text) (path : Text) (context : Data)
  | loadContents (path contents : Text)
  | invalidate (path : Text)

/-- The path that an operation is about, as it is spelled. -/
def Op.path : Op → Text
  | load _ path => path
  | render _ path _ => path
  | loadContents path _ => path
  | invalidate path => path

/-- The disk, for the operations that ask for a file. -/
def Op.disk? : Op → Option (Text → Except ReadError Text)
  | load disk _ => some disk
  | render disk _ _ => some disk
  | _ => none

/-- The workspace after an operation. -/
def step (w : Workspace) : Op → Workspace
  | .load disk path => (w.load disk path).2
  | .render disk path context => (w.render disk path context).2
  | .loadContents path contents => (w.loadContents path contents).2
  | .invalidate path => w.invalidate path

/-- The workspace after a sequence of operations. -/
def run (w : Workspace) (ops : List Op) : Workspace := ops.foldl step w

@[simp] theorem run_nil (w : Workspace) : w.run [] = w := rfl

@[simp] theorem run_concat (w : Workspace) (ops : List Op) (op : Op) :
    w.run (ops ++ [op]) = (w.run ops).step op := by
  rw [run, List.foldl_append]
  rfl

/-! ## What one operation does -/

/-- In this state the operation compiles the file of a full path, or contents for it, and keeps
`c`. A file is compiled only if nothing is kept for it. -/
inductive Compiles (w : Workspace) (full : Text) : Op → Compiled → Prop where
  | file {op : Op} {disk : Text → Except ReadError Text} {contents : Text} {template : Template}
      (hasks : op.disk? = some disk) (hpath : w.fullPath op.path = full)
      (hmissing : w.get? full = none) (hreads : disk full = .ok contents)
      (hcompiles : w.engine.compile op.path contents w.contextType = .ok template) :
      Compiles w full op ⟨w.next, template⟩
  | contents {path contents : Text} {template : Template} (hpath : w.fullPath path = full)
      (hcompiles : w.engine.compile path contents w.contextType = .ok template) :
      Compiles w full (.loadContents path contents) ⟨w.next, template⟩

/-- In this state the operation has a say in what is kept for a full path: it drops it, it tries
to compile contents for it, or it compiles it. -/
inductive Affects (w : Workspace) (full : Text) : Op → Prop where
  | invalidated {path : Text} (hpath : w.fullPath path = full) : Affects w full (.invalidate path)
  | attempted {path contents : Text} (hpath : w.fullPath path = full) :
      Affects w full (.loadContents path contents)
  | compiled {op : Op} {c : Compiled} (hcompiles : Compiles w full op c) : Affects w full op

section Step

variable {w : Workspace} {full : Text} {op : Op}

theorem Compiles.path_eq {c : Compiled} (h : w.Compiles full op c) : w.fullPath op.path = full := by
  cases h with
  | file _ hpath => exact hpath
  | contents hpath => exact hpath

theorem Affects.path_eq (h : w.Affects full op) : w.fullPath op.path = full := by
  cases h with
  | invalidated hpath => exact hpath
  | attempted hpath => exact hpath
  | compiled hcompiles => exact hcompiles.path_eq

end Step

/-- Marks a full path as asked for. -/
def request (w : Workspace) (full : Text) : Workspace :=
  { w with requested := w.requested.insert full }

/-- Keeps a template under a full path. -/
def keep (w : Workspace) (full : Text) (template : Template) : Workspace :=
  { w with compiled := w.compiled.set full ⟨w.next, template⟩, next := w.next + 1 }

theorem compile_of_ok {w : Workspace} {path contents : Text} {template : Template}
    (h : w.engine.compile path contents w.contextType = .ok template) :
    w.compile path contents = (.ok ⟨w.next, template⟩, w.keep (w.fullPath path) template) := by
  rw [compile, h]
  rfl

theorem compile_of_error {w : Workspace} {path contents : Text} {p : Located TemplateProblem}
    (h : w.engine.compile path contents w.contextType = .error p) :
    ∃ e, w.compile path contents = (.error e, w) := by
  rw [compile, h]
  exact ⟨_, rfl⟩

theorem load_of_kept {w : Workspace} {path : Text} {c : Compiled}
    (h : w.get? (w.fullPath path) = some c) (disk : Text → Except ReadError Text) :
    w.load disk path = (.ok c, w.request (w.fullPath path)) := by
  unfold load
  simp only [get?] at h ⊢
  rw [h]
  rfl

theorem load_of_readable {w : Workspace} {path contents : Text}
    {disk : Text → Except ReadError Text} (h : w.get? (w.fullPath path) = none)
    (hreads : disk (w.fullPath path) = .ok contents) :
    w.load disk path = (w.request (w.fullPath path)).compile path contents := by
  unfold load
  simp only [get?] at h ⊢
  rw [h, hreads]
  rfl

theorem load_of_unreadable {w : Workspace} {path : Text} {problem : ReadError}
    {disk : Text → Except ReadError Text} (h : w.get? (w.fullPath path) = none)
    (hfails : disk (w.fullPath path) = .error problem) :
    ∃ e, w.load disk path = (.error e, w.request (w.fullPath path)) := by
  unfold load
  simp only [get?] at h ⊢
  rw [h, hfails]
  cases problem <;> exact ⟨_, rfl⟩

/-- Loading answers with what is kept, or compiles what the disk has, or fails; it marks the path
in any case, and only the second of these changes what is kept. -/
theorem load_cases (w : Workspace) (disk : Text → Except ReadError Text) (path : Text) :
    (∃ c, w.get? (w.fullPath path) = some c ∧
      w.load disk path = (.ok c, w.request (w.fullPath path))) ∨
    (∃ contents template, w.get? (w.fullPath path) = none ∧
      disk (w.fullPath path) = .ok contents ∧
      w.engine.compile path contents w.contextType = .ok template ∧
      w.load disk path = (.ok ⟨w.next, template⟩,
        (w.request (w.fullPath path)).keep (w.fullPath path) template)) ∨
    (∀ contents template, disk (w.fullPath path) = .ok contents →
        w.engine.compile path contents w.contextType ≠ .ok template) ∧
      ∃ e, w.load disk path = (.error e, w.request (w.fullPath path)) := by
  cases hkept : w.get? (w.fullPath path) with
  | some c => exact .inl ⟨c, rfl, load_of_kept hkept disk⟩
  | none =>
    refine .inr ?_
    cases hreads : disk (w.fullPath path) with
    | error problem =>
      refine .inr ⟨fun contents template => ?_, load_of_unreadable hkept hreads⟩
      intro h
      cases h
    | ok contents =>
      have hloads := load_of_readable hkept hreads
      cases hcompiles : w.engine.compile path contents w.contextType with
      | ok template =>
        refine .inl ⟨contents, template, rfl, rfl, hcompiles, ?_⟩
        rw [hloads]
        exact compile_of_ok (w := w.request (w.fullPath path)) hcompiles
      | error p =>
        refine .inr ⟨?_, ?_⟩
        · rintro _ template ⟨⟩
          rw [hcompiles]
          exact nofun
        · rw [hloads]
          exact compile_of_error (w := w.request (w.fullPath path)) hcompiles

/-- Loading contents compiles them and keeps the template, or fails and keeps nothing. -/
theorem loadContents_cases (w : Workspace) (path contents : Text) :
    (∃ template, w.engine.compile path contents w.contextType = .ok template ∧
      w.loadContents path contents = (.ok ⟨w.next, template⟩,
        (w.erase (w.fullPath path)).keep (w.fullPath path) template)) ∨
    (∀ template, w.engine.compile path contents w.contextType ≠ .ok template) ∧
      ∃ e, w.loadContents path contents = (.error e, w.erase (w.fullPath path)) := by
  cases hcompiles : w.engine.compile path contents w.contextType with
  | ok template =>
    exact .inl ⟨template, rfl, compile_of_ok (w := w.erase (w.fullPath path)) hcompiles⟩
  | error p =>
    exact .inr ⟨nofun, compile_of_error (w := w.erase (w.fullPath path)) hcompiles⟩

theorem render_snd (w : Workspace) (disk : Text → Except ReadError Text) (path : Text)
    (context : Data) : (w.render disk path context).2 = (w.load disk path).2 := by
  unfold render
  split <;> rename_i h <;> rw [h]

/-- Asking for a file changes the workspace as loading does, whether it is rendered or not. -/
theorem step_of_disk? {op : Op} {disk : Text → Except ReadError Text}
    (h : op.disk? = some disk) (w : Workspace) : w.step op = (w.load disk op.path).2 := by
  cases op with
  | load _ path =>
    cases h
    rfl
  | render _ path context =>
    cases h
    exact render_snd w _ path context
  | loadContents path contents => cases h
  | invalidate path => cases h

/-- The ways in which an operation changes a workspace. -/
inductive Changes (w : Workspace) (op : Op) : Workspace → Prop where
  /-- A file is kept already, or cannot be loaded. -/
  | asked (hasks : op.disk?.isSome = true) (hspared : ¬ w.Affects (w.fullPath op.path) op) :
      Changes w op (w.request (w.fullPath op.path))
  | loaded {template : Template} (hasks : op.disk?.isSome = true)
      (hcompiles : w.Compiles (w.fullPath op.path) op ⟨w.next, template⟩) :
      Changes w op ((w.request (w.fullPath op.path)).keep (w.fullPath op.path) template)
  | replaced {template : Template} (hsilent : op.disk?.isSome = false)
      (hcompiles : w.Compiles (w.fullPath op.path) op ⟨w.next, template⟩) :
      Changes w op ((w.erase (w.fullPath op.path)).keep (w.fullPath op.path) template)
  /-- What is kept is dropped, on demand or because contents do not compile. -/
  | dropped (hsilent : op.disk?.isSome = false) (haffects : w.Affects (w.fullPath op.path) op)
      (hfailed : ∀ c, ¬ w.Compiles (w.fullPath op.path) op c) :
      Changes w op (w.erase (w.fullPath op.path))

theorem not_affects_of_disk? {w : Workspace} {op : Op} {disk : Text → Except ReadError Text}
    {full : Text} (hasks : op.disk? = some disk) (h : ∀ c, ¬ w.Compiles full op c) :
    ¬ w.Affects full op := by
  rintro (_ | _ | hcompiles)
  · cases hasks
  · cases hasks
  · exact h _ hcompiles

theorem changes_load {w : Workspace} {op : Op} {disk : Text → Except ReadError Text}
    (hasks : op.disk? = some disk) : w.Changes op (w.load disk op.path).2 := by
  have hsome : op.disk?.isSome = true := Option.isSome_of_eq_some hasks
  rcases w.load_cases disk op.path with
    ⟨c, hkept, hloads⟩ | ⟨contents, template, hmissing, hreads, hcompiles, hloads⟩ |
      ⟨hfails, e, hloads⟩
  · -- a file that is kept is not compiled again, whatever the disk has by now
    rw [hloads]
    refine .asked hsome (not_affects_of_disk? hasks ?_)
    rintro c (⟨-, -, hmissing, -, -⟩ | _)
    · rw [hkept] at hmissing
      cases hmissing
    · cases hasks
  · rw [hloads]
    exact .loaded hsome (.file hasks rfl hmissing hreads hcompiles)
  · -- there is only one disk to read from, and what it has does not compile
    rw [hloads]
    refine .asked hsome (not_affects_of_disk? hasks ?_)
    rintro c (⟨hasks', -, -, hreads, hcompiles⟩ | _)
    · cases hasks.symm.trans hasks'
      exact hfails _ _ hreads hcompiles
    · cases hasks

theorem changes_loadContents (w : Workspace) (path contents : Text) :
    w.Changes (.loadContents path contents) (w.loadContents path contents).2 := by
  rcases w.loadContents_cases path contents with ⟨template, hcompiles, hloads⟩ | ⟨hfails, e, hloads⟩
  · rw [hloads]
    exact .replaced rfl (.contents rfl hcompiles)
  · rw [hloads]
    refine .dropped rfl (.attempted rfl) ?_
    rintro c (⟨hasks, -, -, -, -⟩ | ⟨-, hcompiles⟩)
    · cases hasks
    · exact hfails _ hcompiles

/-- Every operation changes the workspace in one of these ways. -/
theorem changes_step (w : Workspace) (op : Op) : w.Changes op (w.step op) := by
  cases op with
  | load disk path => exact changes_load rfl
  | render disk path context =>
    rw [step_of_disk? rfl]
    exact changes_load rfl
  | loadContents path contents => exact changes_loadContents w path contents
  | invalidate path =>
    refine .dropped rfl (.invalidated rfl) ?_
    rintro c (⟨hasks, -, -, -, -⟩)
    cases hasks

section Changes

variable {w w' : Workspace} {full : Text} {op : Op}

theorem get?_keep (w : Workspace) (full other : Text) (template : Template) :
    (w.keep full template).get? other =
      if full = other then some ⟨w.next, template⟩ else w.get? other :=
  Table.get?_set ..

theorem get?_erase (w : Workspace) (full other : Text) :
    (w.erase full).get? other = if full = other then none else w.get? other :=
  Table.get?_erase ..

/-- An operation changes what is kept for its own full path only. -/
theorem Changes.get?_of_ne (h : w.Changes op w') (hother : w.fullPath op.path ≠ full) :
    w'.get? full = w.get? full := by
  cases h with
  | asked => rfl
  | loaded =>
    rw [get?_keep, if_neg hother]
    rfl
  | replaced => rw [get?_keep, if_neg hother, get?_erase, if_neg hother]
  | dropped => rw [get?_erase, if_neg hother]

theorem Compiles.unique {c c' : Compiled} (h : w.Compiles full op c) (h' : w.Compiles full op c') :
    c = c' := by
  cases h with
  | file hasks _ _ hreads hcompiles =>
    cases h' with
    | file hasks' _ _ hreads' hcompiles' =>
      cases hasks.symm.trans hasks'
      cases hreads.symm.trans hreads'
      cases hcompiles.symm.trans hcompiles'
      rfl
    | contents => cases hasks
  | contents _ hcompiles =>
    cases h' with
    | file hasks => cases hasks
    | contents _ hcompiles' =>
      cases hcompiles.symm.trans hcompiles'
      rfl

theorem Changes.get?_of_compiles {c : Compiled} (h : w.Changes op w')
    (hcompiles : w.Compiles full op c) : w'.get? full = some c := by
  obtain rfl := hcompiles.path_eq
  cases h with
  | asked _ hspared => exact absurd (.compiled hcompiles) hspared
  | loaded _ hcompiles' =>
    rw [get?_keep, if_pos rfl, hcompiles.unique hcompiles']
    rfl
  | replaced _ hcompiles' =>
    rw [get?_keep, if_pos rfl, hcompiles.unique hcompiles']
    rfl
  | dropped _ _ hfailed => exact absurd hcompiles (hfailed c)

theorem Changes.get?_of_not_affects (h : w.Changes op w') (hspared : ¬ w.Affects full op) :
    w'.get? full = w.get? full := by
  by_cases hown : w.fullPath op.path = full
  · subst hown
    cases h with
    | asked => rfl
    | loaded _ hcompiles => exact absurd (.compiled hcompiles) hspared
    | replaced _ hcompiles => exact absurd (.compiled hcompiles) hspared
    | dropped _ haffects => exact absurd haffects hspared
  · exact h.get?_of_ne hown

theorem Changes.get?_eq_none (h : w.Changes op w') (haffects : w.Affects full op)
    (hfailed : ∀ c, ¬ w.Compiles full op c) : w'.get? full = none := by
  obtain rfl := haffects.path_eq
  cases h with
  | asked _ hspared => exact absurd haffects hspared
  | loaded _ hcompiles => exact absurd hcompiles (hfailed _)
  | replaced _ hcompiles => exact absurd hcompiles (hfailed _)
  | dropped => rw [get?_erase, if_pos rfl]

/-- What is kept after an operation: what it compiled, or what was kept before if it had no say. -/
theorem Changes.get?_eq_some_iff {c : Compiled} (h : w.Changes op w') :
    w'.get? full = some c ↔ w.Compiles full op c ∨ w.get? full = some c ∧ ¬ w.Affects full op := by
  constructor
  · intro hkept
    by_cases haffects : w.Affects full op
    · by_cases hcompiled : ∃ c', w.Compiles full op c'
      · obtain ⟨c', hcompiles⟩ := hcompiled
        obtain rfl : c' = c := Option.some.inj ((h.get?_of_compiles hcompiles).symm.trans hkept)
        exact .inl hcompiles
      · rw [h.get?_eq_none haffects (not_exists.mp hcompiled)] at hkept
        cases hkept
    · rw [h.get?_of_not_affects haffects] at hkept
      exact .inr ⟨hkept, haffects⟩
  · rintro (hcompiles | ⟨hkept, hspared⟩)
    · exact h.get?_of_compiles hcompiles
    · rw [h.get?_of_not_affects hspared, hkept]

/-- The root stays what it is, and with it the full path of every spelling. -/
theorem Changes.fullPath_eq (h : w.Changes op w') (path : Text) :
    w'.fullPath path = w.fullPath path := by
  cases h <;> rfl

theorem Changes.requested_eq (h : w.Changes op w') :
    w'.requested =
      if op.disk?.isSome then w.requested.insert (w.fullPath op.path) else w.requested := by
  cases h with
  | asked hasks =>
    rw [if_pos hasks]
    rfl
  | loaded hasks =>
    rw [if_pos hasks]
    rfl
  | replaced hsilent =>
    rw [hsilent]
    rfl
  | dropped hsilent =>
    rw [hsilent]
    rfl

end Changes

/-- A load that fails leaves all that is kept as it is. -/
theorem compiled_step_of_load_error {w : Workspace} {op : Op}
    {disk : Text → Except ReadError Text} {e : Error} (hasks : op.disk? = some disk)
    (h : (w.load disk op.path).1 = .error e) : (w.step op).compiled = w.compiled := by
  rw [step_of_disk? hasks]
  rcases w.load_cases disk op.path with
    ⟨c, -, hloads⟩ | ⟨contents, template, -, -, -, hloads⟩ | ⟨-, e, hloads⟩
  · rw [hloads]
    rfl
  · rw [hloads] at h
    cases h
  · rw [hloads]
    rfl

theorem get?_loadContents_of_error {w : Workspace} {path contents : Text} {e : Error}
    (h : (w.loadContents path contents).1 = .error e) :
    (w.loadContents path contents).2.get? (w.fullPath path) = none := by
  rcases w.loadContents_cases path contents with ⟨template, -, hloads⟩ | ⟨-, e, hloads⟩
  · rw [hloads] at h
    cases h
  · rw [hloads, get?_erase, if_pos rfl]

/-! ## Histories -/

/-- Some operation of the run compiled the template of the full path and kept it as `c`, and none
of the later ones had a say in that path. -/
def LastCompiled (w : Workspace) (ops : List Op) (full : Text) (c : Compiled) : Prop :=
  ∃ before op after, ops = before ++ op :: after ∧ (w.run before).Compiles full op c ∧
    ∀ mid later rest, after = mid ++ later :: rest →
      ¬ (w.run (before ++ op :: mid)).Affects full later

theorem lastCompiled_concat (w : Workspace) (ops : List Op) (op : Op) (full : Text)
    (c : Compiled) :
    w.LastCompiled (ops ++ [op]) full c ↔
      (w.run ops).Compiles full op c ∨
        w.LastCompiled ops full c ∧ ¬ (w.run ops).Affects full op := by
  constructor
  · rintro ⟨before, last, after, heq, hcompiles, hspared⟩
    -- the operation that compiled is the new one, or the new one stands at the end of `after`
    rcases after.eq_nil_or_concat' with rfl | ⟨front, final, rfl⟩
    · obtain ⟨rfl, ⟨⟩⟩ := List.append_inj' heq rfl
      exact .inl hcompiles
    · rw [← List.cons_append, ← List.append_assoc] at heq
      obtain ⟨rfl, ⟨⟩⟩ := List.append_inj' heq rfl
      refine .inr ⟨⟨before, last, front, rfl, hcompiles, ?_⟩, hspared front op [] rfl⟩
      rintro mid later rest rfl
      exact hspared mid later (rest ++ [op]) (by simp)
  · rintro (hcompiles | ⟨⟨before, last, after, rfl, hcompiles, hspared⟩, hfree⟩)
    · refine ⟨ops, op, [], rfl, hcompiles, ?_⟩
      intro mid later rest heq
      simp at heq
    · refine ⟨before, last, after ++ [op], by simp, hcompiles, ?_⟩
      intro mid later rest heq
      rcases rest.eq_nil_or_concat' with rfl | ⟨front, final, rfl⟩
      · obtain ⟨rfl, ⟨⟩⟩ := List.append_inj' heq rfl
        exact hfree
      · rw [← List.cons_append, ← List.append_assoc] at heq
        obtain ⟨rfl, ⟨⟩⟩ := List.append_inj' heq rfl
        exact hspared mid later front rfl

/-- From an empty cache on, what is kept for a full path is what was last compiled for it. -/
theorem get?_run {w : Workspace} (hempty : w.compiled = []) (ops : List Op) (full : Text)
    (c : Compiled) : (w.run ops).get? full = some c ↔ w.LastCompiled ops full c := by
  induction ops using List.reverseRecOn with
  | nil =>
    constructor
    · intro hkept
      rw [run_nil, get?, hempty] at hkept
      cases hkept
    · rintro ⟨before, op, after, heq, -⟩
      simp at heq
  | append_singleton ops op ih =>
    rw [run_concat, (changes_step _ op).get?_eq_some_iff, ih, lastCompiled_concat]

theorem fullPath_run (w : Workspace) (ops : List Op) (path : Text) :
    (w.run ops).fullPath path = w.fullPath path := by
  induction ops using List.reverseRecOn with
  | nil => rfl
  | append_singleton ops op ih => rw [run_concat, (changes_step _ op).fullPath_eq, ih]

theorem mem_requested_run (w : Workspace) (ops : List Op) (full : Text) :
    full ∈ (w.run ops).requested ↔
      full ∈ w.requested ∨ ∃ op ∈ ops, op.disk?.isSome = true ∧ w.fullPath op.path = full := by
  induction ops using List.reverseRecOn with
  | nil => simp
  | append_singleton ops op ih =>
    rw [run_concat, (changes_step _ op).requested_eq, fullPath_run]
    by_cases hasks : op.disk?.isSome = true
    · rw [if_pos hasks, List.mem_insert_iff, ih, or_comm, or_assoc]
      simp [hasks, or_and_right, exists_or, eq_comm (a := full)]
    · rw [if_neg hasks, ih]
      simp [hasks, or_and_right, exists_or]

theorem nodup_requested_run {w : Workspace} (h : w.requested.Nodup) (ops : List Op) :
    (w.run ops).requested.Nodup := by
  induction ops using List.reverseRecOn with
  | nil => exact h
  | append_singleton ops op ih =>
    rw [run_concat, (changes_step _ op).requested_eq]
    split
    · exact List.Nodup.insert ih
    · exact ih

theorem pairwise_requestedFiles {w : Workspace} (h : w.requested.Nodup) :
    w.requestedFiles.Pairwise (fun s t => Text.lt s t = true) := by
  have hsorted : w.requestedFiles.Pairwise (fun s t => Text.le s t = true) :=
    @List.pairwise_mergeSort _ Text.le (fun _ _ _ => Text.le_trans) Text.le_total _
  have hdistinct : w.requestedFiles.Nodup := (List.mergeSort_perm ..).nodup_iff.mpr h
  exact (hsorted.and hdistinct).imp fun hboth => Text.lt_of_le_of_ne hboth.1 hboth.2

/-- Over every run of a new workspace, whatever the disk is each time and however paths are
spelled: what is kept for a full path is what the last operation with a say in it compiled, from
what it read or was given at that moment; a load that fails keeps all as it was; contents that
fail leave their path without a template; operations on other full paths change nothing; and the
requested files are the full paths that loading or rendering was asked for, each once and in
strictly ascending order. -/
theorem run_keeps_last_compiled (root : Text) (engine : Engine) (contextType : Text)
    (ops : List Op) (start w : Workspace) (hstart : start = { root, engine, contextType })
    (hw : w = start.run ops) :
    (∀ full c, w.get? full = some c ↔ start.LastCompiled ops full c) ∧
      (∀ op disk e, op.disk? = some disk → (w.load disk op.path).1 = .error e →
        (w.step op).compiled = w.compiled) ∧
      (∀ path contents e, (w.loadContents path contents).1 = .error e →
        (w.loadContents path contents).2.get? (w.fullPath path) = none) ∧
      (∀ op full, w.fullPath op.path ≠ full → (w.step op).get? full = w.get? full) ∧
      w.requestedFiles.Pairwise (fun s t => Text.lt s t = true) ∧
      ∀ full, full ∈ w.requestedFiles ↔
        ∃ op ∈ ops, op.disk?.isSome = true ∧ start.fullPath op.path = full := by
  subst hstart hw
  refine ⟨get?_run rfl ops, ?_, ?_, ?_, ?_, ?_⟩
  · intro op disk e hasks hfailed
    exact compiled_step_of_load_error hasks hfailed
  · intro path contents e hfailed
    exact get?_loadContents_of_error hfailed
  · intro op full hother
    exact (changes_step _ op).get?_of_ne hother
  · exact pairwise_requestedFiles (nodup_requested_run List.nodup_nil ops)
  · intro full
    rw [requestedFiles, List.mem_mergeSort, mem_requested_run]
    simp

/-- A new workspace. -/
private def site : Workspace := { root := "/site".toList, engine := {}, contextType := [] }

/-- A page that is missing at first, then is edited, and then is asked for by another spelling. -/
private def editing : List Op :=
  [.load (fun _ => .error .missing) "page.kor".toList,
    .loadContents "page.kor".toList "%p Hello".toList,
    .render (fun _ => .error .missing) "./drafts/../page.kor".toList .null,
    .invalidate "other.kor".toList]

/-- The edited page is kept, for all spellings, until it is edited into something that does not
compile. -/
theorem run_keeps_last_compiled_of_editing :
    ∃ c, (site.run editing).get? "/site/page.kor".toList = some c ∧
      site.LastCompiled editing "/site/page.kor".toList c ∧
      ((site.run editing).loadContents "page.kor".toList "%p= (".toList).1.toBool = false ∧
      ((site.run editing).loadContents "page.kor".toList "%p= (".toList).2.get?
        "/site/page.kor".toList = none ∧
      ((site.run editing).step (.invalidate "other.kor".toList)).get?
        "/site/page.kor".toList = some c ∧
      (site.run editing).requestedFiles = ["/site/page.kor".toList] := by
  obtain ⟨hkept, -, hfailing, hother, -, -⟩ :=
    run_keeps_last_compiled _ _ _ editing site (site.run editing) rfl rfl
  have hkeeps : ((site.run editing).get? "/site/page.kor".toList).isSome = true := by
    decide +kernel
  have hfails : ((site.run editing).loadContents "page.kor".toList "%p= (".toList).1.toBool
      = false := by
    decide +kernel
  obtain ⟨c, hc⟩ := Option.isSome_iff_exists.mp hkeeps
  refine ⟨c, hc, (hkept _ c).mp hc, hfails, ?_, ?_, ?_⟩
  · cases hresult : ((site.run editing).loadContents "page.kor".toList "%p= (".toList).1 with
    | ok c =>
      rw [hresult] at hfails
      cases hfails
    | error e =>
      have hpath : (site.run editing).fullPath "page.kor".toList = "/site/page.kor".toList := by
        decide +kernel
      rw [← hpath]
      exact hfailing _ _ e hresult
  · rw [hother _ _ (by decide +kernel), hc]
  · decide +kernel

end Workspace
end Offside
