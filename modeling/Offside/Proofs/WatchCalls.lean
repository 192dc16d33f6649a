import Mathlib.Data.List.Nodup
import Offside.Watcher

/-!
# Watching files, call after call

To watch a file, its folder has to be reported, and that can be refused at any time. What is said
here holds for all calls one after the other, whatever is answered (`Watcher.After`).

A folder is noted when it is reported and asked for only as long as it is not, so none is reported
twice, and the folders that are noted are those of the files whose call went well. A file, on the
other hand, is noted before its folder is asked for and stays noted if that is refused. So the
watched files are those that there was any call for (`Watcher.isWatched_after`). They are those
whose call went well only if every refused call was made good by another one for the same file; a
call for another file of the folder is enough to have the changes of a refused file reported.
-/

namespace Offside

/-! ## What a job asks for -/

/-- Paths that something was asked for, each with the answer. -/
abbrev Answers := List (Text × Except Text Unit)

/-- The job can end with a result after it asked for changes in folders, which was granted or
refused each time. What is answered, also to anything else that the job asks for, is open. -/
inductive Job.Ends {α : Type} : Job α → Answers → α → Prop
  | done {a : α} : Ends (.done a) [] a
  | read {path : Text} {next : Except ReadError Text → Job α} {found : Except ReadError Text}
      {asked : Answers} {a : α} : Ends (next found) asked a → Ends (.read path next) asked a
  | write {path contents : Text} {next : Except WriteError Unit → Job α}
      {written : Except WriteError Unit} {asked : Answers} {a : α} :
      Ends (next written) asked a → Ends (.write path contents next) asked a
  | watch {folder : Text} {next : Except Text Unit → Job α} {answer : Except Text Unit}
      {asked : Answers} {a : α} :
      Ends (next answer) asked a → Ends (.watch folder next) ((folder, answer) :: asked) a
  | print {text : Text} {next : Job α} {asked : Answers} {a : α} :
      Ends next asked a → Ends (.print text next) asked a
  | log {line : Text} {next : Job α} {asked : Answers} {a : α} :
      Ends next asked a → Ends (.log line next) asked a

/-- What a job comes to on a disk is one of the ways in which it can end. -/
theorem Job.exists_ends_runOn {α : Type} (j : Job α) (world : World) :
    ∃ asked, j.Ends asked (j.runOn world).1 := by
  induction j generalizing world with
  | done a => exact ⟨[], .done⟩
  | read path next ih =>
    obtain ⟨asked, h⟩ := ih (world.disk.read path) world
    exact ⟨asked, .read h⟩
  | write path contents next ih =>
    rw [runOn]
    split
    · obtain ⟨asked, h⟩ := ih (.ok ()) { world with disk := _ }
      exact ⟨asked, .write h⟩
    · obtain ⟨asked, h⟩ := ih (.error _) world
      exact ⟨asked, .write h⟩
  | watch folder next ih =>
    rw [runOn]
    split
    · obtain ⟨asked, h⟩ := ih (.ok ()) world
      exact ⟨_, .watch h⟩
    · obtain ⟨asked, h⟩ := ih (.error _) world
      exact ⟨_, .watch h⟩
  | print text next ih =>
    obtain ⟨asked, h⟩ := ih { world with printed := world.printed ++ text }
    exact ⟨asked, .print h⟩
  | log line next ih =>
    obtain ⟨asked, h⟩ := ih { world with logged := world.logged ++ [line] }
    exact ⟨asked, .log h⟩

theorem Job.ends_done {α : Type} {a b : α} {asked : Answers} :
    (Job.done a).Ends asked b ↔ asked = [] ∧ b = a := by
  constructor
  · rintro ⟨⟩
    exact ⟨rfl, rfl⟩
  · rintro ⟨rfl, rfl⟩
    exact .done

theorem Job.ends_watch {α : Type} {folder : Text} {next : Except Text Unit → Job α}
    {asked : Answers} {a : α} :
    (Job.watch folder next).Ends asked a ↔
      ∃ answer more, asked = (folder, answer) :: more ∧ (next answer).Ends more a := by
  constructor
  · rintro ⟨⟩
    exact ⟨_, _, rfl, ‹_›⟩
  · rintro ⟨answer, more, rfl, h⟩
    exact .watch h

namespace Watcher

/-- The folders that were reported, among those that were asked for. -/
def granted (asked : Answers) : List Text :=
  asked.filterMap fun a => a.2.toOption.map fun _ => a.1

/-- The watcher after calls to watch files, the first of them on a new watcher. For each call there
is the full path of its file and what came of it, and `asked` has what the calls asked for. Paths
are as seen from the folder `here`. -/
inductive After (workspace : Workspace) (here : Text) : (calls asked : Answers) → Watcher → Prop
  | new : After workspace here [] [] { workspace }
  | call {calls asked more : Answers} {w w' : Watcher} {path : Text}
      {result : Except Text Unit} : After workspace here calls asked w →
      (w.watch (Path.resolve here path)).Ends more (result, w') →
      After workspace here (calls ++ [(Path.resolve here path, result)]) (asked ++ more) w'

section Call

variable {w w' : Watcher} {full : Text}

theorem watch_of_mem (h : Path.folder full ∈ w.folders) :
    w.watch full = .done (.ok (), { w with files := w.files.insert full }) := by
  simp only [watch, watchFile, if_pos h]
  rfl

theorem watch_of_not_mem (h : Path.folder full ∉ w.folders) :
    w.watch full = .watch (Path.folder full) fun answer => .done (answer,
      { w with
        folders := granted [(Path.folder full, answer)] ++ w.folders
        files := w.files.insert full }) := by
  have hanswer : ∀ answer : Except Text Unit, w.watchFile (fun _ => answer) full = (answer,
      { w with
        folders := granted [(Path.folder full, answer)] ++ w.folders
        files := w.files.insert full }) := by
    intro answer
    cases answer <;> simp only [watchFile, if_neg h] <;> rfl
  simp only [watch, if_neg h, hanswer]
  rfl

/-- What one call does: the file is noted in any case. Its folder is asked for unless it is noted
already, the answer is the result, and the folder is noted if it is granted. -/
theorem watch_ends_iff {asked : Answers} {result : Except Text Unit} :
    (w.watch full).Ends asked (result, w') ↔
      w' = { w with folders := granted asked ++ w.folders, files := w.files.insert full } ∧
        (Path.folder full ∈ w.folders ∧ asked = [] ∧ result = .ok () ∨
          Path.folder full ∉ w.folders ∧ asked = [(Path.folder full, result)]) := by
  by_cases h : Path.folder full ∈ w.folders
  · rw [watch_of_mem h, Job.ends_done]
    constructor
    · rintro ⟨rfl, he⟩
      cases he
      exact ⟨rfl, .inl ⟨h, rfl, rfl⟩⟩
    · rintro ⟨rfl, ⟨-, rfl, rfl⟩ | ⟨hn, -⟩⟩
      · exact ⟨rfl, rfl⟩
      · exact absurd h hn
  · rw [watch_of_not_mem h, Job.ends_watch]
    constructor
    · rintro ⟨answer, more, rfl, hdone⟩
      obtain ⟨rfl, he⟩ := Job.ends_done.1 hdone
      cases he
      exact ⟨rfl, .inr ⟨h, rfl⟩⟩
    · rintro ⟨rfl, ⟨hm, -⟩ | ⟨-, rfl⟩⟩
      · exact absurd hm h
      · exact ⟨result, [], rfl, .done⟩

end Call

/-! ## What is noted after any calls -/

/-- What holds of a watcher after calls and what they asked for. -/
structure Noted (calls asked : Answers) (w : Watcher) : Prop where
  /-- The files are those of all calls. -/
  mem_files : ∀ p, p ∈ w.files ↔ ∃ result, (p, result) ∈ calls
  /-- The folders are those of the calls that went well. -/
  mem_folders : ∀ f, f ∈ w.folders ↔ ∃ p, Path.folder p = f ∧ (p, .ok ()) ∈ calls
  /-- The folders are those that were granted. -/
  mem_granted : ∀ f, f ∈ w.folders ↔ f ∈ granted asked
  /-- None was granted twice. -/
  nodup_granted : (granted asked).Nodup
  /-- A call fails if its folder is refused, and only then. -/
  mem_refused : ∀ f e, (f, .error e) ∈ asked ↔ ∃ p, Path.folder p = f ∧ (p, .error e) ∈ calls

theorem granted_append (asked more : Answers) :
    granted (asked ++ more) = granted asked ++ granted more :=
  List.filterMap_append

@[simp] theorem granted_nil : granted [] = [] := rfl

@[simp] theorem granted_ok (f : Text) (u : Unit) : granted [(f, .ok u)] = [f] := rfl

@[simp] theorem granted_error (f e : Text) : granted [(f, .error e)] = [] := rfl

/-- A call more is one that may have come to the result for a file of the folder. -/
theorem exists_mem_concat {calls : Answers} {full f : Text}
    {r result : Except Text Unit} :
    (∃ p, Path.folder p = f ∧ (p, r) ∈ calls ++ [(full, result)]) ↔
      (∃ p, Path.folder p = f ∧ (p, r) ∈ calls) ∨ Path.folder full = f ∧ r = result := by
  simp only [List.mem_append, List.mem_singleton, Prod.mk.injEq, and_or_left, exists_or]
  refine or_congr_right ⟨?_, ?_⟩
  · rintro ⟨p, hf, rfl, hr⟩
    exact ⟨hf, hr⟩
  · rintro ⟨hf, hr⟩
    exact ⟨full, hf, rfl, hr⟩

theorem Noted.call {calls asked more : Answers} {w w' : Watcher}
    {full : Text} {result : Except Text Unit} (h : Noted calls asked w)
    (hcall : (w.watch full).Ends more (result, w')) :
    Noted (calls ++ [(full, result)]) (asked ++ more) w' := by
  obtain ⟨rfl, hmore⟩ := watch_ends_iff.1 hcall
  have hfiles : ∀ p, p ∈ w.files.insert full ↔ ∃ r, (p, r) ∈ calls ++ [(full, result)] := by
    intro p
    simp only [List.mem_insert_iff, h.mem_files, List.mem_append, List.mem_singleton,
      Prod.mk.injEq, exists_or]
    simp [or_comm]
  rcases hmore with ⟨hmem, rfl, rfl⟩ | ⟨hmem, rfl⟩
  · -- nothing is asked for, and the folder is there from an earlier call
    refine ⟨hfiles, ?_, ?_, ?_, ?_⟩
    · intro f
      rw [exists_mem_concat, ← h.mem_folders]
      refine ⟨.inl, ?_⟩
      rintro (hf | ⟨rfl, -⟩)
      · exact hf
      · exact hmem
    · simpa using h.mem_granted
    · simpa using h.nodup_granted
    · intro f e
      rw [exists_mem_concat, List.append_nil, h.mem_refused]
      simp
  · cases result with
    | ok u =>
      -- a folder is only asked for if it was not granted before
      have hnew : Path.folder full ∉ granted asked := fun hf => hmem ((h.mem_granted _).2 hf)
      refine ⟨hfiles, ?_, ?_, ?_, ?_⟩
      · intro f
        rw [exists_mem_concat, ← h.mem_folders]
        simp [or_comm, eq_comm]
      · intro f
        rw [granted_append, List.mem_append, List.mem_append, h.mem_granted, or_comm]
      · rw [granted_append]
        refine List.nodup_append.2 ⟨h.nodup_granted, by simp, ?_⟩
        rintro f hf _ hg rfl
        rw [granted_ok, List.mem_singleton] at hg
        exact hnew (hg ▸ hf)
      · intro f e
        rw [exists_mem_concat, List.mem_append, h.mem_refused]
        simp
    | error e =>
      -- nothing but the file is noted
      refine ⟨hfiles, ?_, ?_, ?_, ?_⟩
      · intro f
        rw [exists_mem_concat, ← h.mem_folders]
        simp
      · simpa [granted_append] using h.mem_granted
      · simpa [granted_append] using h.nodup_granted
      · intro f e'
        rw [exists_mem_concat, List.mem_append, h.mem_refused]
        simp [eq_comm]

theorem After.noted {workspace : Workspace} {here : Text} {calls asked : Answers} {w : Watcher}
    (h : After workspace here calls asked w) : Noted calls asked w := by
  induction h with
  | new => exact ⟨by simp, by simp, by simp, .nil, by simp⟩
  | call _ hcall ih => exact ih.call hcall

/-- After any calls, whichever of them had their folders refused:

- A file is watched if there was a call for it, be it refused or not. So the watched files are those
  whose call went well if and only if every refused call was made good by another one for its file.
- The folder of every watched file is noted if and only if for every refused call there was one that
  went well for a file of the same folder.
- The folders that are noted are those that were granted and those of the files whose call went
  well. None was granted twice.
- A call fails if its folder is refused, and only then. -/
theorem isWatched_after {workspace : Workspace} {here : Text} {calls asked : Answers} {w : Watcher}
    (h : After workspace here calls asked w) :
    (∀ p, w.isWatched p = true ↔ ∃ result, (p, result) ∈ calls) ∧
      ((∀ p, w.isWatched p = true ↔ (p, .ok ()) ∈ calls) ↔
        ∀ p e, (p, .error e) ∈ calls → (p, .ok ()) ∈ calls) ∧
      ((∀ p, w.isWatched p = true → Path.folder p ∈ w.folders) ↔
        ∀ p e, (p, .error e) ∈ calls →
          ∃ q, Path.folder q = Path.folder p ∧ (q, .ok ()) ∈ calls) ∧
      (∀ f, f ∈ w.folders ↔ f ∈ granted asked) ∧
      (∀ f, f ∈ w.folders ↔ ∃ p, Path.folder p = f ∧ (p, .ok ()) ∈ calls) ∧
      (granted asked).Nodup ∧
      ∀ f e, (f, .error e) ∈ asked ↔ ∃ p, Path.folder p = f ∧ (p, .error e) ∈ calls := by
  have hnoted := h.noted
  have hwatched : ∀ p, w.isWatched p = true ↔ ∃ result, (p, result) ∈ calls := by
    intro p
    rw [isWatched, List.contains_iff_mem, hnoted.mem_files]
  refine ⟨hwatched, ?_, ?_, hnoted.mem_granted, hnoted.mem_folders, hnoted.nodup_granted,
    hnoted.mem_refused⟩
  · constructor
    · intro hall p e he
      exact (hall p).1 ((hwatched p).2 ⟨_, he⟩)
    · intro hgood p
      rw [hwatched]
      refine ⟨?_, fun hok => ⟨_, hok⟩⟩
      rintro ⟨result, hr⟩
      cases result with
      | ok u => exact hr
      | error e => exact hgood p e hr
  · constructor
    · intro hall p e he
      exact (hnoted.mem_folders _).1 (hall p ((hwatched p).2 ⟨_, he⟩))
    · intro hgood p hp
      rw [hnoted.mem_folders]
      obtain ⟨result, hr⟩ := (hwatched p).1 hp
      cases result with
      | ok u => exact ⟨p, rfl, hr⟩
      | error e => exact hgood p e hr

/-- A file whose folder is refused, another file of the folder, and the first one again: after that
the watched files are those whose call went well. -/
theorem isWatched_after_second_call :
    ∃ w : Watcher, After { root := ['/'], engine := {}, contextType := [] } ['/']
        [("/d/x".toList, .error "no".toList), ("/d/y".toList, .ok ()), ("/d/x".toList, .ok ())]
        [("/d".toList, .error "no".toList), ("/d".toList, .ok ())] w ∧
      (∀ p, w.isWatched p = true ↔ p = "/d/x".toList ∨ p = "/d/y".toList) ∧
      (∀ p, w.isWatched p = true → Path.folder p ∈ w.folders) := by
  let w₀ : Watcher := { workspace := { root := ['/'], engine := {}, contextType := [] } }
  let w₁ : Watcher := { w₀ with files := ["/d/x".toList] }
  let w₂ : Watcher := { w₁ with folders := ["/d".toList], files := ["/d/y".toList, "/d/x".toList] }
  have h₁ : (w₀.watch (Path.resolve ['/'] "d/x".toList)).Ends
      [("/d".toList, .error "no".toList)] (.error "no".toList, w₁) :=
    watch_ends_iff.2 ⟨rfl, .inr ⟨by decide +kernel, rfl⟩⟩
  have h₂ : (w₁.watch (Path.resolve ['/'] "d/y".toList)).Ends
      [("/d".toList, .ok ())] (.ok (), w₂) :=
    watch_ends_iff.2 ⟨rfl, .inr ⟨by decide +kernel, rfl⟩⟩
  have h₃ : (w₂.watch (Path.resolve ['/'] "d/x".toList)).Ends [] (.ok (), w₂) :=
    watch_ends_iff.2 ⟨rfl, .inl ⟨by decide +kernel, rfl, rfl⟩⟩
  have h : After w₀.workspace ['/']
      [("/d/x".toList, .error "no".toList), ("/d/y".toList, .ok ()), ("/d/x".toList, .ok ())]
      [("/d".toList, .error "no".toList), ("/d".toList, .ok ())] w₂ :=
    ((After.new.call h₁).call h₂).call h₃
  obtain ⟨-, hfiles, hfolders, -⟩ := isWatched_after h
  refine ⟨w₂, h, ?_, hfolders.2 ?_⟩
  · intro p
    rw [hfiles.2 (by simp)]
    simp [or_comm]
  · intro p e he
    exact ⟨"/d/x".toList, by simp_all, by simp⟩

/-- On a disk without the folder the one call for a file fails, since changes cannot be reported
there. The file is watched nevertheless, and its folder is not noted. -/
theorem watched_though_refused :
    ∃ (asked : Answers) (w : Watcher),
      (watch { workspace := { root := ['/'], engine := {}, contextType := [] } }
          "/no/x.kor".toList).runOn { disk := {} } =
        ((.error "no such file or directory".toList, w), { disk := {} }) ∧
      After { root := ['/'], engine := {}, contextType := [] } ['/']
        [("/no/x.kor".toList, .error "no such file or directory".toList)] asked w ∧
      w.isWatched "/no/x.kor".toList = true ∧
      ("/no/x.kor".toList, .ok ()) ∉
        ([("/no/x.kor".toList, .error "no such file or directory".toList)] : Answers) ∧
      Path.folder "/no/x.kor".toList ∉ w.folders := by
  let w₀ : Watcher := { workspace := { root := ['/'], engine := {}, contextType := [] } }
  obtain ⟨asked, h⟩ :=
    (w₀.watch (Path.resolve ['/'] "no/x.kor".toList)).exists_ends_runOn { disk := {} }
  exact ⟨asked, { w₀ with files := ["/no/x.kor".toList] }, rfl, After.new.call h,
    by decide +kernel, by simp, by decide +kernel⟩

end Watcher
end Offside
