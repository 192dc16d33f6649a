import Mathlib.Data.List.DropRight
import Mathlib.Data.List.Induction
import Offside.Editor.Session

/-!
# Sessions have no memory but the texts

A session is told about documents, one after the other and in any order. What it answers to an
opening or a change is settled by the text that the document has then, and that text by what was
said about this document since it was opened last (`TextOf`). So every answer is the one that a
fresh session gives when the document is opened with that text, and other documents make no
difference (`Session.answers_by_own_history`). Which engine the session has, how it finds the places
that an editor names and how it reads addresses does not matter.

One thing is kept besides the texts by a session that lasts: the plans of expressions that were
compiled before, whatever document they were in. They are the plans that compiling again would give
(`PlanCache`), in whichever language the expressions are written, so the answers are the same with
them as without.
-/

namespace Offside

namespace Editor

/-! ## Histories -/

/-- What an editor tells a session about a document. -/
inductive Notification where
  | opened (uri text : Text)
  | changed (uri : Text) (changes : List Change)
  | closed (uri : Text)
deriving DecidableEq, Repr

namespace Notification

/-- The document that it is about. -/
def uri : Notification → Text
  | opened uri _ => uri
  | changed uri _ => uri
  | closed uri => uri

/-- The changes that it makes to a document. -/
def changesTo (uri : Text) : Notification → List Change
  | changed u changes => if u = uri then changes else []
  | _ => []

@[simp] theorem changesTo_changed (uri : Text) (changes : List Change) :
    (changed uri changes).changesTo uri = changes := if_pos rfl

theorem changesTo_of_ne {uri : Text} {n : Notification} (h : n.uri ≠ uri) :
    n.changesTo uri = [] := by
  cases n with
  | opened | closed => rfl
  | changed u changes => exact if_neg h

end Notification

/-- The text of a document after a history: the one of its last opening, with all its own changes
since then, in order. There is none unless the document was opened and not closed after that. -/
def TextOf (indexing : Indexing) (uri : Text) (history : List Notification) (text : Text) : Prop :=
  ∃ before start after, history = before ++ .opened uri start :: after ∧
    (∀ n ∈ after, n.uri = uri → ∃ changes, n = .changed uri changes) ∧
    text = (after.flatMap (·.changesTo uri)).foldl (Change.apply indexing) start

section Histories

variable {indexing : Indexing} {uri text : Text} {history : List Notification} {n : Notification}

/-- What one more notification does to the text of a document. -/
theorem textOf_concat :
    TextOf indexing uri (history ++ [n]) text ↔ n = .opened uri text ∨
      ∃ t, TextOf indexing uri history t ∧ (n.uri ≠ uri ∧ text = t ∨
        ∃ changes, n = .changed uri changes ∧
          text = changes.foldl (Change.apply indexing) t) := by
  constructor
  · rintro ⟨before, start, after, hsplit, hafter, rfl⟩
    -- the last notification is the opening itself, or it comes after the opening
    rcases List.eq_nil_or_concat after with rfl | ⟨after, m, rfl⟩
    · obtain ⟨-, hn⟩ := List.append_inj' hsplit rfl
      exact .inl (List.cons.inj hn).1
    · rw [List.concat_eq_append, ← List.cons_append, ← List.append_assoc] at hsplit
      obtain ⟨rfl, hn⟩ := List.append_inj' hsplit rfl
      obtain ⟨rfl, -⟩ := List.cons.inj hn
      rw [List.concat_eq_append] at hafter ⊢
      rw [List.flatMap_append, List.foldl_append, List.flatMap_singleton]
      refine .inr ⟨_, ⟨before, start, after, rfl, ?_, rfl⟩, ?_⟩
      · intro m hm
        exact hafter m (List.mem_append_left _ hm)
      · by_cases huri : n.uri = uri
        · obtain ⟨changes, rfl⟩ := hafter n (by simp) huri
          exact .inr ⟨changes, rfl, by rw [Notification.changesTo_changed]⟩
        · exact .inl ⟨huri, by rw [Notification.changesTo_of_ne huri]; rfl⟩
  · rintro (rfl | ⟨t, ⟨before, start, after, rfl, hafter, rfl⟩, hn⟩)
    · exact ⟨history, text, [], rfl, by simp, rfl⟩
    · refine ⟨before, start, after ++ [n], by simp, ?_, ?_⟩
      · intro m hm huri
        rcases List.mem_append.1 hm with hm | hm
        · exact hafter m hm huri
        · obtain rfl := List.mem_singleton.1 hm
          rcases hn with ⟨hne, -⟩ | ⟨changes, hn, -⟩
          · exact absurd huri hne
          · exact ⟨changes, hn⟩
      · rw [List.flatMap_append, List.foldl_append, List.flatMap_singleton]
        rcases hn with ⟨hne, rfl⟩ | ⟨changes, rfl, rfl⟩
        · rw [Notification.changesTo_of_ne hne]
          rfl
        · rw [Notification.changesTo_changed]

theorem not_textOf_nil : ¬ TextOf indexing uri [] text := by
  rintro ⟨before, start, after, hsplit, -⟩
  cases before <;> cases hsplit

/-- What is said about other documents makes no difference to the text of a document. -/
theorem textOf_filter :
    TextOf indexing uri (history.filter (·.uri = uri)) text ↔ TextOf indexing uri history text := by
  induction history using List.reverseRecOn generalizing text with
  | nil => rfl
  | append_singleton history n ih =>
    rw [List.filter_append, textOf_concat]
    by_cases hn : n.uri = uri
    · rw [List.filter_cons_of_pos (by simpa using hn), List.filter_nil, textOf_concat]
      simp only [ih]
    · rw [List.filter_cons_of_neg (by simpa using hn), List.filter_nil, List.append_nil, ih]
      constructor
      · intro h
        exact .inr ⟨text, h, .inl ⟨hn, rfl⟩⟩
      · rintro (rfl | ⟨t, h, ⟨-, rfl⟩ | ⟨changes, rfl, -⟩⟩)
        · exact absurd rfl hn
        · exact h
        · exact absurd rfl hn

end Histories

namespace Session

/-- A session is told something, and answers. -/
def handle (s : Session) : Notification → Except SessionError (List Report) × Session
  | .opened uri text => s.openDocument uri text
  | .changed uri changes => s.changeDocument uri changes
  | .closed uri => (.ok [], s.closeDocument uri)

/-- The session after a history. -/
def run (s : Session) (history : List Notification) : Session :=
  history.foldl (fun s n => (s.handle n).2) s

@[simp] theorem run_nil (s : Session) : s.run [] = s := rfl

@[simp] theorem run_concat (s : Session) (history : List Notification) (n : Notification) :
    s.run (history ++ [n]) = ((s.run history).handle n).2 := by
  rw [run, List.foldl_append]
  rfl

variable {s s' : Session} {uri text : Text} {n : Notification} {history : List Notification}

/-! ## The texts that a session keeps -/

theorem document?_setDocument (s : Session) (u t uri : Text) :
    (s.setDocument u t).document? uri = if u = uri then some t else s.document? uri :=
  Table.get?_set ..

theorem document?_closeDocument (s : Session) (u uri : Text) :
    (s.closeDocument u).document? uri = if u = uri then none else s.document? uri :=
  Table.get?_erase ..

theorem changeDocument_of_none (h : s.document? uri = none) (changes : List Change) :
    s.changeDocument uri changes = (.ok [], s) := by
  rw [changeDocument, h]

theorem changeDocument_of_some (h : s.document? uri = some text) (changes : List Change) :
    s.changeDocument uri changes =
      s.openDocument uri (changes.foldl (Change.apply s.indexing) text) := by
  rw [changeDocument, h]

/-- What is said about a document changes its own text only, as it changes the text of a history. -/
theorem document?_handle :
    (s.handle n).2.document? uri = some text ↔ n = .opened uri text ∨
      ∃ t, s.document? uri = some t ∧ (n.uri ≠ uri ∧ text = t ∨
        ∃ changes, n = .changed uri changes ∧
          text = changes.foldl (Change.apply s.indexing) t) := by
  cases n with
  | opened u t =>
    show (s.setDocument u t).document? uri = some text ↔ _
    rw [document?_setDocument]
    by_cases hu : u = uri
    · simp [hu, Notification.uri]
    · simp [hu, Notification.uri]
  | changed u changes =>
    show (s.changeDocument u changes).2.document? uri = some text ↔ _
    by_cases hu : u = uri
    · subst hu
      cases hd : s.document? u with
      | none => simp [changeDocument_of_none hd, hd]
      | some t =>
        rw [changeDocument_of_some hd]
        show (s.setDocument u _).document? u = some text ↔ _
        rw [document?_setDocument, if_pos rfl]
        simp [Notification.uri, eq_comm]
    · have hkept : (s.changeDocument u changes).2.document? uri = s.document? uri := by
        cases hd : s.document? u with
        | none => rw [changeDocument_of_none hd]
        | some t =>
          rw [changeDocument_of_some hd]
          show (s.setDocument u _).document? uri = _
          rw [document?_setDocument, if_neg hu]
      rw [hkept]
      simp [hu, Notification.uri]
  | closed u =>
    show (s.closeDocument u).document? uri = some text ↔ _
    rw [document?_closeDocument]
    by_cases hu : u = uri
    · simp [hu, Notification.uri]
    · simp [hu, Notification.uri]

/-- Two sessions that differ in their documents only, as far as answers go. -/
structure WorksAs (s s' : Session) : Prop where
  engine : s.engine = s'.engine
  indexing : s.indexing = s'.indexing
  readUri : s.readUri = s'.readUri

theorem WorksAs.symm (h : s.WorksAs s') : s'.WorksAs s :=
  ⟨h.engine.symm, h.indexing.symm, h.readUri.symm⟩

theorem WorksAs.trans {s'' : Session} (h : s.WorksAs s') (h' : s'.WorksAs s'') : s.WorksAs s'' :=
  ⟨h.engine.trans h'.engine, h.indexing.trans h'.indexing, h.readUri.trans h'.readUri⟩

/-- What a session is told changes its documents only. -/
theorem worksAs_handle (s : Session) (n : Notification) : (s.handle n).2.WorksAs s := by
  cases n with
  | opened | closed => exact ⟨rfl, rfl, rfl⟩
  | changed uri changes =>
    show (s.changeDocument uri changes).2.WorksAs s
    cases hd : s.document? uri with
    | none =>
      rw [changeDocument_of_none hd]
      exact ⟨rfl, rfl, rfl⟩
    | some t =>
      rw [changeDocument_of_some hd]
      exact ⟨rfl, rfl, rfl⟩

theorem worksAs_run (s : Session) (history : List Notification) : (s.run history).WorksAs s := by
  induction history using List.reverseRecOn with
  | nil => exact ⟨rfl, rfl, rfl⟩
  | append_singleton history n ih =>
    rw [run_concat]
    exact (worksAs_handle ..).trans ih

/-- A session keeps the texts of its history. -/
theorem document?_run (hs : s.documents = []) :
    (s.run history).document? uri = some text ↔ TextOf s.indexing uri history text := by
  induction history using List.reverseRecOn generalizing text with
  | nil =>
    rw [run_nil, document?, hs]
    simp [not_textOf_nil]
  | append_singleton history n ih =>
    -- one more notification does the same to the session as to the history
    rw [run_concat, document?_handle, textOf_concat, (s.worksAs_run history).indexing]
    simp only [ih]

theorem document?_run_eq_none (hs : s.documents = [])
    (h : ∀ text, ¬ TextOf s.indexing uri history text) :
    (s.run history).document? uri = none := by
  cases hd : (s.run history).document? uri with
  | none => rfl
  | some text => exact absurd ((document?_run hs).1 hd) (h text)

/-! ## What a session answers -/

/-- The answer about a document that is open afterwards is the report on its text. -/
theorem handle_of_document? (hn : n.uri = uri)
    (h : (s.handle n).2.document? uri = some text) :
    (s.handle n).1 = (s.openDocument uri text).1 := by
  rcases document?_handle.1 h with rfl | ⟨t, ht, ⟨hne, -⟩ | ⟨changes, rfl, rfl⟩⟩
  · rfl
  · exact absurd hn hne
  · show (s.changeDocument uri changes).1 = _
    rw [changeDocument_of_some ht]

/-- Where the document is not open afterwards, nothing is published. -/
theorem handle_of_document?_eq_none (h : (s.handle n).2.document? n.uri = none) :
    (s.handle n).1 = .ok [] := by
  have hset : ∀ uri text, (s.setDocument uri text).document? uri ≠ none := by
    intro uri text
    simp [document?_setDocument]
  cases n with
  | opened uri text => exact absurd h (hset uri text)
  | changed uri changes =>
    show (s.changeDocument uri changes).1 = .ok []
    have h : (s.changeDocument uri changes).2.document? uri = none := h
    cases ht : s.document? uri with
    | none => rw [changeDocument_of_none ht]
    | some t =>
      rw [changeDocument_of_some ht] at h
      exact absurd h (hset uri _)
  | closed uri => rfl

theorem openDocument_congr (h : s.WorksAs s') (uri text : Text) :
    (s.openDocument uri text).1 = (s'.openDocument uri text).1 := by
  simp only [openDocument, report, h.engine, h.readUri]

/-- An answer depends on the session through the text of the document that it is about. -/
theorem handle_congr (h : s.WorksAs s') (hd : s.document? n.uri = s'.document? n.uri) :
    (s.handle n).1 = (s'.handle n).1 := by
  cases n with
  | opened uri text => exact openDocument_congr h uri text
  | changed uri changes =>
    have hd : s.document? uri = s'.document? uri := hd
    show (s.changeDocument uri changes).1 = (s'.changeDocument uri changes).1
    cases ht : s'.document? uri with
    | none => rw [changeDocument_of_none ht, changeDocument_of_none (hd.trans ht)]
    | some t =>
      rw [changeDocument_of_some ht, changeDocument_of_some (hd.trans ht), h.indexing]
      exact openDocument_congr h ..
  | closed uri => rfl

end Session

end Editor

/-! ## Plans that are kept -/

/-- A trimmed text has nothing more to trim. -/
theorem Text.trim_trim (t : Text) : t.trim.trim = t.trim := by
  have hleft : t.trim.trimLeft = t.trim := by
    cases h : t.trim with
    | nil => rfl
    | cons c u =>
      -- it starts as the text does that is trimmed on the left only
      have hprefix : t.trim <+: t.trimLeft := List.rdropWhile_prefix ..
      rw [h] at hprefix
      obtain ⟨more, hmore⟩ := hprefix
      have hc := List.head?_dropWhile_not isSpace t
      rw [← Text.trimLeft, ← hmore] at hc
      have hc : isSpace c = false := by simpa using hc
      exact List.dropWhile_cons_of_neg (by simp [hc])
  show t.trim.trimLeft.trimRight = t.trim
  rw [hleft]
  exact List.rdropWhile_idempotent ..

/-- Plans by the texts of their expressions, each of them the one that compiling the text gives. -/
structure PlanCache (l : Language) where
  plans : Table l.Plan := []
  sound : ∀ source plan, plans.get? source = some plan → l.compile source = .ok plan := by simp

namespace PlanCache

variable {l : Language}

/-- Keeps one more plan. -/
def keep (c : PlanCache l) (source : Text) (plan : l.Plan) (h : l.compile source = .ok plan) :
    PlanCache l where
  plans := c.plans.set source plan
  sound := by
    intro source' plan' h'
    rw [Table.get?_set] at h'
    split at h'
    · rename_i he
      cases h'
      rw [← he, h]
    · exact c.sound source' plan' h'

/-- Compiles an expression, unless its plan is kept. What does not compile is not kept. -/
def compile (c : PlanCache l) (source : Text) : Except ExprProblem l.Plan × PlanCache l :=
  if source.trim.isEmpty then (.error .empty, c)
  else match c.plans.get? source.trim with
    | some plan => (.ok plan, c)
    | none =>
      match h : l.compile source.trim with
      | .error p => (.error p, c)
      | .ok plan => (.ok plan, c.keep source.trim plan h)

/-- Compiles the expressions of an instruction, one after the other. -/
def prepareAll (pos : Location) :
    PlanCache l → List Text → Except (Located TemplateProblem) Unit × PlanCache l
  | c, [] => (.ok (), c)
  | c, source :: sources =>
    match c.compile source with
    | (.error p, c) => (.error ⟨.expression p, pos⟩, c)
    | (.ok _, c) => prepareAll pos c sources

/-- Compiles the expressions of all instructions, one after the other. -/
def prepareCode :
    PlanCache l → List Instruction → Except (Located TemplateProblem) Unit × PlanCache l
  | c, [] => (.ok (), c)
  | c, i :: is =>
    match c.prepareAll i.pos i.sources with
    | (.error p, c) => (.error p, c)
    | (.ok _, c) => prepareCode c is

/-- A plan that is kept is the one that compiling gives. -/
theorem compile_fst (c : PlanCache l) (source : Text) :
    (c.compile source).1 = l.compile source := by
  -- plans are kept by trimmed texts, and compiling trims a text first
  have htrim : l.compile source.trim = l.compile source := by
    unfold Language.compile
    rw [Text.trim_trim]
  rw [← htrim]
  unfold compile
  split
  · rename_i hempty
    unfold Language.compile
    rw [Text.trim_trim]
    exact (if_pos hempty).symm
  · split
    · rename_i plan hplan
      exact (c.sound _ _ hplan).symm
    · split
      · rename_i p h
        exact h.symm
      · rename_i plan h
        exact h.symm

theorem prepareAll_fst (pos : Location) (c : PlanCache l) (sources : List Text) :
    (c.prepareAll pos sources).1 = Engine.prepareAll l.check pos sources := by
  induction sources generalizing c with
  | nil => rfl
  | cons source sources ih =>
    rw [prepareAll, Engine.prepareAll, Language.check, ← c.compile_fst source]
    cases c.compile source with
    | mk r c' =>
      cases r with
      | error p => rfl
      | ok plan => exact ih c'

theorem prepareCode_fst (c : PlanCache l) (code : List Instruction) :
    (c.prepareCode code).1 = Engine.prepareCode l.check code := by
  induction code generalizing c with
  | nil => rfl
  | cons i is ih =>
    rw [prepareCode, Engine.prepareCode, ← c.prepareAll_fst i.pos i.sources]
    cases c.prepareAll i.pos i.sources with
    | mk r c' =>
      cases r with
      | error p => rfl
      | ok _ => exact ih c'

end PlanCache

namespace Engine

variable {l : Language}

/-- Compiles a template with the plans that are kept: it is laid out, and then its expressions are
compiled. -/
def compileWith (e : Engine) (c : PlanCache l) (name source contextType : Text) :
    Except (Located TemplateProblem) Template × PlanCache l :=
  match { e with prepare := none }.compile name source contextType with
  | .error p => (.error p, c)
  | .ok t =>
    let r := c.prepareCode t.program.code.toList
    (r.1.map fun _ => t, r.2)

theorem compile_eq_bind {e : Engine} {prepare : Text → Except ExprProblem Unit}
    (he : e.prepare = some prepare) (name source contextType : Text) :
    e.compile name source contextType =
      ({ e with prepare := none }.compile name source contextType).bind fun t =>
        (prepareCode prepare t.program.code.toList).map fun _ => t := by
  unfold compile
  rw [he]
  dsimp only
  cases Program.ofTokens contextType e.maxDepth (lex name source) with
  | error p => rfl
  | ok program =>
    show (prepareCode prepare program.code.toList >>= _) = Except.map _ _
    cases prepareCode prepare program.code.toList <;> rfl

/-- The plans that are kept make no difference to what is compiled. -/
theorem compileWith_fst {e : Engine} (he : e.prepare = some l.check) (c : PlanCache l)
    (name source contextType : Text) :
    (e.compileWith c name source contextType).1 = e.compile name source contextType := by
  rw [compile_eq_bind he, compileWith]
  cases { e with prepare := none }.compile name source contextType with
  | error p => rfl
  | ok t =>
    show Except.map _ (c.prepareCode t.program.code.toList).1 = Except.map _ _
    rw [c.prepareCode_fst]

end Engine

namespace Editor

/-- What there is to say about a document that was compiled, or was not. -/
def Diagnostic.ofCompiled (engine : Engine) :
    Except (Located TemplateProblem) Template → List Diagnostic
  | .error p => [ofError (.during "compile file".toList (.template p))]
  | .ok t => ofTemplate engine t

theorem Diagnostic.ofDocument_eq (engine : Engine) (path content : Text) :
    ofDocument engine path content =
      ofCompiled engine (engine.compile (Path.base path) content []) := by
  unfold ofDocument Workspace.loadContents Workspace.compile
  dsimp only [Workspace.invalidate, Workspace.erase]
  cases engine.compile (Path.base path) content [] <;> rfl

/-- A session that keeps the plans of expressions, from whatever document they come. -/
structure Server (l : Language) extends Session where
  cache : PlanCache l := {}

namespace Server

variable {l : Language}

/-- The report on a document, and the plans that are kept after it. -/
def report (s : Server l) (uri text : Text) : Except SessionError Report × PlanCache l :=
  match s.readUri uri with
  | .error e => (.error (.address e), s.cache)
  | .ok address =>
    if address.scheme ≠ "file".toList then (.error (.scheme address.scheme), s.cache)
    else
      let r := s.engine.compileWith s.cache (Path.base address.path) text []
      (.ok { uri, diagnostics := Diagnostic.ofCompiled s.engine r.1 }, r.2)

/-- A document is opened. -/
def openDocument (s : Server l) (uri text : Text) :
    Except SessionError (List Report) × Server l :=
  ((s.report uri text).1.map fun r => [r],
    { toSession := s.toSession.setDocument uri text, cache := (s.report uri text).2 })

/-- A server is told something, and answers. -/
def handle (s : Server l) : Notification → Except SessionError (List Report) × Server l
  | .opened uri text => s.openDocument uri text
  | .changed uri changes =>
    match s.document? uri with
    | none => (.ok [], s)
    | some text => s.openDocument uri (changes.foldl (Change.apply s.indexing) text)
  | .closed uri => (.ok [], { s with toSession := s.toSession.closeDocument uri })

/-- The server after a history. -/
def run (s : Server l) (history : List Notification) : Server l :=
  history.foldl (fun s n => (s.handle n).2) s

@[simp] theorem run_concat (s : Server l) (history : List Notification) (n : Notification) :
    s.run (history ++ [n]) = ((s.run history).handle n).2 := by
  rw [run, List.foldl_append]
  rfl

section Simulation

variable {s : Server l} (he : s.engine.prepare = some l.check)
include he

theorem report_fst (uri text : Text) : (s.report uri text).1 = s.toSession.report uri text := by
  unfold report Session.report
  cases s.readUri uri with
  | error e => rfl
  | ok address =>
    dsimp only
    split
    · rfl
    · rw [Diagnostic.ofDocument_eq, Engine.compileWith_fst he]

/-- A server answers as the session does that it is without its plans. -/
theorem handle_eq (n : Notification) :
    (s.handle n).1 = (s.toSession.handle n).1 ∧
      (s.handle n).2.toSession = (s.toSession.handle n).2 := by
  have hopen : ∀ uri text, (s.openDocument uri text).1 = (s.toSession.openDocument uri text).1 ∧
      (s.openDocument uri text).2.toSession = (s.toSession.openDocument uri text).2 := by
    intro uri text
    refine ⟨?_, rfl⟩
    show Except.map _ (s.report uri text).1 = _
    rw [report_fst he]
    rfl
  cases n with
  | opened uri text => exact hopen uri text
  | changed uri changes =>
    show (s.handle (.changed uri changes)).1 = (s.toSession.changeDocument uri changes).1 ∧
      (s.handle (.changed uri changes)).2.toSession = (s.toSession.changeDocument uri changes).2
    rw [handle]
    cases hd : s.document? uri with
    | none =>
      rw [Session.changeDocument_of_none hd]
      exact ⟨rfl, rfl⟩
    | some text =>
      rw [Session.changeDocument_of_some hd]
      exact hopen ..
  | closed uri => exact ⟨rfl, rfl⟩

theorem toSession_run (history : List Notification) :
    (s.run history).toSession = s.toSession.run history := by
  induction history using List.reverseRecOn with
  | nil => rfl
  | append_singleton history n ih =>
    -- no notification touches the engine, so that the plans stay sound for it
    have he' : (s.run history).engine.prepare = some l.check := by
      rw [ih, (s.toSession.worksAs_run history).engine, he]
    rw [run_concat, Session.run_concat, (handle_eq he' n).2, ih]

theorem handle_run (history : List Notification) (n : Notification) :
    ((s.run history).handle n).1 = ((s.toSession.run history).handle n).1 := by
  have hrun := toSession_run he history
  have he' : (s.run history).engine.prepare = some l.check := by
    rw [hrun, (s.toSession.worksAs_run history).engine, he]
  rw [(handle_eq he' n).1, hrun]

end Simulation

end Server

namespace Session

/-- What a session answers after any history that it starts without documents. If the document is
open then, the answer is the one that a fresh session gives when the document is opened with its
text; if it is not, nothing is published. A change of a document that is not open changes nothing,
what was said about other documents makes no difference, and neither does it to keep the plans of
expressions, in whichever language the engine compiles them. -/
theorem answers_by_own_history {s : Session} (hs : s.documents = []) (history : List Notification)
    (n : Notification) :
    (∀ text, TextOf s.indexing n.uri (history ++ [n]) text →
        ((s.run history).handle n).1 = (s.openDocument n.uri text).1) ∧
      ((∀ text, ¬ TextOf s.indexing n.uri (history ++ [n]) text) →
        ((s.run history).handle n).1 = .ok []) ∧
      (∀ changes, n = .changed n.uri changes → (∀ text, ¬ TextOf s.indexing n.uri history text) →
        (s.run history).handle n = (.ok [], s.run history)) ∧
      ((s.run history).handle n).1 = ((s.run (history.filter (·.uri = n.uri))).handle n).1 ∧
      ∀ l : Language, s.engine.prepare = some l.check →
        ((({ s with } : Server l).run history).handle n).1 = ((s.run history).handle n).1 := by
  refine ⟨?_, ?_, ?_, ?_, ?_⟩
  · intro text h
    rw [← document?_run hs, run_concat] at h
    rw [handle_of_document? rfl h]
    exact openDocument_congr (s.worksAs_run history) ..
  · intro h
    refine handle_of_document?_eq_none ?_
    rw [← run_concat]
    exact document?_run_eq_none hs h
  · intro changes hn h
    generalize n.uri = uri at hn h
    subst hn
    exact changeDocument_of_none (document?_run_eq_none hs h) changes
  · refine handle_congr ((s.worksAs_run _).trans (s.worksAs_run _).symm) (Option.ext ?_)
    intro text
    rw [document?_run hs, document?_run hs, textOf_filter]
  · intro l hl
    exact Server.handle_run (s := { s with }) hl history n

/-- A document that was closed, changed in vain and opened again while another one was open: two
changes at once are answered as if their outcome had been opened. -/
theorem answers_by_own_history_of_reopened :
    let u := "file:///a.kor".toList
    let v := "file:///b.kor".toList
    let history : List Notification := [.opened v "= c".toList, .opened u "%p".toList, .closed u,
      .changed u [.whole "y".toList], .opened u "%p x".toList, .changed v [.whole "= b".toList]]
    let n : Notification := .changed u [.replace ⟨0, 0⟩ ⟨0, 4⟩ "= c".toList,
      .replace ⟨0, 3⟩ ⟨0, 3⟩ " -> d".toList]
    TextOf Position.indexes u (history ++ [n]) "= c -> d".toList ∧
      ((({} : Session).run history).handle n).1 = .ok [⟨u, [⟨⟨0, 2⟩, ⟨0, 2⟩, .error,
        "lambda variables need an indented block".toList⟩]⟩] := by
  intro u v history n
  have htext : TextOf Position.indexes u (history ++ [n]) "= c -> d".toList := by
    refine ⟨history.take 4, "%p x".toList, [.changed v [.whole "= b".toList], n], rfl, ?_,
      by decide +kernel⟩
    intro m hm hu
    rcases List.mem_cons.1 hm with rfl | hm
    · exact absurd hu (by decide)
    · exact ⟨_, List.mem_singleton.1 hm⟩
  refine ⟨htext, ((answers_by_own_history (s := {}) rfl history n).1 _ htext).trans ?_⟩
  decide +kernel

end Session
end Editor
end Offside
