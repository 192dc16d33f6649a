import Offside.Proofs.LayoutStep
import Offside.Proofs.LineGrammar

/-!
# Reading a line of the grammar

Every reader of the layout succeeds on the lines of the grammar (`LineBody`) and stops exactly where
its part of the line ends. What can still go wrong on such a line is not a matter of its form: too
many open scopes, variables without a block, or a line of a filter block that is indented too
little (`FailsAt`).
-/

namespace Offside

/-- A problem that the form of a line does not rule out, at one of the given tokens. -/
def FailsAt (ts : List Token) (e : Located Problem) : Prop :=
  e.cause ∈ [.shallowFilterLine, .tooDeep, .variablesWithoutBlock] ∧ ∃ t ∈ ts, e.pos = t.start

/-- Reading succeeds with a result as described, or fails at one of the given tokens. -/
def Reading.Gives {α : Type} (P : α → Prop) (ts : List Token) : Reading α → Prop
  | .ok a => P a
  | .error e => FailsAt ts e

namespace Reading.Gives

variable {α β : Type} {P : α → Prop} {Q : β → Prop} {ts : List Token}

theorem bind {x : Reading α} {f : α → Reading β} (hx : Gives P ts x)
    (hf : ∀ a, P a → Gives Q ts (f a)) : Gives Q ts (x >>= f) := by
  cases x with
  | error e => exact hx
  | ok a => exact hf a hx

theorem map {x : Reading α} {f : α → β} (hx : Gives P ts x) (hf : ∀ a, P a → Q (f a)) :
    Gives Q ts (x.map f) := by
  cases x with
  | error e => exact hx
  | ok a => exact hf a hx

theorem mono {P' : α → Prop} {ts' : List Token} {x : Reading α} (hx : Gives P ts x)
    (hP : ∀ a, P a → P' a) (hts : ts ⊆ ts') : Gives P' ts' x := by
  cases x with
  | error e =>
    obtain ⟨hc, t, ht, hp⟩ := hx
    exact ⟨hc, t, hts ht, hp⟩
  | ok a => exact hP a hx

end Reading.Gives

/-! ## Tags -/

namespace Tag

variable (stop : Location) {ks : List TokenKind} {us rest : List Token}

theorem readMarks_of_marks (h : Marks ks) (hus : us.map (·.kind) = ks)
    (hrest : ∀ t ts, rest = t :: ts → ¬ IsMark t.kind) (tag : Tag) :
    ∃ tag', readMarks stop tag (us ++ rest) = .ok (tag', rest) := by
  induction h generalizing us tag with
  | nil =>
    rw [List.map_eq_nil_iff.1 hus, List.nil_append]
    cases rest with
    | nil => exact ⟨tag, rfl⟩
    | cons t ts =>
      have hne : ¬ (t.kind = .idMark ∨ t.kind = .classMark) := hrest t ts rfl
      unfold readMarks
      rw [if_neg hne]
      exact ⟨tag, rfl⟩
  | @cons m v ks hm hv _ ih =>
    rw [List.map_eq_cons_iff] at hus
    obtain ⟨mt, us, rfl, hmt, hus⟩ := hus
    rw [List.map_eq_cons_iff] at hus
    obtain ⟨vt, us, rfl, hvt, hus⟩ := hus
    subst hmt hvt
    have hm : mt.kind = .idMark ∨ mt.kind = .classMark := hm
    rw [List.cons_append, List.cons_append, readMarks, if_pos hm, if_pos hv]
    exact ih hus _

theorem readAttributes_of_attributes (h : Attributes ks) (hus : us.map (·.kind) = ks)
    (hrest : ∀ t ts, rest = t :: ts → t.kind ∉ wordKinds) (tag : Tag) :
    ∃ tag', readAttributes stop tag (us ++ rest) = .ok (tag', rest) := by
  induction h generalizing us tag with
  | nil =>
    rw [List.map_eq_nil_iff.1 hus, List.nil_append]
    cases rest with
    | nil => exact ⟨tag, rfl⟩
    | cons t ts =>
      unfold readAttributes
      rw [if_neg (hrest t ts rfl)]
      exact ⟨tag, rfl⟩
  | @cons n v ks hn hv _ ih =>
    rw [List.map_eq_cons_iff] at hus
    obtain ⟨nt, us, rfl, hnt, hus⟩ := hus
    rw [List.map_eq_cons_iff] at hus
    obtain ⟨et, us, rfl, het, hus⟩ := hus
    rw [List.map_eq_cons_iff] at hus
    obtain ⟨vt, us, rfl, hvt, hus⟩ := hus
    subst hnt hvt
    rw [List.cons_append, List.cons_append, List.cons_append, readAttributes, if_pos hn,
      if_pos het, if_pos hv]
    exact ih hus _

/-- The header is read up to what follows it. -/
theorem exists_readMarks_of_header (h : Header ks) (hus : us.map (·.kind) = ks)
    (hrest : ∀ t ts, rest = t :: ts → ¬ IsMark t.kind) :
    ∃ tag ts tag', readName stop (us ++ rest) = .ok (tag, ts) ∧
      readMarks stop tag ts = .ok (tag', rest) := by
  cases h with
  | @named v ks hv hm =>
    rw [List.map_eq_cons_iff] at hus
    obtain ⟨nt, us, rfl, hnt, hus⟩ := hus
    rw [List.map_eq_cons_iff] at hus
    obtain ⟨vt, us, rfl, hvt, hus⟩ := hus
    subst hvt
    obtain ⟨tag', htag'⟩ := readMarks_of_marks stop hm hus hrest { name := some (tagValue vt) }
    refine ⟨_, us ++ rest, tag', ?_, htag'⟩
    rw [List.cons_append, List.cons_append, readName, if_pos hnt, takeOne, if_pos hv]
    rfl
  | @marked m v ks hm hv hms =>
    obtain ⟨tag', htag'⟩ := readMarks_of_marks stop (Marks.cons hm hv hms) hus hrest {}
    obtain ⟨mt, us, rfl, hmt, -⟩ := List.map_eq_cons_iff.1 hus
    refine ⟨{}, mt :: us ++ rest, tag', ?_, htag'⟩
    have hname : mt.kind ≠ .tagMark := by
      subst hmt
      rcases hm with hm | hm <;> rw [hm] <;> simp
    rw [List.cons_append, readName, if_neg hname]

/-- What can follow a tag: nothing that would be one more id, class or attribute. -/
def Ends (rest : List Token) : Prop :=
  ∀ t ts, rest = t :: ts → ¬ IsMark t.kind ∧ t.kind ∉ wordKinds

/-- A tag is read up to what follows it. -/
theorem read_of_header {hs as : List TokenKind} {us vs : List Token} (hh : Header hs)
    (ha : Attributes as) (hus : us.map (·.kind) = hs) (hvs : vs.map (·.kind) = as)
    (hrest : Ends rest) :
    ∃ tag, read stop (us ++ (vs ++ rest)) = .ok (some tag, rest) := by
  -- the header stops before the attributes, which start with a word, and before what follows them
  have hstop : ∀ t ts, vs ++ rest = t :: ts → ¬ IsMark t.kind := by
    intro t ts he
    cases ha with
    | nil =>
      rw [List.map_eq_nil_iff.1 hvs, List.nil_append] at he
      exact (hrest t ts he).1
    | @cons n v ks hn hv _ =>
      rw [List.map_eq_cons_iff] at hvs
      obtain ⟨nt, vs, rfl, hnt, -⟩ := hvs
      cases he
      subst hnt
      rintro (hm | hm) <;> rw [hm] at hn <;> simp [wordKinds] at hn
  obtain ⟨tag, ts, tag', h₁, h₂⟩ := exists_readMarks_of_header stop hh hus hstop
  obtain ⟨tag'', h₃⟩ := readAttributes_of_attributes stop ha hvs
    (fun t ts he => (hrest t ts he).2) tag'
  have hread : read stop (us ++ (vs ++ rest)) =
      if tag'.isNothing then .ok (none, vs ++ rest) else .ok (some tag'', rest) := by
    unfold read
    rw [h₁]
    show (readMarks stop tag ts >>= _) = _
    rw [h₂]
    show (if tag'.isNothing then _ else (readAttributes stop tag' (vs ++ rest) >>= _)) = _
    rw [h₃]
    rfl
  -- a header is not empty, so that there is something in the tag
  have hne : us ≠ [] := by
    rintro rfl
    cases hh <;> cases hus
  have hsome : tag'.isNothing = false := by
    cases hnothing : tag'.isNothing with
    | false => rfl
    | true =>
      rw [hnothing, if_pos rfl] at hread
      rcases (read_ok hread).2 with ⟨-, he⟩ | ⟨h, -⟩
      · exact absurd (List.self_eq_append_left.1 he) hne
      · cases h
  refine ⟨tag'', ?_⟩
  rw [hread, hsome]
  rfl

/-- Where the tokens start with none of its parts there is no tag. -/
theorem read_eq_none (h : ∀ t ts, rest = t :: ts → t.kind ≠ .tagMark ∧ ¬ IsMark t.kind) :
    read stop rest = .ok (none, rest) := by
  cases rest with
  | nil => rfl
  | cons t ts =>
    obtain ⟨hname, hmark⟩ := h t ts rfl
    have hmark : ¬ (t.kind = .idMark ∨ t.kind = .classMark) := hmark
    have h₁ : readName stop (t :: ts) = .ok ({}, t :: ts) := by rw [readName, if_neg hname]
    have h₂ : readMarks stop {} (t :: ts) = .ok ({}, t :: ts) := by
      unfold readMarks
      rw [if_neg hmark]
    unfold read
    rw [h₁]
    show (readMarks stop {} (t :: ts) >>= _) = _
    rw [h₂]
    rfl

end Tag
namespace Layout

open Reading (Gives)

variable {limit : Int} {stop : Location} {s : Layout} {us rest : List Token}

/-! ## Tags and scopes -/

theorem openScope_gives {i : Instruction} (hi : ∃ t ∈ us, i.pos = t.start) :
    Gives (fun s' => s'.rest = s.rest) us (s.openScope limit i) := by
  unfold openScope
  split
  · exact ⟨by simp, hi⟩
  · rfl

theorem readTag_gives {hs as : List TokenKind} {vs : List Token} (hh : Header hs)
    (ha : Attributes as) (hus : us.map (·.kind) = hs) (hvs : vs.map (·.kind) = as)
    (hrest : Tag.Ends rest) (hr : s.rest = us ++ (vs ++ rest)) :
    Gives (fun r => r.1 = true ∧ r.2.rest = rest) us (s.readTag limit stop) := by
  obtain ⟨tag, htag⟩ := Tag.read_of_header stop hh ha hus hvs hrest
  cases us with
  | nil => cases hh <;> cases hus
  | cons t us =>
    rw [← hr] at htag
    rw [readTag_of_some htag hr]
    split
    · exact ⟨rfl, rfl⟩
    · have hopen : Gives (fun s' => s'.rest = rest) (t :: us) (openScope limit { s with rest }
          (.openTag t.start tag.opening tag.closing s.depth 0)) :=
        openScope_gives ⟨t, by simp, rfl⟩
      exact hopen.map fun s' hs' => ⟨rfl, hs'⟩

theorem readTag_eq_false (h : ∀ t ts, s.rest = t :: ts → t.kind ≠ .tagMark ∧ ¬ IsMark t.kind) :
    s.readTag limit stop = .ok (false, s) := by
  rw [readTag_of_none (Tag.read_eq_none stop h)]

/-! ## Output -/

theorem dropWhile_of_lineEnd (hus : ∀ t ∈ us, t.kind ≠ .indent) (hend : LineEnd rest) :
    (us ++ rest).dropWhile (·.kind != .indent) = rest := by
  rw [List.dropWhile_append_of_pos (by simpa using hus)]
  rcases hend with rfl | ⟨t, ts, rfl, ht⟩
  · rfl
  · rw [List.dropWhile_cons_of_neg (by simp [ht])]

theorem takeWhile_of_lineEnd (hus : ∀ t ∈ us, t.kind ≠ .indent) (hend : LineEnd rest) :
    (us ++ rest).takeWhile (·.kind != .indent) = us := by
  rw [List.takeWhile_append_of_pos (by simpa using hus)]
  rcases hend with rfl | ⟨t, ts, rfl, ht⟩
  · rw [List.takeWhile_nil, List.append_nil]
  · rw [List.takeWhile_cons_of_neg (by simp [ht]), List.append_nil]

theorem readCodeBody_of_lineEnd {code : Token} (hc : code.kind = .code) (hend : LineEnd rest) :
    readCodeBody stop (code :: rest) = .ok ((code, []), rest) := by
  have htake : takeOne stop [.code] (code :: rest) = .ok (code, rest) := by
    rw [takeOne, if_pos (by simp [hc])]
  unfold readCodeBody
  rw [htake]
  rcases hend with rfl | ⟨t, ts, rfl, ht⟩
  · rfl
  · have harrow : t.kind ≠ .arrow := by rw [ht]; simp
    show (if t.kind = .arrow then _ else _) = _
    rw [if_neg harrow]

theorem readCodeBody_of_arrow {code arrow vars : Token} (hc : code.kind = .code)
    (ha : arrow.kind = .arrow) (hv : vars.kind = .vars) :
    readCodeBody stop (code :: arrow :: vars :: rest) =
      .ok ((code, (Text.splitAt ',' vars.contents).map Text.trim), rest) := by
  have htake : takeOne stop [.code] (code :: arrow :: vars :: rest) =
      .ok (code, arrow :: vars :: rest) := by
    rw [takeOne, if_pos (by simp [hc])]
  have htake' : takeOne stop [.vars] (vars :: rest) = .ok (vars, rest) := by
    rw [takeOne, if_pos (by simp [hv])]
  unfold readCodeBody
  rw [htake]
  show (if arrow.kind = .arrow then takeOne stop [.vars] (vars :: rest) >>= _ else _) = _
  rw [if_pos ha, htake']
  rfl

theorem readCode_gives {capture : Bool} {leaf : Location → Text → Nat → Instruction}
    {ts : List Token} {code : Token} {vars : List Text}
    (h : readCodeBody stop ts = .ok ((code, vars), rest)) (hmem : code ∈ us) :
    Gives (fun s' => s'.rest = rest) us (readCode limit stop capture leaf s ts) := by
  unfold readCode
  rw [h]
  show Gives _ _ (if nextIsDeeper { s with rest } then _ else _)
  split
  · exact openScope_gives ⟨code, hmem, rfl⟩
  · split
    · rfl
    · exact ⟨by simp, code, hmem, rfl⟩

/-- Reading a filter on a line takes the rest of the line. -/
theorem readFilter_gives {alone : Bool} {mark : Token} {vs : List Token}
    (hm : mark.kind = .filterMark) (hvs : ∀ t ∈ vs, t.kind ≠ .indent) (hend : LineEnd rest)
    (hr : s.rest = mark :: (vs ++ rest))
    (hn : (alone && nextIsDeeper { s with rest := vs ++ rest }) = false) :
    ∃ s', s.readFilter alone = .ok (true, s') ∧ s'.rest = rest := by
  rw [readFilter_line hr hm hn, dropWhile_of_lineEnd hvs hend]
  exact ⟨_, rfl, rfl⟩

/-- A code line, with or without its variables, is read to its end. -/
theorem readOutput_of_codeMark {mark : Token} {ts : List Token} {code : Token} {vars : List Text}
    (hm : IsCodeMark mark.kind) (hr : s.rest = mark :: ts)
    (hbody : readCodeBody stop ts = .ok ((code, vars), rest)) (hmem : code ∈ us) :
    Gives (fun r => r.2.rest = rest) us (s.readOutput limit stop) := by
  unfold readOutput
  rw [hr]
  dsimp only
  rcases hm with hm | hm <;> rw [hm]
  · exact (readCode_gives hbody hmem).bind fun s' hs' => hs'
  · exact (readCode_gives hbody hmem).bind fun s' hs' => hs'

theorem readOutput_of_output {ks : List TokenKind} (h : OutputLine ks)
    (hus : us.map (·.kind) = ks) (hend : LineEnd rest) (hr : s.rest = us ++ rest) :
    Gives (fun r => r.2.rest = rest) us (s.readOutput limit stop) := by
  cases h with
  | text =>
    rw [List.map_eq_cons_iff] at hus
    obtain ⟨t, us, rfl, ht, hus⟩ := hus
    cases List.map_eq_nil_iff.1 hus
    unfold readOutput
    rw [hr]
    dsimp only [List.cons_append]
    rw [ht]
    rfl
  | comment =>
    rw [List.map_eq_cons_iff] at hus
    obtain ⟨t, us, rfl, ht, hus⟩ := hus
    rw [List.map_eq_cons_iff] at hus
    obtain ⟨c, us, rfl, hc, hus⟩ := hus
    cases List.map_eq_nil_iff.1 hus
    have htake : takeOne stop [.comment] (c :: rest) = .ok (c, rest) := by
      rw [takeOne, if_pos (by simp [hc])]
    unfold readOutput
    rw [hr]
    dsimp only [List.cons_append, List.nil_append]
    rw [ht]
    dsimp only
    rw [htake]
    rfl
  | code hm =>
    rw [List.map_eq_cons_iff] at hus
    obtain ⟨t, us, rfl, ht, hus⟩ := hus
    rw [List.map_eq_cons_iff] at hus
    obtain ⟨c, us, rfl, hc, hus⟩ := hus
    cases List.map_eq_nil_iff.1 hus
    subst ht
    exact readOutput_of_codeMark hm hr (readCodeBody_of_lineEnd hc hend) (by simp)
  | lambda hm =>
    rw [List.map_eq_cons_iff] at hus
    obtain ⟨t, us, rfl, ht, hus⟩ := hus
    rw [List.map_eq_cons_iff] at hus
    obtain ⟨c, us, rfl, hc, hus⟩ := hus
    rw [List.map_eq_cons_iff] at hus
    obtain ⟨a, us, rfl, ha, hus⟩ := hus
    rw [List.map_eq_cons_iff] at hus
    obtain ⟨v, us, rfl, hv, hus⟩ := hus
    cases List.map_eq_nil_iff.1 hus
    subst ht
    exact readOutput_of_codeMark hm hr (readCodeBody_of_arrow hc ha hv) (by simp)

theorem readOutput_eq_false (h : LineEnd s.rest) : s.readOutput limit stop = .ok (false, s) := by
  unfold readOutput
  rcases h with hr | ⟨t, ts, hr, ht⟩ <;> rw [hr]
  dsimp only
  rw [ht]

/-- What follows a tag is read to the end of the line. -/
theorem readOutput_of_tail {ks : List TokenKind} (h : TagTail ks) (hus : us.map (·.kind) = ks)
    (hend : LineEnd rest) (hr : s.rest = us ++ rest) :
    Gives (fun r => r.2.rest = rest) us (s.readOutput limit stop) := by
  -- a filter after a tag takes the rest of the line, whatever is left of it
  have hfilter : ∀ mark vs, us = mark :: vs → mark.kind = .filterMark →
      (∀ t ∈ vs, t.kind ≠ .indent) →
      Gives (fun r => r.2.rest = rest) us (s.readOutput limit stop) := by
    rintro mark vs rfl hm hvs
    obtain ⟨s', hs', hrest⟩ := readFilter_gives hm hvs hend hr (Bool.false_and _)
    unfold readOutput
    rw [hr]
    dsimp only [List.cons_append]
    rw [hm]
    dsimp only
    rw [hs']
    exact hrest
  cases h with
  | nothing =>
    rw [List.map_eq_nil_iff.1 hus, List.nil_append] at hr
    rw [readOutput_eq_false (by rwa [hr])]
    exact hr
  | filter =>
    rw [List.map_eq_cons_iff] at hus
    obtain ⟨mark, vs, he, hm, hvs⟩ := hus
    exact hfilter mark vs he hm (by simp [List.map_eq_nil_iff.1 hvs])
  | filterText =>
    rw [List.map_eq_cons_iff] at hus
    obtain ⟨mark, vs, he, hm, hvs⟩ := hus
    rw [List.map_eq_cons_iff] at hvs
    obtain ⟨t, vs, rfl, ht, hvs⟩ := hvs
    exact hfilter mark _ he hm (by simp [List.map_eq_nil_iff.1 hvs, ht])
  | output h => exact readOutput_of_output h hus hend hr

/-! ## Raw blocks -/

/-- The lines of a raw block, all of them deeper than `d`: each is its indentation and its text. -/
inductive RawBlock (d : Nat) : List Token → Prop
  | nil : RawBlock d []
  | cons {t u : Token} {ts : List Token} : t.kind = .indent → d < t.depth → u.kind = .text →
      RawBlock d ts → RawBlock d (t :: u :: ts)

/-- Nothing follows, or a line that is not deeper than `d`. -/
def NotDeeper (d : Nat) (rest : List Token) : Prop :=
  rest = [] ∨ ∃ t ts, rest = t :: ts ∧ t.kind = .indent ∧ t.depth ≤ d

theorem NotDeeper.lineEnd {d : Nat} (h : NotDeeper d rest) : LineEnd rest :=
  h.imp id fun ⟨t, ts, he, ht, _⟩ => ⟨t, ts, he, ht⟩

theorem NotDeeper.nextIsDeeper (h : NotDeeper s.depth rest) :
    Layout.nextIsDeeper { s with rest } = false := by
  rcases h with rfl | ⟨t, ts, rfl, -, hd⟩
  · rfl
  · rw [nextIsDeeper_cons, decide_eq_false (by omega), Bool.and_false]

theorem NotDeeper.nextCloses (h : NotDeeper s.depth rest) :
    Layout.nextCloses { s with rest } = true := by
  rcases h with rfl | ⟨t, ts, rfl, ht, hd⟩
  · rfl
  · show (t.kind == .indent && decide (t.depth ≤ s.depth)) = true
    rw [ht, decide_eq_true hd]
    rfl

theorem RawBlock.lineEnd {d : Nat} {block : List Token} (h : RawBlock d block)
    (hrest : LineEnd rest) : LineEnd (block ++ rest) := by
  cases h with
  | nil => exact hrest
  | cons ht => exact .inr ⟨_, _, rfl, ht⟩

theorem readBlock_of_text {d base line : Nat} {u : Token} {ts ts' : List Token}
    (hu : u.kind = .text) (h : Gives (fun r => r.2 = rest) ts' (readBlock d base line ts)) :
    Gives (fun r => r.2 = rest) ts' (readBlock d base line (u :: ts)) := by
  have hui : u.kind ≠ .indent := by rw [hu]; simp
  rw [readBlock, if_neg hui]
  exact h.bind fun r hr => hr

/-- A raw block is read up to the line that ends it. -/
theorem readBlock_gives {d : Nat} {ts : List Token} (h : RawBlock d ts) (hrest : NotDeeper d rest)
    (base line : Nat) :
    Gives (fun r => r.2 = rest) ts (readBlock d base line (ts ++ rest)) := by
  induction h generalizing line with
  | nil =>
    rw [List.nil_append]
    rcases hrest with rfl | ⟨t, ts, rfl, ht, hd⟩
    · rfl
    · rw [readBlock, if_pos ht, if_pos hd]
      rfl
  | @cons t u ts ht hd hu _ ih =>
    rw [List.cons_append, List.cons_append, readBlock, if_pos ht, if_neg (by omega)]
    split
    · exact ⟨by simp, t, by simp, rfl⟩
    · have hblock := (ih t.start.line).mono (fun r hr => hr)
        (show ts ⊆ t :: u :: ts from fun x hx => by simp [hx])
      exact (readBlock_of_text hu hblock).bind fun r hr => hr

/-- A filter that stands alone takes its block, if there is one. -/
theorem readFilter_of_block {mark : Token} {block : List Token} (hm : mark.kind = .filterMark)
    (hb : RawBlock s.depth block) (hrest : NotDeeper s.depth rest)
    (hr : s.rest = mark :: (block ++ rest)) :
    Gives (fun r => r.2.rest = rest) block (s.readFilter true) := by
  cases hb with
  | nil =>
    have hn : nextIsDeeper { s with rest } = false := hrest.nextIsDeeper
    obtain ⟨s', hs', hrest'⟩ := readFilter_gives hm (by simp) hrest.lineEnd hr
      (by rw [Bool.true_and]; exact hn)
    rw [hs']
    exact hrest'
  | @cons t u ts ht hd hu hb =>
    rw [List.cons_append, List.cons_append] at hr
    rw [readFilter_block hr hm ht hd]
    have hblock := (readBlock_gives hb hrest t.depth t.start.line).mono (fun r hr => hr)
      (show ts ⊆ t :: u :: ts from fun x hx => by simp [hx])
    exact (readBlock_of_text hu hblock).map fun r hr => hr

end Layout

/-! ## Whole lines -/

/-- A line of markup, and the raw block that it has swallowed. -/
structure MarkupLine where
  /-- The number of the line. -/
  number : Nat
  /-- How deep the line is indented. -/
  depth : Nat
  /-- Whether it is a filter that stands alone. -/
  alone : Bool
  indent : Token
  body : List Token
  block : List Token
  kind_indent : indent.kind = .indent
  depth_indent : indent.depth = depth
  line_eq : ∀ t ∈ indent :: body, t.start.line = number
  form : LineBody alone (body.map (·.kind))
  raw : Layout.RawBlock depth block
  block_eq : alone = false → block = []

namespace MarkupLine

/-- The tokens of the line and of its block. -/
def tokens (l : MarkupLine) : List Token := l.indent :: (l.body ++ l.block)

theorem body_ne_nil (l : MarkupLine) : l.body ≠ [] := by
  intro h
  have hform := l.form
  rw [h, List.map_nil] at hform
  exact hform.ne_nil rfl

/-- The tokens after the line are such that its block, if it can have one, ends before them. -/
def EndsBefore (l : MarkupLine) (rest : List Token) : Prop :=
  LineEnd rest ∧ (l.alone = true → Layout.NotDeeper l.depth rest)

end MarkupLine

namespace Layout

open Reading (Gives)

variable {limit : Int} {stop : Location} {s : Layout} {us rest : List Token}

/-- Reads what follows the indentation of a line. -/
def readBody (limit : Int) (stop : Location) (s : Layout) : Reading Layout :=
  s.readFilter true >>= fun f => f.2.readTag limit stop >>= fun t =>
    t.2.readOutput limit stop >>= fun o => .ok (if t.1 && o.1 then o.2.fuse else o.2)

theorem readLine_eq_readBody (s : Layout) :
    s.readLine limit stop = s.readIndent.readBody limit stop := rfl

theorem rest_fuse (s : Layout) : s.fuse.rest = s.rest := by
  unfold fuse
  split
  · split
    · rfl
    · split
      · rfl
      · split <;> rfl
  · rfl

/-- After a filter the line is at its end, and nothing more is read. -/
theorem readBody_of_filter_ok {b : Bool} {s' : Layout} (h : s.readFilter true = .ok (b, s'))
    (hend : LineEnd s'.rest) : s.readBody limit stop = .ok s' := by
  have htag : s'.readTag limit stop = .ok (false, s') := by
    refine readTag_eq_false ?_
    intro t ts hr
    rcases hend with he | ⟨u, us, he, hu⟩ <;> rw [hr] at he <;> cases he
    rw [hu]
    simp [IsMark]
  unfold readBody
  rw [h]
  show (s'.readTag limit stop >>= _) = _
  rw [htag]
  show (s'.readOutput limit stop >>= _) = _
  rw [readOutput_eq_false hend]
  rfl

theorem readBody_of_filter_error {e : Located Problem} (h : s.readFilter true = .error e) :
    s.readBody limit stop = .error e := by
  unfold readBody
  rw [h]
  rfl

theorem readBody_of_filter (hend : LineEnd rest)
    (h : Gives (fun f => f.2.rest = rest) us (s.readFilter true)) :
    Gives (fun s' => s'.rest = rest) us (s.readBody limit stop) := by
  cases hf : s.readFilter true with
  | error e =>
    rw [hf] at h
    rw [readBody_of_filter_error hf]
    exact h
  | ok r =>
    rw [hf] at h
    have hrest : r.2.rest = rest := h
    rw [readBody_of_filter_ok hf (by rwa [hrest])]
    exact hrest

/-- A line that starts with no filter is left to the readers of tags and output. -/
theorem readFilter_of_head {t : Token} {ts : List Token} (hr : s.rest = t :: ts)
    (ht : t.kind ≠ .filterMark) : s.readFilter true = .ok (false, s) := by
  refine readFilter_of_not_mark ?_
  intro u us he
  rw [hr] at he
  cases he
  exact ht

theorem readBody_of_output {ks : List TokenKind} (h : OutputLine ks) (hus : us.map (·.kind) = ks)
    (hend : LineEnd rest) (hr : s.rest = us ++ rest) :
    Gives (fun s' => s'.rest = rest) us (s.readBody limit stop) := by
  obtain ⟨k, ks', rfl, hk⟩ := h.head
  have hus' := hus
  rw [List.map_eq_cons_iff] at hus'
  obtain ⟨t, ts, rfl, ht, -⟩ := hus'
  subst ht
  have htag : s.readTag limit stop = .ok (false, s) := by
    refine readTag_eq_false ?_
    intro u us he
    rw [hr] at he
    cases he
    exact ⟨fun he => by simp [he] at hk, fun he => by rcases he with he | he <;> simp [he] at hk⟩
  unfold readBody
  rw [readFilter_of_head hr fun he => by simp [he] at hk]
  show Gives _ _ (s.readTag limit stop >>= _)
  rw [htag]
  exact (readOutput_of_output h hus hend hr).bind fun o ho => ho

/-- Neither what follows a tag on its line nor the next line goes on with the tag. -/
theorem ends_of_tail {ks : List TokenKind} (h : TagTail ks) (hus : us.map (·.kind) = ks)
    (hend : LineEnd rest) : Tag.Ends (us ++ rest) := by
  intro t ts he
  have hk : t.kind ∈ [.indent, .filterMark, .text, .commentMark, .outputMark, .silentMark] := by
    rcases h.head with rfl | ⟨k, ks', rfl, hk⟩
    · rw [List.map_eq_nil_iff.1 hus, List.nil_append] at he
      rcases hend with rfl | ⟨u, us, rfl, hu⟩ <;> cases he
      simp [hu]
    · rw [List.map_eq_cons_iff] at hus
      obtain ⟨u, us, rfl, hu, -⟩ := hus
      cases he
      rw [hu]
      exact List.mem_cons_of_mem _ hk
  refine ⟨?_, ?_⟩
  · rintro (hm | hm) <;> simp [hm] at hk
  · intro hw
    rcases List.mem_cons.1 hw with hw | hw
    · simp [hw] at hk
    · simp [List.mem_singleton.1 hw] at hk

theorem readBody_of_tag {hs as ks : List TokenKind} (hh : Header hs) (ha : Attributes as)
    (hk : TagTail ks) (hus : us.map (·.kind) = hs ++ (as ++ ks)) (hend : LineEnd rest)
    (hr : s.rest = us ++ rest) :
    Gives (fun s' => s'.rest = rest) us (s.readBody limit stop) := by
  rw [List.map_eq_append_iff] at hus
  obtain ⟨us, ws, rfl, hus, hws⟩ := hus
  rw [List.map_eq_append_iff] at hws
  obtain ⟨vs, ws, rfl, hvs, hws⟩ := hws
  rw [List.append_assoc, List.append_assoc] at hr
  have hfilter : s.readFilter true = .ok (false, s) := by
    obtain ⟨k, hs', rfl, hk⟩ := hh.head
    rw [List.map_eq_cons_iff] at hus
    obtain ⟨t, ts, rfl, ht, -⟩ := hus
    exact readFilter_of_head hr fun he => by simp [← ht, he] at hk
  have htag : Gives (fun t => t.1 = true ∧ t.2.rest = ws ++ rest) (us ++ (vs ++ ws))
      (s.readTag limit stop) :=
    (readTag_gives hh ha hus hvs (ends_of_tail hk hws hend) hr).mono (fun r hr => hr) (by simp)
  unfold readBody
  rw [hfilter]
  refine htag.bind ?_
  rintro ⟨tagged, s₁⟩ ⟨rfl, hs₁⟩
  have houtput : Gives (fun o => o.2.rest = rest) (us ++ (vs ++ ws)) (s₁.readOutput limit stop) :=
    (readOutput_of_tail hk hws hend hs₁).mono (fun r hr => hr) fun x hx => by simp [hx]
  refine houtput.bind ?_
  rintro ⟨output, s₂⟩ hs₂
  cases output with
  | false => exact hs₂
  | true => exact (rest_fuse s₂).trans hs₂

theorem readBody_of_lineBody {alone : Bool} {ks : List TokenKind} {block : List Token}
    (h : LineBody alone ks) (hus : us.map (·.kind) = ks) (hraw : RawBlock s.depth block)
    (hblock : alone = false → block = []) (hend : LineEnd rest)
    (hnext : alone = true → NotDeeper s.depth rest) (hr : s.rest = us ++ (block ++ rest)) :
    Gives (fun s' => s'.rest = rest) (us ++ block) (s.readBody limit stop) := by
  cases h with
  | filter =>
    rw [List.map_eq_cons_iff] at hus
    obtain ⟨mark, us, rfl, hm, hus⟩ := hus
    rw [List.map_eq_nil_iff.1 hus] at hr ⊢
    have hfilter := readFilter_of_block hm hraw (hnext rfl) hr
    exact readBody_of_filter hend (hfilter.mono (fun r hr => hr) (List.subset_cons_self ..))
  | filterText =>
    rw [hblock rfl, List.nil_append] at hr
    rw [hblock rfl, List.append_nil]
    rw [List.map_eq_cons_iff] at hus
    obtain ⟨mark, us, rfl, hm, hus⟩ := hus
    rw [List.map_eq_cons_iff] at hus
    obtain ⟨t, us, rfl, ht, hus⟩ := hus
    rw [List.map_eq_nil_iff.1 hus] at hr ⊢
    -- the text of the filter is on its line, so that no block is looked for
    have hn : (true && nextIsDeeper { s with rest := [t] ++ rest }) = false := by
      rw [Bool.true_and, List.singleton_append, nextIsDeeper_cons, ht]
      rfl
    obtain ⟨s', hs', hrest'⟩ := readFilter_gives hm (by simp [ht]) hend hr hn
    refine readBody_of_filter hend ?_
    rw [hs']
    exact hrest'
  | output h =>
    rw [hblock rfl, List.nil_append] at hr
    rw [hblock rfl, List.append_nil]
    exact readBody_of_output h hus hend hr
  | tag hh ha hk =>
    rw [hblock rfl, List.nil_append] at hr
    rw [hblock rfl, List.append_nil]
    exact readBody_of_tag hh ha hk hus hend hr

/-- At the start of a line of markup what is as deep as the line ends, and its body comes next. -/
theorem readIndent_of_markup (l : MarkupLine) (hr : s.rest = l.tokens ++ rest) :
    s.readIndent.rest = l.body ++ (l.block ++ rest) ∧ s.readIndent.depth = l.depth ∧
      s.readIndent.emitted = (s.closeTo l.depth).emitted := by
  rw [readIndent_of_indent hr l.kind_indent, l.depth_indent]
  exact ⟨List.append_assoc .., rfl, rfl⟩

/-- A line of markup is read to its end, together with the block that it swallows. -/
theorem readLine_of_markup (l : MarkupLine) (hrest : l.EndsBefore rest)
    (hr : s.rest = l.tokens ++ rest) :
    Gives (fun s' => s'.rest = rest) l.tokens (s.readLine limit stop) := by
  obtain ⟨hend, hnext⟩ := hrest
  obtain ⟨hrest₁, hdepth₁, -⟩ := readIndent_of_markup l hr
  rw [← hdepth₁] at hnext
  have hraw := l.raw
  rw [← hdepth₁] at hraw
  rw [readLine_eq_readBody]
  exact (readBody_of_lineBody l.form rfl hraw l.block_eq hend hnext hrest₁).mono
    (fun s' hs' => hs') (List.subset_cons_self ..)

end Layout
end Offside
