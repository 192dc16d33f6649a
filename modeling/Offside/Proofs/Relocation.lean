import Mathlib.Data.List.Forall2
import Offside.Proofs.Indentation

/-!
# Tokens at other places

What is read does not depend on where the tokens stand. If every token is moved, by any function of
its place, then the same is read and placed where the tokens now are, and where reading fails it
fails there in the same way. This holds of all readers but one: the text of a filter's block has a
line break for each line between two of its tokens. So the texts that filters are given are compared
by a relation `W`, which holds of the others only if they are equal (`Layout.readLine_moved`).
-/

namespace Offside

/-! ## Moving -/

/-- The token at another place. -/
def Token.move (f : Location → Location) (t : Token) : Token := { t with start := f t.start }

/-- The problem with the token that it names at another place. -/
def Problem.move (f : Location → Location) : Problem → Problem
  | unexpectedToken got => unexpectedToken (got.move f)
  | expectedOther got expected => expectedOther (got.move f) expected
  | p => p

/-- The problem at another place. -/
def Located.move (f : Location → Location) (e : Located Problem) : Located Problem :=
  ⟨e.cause.move f, f e.pos⟩

namespace Instruction

/-- The instruction at another place. -/
def move (f : Location → Location) : Instruction → Instruction
  | literal pos text depth => literal (f pos) text depth
  | output pos value depth => output (f pos) value depth
  | exec pos source => exec (f pos) source
  | filtered pos filter text depth => filtered (f pos) filter text depth
  | openTag pos opening closing depth stop => openTag (f pos) opening closing depth stop
  | openControl pos control depth stop => openControl (f pos) control depth stop
  | close => close

/-- The second instruction is the first one at another place. If it passes a text through a filter,
the texts may differ as `W` allows at this place. -/
def Moved (f : Location → Location) (W : Location → Text → Text → Prop) :
    Instruction → Instruction → Prop
  | filtered pos filter text depth, j => ∃ text', W pos text text' ∧
      j = filtered (f pos) filter text' depth
  | i, j => j = i.move f

end Instruction

/-- Both readings succeed, with related results, or both fail, and the second one at the moved
place. -/
inductive Reading.Moved {α β : Type} (f : Location → Location) (R : α → β → Prop) :
    Reading α → Reading β → Prop
  | ok {a : α} {b : β} : R a b → Moved f R (.ok a) (.ok b)
  | error (e : Located Problem) : Moved f R (.error e) (.error (e.move f))

namespace Reading.Moved

variable {α α' β β' : Type} {f : Location → Location} {R : α → α' → Prop} {S : β → β' → Prop}
  {x : Reading α} {y : Reading α'}

theorem bind {k : α → Reading β} {k' : α' → Reading β'} (h : Moved f R x y)
    (hk : ∀ a b, x = .ok a → R a b → Moved f S (k a) (k' b)) : Moved f S (x >>= k) (y >>= k') := by
  cases h with
  | ok h => exact hk _ _ rfl h
  | error e => exact .error e

theorem and_of_ok {P : α → Prop} (h : Moved f R x y) (hP : ∀ a, x = .ok a → P a) :
    Moved f (fun a b => R a b ∧ P a) x y := by
  cases h with
  | ok h => exact .ok ⟨h, hP _ rfl⟩
  | error e => exact .error e

theorem eq_or_eq (h : Moved f R x y) : (∃ e, x = .error e ∧ y = .error (e.move f)) ∨
    ∃ a b, x = .ok a ∧ y = .ok b ∧ R a b := by
  cases h with
  | ok h => exact .inr ⟨_, _, rfl, rfl, h⟩
  | error e => exact .inl ⟨e, rfl, rfl⟩

theorem map {k : α → β} {k' : α' → β'} (h : Moved f R x y) (hk : ∀ a b, R a b → S (k a) (k' b)) :
    Moved f S (x.map k) (y.map k') := by
  cases h with
  | ok h => exact .ok (hk _ _ h)
  | error e => exact .error e

end Reading.Moved

/-! ## Readers of tokens -/

section Tokens

variable (f : Location → Location) {stop : Location}

/-- What was read, with the tokens that are left at other places. -/
def moveRest {α : Type} (r : α × List Token) : α × List Token := (r.1, r.2.map (·.move f))

theorem takeOne_moved (kinds : List TokenKind) (ts : List Token) :
    Reading.Moved f (fun r r' => r' = (r.1.move f, r.2.map (·.move f))) (takeOne stop kinds ts)
      (takeOne (f stop) kinds (ts.map (·.move f))) := by
  cases ts with
  | nil => exact .error ⟨.unexpectedEnd, stop⟩
  | cons t ts =>
    rw [List.map_cons, takeOne, takeOne]
    show Reading.Moved _ _ _ (if t.kind ∈ kinds then _ else _)
    split
    · exact .ok rfl
    · exact .error ⟨.expectedOther t kinds, t.start⟩

namespace Tag

theorem readName_moved (ts : List Token) :
    Reading.Moved f (fun r r' => r' = moveRest f r) (readName stop ts)
      (readName (f stop) (ts.map (·.move f))) := by
  cases ts with
  | nil => exact .ok rfl
  | cons t ts =>
    rw [List.map_cons, readName, readName]
    show Reading.Moved _ _ _ (if t.kind = .tagMark then _ else _)
    split
    · refine (takeOne_moved f _ ts).bind ?_
      rintro r _ - rfl
      exact .ok rfl
    · exact .ok rfl

theorem readMarks_moved (tag : Tag) (ts : List Token) :
    Reading.Moved f (fun r r' => r' = moveRest f r) (readMarks stop tag ts)
      (readMarks (f stop) tag (ts.map (·.move f))) := by
  fun_induction readMarks stop tag ts with
  | case1 tag => exact .ok rfl
  | case2 tag m hm =>
    rw [List.map_cons, List.map_nil, readMarks, if_pos (by exact hm)]
    exact .error ⟨.unexpectedEnd, stop⟩
  | case3 tag m hm v ts hv ih =>
    have hm' : (m.move f).kind = .idMark ∨ (m.move f).kind = .classMark := hm
    have hv' : (v.move f).kind ∈ wordKinds := hv
    rw [List.map_cons, List.map_cons, readMarks, if_pos hm', if_pos hv']
    exact ih
  | case4 tag m hm v ts hv =>
    rw [List.map_cons, List.map_cons, readMarks, if_pos (by exact hm), if_neg (by exact hv)]
    exact .error ⟨.expectedOther v wordKinds, v.start⟩
  | case5 tag m ts hm =>
    rw [List.map_cons]
    unfold readMarks
    rw [if_neg (by exact hm)]
    exact .ok rfl

theorem readAttributes_moved (tag : Tag) (ts : List Token) :
    Reading.Moved f (fun r r' => r' = moveRest f r) (readAttributes stop tag ts)
      (readAttributes (f stop) tag (ts.map (·.move f))) := by
  fun_induction readAttributes stop tag ts with
  | case1 tag => exact .ok rfl
  | case2 tag n hn =>
    rw [List.map_cons, List.map_nil, readAttributes, if_pos (by exact hn)]
    exact .error ⟨.unexpectedEnd, stop⟩
  | case3 tag n hn e he =>
    rw [List.map_cons, List.map_cons, List.map_nil, readAttributes, if_pos (by exact hn),
      if_pos (by exact he)]
    exact .error ⟨.unexpectedEnd, stop⟩
  | case4 tag n hn e he v ts hv ih =>
    rw [List.map_cons, List.map_cons, List.map_cons, readAttributes, if_pos (by exact hn),
      if_pos (by exact he), if_pos (by exact hv)]
    exact ih
  | case5 tag n hn e he v ts hv =>
    rw [List.map_cons, List.map_cons, List.map_cons, readAttributes, if_pos (by exact hn),
      if_pos (by exact he), if_neg (by exact hv)]
    exact .error ⟨.expectedOther v valueKinds, v.start⟩
  | case6 tag n hn e ts he =>
    rw [List.map_cons, List.map_cons]
    unfold readAttributes
    dsimp only
    rw [if_pos (by exact hn), if_neg (by exact he)]
    exact .error ⟨.expectedOther e [.equals], e.start⟩
  | case7 tag n ts hn =>
    rw [List.map_cons]
    unfold readAttributes
    rw [if_neg (by exact hn)]
    exact .ok rfl

theorem read_moved (ts : List Token) :
    Reading.Moved f (fun r r' => r' = moveRest f r) (read stop ts)
      (read (f stop) (ts.map (·.move f))) := by
  refine (readName_moved f ts).bind ?_
  rintro ⟨named, us⟩ _ - rfl
  refine (readMarks_moved f named us).bind ?_
  rintro ⟨headed, vs⟩ _ - rfl
  show Reading.Moved _ _ (if headed.isNothing then _ else _) (if headed.isNothing then _ else _)
  split
  · exact .ok rfl
  · refine (readAttributes_moved f headed vs).bind ?_
    rintro r _ - rfl
    exact .ok rfl

end Tag

namespace Layout

theorem readCodeBody_moved (ts : List Token) :
    Reading.Moved f (fun r r' => r' = ((r.1.1.move f, r.1.2), r.2.map (·.move f)))
      (readCodeBody stop ts) (readCodeBody (f stop) (ts.map (·.move f))) := by
  refine (takeOne_moved f _ ts).bind ?_
  rintro ⟨code, us⟩ _ - rfl
  cases us with
  | nil => exact .ok rfl
  | cons t us =>
    show Reading.Moved _ _ (if t.kind = .arrow then _ else _) (if t.kind = .arrow then _ else _)
    split
    · refine (takeOne_moved f _ us).bind ?_
      rintro r _ - rfl
      exact .ok rfl
    · exact .ok rfl

/-- The tokens that a block leaves are the same, whatever the numbers of its lines are. -/
theorem readBlock_moved (current base line line' : Nat) (ts : List Token) :
    Reading.Moved f (fun r r' => r'.2 = r.2.map (·.move f)) (readBlock current base line ts)
      (readBlock current base line' (ts.map (·.move f))) := by
  fun_induction readBlock current base line ts generalizing line' with
  | case1 line => exact .ok rfl
  | case2 line t ts ht hd =>
    rw [List.map_cons, readBlock, if_pos (by exact ht), if_pos (by exact hd)]
    exact .ok rfl
  | case3 line t ts ht hd hb =>
    rw [List.map_cons, readBlock, if_pos (by exact ht), if_neg (by exact hd), if_pos (by exact hb)]
    exact .error ⟨.shallowFilterLine, t.start⟩
  | case4 line t ts ht hd hb ih =>
    rw [List.map_cons, readBlock, if_pos (by exact ht), if_neg (by exact hd), if_neg (by exact hb)]
    exact (ih _).bind fun _ _ _ hr => .ok hr
  | case5 line t ts ht ih =>
    rw [List.map_cons, readBlock, if_neg (by exact ht)]
    exact (ih _).bind fun _ _ _ hr => .ok hr

end Layout
end Tokens

/-! ## Instructions -/

namespace Instruction

variable {f : Location → Location} {W : Location → Text → Text → Prop}

theorem moved_ofFragments (pos : Location) (v : Fragments) (depth : Nat) :
    Moved f W (ofFragments pos v depth) (ofFragments (f pos) v depth) := by
  unfold ofFragments
  split <;> rfl

namespace Moved

variable {i j : Instruction}

theorem closes_eq (h : Moved f W i j) : j.closes = i.closes := by
  cases i with
  | filtered =>
    obtain ⟨text', -, rfl⟩ := h
    rfl
  | literal | output | exec | openTag | openControl | close =>
    cases h
    rfl

theorem opens_eq (h : Moved f W i j) : j.opens = i.opens := by
  cases i with
  | filtered =>
    obtain ⟨text', -, rfl⟩ := h
    rfl
  | literal | output | exec | openTag | openControl | close =>
    cases h
    rfl

theorem withStop (h : Moved f W i j) (stop : Nat) :
    Moved f W (i.withStop stop) (j.withStop stop) := by
  cases i with
  | filtered =>
    obtain ⟨text', hW, rfl⟩ := h
    exact ⟨text', hW, rfl⟩
  | literal | output | exec | openTag | openControl | close =>
    cases h
    rfl

/-- What a tag can take in is the same, if the filter has the same text. -/
theorem contentOf?_eq (h : Moved f W i j)
    (hplain : ∀ text text', W i.pos text text' → text' = text) :
    Layout.contentOf? j = Layout.contentOf? i := by
  cases i with
  | filtered pos filter text depth =>
    obtain ⟨text', hW, rfl⟩ := h
    rw [hplain text text' hW]
    rfl
  | literal | output | exec | openTag | openControl | close =>
    cases h
    rfl

end Moved
end Instruction

/-- Instructions that are moved are closed by the same ones. -/
theorem matchScopes_moved {f : Location → Location} {W : Location → Text → Text → Prop}
    {l l' : List Instruction} (h : List.Forall₂ (Instruction.Moved f W) l l') (n : Nat) :
    List.Forall₂ (Instruction.Moved f W) (matchScopes n l).1 (matchScopes n l').1 ∧
      (matchScopes n l').2 = (matchScopes n l).2 := by
  induction h generalizing n with
  | nil => exact ⟨.nil, rfl⟩
  | @cons i j l l' hij _ ih =>
    obtain ⟨hall, hclosers⟩ := ih (n + 1)
    unfold matchScopes
    dsimp only
    rw [hij.closes_eq, hij.opens_eq, hclosers]
    split
    · exact ⟨.cons hij hall, rfl⟩
    · split
      · split
        · exact ⟨.cons hij hall, rfl⟩
        · exact ⟨.cons (hij.withStop _) hall, rfl⟩
      · exact ⟨.cons hij hall, rfl⟩

/-! ## The parts of a line -/

namespace Layout

section Parts

variable {f : Location → Location} {W : Location → Text → Text → Prop} {s s' : Layout}
  {limit : Int} {stop : Location}

/-- The second layout is the first one with everything at other places. -/
structure Moved (f : Location → Location) (W : Location → Text → Text → Prop) (s s' : Layout) :
    Prop where
  rest : s'.rest = s.rest.map (·.move f)
  emitted : List.Forall₂ (Instruction.Moved f W) s.emitted s'.emitted
  pending : s'.pending = s.pending

/-- A filter that has its mark here gets a text that is not changed. -/
def Plain (W : Location → Text → Text → Prop) (t : Token) : Prop :=
  ∀ text text', W t.start text text' ↔ text' = text

namespace Moved

theorem depth_eq (h : Layout.Moved f W s s') : s'.depth = s.depth := Layout.depth_eq h.pending

theorem scopes_eq (h : Layout.Moved f W s s') : s'.scopes = s.scopes := by
  rw [scopes, scopes, h.pending]

theorem nextIsDeeper_eq (h : Layout.Moved f W s s') : s'.nextIsDeeper = s.nextIsDeeper := by
  unfold nextIsDeeper
  rw [h.rest, h.depth_eq]
  cases s.rest <;> rfl

theorem nextCloses_eq (h : Layout.Moved f W s s') : s'.nextCloses = s.nextCloses := by
  unfold nextCloses
  rw [h.rest, h.depth_eq]
  cases s.rest <;> rfl

theorem withRest (h : Layout.Moved f W s s') (ts : List Token) :
    Layout.Moved f W { s with rest := ts } { s' with rest := ts.map (·.move f) } :=
  ⟨rfl, h.emitted, h.pending⟩

theorem emit (h : Layout.Moved f W s s') {i j : Instruction} (hij : i.Moved f W j) :
    Layout.Moved f W (s.emit i) (s'.emit j) :=
  ⟨h.rest, .cons hij h.emitted, h.pending⟩

theorem closeTo (h : Layout.Moved f W s s') (d : Nat) :
    Layout.Moved f W (s.closeTo d) (s'.closeTo d) := by
  have hclose : ∀ n, List.Forall₂ (Instruction.Moved f W)
      (List.replicate n .close ++ s.emitted) (List.replicate n .close ++ s'.emitted) := by
    intro n
    induction n with
    | zero => exact h.emitted
    | succ n ih => exact .cons rfl ih
  simp only [Layout.closeTo, closePending_eq, h.pending]
  exact ⟨h.rest, hclose _, rfl⟩

theorem readIndent (h : Layout.Moved f W s s') :
    Layout.Moved f W s.readIndent s'.readIndent := by
  unfold Layout.readIndent
  rw [h.rest]
  cases s.rest with
  | nil => exact h
  | cons t ts =>
    show Layout.Moved f W (if t.kind = .indent then _ else _) (if t.kind = .indent then _ else _)
    split
    · obtain ⟨hrest, hem, hpe⟩ := (h.withRest ts).closeTo t.depth
      exact ⟨hrest, hem, congrArg (⟨t.depth, false⟩ :: ·) hpe⟩
    · exact h

theorem openScope (h : Layout.Moved f W s s') {i j : Instruction} (hij : i.Moved f W j)
    (hpos : j.pos = f i.pos) :
    Reading.Moved f (Layout.Moved f W) (s.openScope limit i) (s'.openScope limit j) := by
  unfold Layout.openScope
  rw [h.scopes_eq, h.depth_eq, h.pending, hpos]
  split
  · exact .error ⟨.tooDeep, i.pos⟩
  · exact .ok ⟨h.rest, .cons hij h.emitted, rfl⟩

end Moved

/-- The second result is the first one with the layout moved. -/
def MovedResult (f : Location → Location) (W : Location → Text → Text → Prop)
    (r r' : Bool × Layout) : Prop :=
  r'.1 = r.1 ∧ Moved f W r.2 r'.2

/-- A filter that reads no block gets the same text. -/
theorem readFilter_moved (h : Moved f W s s') (hplain : ∀ t ∈ s.line, Plain W t) (alone : Bool)
    (hn : ∀ mark ts, s.rest = mark :: ts → mark.kind = .filterMark →
      (alone && nextIsDeeper { s with rest := ts }) = false) :
    Reading.Moved f (MovedResult f W) (s.readFilter alone) (s'.readFilter alone) := by
  by_cases hmark : ∃ mark ts, s.rest = mark :: ts ∧ mark.kind = .filterMark
  · obtain ⟨mark, ts, hr, hm⟩ := hmark
    have hr' : s'.rest = mark.move f :: ts.map (·.move f) := by rw [h.rest, hr]; rfl
    have hn' : (alone && nextIsDeeper { s' with rest := ts.map (·.move f) }) = false := by
      rw [(h.withRest ts).nextIsDeeper_eq, hn mark ts hr hm]
    have htext : ((ts.map (·.move f)).takeWhile (·.kind != .indent)).flatMap (·.contents) =
        (ts.takeWhile (·.kind != .indent)).flatMap (·.contents) := by
      rw [List.takeWhile_map, List.flatMap_map]
      rfl
    rw [readFilter_line hr hm (hn mark ts hr hm), readFilter_line hr' hm hn', htext, h.depth_eq,
      List.dropWhile_map]
    have hw := (hplain mark (head_mem_line hr (by simp [hm]))
      ((ts.takeWhile (·.kind != .indent)).flatMap (·.contents)) _).2 rfl
    exact .ok ⟨rfl, (h.withRest _).emit ⟨_, hw, rfl⟩⟩
  · have hne : ∀ t ts, s.rest = t :: ts → t.kind ≠ .filterMark :=
      fun t ts hr hm => hmark ⟨t, ts, hr, hm⟩
    rw [readFilter_of_not_mark hne, readFilter_of_not_mark]
    · exact .ok ⟨rfl, h⟩
    · intro t ts hr
      rw [h.rest] at hr
      obtain ⟨u, us, hu, rfl, -⟩ := List.map_eq_cons_iff.1 hr
      exact hne u us hu

/-- Whatever text it gets, a filter that stands alone leaves the same tokens. -/
theorem readFilter_moved_of_mark (h : Moved f W s s') {mark : Token} {ts : List Token}
    (hr : s.rest = mark :: ts) (hm : mark.kind = .filterMark) :
    Reading.Moved f (fun r r' => r'.2.rest = r.2.rest.map (·.move f)) (s.readFilter true)
      (s'.readFilter true) := by
  have hr' : s'.rest = mark.move f :: ts.map (·.move f) := by rw [h.rest, hr]; rfl
  have hdeeper := (h.withRest ts).nextIsDeeper_eq
  cases hn : nextIsDeeper { s with rest := ts } with
  | false =>
    have hline : (true && nextIsDeeper { s with rest := ts }) = false := hn
    have hline' : (true && nextIsDeeper { s' with rest := ts.map (·.move f) }) = false :=
      hdeeper.trans hn
    rw [readFilter_line hr hm hline, readFilter_line hr' hm hline', List.dropWhile_map]
    exact .ok rfl
  | true =>
    cases ts with
    | nil => cases hn
    | cons t ts =>
      rw [nextIsDeeper_cons, Bool.and_eq_true_iff, beq_iff_eq, decide_eq_true_iff] at hn
      obtain ⟨ht, hlt⟩ := hn
      have hlt' : s'.depth < (t.move f).depth := by rwa [h.depth_eq]
      rw [readFilter_block hr hm ht hlt, readFilter_block hr' hm ht hlt', h.depth_eq]
      exact (readBlock_moved f _ _ _ _ ts).map fun _ _ hrest => hrest

theorem readTag_moved (h : Moved f W s s') :
    Reading.Moved f (MovedResult f W) (s.readTag limit stop) (s'.readTag limit (f stop)) := by
  cases hr : s.rest with
  | nil =>
    have hr' : s'.rest = [] := by rw [h.rest, hr]; rfl
    rw [readTag_eq_false (by simp [hr]), readTag_eq_false (by simp [hr'])]
    exact .ok ⟨rfl, h⟩
  | cons t ts =>
    have hr' : s'.rest = t.move f :: ts.map (·.move f) := by rw [h.rest, hr]; rfl
    unfold readTag
    rw [hr, hr']
    refine (Tag.read_moved f (t :: ts)).bind ?_
    rintro ⟨tag?, rest⟩ _ - rfl
    cases tag? with
    | none => exact .ok ⟨rfl, h.withRest rest⟩
    | some tag =>
      have hrest := h.withRest rest
      show Reading.Moved _ _ (if nextCloses { s with rest } then
          .ok (true, Layout.emit { s with rest } (.ofFragments t.start _ s.depth))
        else Layout.openScope limit { s with rest } (.openTag t.start _ _ s.depth 0) >>= _)
        (if nextCloses { s' with rest := rest.map (·.move f) } then
          .ok (true, Layout.emit { s' with rest := rest.map (·.move f) }
            (.ofFragments (f t.start) _ s'.depth))
        else Layout.openScope limit { s' with rest := rest.map (·.move f) }
          (.openTag (f t.start) _ _ s'.depth 0) >>= _)
      rw [hrest.nextCloses_eq, h.depth_eq]
      split
      · exact .ok ⟨rfl, hrest.emit (Instruction.moved_ofFragments ..)⟩
      · refine (hrest.openScope ?_ rfl).bind fun _ _ _ hs => .ok ⟨rfl, hs⟩
        rfl

theorem readCode_moved (h : Moved f W s s') (capture : Bool)
    {leaf : Location → Text → Nat → Instruction}
    (hleaf : ∀ pos source depth,
      (leaf pos source depth).Moved f W (leaf (f pos) source depth)) (ts : List Token) :
    Reading.Moved f (Moved f W) (readCode limit stop capture leaf s ts)
      (readCode limit (f stop) capture leaf s' (ts.map (·.move f))) := by
  refine (readCodeBody_moved f ts).bind ?_
  rintro ⟨⟨code, vars⟩, rest⟩ _ - rfl
  have hrest := h.withRest rest
  show Reading.Moved _ _ (if nextIsDeeper { s with rest } then
      Layout.openScope limit { s with rest } (.openControl code.start _ s.depth 0)
    else if vars.isEmpty then
      .ok (Layout.emit { s with rest } (leaf code.start code.contents s.depth)) else _)
    (if nextIsDeeper { s' with rest := rest.map (·.move f) } then
      Layout.openScope limit { s' with rest := rest.map (·.move f) }
        (.openControl (f code.start) _ s'.depth 0)
    else if vars.isEmpty then
      .ok (Layout.emit { s' with rest := rest.map (·.move f) }
        (leaf (f code.start) code.contents s'.depth)) else _)
  rw [hrest.nextIsDeeper_eq, h.depth_eq]
  split
  · refine hrest.openScope ?_ rfl
    rfl
  · split
    · exact .ok (hrest.emit (hleaf ..))
    · exact .error ⟨.variablesWithoutBlock, code.start⟩

theorem readOutput_moved (h : Moved f W s s') (hplain : ∀ t ∈ s.line, Plain W t) :
    Reading.Moved f (MovedResult f W) (s.readOutput limit stop)
      (s'.readOutput limit (f stop)) := by
  have hfilter : Reading.Moved f (MovedResult f W) (s.readFilter false) (s'.readFilter false) :=
    readFilter_moved h hplain false fun _ _ _ _ => rfl
  unfold readOutput
  rw [h.rest]
  cases s.rest with
  | nil => exact .ok ⟨rfl, h⟩
  | cons mark ts =>
    have hkind : (mark.move f).kind = mark.kind := rfl
    rw [List.map_cons]
    dsimp only
    rw [hkind]
    split
    · exact hfilter
    · refine (readCode_moved h true ?_ ts).bind fun _ _ _ hs => .ok ⟨rfl, hs⟩
      exact fun _ _ _ => rfl
    · refine (readCode_moved h false ?_ ts).bind fun _ _ _ hs => .ok ⟨rfl, hs⟩
      exact fun _ _ _ => rfl
    · refine (takeOne_moved f _ ts).bind ?_
      rintro ⟨comment, rest⟩ _ - rfl
      rw [h.depth_eq]
      exact .ok ⟨rfl, (h.withRest rest).emit rfl⟩
    · rw [h.depth_eq]
      exact .ok ⟨rfl, (h.withRest ts).emit (Instruction.moved_ofFragments ..)⟩
    · exact .ok ⟨rfl, h⟩

/-- Joining a tag with its output is the same, if the output is no filter with another text. -/
theorem fuse_moved (h : Moved f W s s')
    (hplain : ∀ i ∈ s.emitted.head?, ∀ text text', W i.pos text text' → text' = text) :
    Moved f W s.fuse s'.fuse := by
  have hcloses := h.nextCloses_eq
  have hdeeper := h.nextIsDeeper_eq
  obtain ⟨rest, emitted, pending⟩ := s
  obtain ⟨rest', emitted', pending'⟩ := s'
  obtain ⟨hrest, hem, hpe⟩ := h
  cases hem with
  | nil => exact ⟨hrest, .nil, hpe⟩
  | @cons i j em em' hij hem =>
    cases hem with
    | nil => exact ⟨hrest, .cons hij .nil, hpe⟩
    | @cons o o' em em' ho hem =>
      cases o with
      | openTag pos opening closing depth stop =>
        obtain rfl : o' = .openTag (f pos) opening closing depth stop := ho
        have hcontent := hij.contentOf?_eq (hplain i rfl)
        unfold fuse
        dsimp only
        rw [hcontent, hcloses, hdeeper]
        split
        · exact ⟨hrest, .cons hij (.cons rfl hem), hpe⟩
        · split
          · exact ⟨hrest, .cons (Instruction.moved_ofFragments ..) hem, congrArg List.tail hpe⟩
          · split
            · exact ⟨hrest, .cons rfl hem, hpe⟩
            · exact ⟨hrest, .cons hij (.cons rfl hem), hpe⟩
      | filtered =>
        obtain ⟨text', hW, rfl⟩ := ho
        exact ⟨hrest, .cons hij (.cons ⟨text', hW, rfl⟩ hem), hpe⟩
      | literal | output | exec | openControl | close =>
        cases ho
        exact ⟨hrest, .cons hij (.cons rfl hem), hpe⟩

/-- What follows the indentation of a line, if it is no filter with a block. -/
theorem readBody_moved (h : Moved f W s s') (hplain : ∀ t ∈ s.line, Plain W t)
    (hn : ∀ mark ts, s.rest = mark :: ts → mark.kind = .filterMark →
      nextIsDeeper { s with rest := ts } = false) :
    Reading.Moved f (Moved f W) (s.readBody limit stop) (s'.readBody limit (f stop)) := by
  refine (readFilter_moved h hplain true hn).bind ?_
  rintro ⟨_, s₁⟩ ⟨filtered, s₁'⟩ h₁ ⟨rfl, hs₁⟩
  have hplain₁ : ∀ t ∈ s₁.line, Plain W t := by
    rcases readFilter_ok h₁ with ⟨-, rfl⟩ | ⟨-, -, hend, -⟩
    · exact hplain
    · have hnil : s₁.line = [] := by
        rcases hend with hr | ⟨t, ts, hr, ht⟩
        · rw [line, hr, List.takeWhile_nil]
        · rw [line, hr, List.takeWhile_cons_of_neg (by simp [ht])]
      simp [hnil]
  refine (readTag_moved hs₁).bind ?_
  rintro ⟨_, s₂⟩ ⟨tagged, s₂'⟩ h₂ ⟨rfl, hs₂⟩
  have hplain₂ : ∀ t ∈ s₂.line, Plain W t := by
    rcases readTag_ok h₂ with ⟨-, rfl⟩ | ⟨-, hwithin, -⟩
    · exact hplain₁
    · exact fun t ht => hplain₁ t (hwithin.takeWhile_suffix.subset ht)
  refine (readOutput_moved hs₂ hplain₂).bind ?_
  rintro ⟨_, s₃⟩ ⟨output, s₃'⟩ h₃ ⟨rfl, hs₃⟩
  show Reading.Moved _ _ (.ok (if tagged && output then s₃.fuse else s₃))
    (.ok (if tagged && output then s₃'.fuse else s₃'))
  cases hboth : tagged && output with
  | false => exact .ok hs₃
  | true =>
    refine .ok (fuse_moved hs₃ ?_)
    -- what was put out stands on the line, so that a filter has its text from there
    obtain ⟨-, rfl⟩ := Bool.and_eq_true_iff.1 hboth
    obtain ⟨i, ⟨⟨t, ht, hpos⟩, -⟩, hem⟩ : ∃ i, FromLine s₂ i ∧ s₃.emitted = i :: s₂.emitted := by
      rcases readOutput_ok h₃ with ⟨hn, -⟩ | ⟨-, -, ⟨i, -, hi, hem, -⟩ | ⟨_, _, hi, -, hem, -⟩⟩
      · cases hn
      · exact ⟨i, hi, hem⟩
      · exact ⟨_, hi, hem⟩
    rw [hem]
    rintro _ ⟨⟩ text text' hW
    rw [hpos] at hW
    exact (hplain₂ t ht text text').1 hW

/-- A line of markup is read in the same way, unless it is a filter that stands alone. -/
theorem readLine_moved (h : Moved f W s s') {l : MarkupLine} (halone : l.alone = false)
    {rest : List Token} (hend : LineEnd rest) (hr : s.rest = l.tokens ++ rest)
    (hplain : ∀ t ∈ l.body, Plain W t) :
    Reading.Moved f (Moved f W) (s.readLine limit stop) (s'.readLine limit (f stop)) := by
  rw [readLine_eq_readBody, readLine_eq_readBody]
  refine readBody_moved h.readIndent (by rwa [l.line_readIndent hend hr]) ?_
  intro mark ts hmark hm
  have hform := l.form
  rw [(readIndent_of_markup l hr).1] at hmark
  rw [halone] at hform
  generalize hks : l.body.map (·.kind) = ks at hform
  obtain ⟨t, us, hbody⟩ := List.exists_cons_of_ne_nil l.body_ne_nil
  rw [hbody, List.cons_append] at hmark
  rw [hbody, List.map_cons] at hks
  obtain ⟨rfl, rfl⟩ := List.cons.inj hmark
  rw [hm] at hks
  cases hform with
  | filterText =>
    -- its text comes next, on the same line
    obtain ⟨u, us, rfl, hu, -⟩ := List.map_eq_cons_iff.1 (List.cons.inj hks).2
    rw [List.cons_append, nextIsDeeper_cons, hu]
    rfl
  | output h =>
    obtain ⟨k, ks', rfl, hk⟩ := h.head
    rw [← (List.cons.inj hks).1] at hk
    exact absurd hk (by decide)
  | tag hh =>
    obtain ⟨k, ks', rfl, hk⟩ := hh.head
    rw [← (List.cons.inj hks).1] at hk
    exact absurd hk (by decide)

theorem readDoctype_moved (h : Moved f W s s') :
    Reading.Moved f (Moved f W) s.readDoctype s'.readDoctype := by
  unfold readDoctype
  rw [h.rest]
  cases s.rest with
  | nil => exact .ok h
  | cons mark ts =>
    have hwords : ((ts.map (·.move f)).takeWhile (·.kind == .doctypeWord)).take 2 =
        ((ts.takeWhile (·.kind == .doctypeWord)).take 2).map (·.move f) := by
      rw [List.takeWhile_map, List.map_take]
      rfl
    show Reading.Moved _ _ (if mark.kind ≠ .doctypeMark then _ else _)
      (if mark.kind ≠ .doctypeMark then _ else _)
    split
    · exact .ok h
    · have hcontents : ∀ us : List Token,
          (us.map (·.move f)).map (·.contents) = us.map (·.contents) := by
        intro us
        rw [List.map_map]
        rfl
      dsimp only
      rw [hwords, hcontents, List.length_map, ← List.map_drop]
      split
      · exact .error ⟨.unknownDoctype _, mark.start⟩
      · rename_i lines _
        have hlines : List.Forall₂ (Instruction.Moved f W)
            (lines.map fun l => .literal mark.start l 0).reverse
            (lines.map fun l => .literal (mark.move f).start l 0).reverse := by
          rw [List.forall₂_reverse_iff, List.forall₂_map_left_iff, List.forall₂_map_right_iff,
            List.forall₂_same]
          exact fun _ _ => rfl
        exact .ok ⟨rfl, List.rel_append hlines h.emitted, h.pending⟩

/-! ## The whole -/

/-- Lines are read in the same way if the first one is, and then what it leaves. -/
theorem readLines_moved {R : Layout → Layout → Prop} {t : Token} {ts : List Token}
    (h : Moved f W s s') (hr : s.rest = t :: ts)
    (hline : Reading.Moved f R (s.readLine limit stop) (s'.readLine limit (f stop)))
    (hnext : ∀ s₁ s₁', R s₁ s₁' → Moved f W s₁ s₁' ∧
      Reading.Moved f (Moved f W) (s₁.readLines limit stop) (s₁'.readLines limit (f stop))) :
    Reading.Moved f (Moved f W) (s.readLines limit stop) (s'.readLines limit (f stop)) := by
  have hr' : s'.rest = t.move f :: ts.map (·.move f) := by rw [h.rest, hr]; rfl
  rw [readLines_cons hr, readLines_cons hr']
  refine hline.bind ?_
  intro s₁ s₁' _ hR
  obtain ⟨hs₁, hlines⟩ := hnext s₁ s₁' hR
  rw [h.rest, hs₁.rest, List.length_map, List.length_map]
  split
  · exact hlines
  · exact .error ⟨.unexpectedToken t, t.start⟩

end Parts
end Layout

/-- All is read in the same way if the lines behind the doctype line are. -/
theorem layOut_moved {f : Location → Location} {W : Location → Text → Text → Prop}
    {tokens : List Token} {maxDepth : Int}
    (hend : Layout.endOf (tokens.map (·.move f)) = f (Layout.endOf tokens))
    (hlines : ∀ limit s s', Layout.readDoctype { rest := tokens } = .ok s → s.Moved f W s' →
      Reading.Moved f (Layout.Moved f W) (s.readLines limit (Layout.endOf tokens))
        (s'.readLines limit (f (Layout.endOf tokens)))) :
    Reading.Moved f (List.Forall₂ (Instruction.Moved f W)) (layOut maxDepth tokens)
      (layOut maxDepth (tokens.map (·.move f))) := by
  have hstart : Layout.Moved f W { rest := tokens } { rest := tokens.map (·.move f) } :=
    ⟨rfl, .nil, rfl⟩
  unfold layOut
  rw [hend]
  refine (Layout.readDoctype_moved hstart).bind ?_
  intro s s' hs hmoved
  refine (hlines _ s s' hs hmoved).bind ?_
  intro s₁ s₁' _ hmoved₁
  have hcode := List.rel_reverse (hmoved₁.closeTo 0).emitted
  exact .ok (matchScopes_moved hcode 0).1

end Offside
