import Offside.Proofs.SourceReading

/-!
# Reading lines in a context

What lines are read as does not depend on what was read before them, as long as they are deeper than
all that is pending, nor on what follows them, as long as that is not deeper. The same lines can be
read alone or in such a context (`Layout.Context`), and the context stays around what they give
(`Layout.readLines_put`). The one thing that can tell the difference is a reader that runs out of
tokens, which does not happen on the tokens of a source.
-/

namespace Offside

/-! ## Two readings of the same tokens -/

namespace Reading

/-- The reading `y` gives what `x` gives, with `f` applied, unless `x` runs out of tokens. -/
def Carries {α β : Type} (f : α → β) (x : Reading α) (y : Reading β) : Prop :=
  (∃ pos, x = .error ⟨.unexpectedEnd, pos⟩) ∨ y = x.map f

namespace Carries

variable {α α' β β' : Type} {f : α → α'} {g : β → β'} {x : Reading α} {y : Reading α'}

theorem bind {k : α → Reading β} {k' : α' → Reading β'} (h : Carries f x y)
    (hk : ∀ a, x = .ok a → Carries g (k a) (k' (f a))) : Carries g (x >>= k) (y >>= k') := by
  rcases h with ⟨pos, rfl⟩ | rfl
  · exact .inl ⟨pos, rfl⟩
  · cases x with
    | error e => exact .inr rfl
    | ok a => exact hk a rfl

theorem map {k : α → β} {k' : α' → β'} (h : Carries f x y) (hk : ∀ a, k' (f a) = g (k a)) :
    Carries g (x.map k) (y.map k') := by
  rcases h with ⟨pos, rfl⟩ | rfl
  · exact .inl ⟨pos, rfl⟩
  · right
    cases x with
    | error e => rfl
    | ok a => exact congrArg Except.ok (hk a)

theorem eq_map (h : Carries f x y) (hx : ∀ pos, x ≠ .error ⟨.unexpectedEnd, pos⟩) :
    y = x.map f := by
  rcases h with ⟨pos, he⟩ | h
  · exact absurd he (hx pos)
  · exact h

end Carries
end Reading

open Reading (Carries)

section Runs

variable {α : Type} {p : α → Bool} {m : List α}

theorem takeWhile_append_of_head (h : ∀ a ∈ m.head?, p a = false) (l : List α) :
    (l ++ m).takeWhile p = l.takeWhile p := by
  induction l with
  | nil => cases m <;> simp_all
  | cons a l ih => rw [List.cons_append, List.takeWhile_cons, List.takeWhile_cons, ih]

theorem dropWhile_append_of_head (h : ∀ a ∈ m.head?, p a = false) (l : List α) :
    (l ++ m).dropWhile p = l.dropWhile p ++ m := by
  induction l with
  | nil => cases m <;> simp_all
  | cons a l ih =>
    rw [List.cons_append, List.dropWhile_cons, List.dropWhile_cons, ih]
    split <;> rfl

end Runs

/-- What was read, with more tokens behind what is left. -/
def withMore {α : Type} (more : List Token) (r : α × List Token) : α × List Token :=
  (r.1, r.2 ++ more)

section Tokens

variable {stop stop' : Location} {more : List Token}

theorem takeOne_carries (kinds : List TokenKind) (ts : List Token) :
    Carries (withMore more) (takeOne stop kinds ts) (takeOne stop' kinds (ts ++ more)) := by
  cases ts with
  | nil => exact .inl ⟨stop, rfl⟩
  | cons t ts =>
    right
    rw [List.cons_append, takeOne, takeOne]
    split <;> rfl

namespace Tag

theorem readName_of_lineEnd (h : LineEnd more) : readName stop more = .ok ({}, more) := by
  rcases h with rfl | ⟨t, ts, rfl, ht⟩
  · rfl
  · have hname : t.kind ≠ .tagMark := by rw [ht]; simp
    rw [readName, if_neg hname]

theorem readMarks_of_lineEnd (h : LineEnd more) (tag : Tag) :
    readMarks stop tag more = .ok (tag, more) := by
  rcases h with rfl | ⟨t, ts, rfl, ht⟩
  · rfl
  · have hmark : ¬ (t.kind = .idMark ∨ t.kind = .classMark) := by rw [ht]; simp
    unfold readMarks
    rw [if_neg hmark]

theorem readAttributes_of_lineEnd (h : LineEnd more) (tag : Tag) :
    readAttributes stop tag more = .ok (tag, more) := by
  rcases h with rfl | ⟨t, ts, rfl, ht⟩
  · rfl
  · have hword : t.kind ∉ wordKinds := by rw [ht]; decide
    unfold readAttributes
    rw [if_neg hword]

theorem readName_carries (hmore : LineEnd more) (ts : List Token) :
    Carries (withMore more) (readName stop ts) (readName stop' (ts ++ more)) := by
  cases ts with
  | nil => exact .inr (readName_of_lineEnd hmore)
  | cons t ts =>
    rw [List.cons_append, readName, readName]
    split
    · exact (takeOne_carries _ ts).bind fun _ _ => .inr rfl
    · exact .inr rfl

theorem readMarks_carries (hmore : LineEnd more) (tag : Tag) (ts : List Token) :
    Carries (withMore more) (readMarks stop tag ts) (readMarks stop' tag (ts ++ more)) := by
  fun_induction readMarks stop tag ts with
  | case1 tag => exact .inr (readMarks_of_lineEnd hmore tag)
  | case2 => exact .inl ⟨stop, rfl⟩
  | case3 tag m hm v ts hv ih =>
    rw [List.cons_append, List.cons_append, readMarks, if_pos hm, if_pos hv]
    exact ih
  | case4 tag m hm v ts hv =>
    right
    rw [List.cons_append, List.cons_append, readMarks, if_pos hm, if_neg hv]
    rfl
  | case5 tag m ts hm =>
    right
    rw [List.cons_append]
    unfold readMarks
    rw [if_neg hm]
    rfl

theorem readAttributes_carries (hmore : LineEnd more) (tag : Tag) (ts : List Token) :
    Carries (withMore more) (readAttributes stop tag ts)
      (readAttributes stop' tag (ts ++ more)) := by
  fun_induction readAttributes stop tag ts with
  | case1 tag => exact .inr (readAttributes_of_lineEnd hmore tag)
  | case2 | case3 => exact .inl ⟨stop, rfl⟩
  | case4 tag n hn e he v ts hv ih =>
    rw [List.cons_append, List.cons_append, List.cons_append, readAttributes, if_pos hn,
      if_pos he, if_pos hv]
    exact ih
  | case5 tag n hn e he v ts hv =>
    right
    rw [List.cons_append, List.cons_append, List.cons_append, readAttributes, if_pos hn,
      if_pos he, if_neg hv]
    rfl
  | case6 tag n hn e ts he =>
    right
    rw [List.cons_append, List.cons_append]
    unfold readAttributes
    dsimp only
    rw [if_pos hn, if_neg he]
    rfl
  | case7 tag n ts hn =>
    right
    rw [List.cons_append]
    unfold readAttributes
    rw [if_neg hn]
    rfl

/-- A tag is the same whatever line comes next. -/
theorem read_carries (hmore : LineEnd more) (ts : List Token) :
    Carries (withMore more) (read stop ts) (read stop' (ts ++ more)) := by
  refine (readName_carries hmore ts).bind ?_
  rintro ⟨named, us⟩ -
  refine (readMarks_carries hmore named us).bind ?_
  rintro ⟨headed, vs⟩ -
  show Carries _ (if headed.isNothing then _ else _) (if headed.isNothing then _ else _)
  split
  · exact .inr rfl
  · exact (readAttributes_carries hmore headed vs).bind fun _ _ => .inr rfl

end Tag

namespace Layout

theorem readCodeBody_carries (hmore : LineEnd more) (ts : List Token) :
    Carries (withMore more) (readCodeBody stop ts) (readCodeBody stop' (ts ++ more)) := by
  refine (takeOne_carries _ ts).bind ?_
  rintro ⟨code, us⟩ -
  cases us with
  | nil =>
    right
    rcases hmore with rfl | ⟨t, ts, rfl, ht⟩
    · rfl
    · have harrow : t.kind ≠ .arrow := by rw [ht]; simp
      show (if t.kind = .arrow then _ else _) = _
      rw [if_neg harrow]
      rfl
  | cons t us =>
    show Carries _ (if t.kind = .arrow then _ else _) (if t.kind = .arrow then _ else _)
    split
    · exact (takeOne_carries _ us).bind fun _ _ => .inr rfl
    · exact .inr rfl

theorem readBlock_carries {current : Nat} (hmore : NotDeeper current more) (base line : Nat)
    (ts : List Token) :
    Carries (withMore more) (readBlock current base line ts)
      (readBlock current base line (ts ++ more)) := by
  fun_induction readBlock current base line ts with
  | case1 line =>
    right
    rcases hmore with rfl | ⟨t, ts, rfl, ht, hd⟩
    · rfl
    · rw [List.nil_append, readBlock, if_pos ht, if_pos hd]
      rfl
  | case2 line t ts ht hd =>
    right
    rw [List.cons_append, readBlock, if_pos ht, if_pos hd]
    rfl
  | case3 line t ts ht hd hb =>
    right
    rw [List.cons_append, readBlock, if_pos ht, if_neg hd, if_pos hb]
    rfl
  | case4 line t ts ht hd hb ih =>
    rw [List.cons_append, readBlock, if_pos ht, if_neg hd, if_neg hb]
    exact ih.bind fun _ _ => .inr rfl
  | case5 line t ts ht ih =>
    rw [List.cons_append, readBlock, if_neg ht]
    exact ih.bind fun _ _ => .inr rfl

end Layout
end Tokens

/-! ## The context of a layout -/

namespace Layout

/-- What stands around lines that are read: the instructions and the pending lines and scopes before
them, and the tokens after them. -/
structure Context where
  before : List Instruction
  around : List Pending
  after : List Token

namespace Context

/-- The layout in the context. -/
def put (c : Context) (s : Layout) : Layout where
  rest := s.rest ++ c.after
  emitted := s.emitted ++ c.before
  pending := s.pending ++ c.around

/-- The number of scopes around. -/
def scopes (c : Context) : Nat := c.around.countP (·.scope)

/-- A line at this depth fits in: it is deeper than what is around, and what comes after is not
deeper than the line. -/
def Fits (c : Context) (depth : Nat) : Prop :=
  (∀ p ∈ c.around, p.depth < depth) ∧ NotDeeper depth c.after

/-- One limit lets pass in the context what the other lets pass alone. -/
def Matches (c : Context) (limit limit' : Int) : Prop :=
  ∀ n : Nat, limit ≤ n ↔ limit' ≤ (n + c.scopes : Nat)

end Context

section Put

variable {c : Context} {s : Layout}

theorem depth_put (hs : s.pending ≠ []) : (c.put s).depth = s.depth := by
  obtain ⟨p, ps, hp⟩ := List.exists_cons_of_ne_nil hs
  simp [depth, Context.put, hp]

/-- What is read next is read next alone too, or it is the line after. -/
theorem head_put (hafter : LineEnd c.after) {t : Token} {ts : List Token}
    (h : (c.put s).rest = t :: ts) : (∃ us, s.rest = t :: us) ∨ t.kind = .indent := by
  have h : s.rest ++ c.after = t :: ts := h
  cases hr : s.rest with
  | nil =>
    right
    rw [hr, List.nil_append] at h
    rcases hafter with he | ⟨u, us, he, hu⟩ <;> rw [h] at he <;> cases he
    exact hu
  | cons u us =>
    rw [hr] at h
    cases h
    exact .inl ⟨us, rfl⟩

theorem scopes_put : (c.put s).scopes = s.scopes + c.scopes := List.countP_append

theorem nextCloses_put (hs : s.pending ≠ []) (hafter : NotDeeper s.depth c.after) :
    (c.put s).nextCloses = s.nextCloses := by
  have hd : (c.put s).depth = s.depth := depth_put hs
  unfold nextCloses
  rw [hd, Context.put]
  cases s.rest with
  | nil =>
    rcases hafter with he | ⟨t, ts, he, ht, hle⟩
    · rw [he]
      rfl
    · simp [he, ht, hle]
  | cons t ts => rfl

theorem nextIsDeeper_put (hs : s.pending ≠ []) (hafter : NotDeeper s.depth c.after) :
    (c.put s).nextIsDeeper = s.nextIsDeeper := by
  have hd : (c.put s).depth = s.depth := depth_put hs
  unfold nextIsDeeper
  rw [hd, Context.put]
  cases s.rest with
  | nil =>
    rcases hafter with he | ⟨t, ts, he, ht, hle⟩
    · rw [he]
      rfl
    · simp [he, ht, hle]
  | cons t ts => rfl

theorem openScope_put {limit limit' : Int} (hlimit : c.Matches limit limit') (hs : s.pending ≠ [])
    (i : Instruction) : (c.put s).openScope limit' i = (s.openScope limit i).map c.put := by
  have hd : (c.put s).depth = s.depth := depth_put hs
  unfold openScope
  rw [scopes_put, hd]
  by_cases h : limit ≤ s.scopes
  · rw [if_pos h, if_pos ((hlimit _).1 h)]
    rfl
  · rw [if_neg h, if_neg fun h' => h ((hlimit _).2 h')]
    rfl

end Put

/-- A result of reading, with the layout in the context. -/
def Context.putResult (c : Context) (r : Bool × Layout) : Bool × Layout := (r.1, c.put r.2)

section Body

variable {c : Context} {s : Layout} {limit limit' : Int} {stop stop' : Location}

theorem readFilter_put (hs : s.pending ≠ []) (hafter : NotDeeper s.depth c.after) (alone : Bool) :
    Carries c.putResult (s.readFilter alone) ((c.put s).readFilter alone) := by
  have hd : (c.put s).depth = s.depth := depth_put hs
  by_cases hmark : ∃ mark ts, s.rest = mark :: ts ∧ mark.kind = .filterMark
  · obtain ⟨mark, ts, hr, hm⟩ := hmark
    have hr' : (c.put s).rest = mark :: (ts ++ c.after) := by rw [Context.put, hr]; rfl
    have hdeep : nextIsDeeper { c.put s with rest := ts ++ c.after } =
        nextIsDeeper { s with rest := ts } :=
      nextIsDeeper_put (s := { s with rest := ts }) hs hafter
    cases hn : alone && nextIsDeeper { s with rest := ts } with
    | true =>
      obtain ⟨rfl, hdeeper⟩ := Bool.and_eq_true_iff.1 hn
      cases ts with
      | nil => cases hdeeper
      | cons t ts =>
        rw [nextIsDeeper_cons, Bool.and_eq_true_iff, beq_iff_eq, decide_eq_true_iff] at hdeeper
        obtain ⟨ht, hlt⟩ := hdeeper
        rw [readFilter_block hr hm ht hlt, readFilter_block hr' hm ht (by rwa [hd]), hd]
        exact (readBlock_carries hafter _ _ ts).map fun _ => rfl
    | false =>
      have hend : ∀ t ∈ c.after.head?, (t.kind != .indent) = false := by
        rcases hafter with he | ⟨t, ts, he, ht, -⟩
        · simp [he]
        · simp [he, ht]
      right
      rw [readFilter_line hr hm hn, readFilter_line hr' hm (by rwa [hdeep]), hd,
        takeWhile_append_of_head hend, dropWhile_append_of_head hend]
      rfl
  · have hne : ∀ t ts, s.rest = t :: ts → t.kind ≠ .filterMark :=
      fun t ts hr hm => hmark ⟨t, ts, hr, hm⟩
    right
    rw [readFilter_of_not_mark hne, readFilter_of_not_mark]
    · rfl
    · intro t ts hr
      rcases head_put hafter.lineEnd hr with ⟨us, hr⟩ | ht
      · exact hne t us hr
      · rw [ht]
        simp

theorem readTag_put (hlimit : c.Matches limit limit') (hs : s.pending ≠ [])
    (hafter : NotDeeper s.depth c.after) :
    Carries c.putResult (s.readTag limit stop) ((c.put s).readTag limit' stop') := by
  have hd : (c.put s).depth = s.depth := depth_put hs
  cases hr : s.rest with
  | nil =>
    -- the line after does not start with a tag
    have halone : s.readTag limit stop = .ok (false, s) := readTag_eq_false (by simp [hr])
    have hput : (c.put s).readTag limit' stop' = .ok (false, c.put s) := by
      refine readTag_eq_false ?_
      intro t ts hr'
      rcases head_put hafter.lineEnd hr' with ⟨us, he⟩ | ht
      · rw [hr] at he
        cases he
      · simp [ht, IsMark]
    rw [halone, hput]
    exact .inr rfl
  | cons t ts =>
    have hr' : (c.put s).rest = t :: (ts ++ c.after) := by rw [Context.put, hr]; rfl
    unfold readTag
    rw [hr, hr']
    refine (Tag.read_carries hafter.lineEnd (t :: ts)).bind ?_
    rintro ⟨tag?, rest⟩ -
    cases tag? with
    | none => exact .inr rfl
    | some tag =>
      show Carries _ (if nextCloses { s with rest } then _ else _)
        (if (c.put { s with rest }).nextCloses then
          .ok (true, emit (c.put { s with rest }) (.ofFragments t.start _ (c.put s).depth))
        else
          (c.put { s with rest }).openScope limit' (.openTag t.start _ _ (c.put s).depth 0) >>= _)
      rw [nextCloses_put (s := { s with rest }) hs hafter, hd]
      split
      · exact .inr rfl
      · rw [openScope_put (s := { s with rest }) hlimit hs]
        exact Carries.bind (.inr rfl) fun _ _ => .inr rfl

theorem readCode_put (hlimit : c.Matches limit limit') (hs : s.pending ≠ [])
    (hafter : NotDeeper s.depth c.after) (capture : Bool)
    (leaf : Location → Text → Nat → Instruction) (ts : List Token) :
    Carries c.put (readCode limit stop capture leaf s ts)
      (readCode limit' stop' capture leaf (c.put s) (ts ++ c.after)) := by
  have hd : (c.put s).depth = s.depth := depth_put hs
  refine (readCodeBody_carries hafter.lineEnd ts).bind ?_
  rintro ⟨⟨code, vars⟩, rest⟩ -
  show Carries _ (if nextIsDeeper { s with rest } then _ else _)
    (if (c.put { s with rest }).nextIsDeeper then
      (c.put { s with rest }).openScope limit' (.openControl code.start _ (c.put s).depth 0)
    else if vars.isEmpty then
      .ok (emit (c.put { s with rest }) (leaf code.start code.contents (c.put s).depth))
    else _)
  rw [nextIsDeeper_put (s := { s with rest }) hs hafter, hd]
  split
  · exact .inr (openScope_put (s := { s with rest }) hlimit hs _)
  · split <;> exact .inr rfl

theorem readOutput_put (hlimit : c.Matches limit limit') (hs : s.pending ≠ [])
    (hafter : NotDeeper s.depth c.after) :
    Carries c.putResult (s.readOutput limit stop) ((c.put s).readOutput limit' stop') := by
  have hd : (c.put s).depth = s.depth := depth_put hs
  cases hr : s.rest with
  | nil =>
    have halone : s.readOutput limit stop = .ok (false, s) := readOutput_eq_false (.inl hr)
    have hput : (c.put s).readOutput limit' stop' = .ok (false, c.put s) := by
      refine readOutput_eq_false ?_
      rw [Context.put, hr]
      exact hafter.lineEnd
    rw [halone, hput]
    exact .inr rfl
  | cons mark ts =>
    have hr' : (c.put s).rest = mark :: (ts ++ c.after) := by rw [Context.put, hr]; rfl
    have hfilter := readFilter_put hs hafter false
    unfold readOutput
    rw [hr, hr']
    dsimp only
    split
    · exact hfilter
    · exact (readCode_put hlimit hs hafter ..).bind fun _ _ => .inr rfl
    · exact (readCode_put hlimit hs hafter ..).bind fun _ _ => .inr rfl
    · rw [hd]
      exact (takeOne_carries _ ts).bind fun _ _ => .inr rfl
    · rw [hd]
      exact .inr rfl
    · exact .inr rfl

/-- Joining a tag with its output looks at these two only. -/
theorem fuse_put (hs : s.pending ≠ []) (hafter : NotDeeper s.depth c.after) {i t : Instruction}
    {em : List Instruction} (hem : s.emitted = i :: t :: em) : (c.put s).fuse = c.put s.fuse := by
  have hem' : (c.put s).emitted = i :: t :: (em ++ c.before) := by rw [Context.put, hem]; rfl
  unfold fuse
  rw [nextCloses_put hs hafter, nextIsDeeper_put hs hafter, hem, hem']
  cases t with
  | openTag pos opening closing depth stop =>
    dsimp only
    split
    · rfl
    · split
      · rw [Context.put, Context.put, List.tail_append_of_ne_nil hs]
        rfl
      · split <;> rfl
  | literal | output | exec | filtered | openControl | close => rfl

/-- Where at most a scope of the current line becomes pending, the current line stays the same. -/
theorem depth_of_pending {s' : Layout} (hs : s.pending ≠ [])
    (h : s'.pending = s.pending ∨ s'.pending = ⟨s.depth, true⟩ :: s.pending) :
    s'.pending ≠ [] ∧ s'.depth = s.depth := by
  rcases h with h | h
  · exact ⟨h ▸ hs, depth_eq h⟩
  · simp [depth, h]

theorem readBody_put (hlimit : c.Matches limit limit') (hs : s.pending ≠ [])
    (hafter : NotDeeper s.depth c.after) :
    Carries c.put (s.readBody limit stop) ((c.put s).readBody limit' stop') := by
  refine (readFilter_put hs hafter true).bind ?_
  rintro ⟨filtered, s₁⟩ h₁
  have hpe₁ : s₁.pending = s.pending := by
    rcases readFilter_ok h₁ with ⟨-, rfl⟩ | ⟨-, -, -, hpe, -⟩
    · rfl
    · exact hpe
  obtain ⟨hs₁, hd₁⟩ := depth_of_pending hs (.inl hpe₁)
  refine (readTag_put hlimit hs₁ (hd₁ ▸ hafter)).bind ?_
  rintro ⟨tagged, s₂⟩ h₂
  have hpe₂ : s₂.pending = s₁.pending ∨ s₂.pending = ⟨s₁.depth, true⟩ :: s₁.pending := by
    rcases readTag_ok h₂ with ⟨-, rfl⟩ | ⟨-, -, ⟨i, -, -, -, -, hpe⟩ | ⟨_, _, _, -, -, -, hpe⟩⟩
    · exact .inl rfl
    · exact .inl hpe
    · exact .inr hpe
  obtain ⟨hs₂, hd₂⟩ := depth_of_pending hs₁ hpe₂
  refine (readOutput_put hlimit hs₂ (hd₂ ▸ hd₁ ▸ hafter)).bind ?_
  rintro ⟨output, s₃⟩ h₃
  right
  show Except.ok (if tagged && output then (c.put s₃).fuse else c.put s₃) =
    .ok (c.put (if tagged && output then s₃.fuse else s₃))
  cases hboth : tagged && output with
  | false => rfl
  | true =>
    -- both the tag and its output have added an instruction
    obtain ⟨rfl, rfl⟩ := Bool.and_eq_true_iff.1 hboth
    obtain ⟨t, ht⟩ : ∃ t, s₂.emitted = t :: s₁.emitted := by
      rcases readTag_ok h₂ with ⟨hn, -⟩ | ⟨-, -, ⟨i, -, -, -, hem, -⟩ | ⟨_, _, _, -, -, hem, -⟩⟩
      · cases hn
      · exact ⟨i, hem⟩
      · exact ⟨_, hem⟩
    obtain ⟨i, hi, hpe₃⟩ : ∃ i, s₃.emitted = i :: s₂.emitted ∧
        (s₃.pending = s₂.pending ∨ s₃.pending = ⟨s₂.depth, true⟩ :: s₂.pending) := by
      rcases readOutput_ok h₃ with ⟨hn, -⟩ |
        ⟨-, -, ⟨i, -, -, hem, hpe⟩ | ⟨_, _, -, -, hem, hpe⟩⟩
      · cases hn
      · exact ⟨i, hem, .inl hpe⟩
      · exact ⟨_, hem, .inr hpe⟩
    obtain ⟨hs₃, hd₃⟩ := depth_of_pending hs₂ hpe₃
    rw [ht] at hi
    exact congrArg Except.ok (fuse_put hs₃ (hd₃ ▸ hd₂ ▸ hd₁ ▸ hafter) hi)

end Body

/-! ## Lines in a context -/

/-- What is pending and all lines that are still to be read fit in, and there is a current line or
one that comes next. -/
structure Context.Holds (c : Context) (s : Layout) : Prop where
  pending : ∀ p ∈ s.pending, c.Fits p.depth
  lines : ∀ t ∈ s.rest, t.kind = .indent → c.Fits t.depth
  start : s.pending ≠ [] ∨ ∀ t ∈ s.rest.head?, t.kind = .indent

section Lines

variable {c : Context} {s : Layout} {limit limit' : Int} {stop stop' : Location}

theorem readIndent_put {t : Token} {ts : List Token} (hr : s.rest = t :: ts)
    (hfits : t.kind = .indent → c.Fits t.depth) : (c.put s).readIndent = c.put s.readIndent := by
  have hr' : (c.put s).rest = t :: (ts ++ c.after) := by rw [Context.put, hr]; rfl
  by_cases ht : t.kind = .indent
  · have hshallow : ∀ p ∈ c.around.head?, decide (t.depth ≤ p.depth) = false := by
      intro p hp
      have := (hfits ht).1 p (List.mem_of_mem_head? hp)
      simpa using this
    rw [readIndent_of_indent hr ht, readIndent_of_indent hr' ht]
    simp only [closeTo, closePending_eq, Context.put, takeWhile_append_of_head hshallow,
      dropWhile_append_of_head hshallow, List.append_assoc, List.cons_append]
  · rw [readIndent_of_not_indent, readIndent_of_not_indent]
    · intro u us he
      rw [hr] at he
      cases he
      exact ht
    · intro u us he
      rw [hr'] at he
      cases he
      exact ht

namespace Context.Holds

/-- The current line fits in. -/
theorem fits (h : c.Holds s) (hs : s.pending ≠ []) : c.Fits s.depth := by
  obtain ⟨p, ps, hp⟩ := List.exists_cons_of_ne_nil hs
  have hfits := h.pending p (by simp [hp])
  simpa [depth, hp] using hfits

protected theorem readIndent (h : c.Holds s) (hr : s.rest ≠ []) :
    c.Holds s.readIndent ∧ s.readIndent.pending ≠ [] ∧ s.readIndent.rest <:+ s.rest := by
  obtain ⟨t, ts, hr⟩ := List.exists_cons_of_ne_nil hr
  have hlines := h.lines
  rw [hr] at hlines ⊢
  by_cases ht : t.kind = .indent
  · rw [readIndent_of_indent hr ht]
    refine ⟨⟨?_, fun u hu => hlines u (List.mem_cons_of_mem t hu), .inl (List.cons_ne_nil _ _)⟩,
      List.cons_ne_nil _ _, List.suffix_cons t ts⟩
    intro p hp
    rcases List.mem_cons.1 hp with rfl | hp
    · exact hlines t (List.mem_cons_self ..) ht
    · rw [closeTo, closePending_eq] at hp
      exact h.pending p ((List.dropWhile_suffix _).subset hp)
  · have hs : s.pending ≠ [] := by
      rcases h.start with hs | hindent
      · exact hs
      · exact absurd (hindent t (by simp [hr])) ht
    rw [readIndent_of_not_indent fun u us he => by rw [hr] at he; cases he; exact ht, hr]
    exact ⟨h, hs, List.suffix_rfl⟩

/-- Reading the rest of a line adds nothing that is less deep than the line. -/
theorem lineRead {s' : Layout} (h : c.Holds s) (hs : s.pending ≠ [])
    (hread : LineRead limit s s') : c.Holds s' := by
  rcases hread with rfl | ⟨new, opened, -, hpe, hadds, -, hsuf⟩
  · exact h
  · have hopened : ∀ p ∈ opened, p.depth = s.depth := by cases hadds <;> simp
    refine ⟨?_, fun t ht => h.lines t (hsuf.subset ht), .inl ?_⟩
    · intro p hp
      rw [hpe] at hp
      rcases List.mem_append.1 hp with hp | hp
      · rw [hopened p hp]
        exact h.fits hs
      · exact h.pending p hp
    · rw [hpe]
      exact List.append_ne_nil_of_right_ne_nil opened hs

protected theorem readLine {s' : Layout} (h : c.Holds s) (hr : s.rest ≠ [])
    (hs' : s.readLine limit stop = .ok s') : c.Holds s' := by
  obtain ⟨hindent, hs, -⟩ := h.readIndent hr
  exact hindent.lineRead hs (readLine_ok hs')

protected theorem readLines {s' : Layout} (h : c.Holds s)
    (hs' : s.readLines limit stop = .ok s') : c.Holds s' ∧ s'.rest = [] :=
  readLines_ok (fun _ _ hs hr h => hs.readLine hr h) h hs'

end Context.Holds

theorem readLine_put (hlimit : c.Matches limit limit') (h : c.Holds s) (hr : s.rest ≠ []) :
    Carries c.put (s.readLine limit stop) ((c.put s).readLine limit' stop') := by
  obtain ⟨hindent, hs, -⟩ := h.readIndent hr
  obtain ⟨t, ts, hr⟩ := List.exists_cons_of_ne_nil hr
  rw [readLine_eq_readBody, readLine_eq_readBody,
    readIndent_put hr fun ht => h.lines t (by simp [hr]) ht]
  exact readBody_put hlimit hs (hindent.fits hs).2

/-- Lines that fit in are read in the context as they are read alone, and then what comes after
them is read. -/
theorem readLines_put (hlimit : c.Matches limit limit') (h : c.Holds s) :
    (∃ pos, s.readLines limit stop = .error ⟨.unexpectedEnd, pos⟩) ∨
      (c.put s).readLines limit' stop' =
        s.readLines limit stop >>= fun s' => (c.put s').readLines limit' stop' := by
  generalize hn : s.rest.length = n
  induction n using Nat.strong_induction_on generalizing s with
  | _ n ih =>
    cases hr : s.rest with
    | nil =>
      right
      rw [readLines_nil hr]
      rfl
    | cons t ts =>
      have hr' : (c.put s).rest = t :: (ts ++ c.after) := by rw [Context.put, hr]; rfl
      have hne : s.rest ≠ [] := by rw [hr]; exact List.cons_ne_nil t ts
      have hlen : ∀ s' : Layout, (c.put s').rest.length < (c.put s).rest.length ↔
          s'.rest.length < s.rest.length := by
        intro s'
        simp only [Context.put, List.length_append]
        omega
      rw [readLines_cons hr, readLines_cons hr']
      rcases @readLine_put c s limit limit' stop stop' hlimit h hne with ⟨pos, he⟩ | he
      · left
        rw [he]
        exact ⟨pos, rfl⟩
      · rw [he]
        cases hs' : s.readLine limit stop with
        | error e => exact .inr rfl
        | ok s' =>
          show (∃ pos, (if s'.rest.length < s.rest.length then _ else _) = _) ∨
            (if (c.put s').rest.length < (c.put s).rest.length then _ else _) =
              (if s'.rest.length < s.rest.length then _ else _) >>= _
          simp only [hlen]
          split
          · rename_i hlt
            exact ih _ (hn ▸ hlt) (h.readLine hne hs') rfl
          · exact .inr rfl

end Lines

/-! ## What lines add to a program -/

/-- The instructions of a layout, with everything closed that is still open. -/
def instructions (s : Layout) : List Instruction := (s.closeTo 0).emitted.reverse

/-- Reads all lines and closes what is open at the end. -/
def readAll (limit : Int) (stop : Location) (s : Layout) : Reading (List Instruction) :=
  (s.readLines limit stop).map instructions

/-- Going to a depth that nothing pending falls short of ends everything. -/
theorem closeTo_of_le {s : Layout} {d : Nat} (h : ∀ p ∈ s.pending, d ≤ p.depth) :
    s.closeTo d =
      { s with emitted := List.replicate s.scopes .close ++ s.emitted, pending := [] } := by
  have hall : ∀ p ∈ s.pending, decide (d ≤ p.depth) = true := fun p hp => decide_eq_true (h p hp)
  rw [closeTo, closePending_eq, List.takeWhile_eq_self_iff.2 hall,
    List.dropWhile_eq_nil_iff.2 hall, scopes]

theorem instructions_eq (s : Layout) :
    s.instructions = s.emitted.reverse ++ List.replicate s.scopes .close := by
  rw [instructions, closeTo_of_le fun p _ => Nat.zero_le p.depth, List.reverse_append,
    List.reverse_replicate]

theorem instructions_put (c : Context) (s : Layout) :
    (c.put s).instructions =
      c.before.reverse ++ s.instructions ++ List.replicate c.scopes .close := by
  rw [instructions_eq, instructions_eq, scopes_put]
  simp [Context.put]

section All

variable {c : Context} {s : Layout} {limit limit' : Int} {stop stop' stop'' : Location}

/-- What is pending before a line that is not deeper is ended by the line. -/
theorem readLines_of_notDeeper {t : Token} {ts : List Token} (hr : s.rest = t :: ts)
    (ht : t.kind = .indent) (h : ∀ p ∈ s.pending, t.depth ≤ p.depth) :
    s.readLines limit stop = readLines limit stop
      { rest := s.rest, emitted := List.replicate s.scopes .close ++ s.emitted } := by
  have hindent : s.readIndent = readIndent
      { rest := s.rest, emitted := List.replicate s.scopes .close ++ s.emitted } := by
    rw [readIndent_of_indent hr ht, @readIndent_of_indent ⟨s.rest, _, []⟩ t ts hr ht,
      closeTo_of_le (s := { s with rest := ts }) h]
    rfl
  rw [readLines_cons hr, @readLines_cons limit stop ⟨s.rest, _, []⟩ t ts hr,
    readLine_eq_readBody, readLine_eq_readBody, hindent]

/-- A line that is not deeper than anything pending is read as if nothing were before it. -/
theorem readAll_of_notDeeper (h : ∀ p ∈ s.pending, NotDeeper p.depth s.rest)
    (hend : LineEnd s.rest) :
    Carries (s.instructions ++ ·) (readAll limit stop { rest := s.rest })
      (readAll limit stop' s) := by
  rcases hend with hr | ⟨t, ts, hr, ht⟩
  · have halone : readAll limit stop { rest := s.rest } = .ok [] := by
      rw [hr, readAll, readLines_nil rfl]
      rfl
    have hput : s.readAll limit stop' = .ok s.instructions := by
      rw [readAll, readLines_nil hr]
      rfl
    rw [halone, hput]
    exact .inr (by simp [Except.map])
  · let c : Context := ⟨List.replicate s.scopes .close ++ s.emitted, [], []⟩
    have hdeep : ∀ p ∈ s.pending, t.depth ≤ p.depth := by
      intro p hp
      rcases h p hp with he | ⟨u, us, he, -, hle⟩ <;> rw [hr] at he <;> cases he
      exact hle
    have hput : c.put { rest := s.rest } =
        { rest := s.rest, emitted := List.replicate s.scopes .close ++ s.emitted } := by
      simp [c, Context.put]
    have hholds : c.Holds { rest := s.rest } := by
      refine ⟨by simp, fun u hu hk => ⟨by simp [c], .inl rfl⟩, .inr ?_⟩
      simpa [hr] using ht
    have hmatches : c.Matches limit limit := fun n => by simp [c, Context.scopes]
    rw [readAll, readAll, readLines_of_notDeeper hr ht hdeep, ← hput]
    rcases @readLines_put c { rest := s.rest } limit limit stop stop' hmatches hholds with
      ⟨pos, he⟩ | he
    · left
      rw [he]
      exact ⟨pos, rfl⟩
    · right
      rw [he]
      cases hs' : readLines limit stop { rest := s.rest } with
      | error e => rfl
      | ok s' =>
        have hrest : (c.put s').rest = [] := by
          rw [Context.put, (hholds.readLines hs').2]
          rfl
        show Except.map _ ((c.put s').readLines limit stop') =
          .ok (s.instructions ++ s'.instructions)
        rw [readLines_nil hrest]
        refine congrArg Except.ok ?_
        rw [instructions_put, instructions_eq s]
        simp [c, Context.scopes]

/-- Lines in a context, and the lines after them, are read one after the other as they are read
alone. -/
theorem readAll_put (hlimit : c.Matches limit limit') (h : c.Holds s)
    (hafter : ∀ p ∈ c.around, NotDeeper p.depth c.after) (hend : LineEnd c.after)
    (hs : ∀ pos, readAll limit stop s ≠ .error ⟨.unexpectedEnd, pos⟩)
    (hc : ∀ pos, readAll limit' stop' { rest := c.after } ≠ .error ⟨.unexpectedEnd, pos⟩) :
    (c.put s).readAll limit' stop'' =
      readAll limit stop s >>= fun inner =>
        (readAll limit' stop' { rest := c.after }).map fun outer =>
          c.before.reverse ++ inner ++ List.replicate c.scopes .close ++ outer := by
  have hlines : (c.put s).readLines limit' stop'' =
      s.readLines limit stop >>= fun s' => (c.put s').readLines limit' stop'' := by
    rcases @readLines_put c s limit limit' stop stop'' hlimit h with ⟨pos, he⟩ | he
    · exact absurd (by rw [readAll, he]; rfl) (hs pos)
    · exact he
  rw [readAll, hlines, readAll]
  cases hs' : s.readLines limit stop with
  | error e => rfl
  | ok s' =>
    obtain ⟨hholds, hrest⟩ := h.readLines hs'
    have hrest' : (c.put s').rest = c.after := by rw [Context.put, hrest]; rfl
    have hpending : ∀ p ∈ (c.put s').pending, NotDeeper p.depth (c.put s').rest := by
      intro p hp
      rw [hrest']
      rcases List.mem_append.1 hp with hp | hp
      · exact (hholds.pending p hp).2
      · exact hafter p hp
    have hall : Carries ((c.put s').instructions ++ ·) (readAll limit' stop' { rest := c.after })
        ((c.put s').readAll limit' stop'') := by
      have hall := @readAll_of_notDeeper (c.put s') limit' stop' stop'' hpending
        (by rwa [hrest'])
      rwa [hrest'] at hall
    show (c.put s').readAll limit' stop'' = _
    rw [hall.eq_map hc, instructions_put]
    rfl

end All
end Layout
end Offside
