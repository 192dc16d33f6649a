import Offside.Proofs.ScopeInvariant

/-!
# What a less indented line ends

To end what is pending at some depth, entries are taken off one by one for as long as the innermost
is that deep. Entries further out are not looked at. Still nothing that deep is left behind, since
what is pending gets less deep outwards; and that holds in every state that laying out a token list
comes through (`Layout.Reached`), be it at the start of a line, between two parts of a line, or
between two entries that a line ends.

`Layout.closeTo_of_reached` says what follows: in each of these states, going to a depth ends what
is pending there or deeper and nothing else, and the closing instructions that are added close the
scopes among it, the one that was opened last first.
-/

namespace Offside

/-! ## Closing what is innermost -/

/-- The further in a scope is, the later it was opened. -/
theorem pairwise_openScopes (l : List Instruction) :
    (openScopes l).Pairwise fun x y => y.1 < x.1 := by
  induction l with
  | nil => exact .nil
  | cons i l ih =>
    rw [openScopes]
    split
    · exact ih.sublist (List.tail_sublist _)
    · split
      · exact List.pairwise_cons.2 ⟨fun x hx => lt_length_of_mem_openScopes hx, ih⟩
      · exact ih

namespace WellNested

variable {limit : Nat} {l : List Instruction}

/-- What comes after the instruction that opened the innermost scope is balanced. -/
theorem exists_balanced {a : Nat} {i : Instruction} {outer : List (Nat × Instruction)}
    (h : WellNested limit l) (hopen : openScopes l = (a, i) :: outer) :
    ∃ before body, l = body ++ i :: before ∧ before.length = a ∧ i.opens = true ∧
      Balanced body.reverse ∧ openScopes before = outer := by
  -- not by induction on `h`: a closed scope is skipped as a whole
  induction hlen : l.length using Nat.strongRecOn generalizing l a i outer with
  | ind n ih =>
    subst hlen
    cases h with
    | nil => cases hopen
    | leaf hj h =>
      rw [openScopes_leaf hj] at hopen
      obtain ⟨before, body, rfl, ha, hi, hb, ho⟩ := ih _ (by simp) h hopen rfl
      exact ⟨before, _ :: body, rfl, ha, hi, by simpa using hb.append (.leaf hj), ho⟩
    | enter hj _ h =>
      rw [openScopes_opens hj] at hopen
      cases hopen
      exact ⟨_, [], rfl, rfl, hj, .nil, rfl⟩
    | @leave l _ h =>
      rw [openScopes_close] at hopen
      cases hl : openScopes l with
      | nil => simp [hl] at hopen
      | cons x rest =>
        obtain ⟨b, j⟩ := x
        rw [hl, List.tail_cons] at hopen
        obtain ⟨before₁, body₁, rfl, -, hj, hb₁, ho₁⟩ := ih _ (by simp) h hl rfl
        have h₁ : WellNested limit before₁ := of_append (m := body₁ ++ [j]) (by simpa using h)
        obtain ⟨before, body, rfl, ha, hi, hb, ho⟩ :=
          ih _ (by simp only [List.length_append, List.length_cons]; omega) h₁
            (ho₁.trans hopen) rfl
        refine ⟨before, .close :: (body₁ ++ j :: body), by simp, ha, hi, ?_, ho⟩
        simpa using hb.append (hb₁.scope hj)

/-- A closing instruction closes the innermost scope. -/
theorem closedAt_close {a : Nat} {i : Instruction} {outer : List (Nat × Instruction)}
    (h : WellNested limit l) (hopen : openScopes l = (a, i) :: outer) :
    ClosedAt (Instruction.close :: l).reverse a l.length := by
  obtain ⟨before, body, rfl, rfl, hi, hb, -⟩ := h.exists_balanced hopen
  refine ⟨before.reverse, i, body.reverse, [], by simp, hi, hb, by simp, ?_⟩
  simp only [List.length_reverse, List.length_append, List.length_cons]
  omega

/-- Closing instructions one after the other close the open scopes from the innermost outwards. -/
theorem closedAt_replicate_close {n k : Nat} {x : Nat × Instruction} (h : WellNested limit l)
    (hx : (openScopes l)[k]? = some x) (hk : k < n) :
    ClosedAt (List.replicate n Instruction.close ++ l).reverse x.1 (l.length + k) := by
  obtain ⟨hlt, hget⟩ := List.getElem?_eq_some_iff.1 hx
  have hnested := h.replicate_close (Nat.le_of_lt hlt)
  have hopen : openScopes (List.replicate k .close ++ l) =
      (x.1, x.2) :: (openScopes l).drop (k + 1) := by
    rw [openScopes_replicate_close, List.drop_eq_getElem_cons hlt, hget]
  obtain ⟨m, rfl⟩ : ∃ m, n = m + (k + 1) := ⟨n - (k + 1), by omega⟩
  have hclosed := (hnested.closedAt_close hopen).append_right (List.replicate m .close)
  rw [List.length_append, List.length_replicate, Nat.add_comm] at hclosed
  rw [← List.replicate_append_replicate, List.replicate_succ, List.append_assoc,
    List.cons_append, List.reverse_append, List.reverse_replicate]
  exact hclosed

end WellNested

namespace Layout

/-! ## The states on the way -/

/-- The layouts between the entries that depth `d` ends, from `s` on: each lacks one more of what
was pending. -/
inductive Closing (d : Nat) (s : Layout) : Layout → Prop
  | start : Closing d s s
  | next {s' : Layout} {p : Pending} {ps : List Pending} : Closing d s s' →
      s'.pending = p :: ps → d ≤ p.depth →
      Closing d s { s' with
        emitted := if p.scope then .close :: s'.emitted else s'.emitted
        pending := ps }

/-- A line of the token list starts at this layout. -/
inductive LineStart (limit : Int) (tokens : List Token) : Layout → Prop
  | first {s : Layout} : readDoctype { rest := tokens } = .ok s → LineStart limit tokens s
  | next {s s' : Layout} : LineStart limit tokens s → s.rest ≠ [] →
      s.readLine limit (endOf tokens) = .ok s' → LineStart limit tokens s'

/-- The layouts between the parts of the line that starts at `s`. -/
inductive OnLine (limit : Int) (stop : Location) (s : Layout) : Layout → Prop
  | closing {t : Token} {ts : List Token} {s' : Layout} : s.rest = t :: ts → t.kind = .indent →
      Closing t.depth { s with rest := ts } s' → OnLine limit stop s s'
  | indented : OnLine limit stop s s.readIndent
  | filtered {b : Bool} {s₁ : Layout} : s.readIndent.readFilter true = .ok (b, s₁) →
      OnLine limit stop s s₁
  | tagged {b c : Bool} {s₁ s₂ : Layout} : s.readIndent.readFilter true = .ok (b, s₁) →
      s₁.readTag limit stop = .ok (c, s₂) → OnLine limit stop s s₂
  | output {b c o : Bool} {s₁ s₂ s₃ : Layout} : s.readIndent.readFilter true = .ok (b, s₁) →
      s₁.readTag limit stop = .ok (c, s₂) → s₂.readOutput limit stop = .ok (o, s₃) →
      OnLine limit stop s s₃

/-- The layouts that laying out the token list comes through, whether or not it fails later on. -/
inductive Reached (limit : Int) (tokens : List Token) : Layout → Prop
  | start : Reached limit tokens { rest := tokens }
  | line {s : Layout} : LineStart limit tokens s → Reached limit tokens s
  | onLine {s s' : Layout} : LineStart limit tokens s → s.rest ≠ [] →
      OnLine limit (endOf tokens) s s' → Reached limit tokens s'
  | closing {s s' : Layout} : LineStart limit tokens s → s.rest = [] → Closing 0 s s' →
      Reached limit tokens s'

/-- Ending what is pending comes through these layouts to its end. -/
theorem Closing.closeTo {d : Nat} {s s' : Layout} (h : Closing d s s') :
    Closing d s (s'.closeTo d) := by
  obtain ⟨rest, emitted, pending⟩ := s'
  induction pending generalizing emitted with
  | nil => exact h
  | cons p ps ih =>
    by_cases hd : d ≤ p.depth
    · simpa [Layout.closeTo, closePending, hd] using ih _ (h.next rfl hd)
    · simpa [Layout.closeTo, closePending, hd] using h

/-- A token list that is read to its end is laid out through these layouts. -/
theorem ReadTo.reached {maxDepth : Int} {tokens : List Token} {s : Layout}
    (h : ReadTo maxDepth tokens s) :
    (s.closeTo 0).Reached (if maxDepth = 0 then 100 else maxDepth) tokens := by
  obtain ⟨start, hstart, hs⟩ := h
  obtain ⟨hline, hrest⟩ := readLines_ok
    (fun _ _ hline hne hr => LineStart.next hline hne hr) (.first hstart) hs
  exact .closing hline hrest Closing.start.closeTo

namespace Sound

variable {limit : Int} {s s' : Layout}

theorem closing {d : Nat} (h : s.Sound limit) (hc : Closing d s s') : s'.Sound limit := by
  induction hc with
  | start => exact h
  | @next s' p ps _ hp _ ih =>
    have hsorted := ih.sorted
    have hdepths := ih.depths
    rw [hp] at hsorted hdepths
    obtain ⟨d, scope⟩ := p
    cases scope with
    | false => exact ⟨(List.pairwise_cons.1 hsorted).2, ih.nested, by simpa using hdepths⟩
    | true =>
      -- a pending scope is open, so there is one to close
      have hopen : openScopes s'.emitted ≠ [] := by
        intro hnil
        simp [hnil] at hdepths
      refine ⟨(List.pairwise_cons.1 hsorted).2, .leave hopen ih.nested, ?_⟩
      have htail := congrArg List.tail hdepths
      simpa [List.map_tail] using htail

protected theorem readFilter {alone b : Bool} (h : s.Sound limit)
    (hr : s.readFilter alone = .ok (b, s')) : s'.Sound limit := by
  rcases readFilter_ok hr with ⟨-, rfl⟩ | ⟨-, -, -, hpe, i, hi, -, hem⟩
  · exact h
  · exact h.leaf hi hem hpe

protected theorem readTag {stop : Location} {b : Bool} (h : s.Sound limit)
    (hr : s.readTag limit stop = .ok (b, s')) : s'.Sound limit := by
  rcases readTag_ok hr with ⟨-, rfl⟩ |
    ⟨-, -, ⟨i, hi, -, -, hem, hpe⟩ | ⟨pos, opening, closing, -, hlim, hem, hpe⟩⟩
  · exact h
  · exact h.leaf hi hem hpe
  · exact h.enter rfl rfl hlim hem hpe

protected theorem readOutput {stop : Location} {b : Bool} (h : s.Sound limit)
    (hr : s.readOutput limit stop = .ok (b, s')) : s'.Sound limit := by
  rcases readOutput_ok hr with ⟨-, rfl⟩ |
    ⟨-, -, ⟨i, hi, -, hem, hpe⟩ | ⟨pos, control, -, hlim, hem, hpe⟩⟩
  · exact h
  · exact h.leaf hi hem hpe
  · exact h.enter rfl rfl hlim hem hpe

theorem onLine {stop : Location} (h : s.Sound limit) (hr : OnLine limit stop s s') :
    s'.Sound limit := by
  cases hr with
  | @closing t ts _ _ _ hc =>
    exact closing (s := { s with rest := ts }) ⟨h.sorted, h.nested, h.depths⟩ hc
  | indented => exact h.readIndent
  | filtered h₁ => exact h.readIndent.readFilter h₁
  | tagged h₁ h₂ => exact (h.readIndent.readFilter h₁).readTag h₂
  | output h₁ h₂ h₃ => exact ((h.readIndent.readFilter h₁).readTag h₂).readOutput h₃

end Sound

theorem LineStart.sound {limit : Int} {tokens : List Token} {s : Layout}
    (h : s.LineStart limit tokens) : s.Sound limit := by
  induction h with
  | first h => exact .start h
  | next _ _ hr ih => exact ih.readLine hr

/-- The invariant of the layout holds wherever laying out comes through. -/
theorem Reached.sound {limit : Int} {tokens : List Token} {s : Layout}
    (h : s.Reached limit tokens) : s.Sound limit := by
  cases h with
  | start => exact ⟨.nil, .nil, rfl⟩
  | line h => exact h.sound
  | onLine h _ hr => exact h.sound.onLine hr
  | closing h _ hc => exact h.sound.closing hc

/-! ## What is ended -/

/-- The open scopes at depth `d` or deeper, innermost first, each with the index of the instruction
that opened it. -/
def deepScopes (s : Layout) (d : Nat) : List (Nat × Instruction) :=
  (openScopes s.emitted).filter fun x => x.2.depth?.any (d ≤ ·)

/-- Going to depth `d` ends what is pending at that depth or deeper and nothing else. -/
structure ClosesExactly (s : Layout) (d : Nat) : Prop where
  /-- What is less deep stays pending, and only that. -/
  pending : (s.closeTo d).pending = s.pending.filter (·.depth < d)
  /-- The scopes that are closed are the entries that are no longer pending, at the same depths. -/
  depths : (s.deepScopes d).map (·.2.depth?) =
    (s.pending.filter fun p => p.scope && d ≤ p.depth).map fun p => some p.depth
  /-- For each of them one closing instruction is added, and nothing else is. -/
  emitted : (s.closeTo d).emitted = List.replicate (s.deepScopes d).length .close ++ s.emitted
  /-- They are in reverse order of opening. -/
  newest_first : (s.deepScopes d).Pairwise fun x y => y.1 < x.1
  /-- In this order the closing instructions close them. -/
  closedAt : ∀ k x, (s.deepScopes d)[k]? = some x →
    ClosedAt (s.closeTo d).emitted.reverse x.1 (s.emitted.length + k)
  /-- No token is read. -/
  rest : (s.closeTo d).rest = s.rest

namespace Sound

variable {limit : Int} {s : Layout}

/-- What is pending at depth `d` or deeper is innermost. -/
theorem filter_pending (h : s.Sound limit) (d : Nat) :
    s.pending.filter (d ≤ ·.depth) = s.pending.takeWhile (d ≤ ·.depth) ∧
      s.pending.filter (·.depth < d) = (s.closeTo d).pending := by
  have hdrop : (s.closeTo d).pending = s.pending.dropWhile (d ≤ ·.depth) := by
    simp only [closeTo, closePending_eq]
  have hshallow := h.depth_lt d
  have hdeep : ∀ p ∈ s.pending.takeWhile (d ≤ ·.depth), d ≤ p.depth := fun p hp => by
    simpa using List.mem_takeWhile_imp hp
  rw [hdrop] at hshallow ⊢
  constructor
  · conv_lhs => rw [← @List.takeWhile_append_dropWhile _ (d ≤ ·.depth) s.pending]
    rw [List.filter_append, List.filter_eq_self.2 (by simpa using hdeep),
      List.filter_eq_nil_iff.2 (by simpa using hshallow), List.append_nil]
  · conv_lhs => rw [← @List.takeWhile_append_dropWhile _ (d ≤ ·.depth) s.pending]
    rw [List.filter_append, List.filter_eq_nil_iff.2 (by simpa using hdeep),
      List.filter_eq_self.2 (by simpa using hshallow), List.nil_append]

/-- The scopes at depth `d` or deeper are the innermost ones, as many as depth `d` ends. -/
theorem deepScopes_eq_take (h : s.Sound limit) (d : Nat) :
    s.deepScopes d = (openScopes s.emitted).take
      ((s.pending.takeWhile (d ≤ ·.depth)).countP (·.scope)) := by
  let n := (s.pending.takeWhile (d ≤ ·.depth)).countP (·.scope)
  have hdeep : ∀ x ∈ (openScopes s.emitted).take n, x.2.depth?.any (d ≤ ·) = true := by
    intro x hx
    obtain ⟨k, hk, hle⟩ := h.exists_le_of_mem_take d hx
    simpa [hk] using hle
  have hshallow : ∀ x ∈ (openScopes s.emitted).drop n, ¬ x.2.depth?.any (d ≤ ·) = true := by
    intro x hx
    rw [← openScopes_closeTo_eq_drop] at hx
    obtain ⟨k, hk, hlt⟩ := h.exists_lt_of_mem_openScopes d hx
    simpa [hk] using hlt
  rw [deepScopes, ← List.take_append_drop n (openScopes s.emitted), List.filter_append,
    List.filter_eq_self.2 hdeep, List.filter_eq_nil_iff.2 hshallow, List.append_nil,
    List.take_append_drop]

theorem closesExactly (h : s.Sound limit) (d : Nat) : s.ClosesExactly d := by
  have htake := h.deepScopes_eq_take d
  have hlen : (s.deepScopes d).length =
      (s.pending.takeWhile (d ≤ ·.depth)).countP (·.scope) := by
    have hle : (s.pending.takeWhile (d ≤ ·.depth)).countP (·.scope) ≤ s.scopes :=
      (List.takeWhile_sublist _).countP_le
    rw [htake, List.length_take, h.length_openScopes, Nat.min_eq_left hle]
  have hem : (s.closeTo d).emitted =
      List.replicate (s.deepScopes d).length .close ++ s.emitted := by
    rw [hlen]
    simp only [closeTo, closePending_eq]
  refine ⟨(h.filter_pending d).2.symm, ?_, hem, ?_, ?_, rfl⟩
  · rw [htake, (h.depths_split d).1, ← (h.filter_pending d).1, List.filter_filter]
  · exact (pairwise_openScopes s.emitted).sublist List.filter_sublist
  · intro k x hx
    have hk : k < (s.deepScopes d).length := (List.getElem?_eq_some_iff.1 hx).1
    rw [htake, List.getElem?_take_of_lt (hlen ▸ hk)] at hx
    rw [hem]
    exact h.nested.closedAt_replicate_close hx hk

end Sound

/-- In every state that laying out a token list comes through, what is pending gets less deep
outwards. Hence going to any depth ends what is pending at that depth or deeper and nothing else,
and closes the scopes among it in reverse order of opening. -/
theorem closeTo_of_reached {limit : Int} {tokens : List Token} {s : Layout}
    (h : s.Reached limit tokens) :
    s.pending.Pairwise (fun p q => q.depth ≤ p.depth) ∧ ∀ d, s.ClosesExactly d :=
  ⟨h.sound.sorted, h.sound.closesExactly⟩

/-- Three tags, each inside the one before it, and a line that falls between the depths of the first
two. -/
def unevenTokens : List Token :=
  [⟨.tagMark, {}, ['%']⟩, ⟨.word, {}, ['a']⟩,
    ⟨.indent, { line := 1 }, "  ".toList⟩, ⟨.tagMark, { line := 1 }, ['%']⟩,
    ⟨.word, { line := 1 }, ['b']⟩,
    ⟨.indent, { line := 2 }, "   ".toList⟩, ⟨.tagMark, { line := 2 }, ['%']⟩,
    ⟨.word, { line := 2 }, ['c']⟩,
    ⟨.indent, { line := 3 }, "    ".toList⟩, ⟨.tagMark, { line := 3 }, ['%']⟩,
    ⟨.word, { line := 3 }, ['d']⟩,
    ⟨.indent, { line := 4 }, [' ']⟩, ⟨.text, { line := 4 }, ['x']⟩]

/-- Before the last line three scopes are open. The line ends the inner two, and its first closing
instruction closes the one that was opened last. -/
theorem closeTo_of_reached_unevenTokens :
    ∃ s : Layout, s.Reached 3 unevenTokens ∧
      s.pending = [⟨4, false⟩, ⟨3, true⟩, ⟨3, false⟩, ⟨2, true⟩, ⟨2, false⟩, ⟨0, true⟩] ∧
      (s.closeTo 1).pending = [⟨0, true⟩] ∧ (s.deepScopes 1).map (·.1) = [2, 1] ∧
      ClosedAt (s.closeTo 1).emitted.reverse 2 4 ∧
      ClosedAt (s.closeTo 1).emitted.reverse 1 5 := by
  let s : Layout :=
    { rest := unevenTokens.drop 11
      emitted := [.literal { line := 3 } "<d></d>".toList 4,
        .openTag { line := 2 } [.literal "<c>".toList] [.literal "</c>".toList] 3 0,
        .openTag { line := 1 } [.literal "<b>".toList] [.literal "</b>".toList] 2 0,
        .openTag {} [.literal "<a>".toList] [.literal "</a>".toList] 0 0]
      pending := [⟨4, false⟩, ⟨3, true⟩, ⟨3, false⟩, ⟨2, true⟩, ⟨2, false⟩, ⟨0, true⟩] }
  have hstart : s.LineStart 3 unevenTokens := by
    refine .next (.next (.next (.next (.first rfl) ?_ rfl) ?_ rfl) ?_ rfl) ?_ rfl <;> decide
  obtain ⟨-, h⟩ := closeTo_of_reached (.line hstart)
  exact ⟨s, .line hstart, rfl, (h 1).pending, rfl, (h 1).closedAt 0 _ rfl, (h 1).closedAt 1 _ rfl⟩

end Layout
end Offside
