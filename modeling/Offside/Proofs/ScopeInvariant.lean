import Mathlib.Data.List.TakeWhile
import Offside.Proofs.LayoutStep
import Offside.Proofs.Tree

/-!
# Laid out programs are well nested

The layout keeps three things true (`Layout.Sound`): what is pending gets less deep outwards, the
instructions so far are well nested within the limit, and the scopes that they leave open are the
scopes that are pending, at the same depths. A line keeps them, whatever its tokens are, so they
hold when everything is read; the closing instructions that are added then leave nothing open.

Hence, for any token list, a program that is laid out at all is well bracketed
(`Program.WellBracketed`).
-/

namespace Offside

/-! ## Closing several scopes -/

theorem openScopes_replicate_close (m : Nat) (l : List Instruction) :
    openScopes (List.replicate m .close ++ l) = (openScopes l).drop m := by
  induction m with
  | zero => rfl
  | succ m ih => rw [List.replicate_succ, List.cons_append, openScopes_close, ih, List.tail_drop]

theorem WellNested.replicate_close {limit m : Nat} {l : List Instruction}
    (h : WellNested limit l) (hm : m ≤ (openScopes l).length) :
    WellNested limit (List.replicate m .close ++ l) := by
  induction m with
  | zero => exact h
  | succ m ih =>
    have hopen : openScopes (List.replicate m .close ++ l) ≠ [] := by
      rw [openScopes_replicate_close, ne_eq, List.drop_eq_nil_iff]
      omega
    exact .leave hopen (ih (by omega))

theorem WellNested.literals {limit : Nat} {l : List Instruction} (h : WellNested limit l)
    (pos : Location) (lines : List Text) :
    WellNested limit ((lines.map fun t => .literal pos t 0) ++ l) ∧
      openScopes ((lines.map fun t => .literal pos t 0) ++ l) = openScopes l := by
  induction lines with
  | nil => exact ⟨h, rfl⟩
  | cons t lines ih => exact ⟨.leaf rfl ih.1, (openScopes_leaf rfl _).trans ih.2⟩

namespace Layout

/-! ## The invariant -/

/-- What holds of a layout after every line. -/
structure Sound (limit : Int) (s : Layout) : Prop where
  /-- What is pending gets less deep outwards. -/
  sorted : s.pending.Pairwise fun p q => q.depth ≤ p.depth
  /-- No scope is closed that is not open, and the limit is kept. -/
  nested : WellNested limit.toNat s.emitted
  /-- The open scopes are the scopes that are pending. -/
  depths : (openScopes s.emitted).map (·.2.depth?) =
    (s.pending.filter (·.scope)).map fun p => some p.depth

namespace Sound

variable {limit : Int} {s s' : Layout}

theorem length_openScopes (h : s.Sound limit) : (openScopes s.emitted).length = s.scopes := by
  have := congrArg List.length h.depths
  rwa [List.length_map, List.length_map, ← List.countP_eq_length_filter] at this

theorem depth_le (h : s.Sound limit) : ∀ p ∈ s.pending, p.depth ≤ s.depth := by
  intro p hp
  cases hpe : s.pending with
  | nil => simp [hpe] at hp
  | cons q qs =>
    have hsorted := h.sorted
    rw [hpe] at hp hsorted
    simp only [depth, hpe]
    rcases List.mem_cons.1 hp with rfl | hp
    · exact Nat.le_refl _
    · exact (List.pairwise_cons.1 hsorted).1 p hp

/-- What is left pending when depth `d` ends what it ends is less deep. -/
theorem depth_lt (h : s.Sound limit) (d : Nat) :
    ∀ p ∈ (s.closeTo d).pending, p.depth < d := by
  intro p hp
  simp only [closeTo, closePending_eq] at hp
  cases hdrop : s.pending.dropWhile (d ≤ ·.depth) with
  | nil => simp [hdrop] at hp
  | cons q qs =>
    have hq := List.head?_dropWhile_not (fun p : Pending => decide (d ≤ p.depth)) s.pending
    have hsorted := h.sorted.sublist (List.dropWhile_sublist (fun p : Pending => d ≤ p.depth))
    rw [hdrop] at hp hq hsorted
    have hq : q.depth < d := by simpa using hq
    rcases List.mem_cons.1 hp with rfl | hp
    · exact hq
    · exact Nat.lt_of_le_of_lt ((List.pairwise_cons.1 hsorted).1 p hp) hq

/-- Of the open scopes, as many as depth `d` ends are those that it ends, and the others are those
that it leaves pending. -/
theorem depths_split (h : s.Sound limit) (d : Nat) :
    let n := (s.pending.takeWhile (d ≤ ·.depth)).countP (·.scope)
    ((openScopes s.emitted).take n).map (·.2.depth?) =
        ((s.pending.takeWhile (d ≤ ·.depth)).filter (·.scope)).map (fun p => some p.depth) ∧
      ((openScopes s.emitted).drop n).map (·.2.depth?) =
        ((s.pending.dropWhile (d ≤ ·.depth)).filter (·.scope)).map (fun p => some p.depth) := by
  have hsplit : s.pending.filter (·.scope) =
      (s.pending.takeWhile (d ≤ ·.depth)).filter (·.scope) ++
        (s.pending.dropWhile (d ≤ ·.depth)).filter (·.scope) := by
    rw [← List.filter_append, List.takeWhile_append_dropWhile]
  constructor
  · rw [List.map_take, h.depths, ← List.map_take, hsplit,
      List.take_left' List.countP_eq_length_filter.symm]
  · rw [List.map_drop, h.depths, ← List.map_drop, hsplit,
      List.drop_left' List.countP_eq_length_filter.symm]

protected theorem closeTo (h : s.Sound limit) (d : Nat) : (s.closeTo d).Sound limit := by
  have hlen := h.length_openScopes
  have hle : (s.pending.takeWhile (d ≤ ·.depth)).countP (·.scope) ≤ s.scopes :=
    (List.takeWhile_sublist _).countP_le
  constructor
  · simp only [closeTo, closePending_eq]
    exact h.sorted.sublist (List.dropWhile_sublist _)
  · simp only [closeTo, closePending_eq]
    exact h.nested.replicate_close (by omega)
  · simp only [closeTo, closePending_eq, openScopes_replicate_close]
    exact (h.depths_split d).2

/-- The scopes that depth `d` ends are as deep. -/
theorem exists_le_of_mem_take (h : s.Sound limit) (d : Nat) {x : Nat × Instruction}
    (hx : x ∈ (openScopes s.emitted).take
      ((s.pending.takeWhile (d ≤ ·.depth)).countP (·.scope))) :
    ∃ k, x.2.depth? = some k ∧ d ≤ k := by
  have hmem := List.mem_map_of_mem (f := fun x => x.2.depth?) hx
  rw [(h.depths_split d).1] at hmem
  obtain ⟨p, hp, he⟩ := List.mem_map.1 hmem
  exact ⟨p.depth, he.symm, by simpa using List.mem_takeWhile_imp (List.mem_filter.1 hp).1⟩

/-- The scopes that depth `d` leaves open are less deep. -/
theorem exists_lt_of_mem_openScopes (h : s.Sound limit) (d : Nat) {x : Nat × Instruction}
    (hx : x ∈ openScopes (s.closeTo d).emitted) : ∃ k, x.2.depth? = some k ∧ k < d := by
  have hmem := List.mem_map_of_mem (f := fun x => x.2.depth?) hx
  rw [(h.closeTo d).depths] at hmem
  obtain ⟨p, hp, he⟩ := List.mem_map.1 hmem
  exact ⟨p.depth, he.symm, h.depth_lt d p (List.mem_filter.1 hp).1⟩

theorem openScopes_closeTo_eq_drop (s : Layout) (d : Nat) :
    openScopes (s.closeTo d).emitted =
      (openScopes s.emitted).drop ((s.pending.takeWhile (d ≤ ·.depth)).countP (·.scope)) := by
  simp only [closeTo, closePending_eq, openScopes_replicate_close]

/-- Going to depth `d` leaves the scopes open that are less deep, and only those. -/
theorem openScopes_closeTo (h : s.Sound limit) (d : Nat) :
    openScopes (s.closeTo d).emitted =
      (openScopes s.emitted).filter fun x => x.2.depth?.any (· < d) := by
  let n := (s.pending.takeWhile (d ≤ ·.depth)).countP (·.scope)
  have hshallow : ∀ x ∈ openScopes (s.closeTo d).emitted, x.2.depth?.any (· < d) = true := by
    intro x hx
    obtain ⟨k, hk, hlt⟩ := h.exists_lt_of_mem_openScopes d hx
    simpa [hk] using hlt
  have hdeep : ∀ x ∈ (openScopes s.emitted).take n, ¬ x.2.depth?.any (· < d) = true := by
    intro x hx
    obtain ⟨k, hk, hle⟩ := h.exists_le_of_mem_take d hx
    simpa [hk] using hle
  rw [← List.take_append_drop n (openScopes s.emitted), List.filter_append,
    List.filter_eq_nil_iff.2 hdeep, ← openScopes_closeTo_eq_drop, List.filter_eq_self.2 hshallow]
  rfl

protected theorem readIndent (h : s.Sound limit) : s.readIndent.Sound limit := by
  by_cases hi : ∃ t ts, s.rest = t :: ts ∧ t.kind = .indent
  · obtain ⟨t, ts, hr, ht⟩ := hi
    have hc : (closeTo { s with rest := ts } t.depth).Sound limit :=
      Sound.closeTo (s := { s with rest := ts }) ⟨h.sorted, h.nested, h.depths⟩ t.depth
    have hlt := Sound.depth_lt (s := { s with rest := ts }) ⟨h.sorted, h.nested, h.depths⟩ t.depth
    rw [readIndent_of_indent hr ht]
    refine ⟨List.pairwise_cons.2 ⟨?_, hc.sorted⟩, hc.nested, ?_⟩
    · intro p hp
      exact Nat.le_of_lt (hlt p hp)
    · simpa using hc.depths
  · rw [readIndent_of_not_indent fun t ts hr ht => hi ⟨t, ts, hr, ht⟩]
    exact h

theorem leaf {i : Instruction} (h : s.Sound limit) (hi : i.isLeaf = true)
    (hem : s'.emitted = i :: s.emitted) (hpe : s'.pending = s.pending) : s'.Sound limit where
  sorted := by
    rw [hpe]
    exact h.sorted
  nested := by
    rw [hem]
    exact .leaf hi h.nested
  depths := by
    rw [hem, hpe, openScopes_leaf hi]
    exact h.depths

theorem enter {i : Instruction} (h : s.Sound limit) (hi : i.opens = true)
    (hd : i.depth? = some s.depth) (hlim : (s.scopes : Int) < limit)
    (hem : s'.emitted = i :: s.emitted) (hpe : s'.pending = ⟨s.depth, true⟩ :: s.pending) :
    s'.Sound limit where
  sorted := by
    rw [hpe]
    exact List.pairwise_cons.2 ⟨h.depth_le, h.sorted⟩
  nested := by
    have hlen := h.length_openScopes
    rw [hem]
    exact .enter hi (by omega) h.nested
  depths := by
    rw [hem, hpe, openScopes_opens hi]
    simp [hd, h.depths]

/-- Reading the rest of a line keeps the invariant: its scopes become pending as they are opened,
at the depth of the line. -/
protected theorem lineRead (h : s.Sound limit) (hr : LineRead limit s s') : s'.Sound limit := by
  rcases hr with rfl | ⟨new, opened, hem, hpe, hadds, hfrom, -⟩
  · exact h
  have hdepth : ∀ i ∈ new, i.opens = true → i.depth? = some s.depth :=
    fun i hi ho => (hfrom i hi).depth?_eq ho
  -- the state between the tag of the line and what the tag holds
  let tagged (t : Instruction) : Layout :=
    { s with emitted := t :: s.emitted, pending := ⟨s.depth, true⟩ :: s.pending }
  cases hadds with
  | leaf hi => exact h.leaf hi hem hpe
  | scope hi hlim => exact h.enter hi (hdepth _ (by simp) hi) hlim hem hpe
  | @leafInTag i t hi ht hlim =>
    have htagged : (tagged t).Sound limit := h.enter ht (hdepth t (by simp) ht) hlim rfl rfl
    exact htagged.leaf hi hem hpe
  | @scopeInTag i t hi ht hlim =>
    have htagged : (tagged t).Sound limit :=
      h.enter ht (hdepth t (by simp) ht) (by omega) rfl rfl
    have hscopes : (tagged t).scopes = s.scopes + 1 := by simp [tagged, scopes]
    exact htagged.enter hi (hdepth i (by simp) hi) (by omega) hem hpe

protected theorem readLine {stop : Location} (h : s.Sound limit)
    (hr : s.readLine limit stop = .ok s') : s'.Sound limit :=
  h.readIndent.lineRead (readLine_ok hr)

protected theorem readLines {stop : Location} (h : s.Sound limit)
    (hr : s.readLines limit stop = .ok s') : s'.Sound limit :=
  (readLines_ok (fun _ _ hs _ hr => hs.readLine hr) h hr).1

end Sound

/-- A doctype line puts out literals at depth zero, placed at its mark; nothing is pending after
it. -/
theorem readDoctype_ok {s s' : Layout} (h : s.readDoctype = .ok s') :
    s' = s ∨
      ∃ (mark : Token) (ts : List Token) (lines : List Text), s.rest = mark :: ts ∧
        mark.kind = .doctypeMark ∧
        s'.rest = ts.drop ((ts.takeWhile (·.kind == .doctypeWord)).take 2).length ∧
        s'.emitted = (lines.map fun l => .literal mark.start l 0) ++ s.emitted ∧
        s'.pending = s.pending := by
  unfold readDoctype at h
  split at h
  · cases h
    exact .inl rfl
  · rename_i mark ts hr
    split at h
    · cases h
      exact .inl rfl
    · rename_i hm
      dsimp only at h
      split at h
      · cases h
      · rename_i lines _
        cases h
        exact .inr ⟨mark, ts, lines.reverse, hr, by simpa using hm, rfl, by simp, rfl⟩

theorem Sound.start {limit : Int} {tokens : List Token} {s : Layout}
    (h : readDoctype { rest := tokens } = .ok s) : s.Sound limit := by
  rcases readDoctype_ok h with rfl | ⟨mark, ts, lines, -, -, -, hem, hpe⟩
  · exact ⟨.nil, .nil, rfl⟩
  · have hnil : WellNested limit.toNat [] := .nil
    obtain ⟨hn, ho⟩ := hnil.literals mark.start lines
    refine ⟨?_, ?_, ?_⟩
    · rw [hpe]
      exact .nil
    · rw [hem]
      exact hn
    · rw [hem, hpe]
      dsimp only
      rw [ho]
      rfl

/-! ## The whole program -/

/-- Reading all of the tokens, within the limit that `maxDepth` stands for, leads to `s`. -/
def ReadTo (maxDepth : Int) (tokens : List Token) (s : Layout) : Prop :=
  ∃ start, readDoctype { rest := tokens } = .ok start ∧
    start.readLines (if maxDepth = 0 then 100 else maxDepth) (endOf tokens) = .ok s

/-- When everything is read, the instructions with what is still to be closed are balanced. -/
theorem Sound.balanced {limit : Int} {s : Layout} (h : s.Sound limit) :
    Balanced (s.closeTo 0).emitted.reverse := by
  have hc := h.closeTo 0
  have hpe : (s.closeTo 0).pending = [] := by
    rw [List.eq_nil_iff_forall_not_mem]
    intro p hp
    exact absurd (h.depth_lt 0 p hp) (Nat.not_lt_zero _)
  have hdepths := hc.depths
  rw [hpe] at hdepths
  exact hc.nested.balanced (List.map_eq_nil_iff.1 hdepths)

/-- Taking output into a tag ends the scope of that very tag, and only if the element becomes one
entry: what was pending before the tag is pending after it. -/
theorem fuse_pending {limit : Int} {stop : Location} {s s₁ s₂ : Layout}
    (h₁ : s.readTag limit stop = .ok (true, s₁)) (h₂ : s₁.readOutput limit stop = .ok (true, s₂)) :
    s₂.fuse.pending = s₂.pending ∨
      s₁.pending = ⟨s.depth, true⟩ :: s.pending ∧ s₂.pending = s₁.pending ∧
        s₂.fuse.pending = s.pending ∧
        (∃ pos opening closing, s₁.emitted = .openTag pos opening closing s.depth 0 :: s.emitted) ∧
        ∃ i, i.isLeaf = true ∧ s₂.fuse.emitted = i :: s.emitted := by
  rcases readTag_ok h₁ with ⟨hn, -⟩ |
    ⟨-, -, ⟨i, -, -, hend, -, -⟩ | ⟨pos, opening, closing, -, -, hem, hpe⟩⟩
  · cases hn
  · cases (readOutput_of_lineEnd hend h₂).1
  rcases readOutput_ok h₂ with ⟨hn, -⟩ |
    ⟨-, -, ⟨i, hi, -, hem', hpe'⟩ | ⟨pos', control, -, -, hem', hpe'⟩⟩
  · cases hn
  · rw [hem] at hem'
    rcases fuse_cases hem' with he | ⟨v, -, he | he⟩ <;> rw [he]
    · exact .inl rfl
    · refine .inr ⟨hpe, hpe', ?_, ⟨pos, opening, closing, hem⟩, _,
        Instruction.isLeaf_ofFragments .., rfl⟩
      rw [hpe', hpe]
      rfl
    · exact .inl rfl
  · rw [hem] at hem'
    rcases fuse_cases hem' with he | ⟨v, hv, -⟩
    · rw [he]
      exact .inl rfl
    · cases hv

end Layout

theorem layOut_ok {maxDepth : Int} {tokens : List Token} {code : List Instruction}
    (h : layOut maxDepth tokens = .ok code) :
    ∃ s : Layout, Layout.ReadTo maxDepth tokens s ∧
      code = (matchScopes 0 (s.closeTo 0).emitted.reverse).1 := by
  unfold layOut at h
  dsimp only at h
  rw [bind_eq_ok] at h
  obtain ⟨start, hstart, h⟩ := h
  rw [bind_eq_ok] at h
  obtain ⟨s, hs, h⟩ := h
  cases h
  exact ⟨s, ⟨start, hstart, hs⟩, rfl⟩

theorem Layout.ReadTo.sound {maxDepth : Int} {tokens : List Token} {s : Layout}
    (h : Layout.ReadTo maxDepth tokens s) :
    s.Sound (if maxDepth = 0 then 100 else maxDepth) := by
  obtain ⟨start, hstart, hs⟩ := h
  exact (Sound.start hstart).readLines hs

theorem Layout.ReadTo.unique {maxDepth : Int} {tokens : List Token} {s s' : Layout}
    (h : Layout.ReadTo maxDepth tokens s) (h' : Layout.ReadTo maxDepth tokens s') : s = s' := by
  obtain ⟨start, hstart, hs⟩ := h
  obtain ⟨start', hstart', hs'⟩ := h'
  rw [hstart] at hstart'
  cases hstart'
  rw [hs] at hs'
  exact Except.ok.inj hs'

/-- A start of a matched list opens and closes as much as the same start before matching. -/
theorem exists_prefix_of_matchScopes {i : Nat} {l start : List Instruction}
    (h : start <+: (matchScopes i l).1) :
    ∃ start', start' <+: l ∧ opened start' = opened start ∧ closed start' = closed start := by
  refine ⟨l.take start.length, List.take_prefix .., ?_⟩
  have hmap : start.map (·.withStop 0) = (l.take start.length).map (·.withStop 0) := by
    rw [List.map_take, ← map_withStop_matchScopes i 0 l, ← List.map_take,
      ← List.prefix_iff_eq_take.1 h]
  rw [← opened_map_withStop _ 0, ← hmap, opened_map_withStop, ← closed_map_withStop _ 0, ← hmap,
    closed_map_withStop]
  exact ⟨rfl, rfl⟩

namespace Program

/-- The scopes of a program are well bracketed: opening and closing instructions match, every
opening instruction knows the one that closes its scope, and no more than `limit` scopes are ever
open. -/
structure WellBracketed (limit : Int) (p : Program) : Prop where
  balanced : Balanced p.code.toList
  stop?_eq_some_iff : ∀ a x, p.code[a]? = some x → x.opens = true →
    ∀ c, x.stop? = some c ↔ ClosedAt p.code.toList a c
  opened_le : ∀ start, start <+: p.code.toList →
    (opened start : Int) ≤ closed start + max limit 0

/-- A program that is laid out is its own tree written out, and its scopes are those that reading
the tokens led to. -/
theorem ofTokens_ok {contextType : Text} {maxDepth : Int} {tokens : List Token} {p : Program}
    (h : Program.ofTokens contextType maxDepth tokens = .ok p) :
    ∃ (s : Layout) (nodes : List Node), Layout.ReadTo maxDepth tokens s ∧
      matchScopes 0 (s.closeTo 0).emitted.reverse = (p.code.toList, []) ∧
      Node.ofCode? p.code.toList = some nodes ∧ Node.codeAll 0 nodes = p.code.toList := by
  obtain ⟨code, hcode, rfl⟩ := map_eq_ok.1 h
  obtain ⟨s, hs, rfl⟩ := layOut_ok hcode
  obtain ⟨nodes, hnodes, hmatch⟩ := Node.matchScopes_eq_codeAll hs.sound.balanced
  refine ⟨s, nodes, hs, ?_, ?_, ?_⟩
  · rw [hmatch]
  · rw [← hnodes]
    exact Node.ofCode?_matchScopes 0 _
  · rw [hmatch]

theorem WellBracketed.of_readTo {maxDepth : Int} {tokens : List Token} {s : Layout} {p : Program}
    {nodes : List Node} (hs : Layout.ReadTo maxDepth tokens s)
    (hmatch : matchScopes 0 (s.closeTo 0).emitted.reverse = (p.code.toList, []))
    (hnodes : Node.codeAll 0 nodes = p.code.toList) :
    p.WellBracketed (if maxDepth = 0 then 100 else maxDepth) where
  balanced := hnodes ▸ Node.balanced_codeAll 0 nodes
  stop?_eq_some_iff := by
    intro a x hx ho c
    have hstops := Node.stopsRight_codeAll 0 nodes
    rw [hnodes] at hstops
    rw [← Array.getElem?_toList] at hx
    obtain ⟨c', hc', hclosed⟩ := hstops a x hx ho
    rw [Nat.zero_add] at hc'
    constructor
    · intro hc
      rw [hc'] at hc
      cases hc
      exact hclosed
    · intro hc
      rw [hc', hclosed.unique hc]
  opened_le := by
    intro start hstart
    have hraw : start <+: (matchScopes 0 (s.closeTo 0).emitted.reverse).1 := by rwa [hmatch]
    obtain ⟨start', hstart', ho, hc⟩ := exists_prefix_of_matchScopes hraw
    have := ((hs.sound.closeTo 0).nested.start_bounds hstart').2
    omega

/-- Whatever the tokens are, a program that is laid out is well bracketed within the limit. On the
way no closing instruction is left without its scope, and joining a tag with its output never ends
any other scope. -/
theorem wellBracketed_of_ofTokens {contextType : Text} {maxDepth : Int} {tokens : List Token}
    {p : Program} (h : Program.ofTokens contextType maxDepth tokens = .ok p) :
    p.WellBracketed (if maxDepth = 0 then 100 else maxDepth) ∧
      (∀ s : Layout, Layout.ReadTo maxDepth tokens s →
        Balanced (s.closeTo 0).emitted.reverse ∧
          matchScopes 0 (s.closeTo 0).emitted.reverse = (p.code.toList, [])) ∧
      ∀ (limit : Int) (stop : Location) (s s₁ s₂ : Layout),
        s.readTag limit stop = .ok (true, s₁) → s₁.readOutput limit stop = .ok (true, s₂) →
        s₂.fuse.pending = s₂.pending ∨
          s₁.pending = ⟨s.depth, true⟩ :: s.pending ∧ s₂.pending = s₁.pending ∧
            s₂.fuse.pending = s.pending ∧
            (∃ pos opening closing,
              s₁.emitted = .openTag pos opening closing s.depth 0 :: s.emitted) ∧
            ∃ i, i.isLeaf = true ∧ s₂.fuse.emitted = i :: s.emitted := by
  obtain ⟨s, nodes, hs, hmatch, -, hnodes⟩ := ofTokens_ok h
  refine ⟨.of_readTo hs hmatch hnodes, ?_, fun _ _ _ _ _ => Layout.fuse_pending⟩
  intro s' hs'
  rw [hs'.unique hs]
  exact ⟨hs.sound.balanced, hmatch⟩

/-- Two tags, the second one inside the first with its text on the line after it. -/
theorem wellBracketed_nested_tags :
    ∃ p : Program, Program.ofTokens [] 2
        [⟨.tagMark, {}, ['%']⟩, ⟨.word, {}, ['a']⟩, ⟨.indent, { line := 1 }, [' ']⟩,
          ⟨.tagMark, { line := 1 }, ['%']⟩, ⟨.word, { line := 1 }, ['b']⟩,
          ⟨.indent, { line := 2 }, [' ', ' ']⟩, ⟨.text, { line := 2 }, ['x']⟩] = .ok p ∧
      p.code.toList.map (·.stop?) = [some 4, some 3, none, none, none] ∧ p.WellBracketed 2 := by
  have h : Program.ofTokens [] 2
      [⟨.tagMark, {}, ['%']⟩, ⟨.word, {}, ['a']⟩, ⟨.indent, { line := 1 }, [' ']⟩,
        ⟨.tagMark, { line := 1 }, ['%']⟩, ⟨.word, { line := 1 }, ['b']⟩,
        ⟨.indent, { line := 2 }, [' ', ' ']⟩, ⟨.text, { line := 2 }, ['x']⟩] =
      .ok ⟨[], #[.openTag {} [.literal "<a>".toList] [.literal "</a>".toList] 0 4,
        .openTag { line := 1 } [.literal "<b>".toList] [.literal "</b>".toList] 1 3,
        .literal { line := 2 } ['x'] 2, .close, .close]⟩ := by
    decide +kernel
  exact ⟨_, h, rfl, (wellBracketed_of_ofTokens h).1⟩

end Program
end Offside
