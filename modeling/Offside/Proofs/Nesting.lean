import Mathlib.Data.List.Basic
import Offside.Program

/-!
# Nesting of scopes

A list of instructions opens and closes scopes. It is *balanced* when no start of it closes more
scopes than it opens and the whole closes as many as it opens; the instruction that closes a scope
is the one up to which everything after the opening is balanced (`ClosedAt`).

While a program is laid out its instructions are kept newest first. For such a list `openScopes`
gives the scopes that are still open, innermost first, and `WellNested limit` says that no scope
was ever closed that was not open and that never more than `limit` scopes were open at once. A
scope is open just between the instruction that opens it and the one that closes it
(`ClosedAt.isOpen_take_iff`).
-/

namespace Offside

namespace Instruction

/-- The depth at which an instruction puts something out or opens a scope. -/
def depth? : Instruction → Option Nat
  | literal _ _ depth => some depth
  | output _ _ depth => some depth
  | filtered _ _ _ depth => some depth
  | openTag _ _ _ depth _ => some depth
  | openControl _ _ depth _ => some depth
  | exec .. => none
  | close => none

/-- Where the scope that an instruction opens ends. -/
def stop? : Instruction → Option Nat
  | openTag _ _ _ _ stop => some stop
  | openControl _ _ _ stop => some stop
  | _ => none

/-- Neither opens nor closes a scope. -/
def isLeaf (i : Instruction) : Bool := !i.opens && !i.closes

@[simp] theorem isLeaf_iff {i : Instruction} :
    i.isLeaf = true ↔ i.opens = false ∧ i.closes = false := by
  simp [isLeaf]

theorem closes_iff {i : Instruction} : i.closes = true ↔ i = close := by
  cases i <;> simp [closes]

theorem closes_of_opens {i : Instruction} (h : i.opens = true) : i.closes = false := by
  cases i <;> simp_all [opens, closes]

@[simp] theorem pos_withStop (i : Instruction) (n : Nat) : (i.withStop n).pos = i.pos := by
  cases i <;> rfl

@[simp] theorem opens_withStop (i : Instruction) (n : Nat) : (i.withStop n).opens = i.opens := by
  cases i <;> rfl

@[simp] theorem closes_withStop (i : Instruction) (n : Nat) :
    (i.withStop n).closes = i.closes := by
  cases i <;> rfl

@[simp] theorem depth?_withStop (i : Instruction) (n : Nat) :
    (i.withStop n).depth? = i.depth? := by
  cases i <;> rfl

@[simp] theorem withStop_withStop (i : Instruction) (m n : Nat) :
    (i.withStop m).withStop n = i.withStop n := by
  cases i <;> rfl

/-- What instructions have in common that differ in nothing but where they stop. -/
theorem eq_of_withStop_eq {i j : Instruction} {n : Nat} (h : i.withStop n = j.withStop n) :
    i.pos = j.pos ∧ i.opens = j.opens ∧ i.closes = j.closes ∧ i.depth? = j.depth? := by
  rw [← pos_withStop i n, ← opens_withStop i n, ← closes_withStop i n, ← depth?_withStop i n, h]
  simp

theorem eq_of_withStop_eq_literal {i : Instruction} {pos : Location} {text : Text} {depth n : Nat}
    (h : i.withStop n = .literal pos text depth) : i = .literal pos text depth := by
  cases i with
  | literal => exact h
  | output | exec | filtered | openTag | openControl | close => cases h

theorem depth?_of_opens {i : Instruction} (h : i.opens = true) : ∃ d, i.depth? = some d := by
  cases i with
  | openTag pos opening closing depth stop => exact ⟨depth, rfl⟩
  | openControl pos control depth stop => exact ⟨depth, rfl⟩
  | literal | output | exec | filtered | close => cases h

theorem stop?_of_opens {i : Instruction} (h : i.opens = true) : ∃ c, i.stop? = some c := by
  cases i with
  | openTag pos opening closing depth stop => exact ⟨stop, rfl⟩
  | openControl pos control depth stop => exact ⟨stop, rfl⟩
  | literal | output | exec | filtered | close => cases h

theorem isLeaf_ofFragments (pos : Location) (v : Fragments) (depth : Nat) :
    (ofFragments pos v depth).isLeaf = true := by
  unfold ofFragments
  split <;> rfl

@[simp] theorem pos_ofFragments (pos : Location) (v : Fragments) (depth : Nat) :
    (ofFragments pos v depth).pos = pos := by
  unfold ofFragments
  split <;> rfl

@[simp] theorem depth?_ofFragments (pos : Location) (v : Fragments) (depth : Nat) :
    (ofFragments pos v depth).depth? = some depth := by
  unfold ofFragments
  split <;> rfl

end Instruction

/-! ## Balanced lists -/

/-- How many scopes a list of instructions opens. -/
def opened (l : List Instruction) : Nat := l.countP (·.opens)

/-- How many scopes a list of instructions closes. -/
def closed (l : List Instruction) : Nat := l.countP (·.closes)

@[simp] theorem opened_nil : opened [] = 0 := rfl

@[simp] theorem closed_nil : closed [] = 0 := rfl

@[simp] theorem opened_append (l m : List Instruction) : opened (l ++ m) = opened l + opened m :=
  List.countP_append

@[simp] theorem closed_append (l m : List Instruction) : closed (l ++ m) = closed l + closed m :=
  List.countP_append

theorem opened_cons (i : Instruction) (l : List Instruction) :
    opened (i :: l) = opened l + if i.opens then 1 else 0 :=
  List.countP_cons

theorem closed_cons (i : Instruction) (l : List Instruction) :
    closed (i :: l) = closed l + if i.closes then 1 else 0 :=
  List.countP_cons

@[simp] theorem opened_reverse (l : List Instruction) : opened l.reverse = opened l :=
  List.countP_reverse

@[simp] theorem closed_reverse (l : List Instruction) : closed l.reverse = closed l :=
  List.countP_reverse

/-- Every scope that the list closes was opened in it before, and every scope that it opens is
closed. -/
structure Balanced (l : List Instruction) : Prop where
  /-- No start of the list closes more than it opens. -/
  closed_le : ∀ start, start <+: l → closed start ≤ opened start
  /-- The list closes as much as it opens. -/
  closed_eq : closed l = opened l

namespace Balanced

variable {l m : List Instruction}

theorem nil : Balanced [] where
  closed_le := by
    intro start h
    rw [List.prefix_nil.mp h]
    simp
  closed_eq := rfl

theorem append (hl : Balanced l) (hm : Balanced m) : Balanced (l ++ m) where
  closed_le := by
    intro start hs
    rcases List.prefix_or_prefix_of_prefix hs (List.prefix_append l m) with h | h
    · exact hl.closed_le start h
    · obtain ⟨start, rfl⟩ := h
      have hle := hm.closed_le start ((List.prefix_append_right_inj l).1 hs)
      rw [closed_append, opened_append, hl.closed_eq]
      omega
  closed_eq := by
    rw [closed_append, opened_append, hl.closed_eq, hm.closed_eq]

theorem leaf {i : Instruction} (hi : i.isLeaf = true) : Balanced [i] := by
  obtain ⟨ho, hc⟩ := Instruction.isLeaf_iff.1 hi
  have heq : closed [i] = opened [i] := by
    rw [closed_cons, opened_cons, ho, hc]
    rfl
  refine ⟨?_, heq⟩
  intro start hs
  rcases List.prefix_cons_iff.1 hs with rfl | ⟨t, rfl, ht⟩
  · simp
  · rw [List.prefix_nil.1 ht]
    exact Nat.le_of_eq heq

/-- A scope around a balanced body is balanced. -/
theorem scope {i : Instruction} (hi : i.opens = true) (hl : Balanced l) :
    Balanced (i :: (l ++ [.close])) where
  closed_le := by
    intro start hs
    have hc := Instruction.closes_of_opens hi
    rcases List.prefix_cons_iff.1 hs with rfl | ⟨t, rfl, ht⟩
    · simp
    · rw [closed_cons, opened_cons, hi, hc]
      simp only [Bool.false_eq_true, if_false, if_true]
      rcases List.prefix_or_prefix_of_prefix ht (List.prefix_append l _) with h | h
      · have := hl.closed_le t h
        omega
      · obtain ⟨u, rfl⟩ := h
        have hu := (List.prefix_append_right_inj l).1 ht
        have hle : closed u ≤ 1 := hu.sublist.countP_le
        rw [closed_append, opened_append, hl.closed_eq]
        omega
  closed_eq := by
    rw [closed_cons, opened_cons, hi, Instruction.closes_of_opens hi, closed_append,
      opened_append, hl.closed_eq]
    rfl

/-- No balanced list starts with another balanced list and a closing instruction. -/
theorem not_prefix_close (hl : Balanced l) (hm : Balanced m) : ¬ l ++ [.close] <+: m := by
  intro h
  have hle := hm.closed_le _ h
  rw [closed_append, opened_append, hl.closed_eq] at hle
  have h1 : closed [Instruction.close] = 1 := rfl
  have h0 : opened [Instruction.close] = 0 := rfl
  omega

end Balanced

/-- The instruction at index `c` closes the scope that the instruction at index `a` opens: what
stands between the two is balanced. -/
def ClosedAt (code : List Instruction) (a c : Nat) : Prop :=
  ∃ before i body after, code = before ++ i :: (body ++ .close :: after) ∧ i.opens = true ∧
    Balanced body ∧ before.length = a ∧ a + 1 + body.length = c

namespace ClosedAt

variable {code : List Instruction} {a c : Nat}

theorem lt (h : ClosedAt code a c) : a < c := by
  obtain ⟨-, -, -, -, -, -, -, -, rfl⟩ := h
  omega

theorem append_right (h : ClosedAt code a c) (m : List Instruction) :
    ClosedAt (code ++ m) a c := by
  obtain ⟨before, i, body, after, rfl, hi, hb, ha, hc⟩ := h
  exact ⟨before, i, body, after ++ m, by simp, hi, hb, ha, hc⟩

theorem append_left (h : ClosedAt code a c) (m : List Instruction) :
    ClosedAt (m ++ code) (m.length + a) (m.length + c) := by
  obtain ⟨before, i, body, after, rfl, hi, hb, ha, hc⟩ := h
  exact ⟨m ++ before, i, body, after, by simp, hi, hb, by simp [ha], by omega⟩

theorem opening (h : ClosedAt code a c) : ∃ i, code[a]? = some i ∧ i.opens = true := by
  obtain ⟨before, i, body, after, rfl, hi, -, rfl, -⟩ := h
  exact ⟨i, by simp, hi⟩

theorem closing (h : ClosedAt code a c) : code[c]? = some .close := by
  obtain ⟨before, i, body, after, rfl, -, -, rfl, rfl⟩ := h
  rw [List.getElem?_append_right (by omega), List.getElem?_cons,
    if_neg (by omega), List.getElem?_append_right (by omega)]
  simp [show before.length + 1 + body.length - before.length - 1 - body.length = 0 by omega]

/-- Two balanced bodies that a closing instruction ends at the same start are the same. -/
theorem length_le {l m t u : List Instruction} (hm : Balanced m) (hl : Balanced l)
    (h : l ++ .close :: t = m ++ .close :: u) : m.length ≤ l.length := by
  by_contra hlt
  refine hl.not_prefix_close hm (List.prefix_of_prefix_length_le ⟨t, ?_⟩ ⟨.close :: u, h.symm⟩ ?_)
  · rw [List.append_assoc, List.singleton_append]
  · rw [List.length_append, List.length_singleton]
    omega

/-- A scope is closed at one place only. -/
theorem unique {d : Nat} (h : ClosedAt code a c) (h' : ClosedAt code a d) : c = d := by
  obtain ⟨before, i, body, after, rfl, -, hb, rfl, rfl⟩ := h
  obtain ⟨before', i', body', after', he, -, hb', hlen, rfl⟩ := h'
  obtain ⟨rfl, hcons⟩ := List.append_inj he hlen.symm
  obtain ⟨rfl, hbody⟩ := List.cons.inj hcons
  have h₁ := length_le hb' hb hbody
  have h₂ := length_le hb hb' hbody.symm
  omega

/-- A scope that is opened after another one is not closed at the same place. -/
theorem opening_le {b : Nat} (h : ClosedAt code a c) (h' : ClosedAt code b c) : b ≤ a := by
  obtain ⟨before, i, body, after, rfl, -, hb, rfl, rfl⟩ := h
  obtain ⟨before', i', body', after', he, hi', hb', rfl, hlen⟩ := h'
  by_contra hlt
  have hstart : before ++ i :: body = before' ++ i' :: body' := by
    have hcode : (before ++ i :: body) ++ .close :: after =
        (before' ++ i' :: body') ++ .close :: after' := by
      simpa using he
    refine List.append_inj_left hcode ?_
    simp only [List.length_append, List.length_cons]
    omega
  obtain ⟨mid, rfl, hmid⟩ | ⟨mid, rfl, -⟩ := List.append_eq_append_iff.1 hstart
  · cases mid with
    | nil => simp at hlt
    | cons j mid =>
      -- the second scope is opened in the body of the first, which would close too much before it
      rw [List.cons_append] at hmid
      obtain ⟨rfl, rfl⟩ := List.cons.inj hmid
      have hle := hb.closed_le mid ⟨_, rfl⟩
      have heq := hb.closed_eq
      rw [closed_append, opened_append, closed_cons, opened_cons, hi',
        Instruction.closes_of_opens hi', hb'.closed_eq] at heq
      simp only [Bool.false_eq_true, if_false, if_true] at heq
      omega
  · simp at hlt

/-- An instruction closes one scope only. -/
theorem opening_unique {b : Nat} (h : ClosedAt code a c) (h' : ClosedAt code b c) : a = b :=
  Nat.le_antisymm (h'.opening_le h) (h.opening_le h')

end ClosedAt

/-! ## Open scopes -/

/-- The scopes that are still open after the instructions of a list, which is given newest first.
The innermost scope comes first; each is the instruction that opened it, with its index. -/
def openScopes : List Instruction → List (Nat × Instruction)
  | [] => []
  | i :: l =>
    if i.closes then (openScopes l).tail
    else if i.opens then (l.length, i) :: openScopes l
    else openScopes l

@[simp] theorem openScopes_nil : openScopes [] = [] := rfl

@[simp] theorem openScopes_close (l : List Instruction) :
    openScopes (.close :: l) = (openScopes l).tail := rfl

theorem openScopes_leaf {i : Instruction} (h : i.isLeaf = true) (l : List Instruction) :
    openScopes (i :: l) = openScopes l := by
  obtain ⟨ho, hc⟩ := Instruction.isLeaf_iff.1 h
  simp [openScopes, ho, hc]

theorem openScopes_opens {i : Instruction} (h : i.opens = true) (l : List Instruction) :
    openScopes (i :: l) = (l.length, i) :: openScopes l := by
  simp [openScopes, h, Instruction.closes_of_opens h]

/-- An open scope is one of the instructions of the list. -/
theorem getElem?_of_mem_openScopes {l : List Instruction} {a : Nat} {i : Instruction}
    (h : (a, i) ∈ openScopes l) : l.reverse[a]? = some i ∧ i.opens = true := by
  induction l with
  | nil => simp at h
  | cons j l ih =>
    have hkeep : (a, i) ∈ openScopes l → (j :: l).reverse[a]? = some i ∧ i.opens = true := by
      intro hm
      obtain ⟨hi, ho⟩ := ih hm
      obtain ⟨ha, -⟩ := List.getElem?_eq_some_iff.1 hi
      rw [List.reverse_cons, List.getElem?_append_left ha]
      exact ⟨hi, ho⟩
    unfold openScopes at h
    split at h
    · exact hkeep (List.mem_of_mem_tail h)
    · split at h
      · rename_i ho
        rcases List.mem_cons.1 h with he | hm
        · cases he
          simp [ho]
        · exact hkeep hm
      · exact hkeep h

theorem lt_length_of_mem_openScopes {l : List Instruction} {x : Nat × Instruction}
    (h : x ∈ openScopes l) : x.1 < l.length := by
  obtain ⟨hi, -⟩ := getElem?_of_mem_openScopes (a := x.1) (i := x.2) h
  obtain ⟨ha, -⟩ := List.getElem?_eq_some_iff.1 hi
  simpa using ha

/-- A list of instructions, newest first, that never closes a scope unless one is open and never
has more than `limit` scopes open at once. -/
inductive WellNested (limit : Nat) : List Instruction → Prop
  | nil : WellNested limit []
  | leaf {i : Instruction} {l : List Instruction} :
      i.isLeaf = true → WellNested limit l → WellNested limit (i :: l)
  | enter {i : Instruction} {l : List Instruction} :
      i.opens = true → (openScopes l).length < limit → WellNested limit l →
      WellNested limit (i :: l)
  | leave {l : List Instruction} :
      openScopes l ≠ [] → WellNested limit l → WellNested limit (.close :: l)

namespace WellNested

variable {limit : Nat} {l m : List Instruction}

/-- The number of open scopes is the difference of what was opened and closed. -/
theorem opened_eq (h : WellNested limit l) : opened l = closed l + (openScopes l).length := by
  induction h with
  | nil => rfl
  | leaf hi _ ih =>
    rw [openScopes_leaf hi, opened_cons, closed_cons, (Instruction.isLeaf_iff.1 hi).1,
      (Instruction.isLeaf_iff.1 hi).2, ih]
    simp
  | enter hi _ _ ih =>
    rw [openScopes_opens hi, opened_cons, closed_cons, hi, Instruction.closes_of_opens hi, ih]
    simp only [if_true, List.length_cons, Bool.false_eq_true, if_false]
    omega
  | leave hne _ ih =>
    have hpos := List.length_pos_iff.2 hne
    rw [openScopes_close, opened_cons, closed_cons, ih, List.length_tail]
    simp only [Instruction.opens, Instruction.closes, Bool.false_eq_true, if_false, if_true]
    omega

theorem length_le (h : WellNested limit l) : (openScopes l).length ≤ limit := by
  induction h with
  | nil => exact Nat.zero_le _
  | leaf hi _ ih => rwa [openScopes_leaf hi]
  | enter hi hlt _ _ => rw [openScopes_opens hi]; exact hlt
  | leave _ _ ih =>
    rw [openScopes_close, List.length_tail]
    omega

theorem of_append (h : WellNested limit (m ++ l)) : WellNested limit l := by
  induction m with
  | nil => exact h
  | cons i m ih =>
    cases h with
    | leaf _ h => exact ih h
    | enter _ _ h => exact ih h
    | leave _ h => exact ih h

/-- Of every start of the program, that it closes no more than it opens, and leaves at most
`limit` scopes open. -/
theorem start_bounds (h : WellNested limit l) {start : List Instruction}
    (hs : start <+: l.reverse) :
    closed start ≤ opened start ∧ opened start ≤ closed start + limit := by
  obtain ⟨rest, hr⟩ := hs
  have hl : l = rest.reverse ++ start.reverse := by
    rw [← List.reverse_append, hr, List.reverse_reverse]
  rw [hl] at h
  have hn := h.of_append
  have heq := hn.opened_eq
  have hle := hn.length_le
  rw [opened_reverse, closed_reverse] at heq
  omega

theorem balanced (h : WellNested limit l) (hopen : openScopes l = []) : Balanced l.reverse where
  closed_le := fun _ hs => (h.start_bounds hs).1
  closed_eq := by
    have := h.opened_eq
    rw [hopen] at this
    simpa using this.symm

end WellNested

/-! ## Matching -/

section Matching

variable {i c : Nat} {x : Instruction} {l m : List Instruction} {closers : List Nat}

theorem matchScopes_leaf (hx : x.isLeaf = true) (h : matchScopes (i + 1) l = (m, closers)) :
    matchScopes i (x :: l) = (x :: m, closers) := by
  obtain ⟨ho, hc⟩ := Instruction.isLeaf_iff.1 hx
  simp [matchScopes, h, ho, hc]

theorem matchScopes_opens (hx : x.opens = true) (h : matchScopes (i + 1) l = (m, c :: closers)) :
    matchScopes i (x :: l) = (x.withStop c :: m, closers) := by
  simp [matchScopes, h, hx, Instruction.closes_of_opens hx]

theorem matchScopes_close (h : matchScopes (i + 1) l = (m, closers)) :
    matchScopes i (.close :: l) = (.close :: m, i :: closers) := by
  simp [matchScopes, h, Instruction.closes]

end Matching

/-- Matching changes nothing but where scopes stop. -/
theorem map_withStop_matchScopes (i n : Nat) (l : List Instruction) :
    (matchScopes i l).1.map (·.withStop n) = l.map (·.withStop n) := by
  induction l generalizing i with
  | nil => rfl
  | cons instr l ih =>
    have hl := ih (i + 1)
    unfold matchScopes
    split
    rename_i rest closers he
    rw [he] at hl
    split
    · simp only [List.map_cons, hl]
    · split
      · split <;> simp only [List.map_cons, Instruction.withStop_withStop, hl]
      · simp only [List.map_cons, hl]

theorem opened_map_withStop (l : List Instruction) (n : Nat) :
    opened (l.map (·.withStop n)) = opened l := by
  simp [opened, List.countP_map, Function.comp_def]

theorem closed_map_withStop (l : List Instruction) (n : Nat) :
    closed (l.map (·.withStop n)) = closed l := by
  simp [closed, List.countP_map, Function.comp_def]

theorem openScopes_map_withStop (l : List Instruction) (n : Nat) :
    openScopes (l.map (·.withStop n)) = (openScopes l).map fun x => (x.1, x.2.withStop n) := by
  induction l with
  | nil => rfl
  | cons i l ih =>
    simp only [List.map_cons, openScopes, Instruction.closes_withStop, Instruction.opens_withStop,
      List.length_map, ih]
    split
    · rw [List.map_tail]
    · split <;> rfl

/-! ## Which scope is open where -/

/-- The scope that instruction `a` opens is still open after the instructions of a list, which is
given newest first. -/
def IsOpen (l : List Instruction) (a : Nat) : Prop := ∃ x, (a, x) ∈ openScopes l

theorem IsOpen.lt_length {l : List Instruction} {a : Nat} (h : IsOpen l a) : a < l.length := by
  obtain ⟨x, hx⟩ := h
  exact lt_length_of_mem_openScopes hx

theorem isOpen_iff_mem {l : List Instruction} {a : Nat} {x : Instruction}
    (hx : l.reverse[a]? = some x) : IsOpen l a ↔ (a, x) ∈ openScopes l := by
  constructor
  · rintro ⟨y, hy⟩
    have := (getElem?_of_mem_openScopes hy).1
    rw [hx] at this
    cases this
    exact hy
  · exact fun h => ⟨x, h⟩

theorem isOpen_leaf {i : Instruction} (h : i.isLeaf = true) (l : List Instruction) (a : Nat) :
    IsOpen (i :: l) a ↔ IsOpen l a := by
  rw [IsOpen, openScopes_leaf h, IsOpen]

theorem isOpen_opens {i : Instruction} (h : i.opens = true) (l : List Instruction) (a : Nat) :
    IsOpen (i :: l) a ↔ a = l.length ∨ IsOpen l a := by
  simp only [IsOpen, openScopes_opens h, List.mem_cons, Prod.mk.injEq, exists_or]
  simp

/-- What is still open now was open all the time since it was opened. -/
theorem IsOpen.of_append {l m : List Instruction} {a : Nat} (h : IsOpen (m ++ l) a)
    (ha : a < l.length) : IsOpen l a := by
  induction m with
  | nil => exact h
  | cons i m ih =>
    obtain ⟨x, hx⟩ := h
    rw [List.cons_append, openScopes] at hx
    split at hx
    · exact ih ⟨x, List.mem_of_mem_tail hx⟩
    · split at hx
      · rcases List.mem_cons.1 hx with he | hx
        · have := congrArg Prod.fst he
          simp only [List.length_append] at this
          omega
        · exact ih ⟨x, hx⟩
      · exact ih ⟨x, hx⟩

/-- Instructions that never close more than they open leave open what was open before them. -/
theorem openScopes_append {l m : List Instruction}
    (h : ∀ start, start <:+ m → closed start ≤ opened start) :
    ∃ inner, openScopes (m ++ l) = inner ++ openScopes l ∧
      opened m = closed m + inner.length := by
  induction m with
  | nil => exact ⟨[], rfl, rfl⟩
  | cons i m ih =>
    obtain ⟨inner, hopen, hcount⟩ := ih fun start hs => h start (hs.trans (List.suffix_cons ..))
    have hle := h (i :: m) (List.suffix_refl _)
    rw [opened_cons, closed_cons] at hle ⊢
    rw [List.cons_append, openScopes, hopen]
    split
    · rename_i hc
      have ho : i.opens = false := by
        rw [Instruction.closes_iff.1 hc]
        rfl
      simp only [hc, ho, if_true, Bool.false_eq_true, if_false] at hle ⊢
      cases inner with
      | nil =>
        -- with none of its own open, the list would close more than it opens
        rw [List.length_nil] at hcount
        omega
      | cons x inner =>
        rw [List.length_cons] at hcount
        exact ⟨inner, rfl, by omega⟩
    · rename_i hc
      split
      · rename_i ho
        exact ⟨_ :: inner, rfl, by simp; omega⟩
      · rename_i ho
        exact ⟨inner, rfl, by simp [hcount]⟩

/-- Up to the instruction that closes it, a scope has only scopes inside it that are open. -/
theorem ClosedAt.openScopes_take {code : List Instruction} {a b c : Nat} (h : ClosedAt code a c)
    (hab : a < b) (hbc : b ≤ c) :
    ∃ inner i, openScopes (code.take b).reverse =
        inner ++ (a, i) :: openScopes (code.take a).reverse ∧ (b = c → inner = []) := by
  obtain ⟨before, i, body, after, rfl, hi, hbody, rfl, rfl⟩ := h
  obtain ⟨n, rfl⟩ : ∃ n, b = before.length + (n + 1) := ⟨b - before.length - 1, by omega⟩
  have hn : n ≤ body.length := by omega
  have hle : ∀ start, start <:+ (body.take n).reverse → closed start ≤ opened start := by
    intro start hs
    have hprefix : start.reverse <+: body :=
      (List.reverse_suffix.1 (by simpa using hs)).trans (List.take_prefix n body)
    simpa using hbody.closed_le start.reverse hprefix
  obtain ⟨inner, hopen, hcount⟩ := openScopes_append (l := i :: before.reverse) hle
  rw [openScopes_opens hi, List.length_reverse] at hopen
  refine ⟨inner, i, ?_, ?_⟩
  · rw [List.take_length_add_append, List.take_succ_cons, List.take_append_of_le_length hn,
      List.take_left, ← hopen]
    simp
  · intro hb
    have hall : body.take n = body := List.take_of_length_le (by omega)
    rw [hall, opened_reverse, closed_reverse, hbody.closed_eq] at hcount
    exact List.length_eq_zero_iff.1 (by omega)

/-- A scope is open from the instruction that opens it to the one that closes it. -/
theorem ClosedAt.isOpen_take_iff {code : List Instruction} {a b c : Nat} (h : ClosedAt code a c) :
    IsOpen (code.take b).reverse a ↔ a < b ∧ b ≤ c := by
  constructor
  · intro hopen
    have hab := hopen.lt_length
    rw [List.length_reverse, List.length_take] at hab
    refine ⟨by omega, ?_⟩
    -- were it still open later, then so also right after the instruction that closes it
    by_contra hcb
    obtain ⟨more, hmore⟩ : code.take (c + 1) <+: code.take b :=
      List.take_prefix_take_left (by omega)
    obtain ⟨inner, i, hinner, hnil⟩ := h.openScopes_take h.lt (Nat.le_refl c)
    have hclosing := h.closing
    obtain ⟨hlt, -⟩ := List.getElem?_eq_some_iff.1 hclosing
    have hac := h.lt
    rw [← hmore, List.reverse_append] at hopen
    have hafter := hopen.of_append (by rw [List.length_reverse, List.length_take]; omega)
    obtain ⟨x, hx⟩ := hafter
    rw [List.take_add_one, hclosing, Option.toList_some, List.reverse_append,
      List.reverse_singleton, List.singleton_append, openScopes_close, hinner, hnil rfl] at hx
    have hbefore : IsOpen (code.take a).reverse a := ⟨x, hx⟩
    have := hbefore.lt_length
    rw [List.length_reverse, List.length_take] at this
    omega
  · rintro ⟨hab, hbc⟩
    obtain ⟨inner, i, hopen, -⟩ := h.openScopes_take hab hbc
    exact ⟨i, by simp [hopen]⟩

/-- Where the scopes stop makes no difference to which of them are open. -/
theorem isOpen_map_withStop (l : List Instruction) (n a : Nat) :
    IsOpen (l.map (·.withStop n)) a ↔ IsOpen l a := by
  rw [IsOpen, openScopes_map_withStop]
  constructor
  · rintro ⟨x, hx⟩
    obtain ⟨y, hy, he⟩ := List.mem_map.1 hx
    exact ⟨y.2, by rwa [← (Prod.mk.inj he).1]⟩
  · rintro ⟨x, hx⟩
    exact ⟨x.withStop n, List.mem_map.2 ⟨_, hx, rfl⟩⟩

end Offside
