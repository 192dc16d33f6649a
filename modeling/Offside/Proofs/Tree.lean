import Offside.Proofs.Nesting

/-!
# The tree of a program

A balanced list of instructions is the flat form of a tree: the instructions between an opening
instruction and the one that closes it are the children of a node. `Node.ofCode?` finds the tree
by matching opening and closing instructions, whatever stops they carry; `Node.codeAll` writes it
out flat again, with the stops that belong there. For a balanced list the two fit together: the
list has a tree, and matching its scopes gives that tree written out (`matchScopes_eq_codeAll`).
-/

namespace Offside

/-- A node of the tree: an instruction that stands for itself, or a scope with what it holds. -/
inductive Node where
  | literal (pos : Location) (text : Text) (depth : Nat)
  | output (pos : Location) (value : Fragments) (depth : Nat)
  | exec (pos : Location) (source : Text)
  | filtered (pos : Location) (filter text : Text) (depth : Nat)
  | tag (pos : Location) (opening closing : Fragments) (depth : Nat) (body : List Node)
  | control (pos : Location) (head : Control) (depth : Nat) (body : List Node)
deriving Repr

namespace Node

/-! ## Writing a tree out -/

mutual

/-- The number of instructions of a node. -/
def size : Node → Nat
  | literal .. => 1
  | output .. => 1
  | exec .. => 1
  | filtered .. => 1
  | tag _ _ _ _ body => sizeAll body + 2
  | control _ _ _ body => sizeAll body + 2

/-- The number of instructions of a row of nodes. -/
def sizeAll : List Node → Nat
  | [] => 0
  | n :: ns => n.size + sizeAll ns

end

mutual

/-- The instructions of a node, the first of which has index `i`. -/
def code (i : Nat) : Node → List Instruction
  | literal pos text depth => [.literal pos text depth]
  | output pos value depth => [.output pos value depth]
  | exec pos source => [.exec pos source]
  | filtered pos filter text depth => [.filtered pos filter text depth]
  | tag pos opening closing depth body =>
    .openTag pos opening closing depth (i + 1 + sizeAll body) ::
      (codeAll (i + 1) body ++ [.close])
  | control pos head depth body =>
    .openControl pos head depth (i + 1 + sizeAll body) :: (codeAll (i + 1) body ++ [.close])

/-- The instructions of a row of nodes, the first of which has index `i`. -/
def codeAll (i : Nat) : List Node → List Instruction
  | [] => []
  | n :: ns => n.code i ++ codeAll (i + n.size) ns

end

mutual

theorem length_code (i : Nat) (n : Node) : (n.code i).length = n.size := by
  cases n with
  | literal | output | exec | filtered => rfl
  | tag pos opening closing depth body =>
    simp [code, size, length_codeAll (i + 1) body]
  | control pos head depth body =>
    simp [code, size, length_codeAll (i + 1) body]
termination_by sizeOf n

theorem length_codeAll (i : Nat) (ns : List Node) : (codeAll i ns).length = sizeAll ns := by
  cases ns with
  | nil => rfl
  | cons n ns =>
    simp [codeAll, sizeAll, length_code i n, length_codeAll (i + n.size) ns]
termination_by sizeOf ns

end

mutual

theorem balanced_code (i : Nat) (n : Node) : Balanced (n.code i) := by
  cases n with
  | literal | output | exec | filtered => exact Balanced.leaf rfl
  | tag pos opening closing depth body =>
    exact Balanced.scope rfl (balanced_codeAll (i + 1) body)
  | control pos head depth body =>
    exact Balanced.scope rfl (balanced_codeAll (i + 1) body)
termination_by sizeOf n

theorem balanced_codeAll (i : Nat) (ns : List Node) : Balanced (codeAll i ns) := by
  cases ns with
  | nil => exact Balanced.nil
  | cons n ns => exact (balanced_code i n).append (balanced_codeAll (i + n.size) ns)
termination_by sizeOf ns

end

/-! ## Stops

In a list that starts at index `i` the stops are indices from `i` on. -/

/-- Every opening instruction of a list that starts at index `i` carries the index of the
instruction that closes it. -/
def StopsRight (i : Nat) (l : List Instruction) : Prop :=
  ∀ a x, l[a]? = some x → x.opens = true → ∃ c, x.stop? = some (i + c) ∧ ClosedAt l a c

theorem StopsRight.append {i : Nat} {l m : List Instruction} (hl : StopsRight i l)
    (hm : StopsRight (i + l.length) m) : StopsRight i (l ++ m) := by
  intro a x hx ho
  by_cases ha : a < l.length
  · rw [List.getElem?_append_left ha] at hx
    obtain ⟨c, hc, hclosed⟩ := hl a x hx ho
    exact ⟨c, hc, hclosed.append_right m⟩
  · rw [List.getElem?_append_right (by omega)] at hx
    obtain ⟨c, hc, hclosed⟩ := hm (a - l.length) x hx ho
    have := hclosed.append_left l
    rw [show l.length + (a - l.length) = a by omega] at this
    exact ⟨l.length + c, by rw [hc, Nat.add_assoc], this⟩

theorem StopsRight.leaf {i : Nat} {x : Instruction} (hx : x.isLeaf = true) :
    StopsRight i [x] := by
  intro a y hy ho
  rw [List.mem_singleton.1 (List.mem_of_getElem? hy), (Instruction.isLeaf_iff.1 hx).1] at ho
  cases ho

theorem StopsRight.scope {i : Nat} {x : Instruction} {body : List Instruction}
    (hx : x.opens = true) (hstop : x.stop? = some (i + 1 + body.length)) (hb : Balanced body)
    (hs : StopsRight (i + 1) body) : StopsRight i (x :: (body ++ [.close])) := by
  intro a y hy ho
  match a with
  | 0 =>
    cases Option.some.inj hy
    exact ⟨1 + body.length, by rw [hstop, Nat.add_assoc],
      [], x, body, [], rfl, hx, hb, rfl, by omega⟩
  | a + 1 =>
    rw [List.getElem?_cons_succ] at hy
    by_cases ha : a < body.length
    · rw [List.getElem?_append_left ha] at hy
      obtain ⟨c, hc, hclosed⟩ := hs a y hy ho
      have := (hclosed.append_right [.close]).append_left [x]
      rw [show [x].length + a = a + 1 by simp; omega,
        show [x].length + c = c + 1 by simp; omega] at this
      exact ⟨c + 1, by rw [hc]; congr 1; omega, this⟩
    · rw [List.getElem?_append_right (by omega)] at hy
      cases List.mem_singleton.1 (List.mem_of_getElem? hy)
      cases ho

mutual

theorem stopsRight_code (i : Nat) (n : Node) : StopsRight i (n.code i) := by
  cases n with
  | literal | output | exec | filtered => exact StopsRight.leaf rfl
  | tag pos opening closing depth body =>
    exact StopsRight.scope rfl (by rw [length_codeAll]; rfl) (balanced_codeAll (i + 1) body)
      (stopsRight_codeAll (i + 1) body)
  | control pos head depth body =>
    exact StopsRight.scope rfl (by rw [length_codeAll]; rfl) (balanced_codeAll (i + 1) body)
      (stopsRight_codeAll (i + 1) body)
termination_by sizeOf n

theorem stopsRight_codeAll (i : Nat) (ns : List Node) : StopsRight i (codeAll i ns) := by
  cases ns with
  | nil =>
    intro a x hx
    cases hx
  | cons n ns =>
    refine (stopsRight_code i n).append ?_
    rw [length_code]
    exact stopsRight_codeAll (i + n.size) ns
termination_by sizeOf ns

end

/-! ## Reading a tree back -/

/-- Puts an instruction before rows of nodes: the row that it stands in, and the rows that follow
the closing instructions of the scopes around it. An opening instruction that nothing closes has
no place. -/
def place : Instruction → List Node × List (List Node) → Option (List Node × List (List Node))
  | .literal pos text depth, (ns, outer) => some (literal pos text depth :: ns, outer)
  | .output pos value depth, (ns, outer) => some (output pos value depth :: ns, outer)
  | .exec pos source, (ns, outer) => some (exec pos source :: ns, outer)
  | .filtered pos filter text depth, (ns, outer) =>
    some (filtered pos filter text depth :: ns, outer)
  | .openTag pos opening closing depth _, (body, ns :: outer) =>
    some (tag pos opening closing depth body :: ns, outer)
  | .openControl pos head depth _, (body, ns :: outer) =>
    some (control pos head depth body :: ns, outer)
  | .openTag .., (_, []) => none
  | .openControl .., (_, []) => none
  | .close, (ns, outer) => some ([], ns :: outer)

/-- The nodes of a list of instructions, read from its end: the row up to the first closing
instruction that closes nothing in the list, and the rows that follow each of these. -/
def gather : List Instruction → Option (List Node × List (List Node))
  | [] => some ([], [])
  | i :: rest => (gather rest).bind (place i)

/-- The tree of a program: the nodes that matching its opening and closing instructions gives, if
each has its partner. -/
def ofCode? (code : List Instruction) : Option (List Node) :=
  match gather code with
  | some (ns, []) => some ns
  | _ => none

mutual

theorem gather_code (i : Nat) (n : Node) (l : List Instruction) :
    gather (n.code i ++ l) = (gather l).map fun r => (n :: r.1, r.2) := by
  cases n with
  | literal | output | exec | filtered =>
    cases hl : gather l <;> simp [code, gather, place, hl]
  | tag pos opening closing depth body =>
    have hbody := gather_codeAll (i + 1) body (.close :: l)
    cases hl : gather l <;> simp [code, gather, place, hl, hbody]
  | control pos head depth body =>
    have hbody := gather_codeAll (i + 1) body (.close :: l)
    cases hl : gather l <;> simp [code, gather, place, hl, hbody]
termination_by sizeOf n

/-- Nodes that are written out are found again, whatever follows them. -/
theorem gather_codeAll (i : Nat) (ns : List Node) (l : List Instruction) :
    gather (codeAll i ns ++ l) = (gather l).map fun r => (ns ++ r.1, r.2) := by
  cases ns with
  | nil => cases hl : gather l <;> simp [codeAll, hl]
  | cons n ns =>
    have hns := gather_codeAll (i + n.size) ns l
    have hn := gather_code i n (codeAll (i + n.size) ns ++ l)
    cases hl : gather l <;> simp [codeAll, hl, hn, hns]
termination_by sizeOf ns

end

/-- Rows of nodes with a closing instruction between each two, written out from index `i` on. -/
def codeRows (i : Nat) (ns : List Node) : List (List Node) → List Instruction
  | [] => codeAll i ns
  | next :: outer => codeAll i ns ++ .close :: codeRows (i + sizeAll ns + 1) next outer

/-- The indices of the closing instructions between the rows. -/
def closers (i : Nat) (ns : List Node) : List (List Node) → List Nat
  | [] => []
  | next :: outer => (i + sizeAll ns) :: closers (i + sizeAll ns + 1) next outer

theorem codeRows_cons (i : Nat) (n : Node) (ns : List Node) (outer : List (List Node)) :
    codeRows i (n :: ns) outer = n.code i ++ codeRows (i + n.size) ns outer := by
  cases outer with
  | nil => rfl
  | cons next outer => simp [codeRows, codeAll, sizeAll, Nat.add_assoc]

theorem closers_cons (i : Nat) (n : Node) (ns : List Node) (outer : List (List Node)) :
    closers i (n :: ns) outer = closers (i + n.size) ns outer := by
  cases outer with
  | nil => rfl
  | cons next outer => simp [closers, sizeAll, Nat.add_assoc]

/-- Matching the scopes of a list writes its nodes out. -/
theorem matchScopes_of_gather {l : List Instruction} {ns : List Node} {outer : List (List Node)}
    (h : gather l = some (ns, outer)) (i : Nat) :
    matchScopes i l = (codeRows i ns outer, closers i ns outer) := by
  induction l generalizing ns outer i with
  | nil =>
    cases h
    rfl
  | cons x l ih =>
    obtain ⟨⟨ms, rows⟩, hg, hx⟩ := Option.bind_eq_some_iff.1 h
    have hl := ih hg (i + 1)
    cases x with
    | literal | output | exec | filtered =>
      cases hx
      rw [codeRows_cons, closers_cons]
      exact matchScopes_leaf rfl hl
    | openTag | openControl =>
      cases rows with
      | nil => cases hx
      | cons next rows =>
        cases hx
        rw [matchScopes_opens rfl hl, codeRows_cons, closers_cons, size, code,
          show i + (sizeAll ms + 2) = i + 1 + sizeAll ms + 1 by omega]
        simp [Instruction.withStop, codeRows]
    | close =>
      cases hx
      exact matchScopes_close hl

/-- A list gathers if each of its ends closes at least what it opens; what is left over are the
closing instructions that close nothing. -/
theorem exists_gather {l : List Instruction}
    (h : ∀ rest, rest <:+ l → opened rest ≤ closed rest) :
    ∃ ns outer, gather l = some (ns, outer) ∧ opened l + outer.length = closed l := by
  induction l with
  | nil => exact ⟨[], [], rfl, rfl⟩
  | cons x l ih =>
    obtain ⟨ns, outer, hg, hlen⟩ := ih fun rest hr => h rest (hr.trans (List.suffix_cons x l))
    have hx := h (x :: l) List.suffix_rfl
    rw [opened_cons, closed_cons] at hx ⊢
    rw [gather, hg, Option.bind_some]
    cases x with
    | literal | output | exec | filtered => exact ⟨_, outer, rfl, hlen⟩
    | openTag | openControl =>
      simp only [Instruction.opens, Instruction.closes, if_true, Bool.false_eq_true,
        if_false] at hx ⊢
      cases outer with
      | nil =>
        -- the list would open one scope more than it closes
        simp only [List.length_nil] at hlen
        omega
      | cons next outer =>
        rw [List.length_cons] at hlen
        exact ⟨_, outer, rfl, by omega⟩
    | close =>
      simp only [Instruction.opens, Instruction.closes, if_true, Bool.false_eq_true, if_false]
      exact ⟨[], ns :: outer, rfl, by rw [List.length_cons]; omega⟩

/-- A balanced list has a tree, and matching its scopes writes that tree out. -/
theorem matchScopes_eq_codeAll {l : List Instruction} (h : Balanced l) :
    ∃ ns, ofCode? l = some ns ∧ matchScopes 0 l = (codeAll 0 ns, []) := by
  have hends : ∀ rest, rest <:+ l → opened rest ≤ closed rest := by
    rintro rest ⟨start, rfl⟩
    have hle := h.closed_le start (List.prefix_append start rest)
    have heq := h.closed_eq
    rw [closed_append, opened_append] at heq
    omega
  obtain ⟨ns, outer, hg, hlen⟩ := exists_gather hends
  have hnil : outer = [] := by
    rw [← List.length_eq_zero_iff]
    have := h.closed_eq
    omega
  subst hnil
  exact ⟨ns, by rw [ofCode?, hg], matchScopes_of_gather hg 0⟩

/-- The stops that instructions carry do not matter for their tree. -/
theorem gather_map_withStop (n : Nat) (l : List Instruction) :
    gather (l.map (·.withStop n)) = gather l := by
  induction l with
  | nil => rfl
  | cons x l ih =>
    have hx : place (x.withStop n) = place x := by
      funext ⟨ns, outer⟩
      cases x <;> cases outer <;> rfl
    rw [List.map_cons, gather, gather, ih, hx]

/-- A list whose scopes are all closed adds its nodes to what follows it. -/
theorem gather_append {l : List Instruction} {ns : List Node} (h : gather l = some (ns, []))
    (m : List Instruction) : gather (l ++ m) = (gather m).map fun r => (ns ++ r.1, r.2) := by
  have hl : (codeAll 0 ns).map (·.withStop 0) = l.map (·.withStop 0) := by
    rw [← map_withStop_matchScopes 0 0 l, matchScopes_of_gather h 0]
    rfl
  rw [← gather_map_withStop 0, List.map_append, ← hl, ← List.map_append, gather_map_withStop,
    gather_codeAll]

theorem ofCode?_matchScopes (i : Nat) (l : List Instruction) :
    ofCode? (matchScopes i l).1 = ofCode? l := by
  rw [ofCode?, ofCode?, ← gather_map_withStop 0, map_withStop_matchScopes, gather_map_withStop]

end Node
end Offside
