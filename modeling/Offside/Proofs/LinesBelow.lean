import Offside.Proofs.LayoutContext
import Offside.Proofs.SourceLines

/-!
# A line and the lines below it

The program of a source is put together from that of its first line and those of the lines below it.
If the first line is an entry of its own, and no deeper line follows it, the program of the other
lines follows the entry (`Program.ofTokens_of_leaf`). If it opens a scope, the deeper lines right
below it are the body of the scope, and their program is the one that they have alone; the program
of the lines after them follows the scope (`Program.ofTokens_of_control`). The programs are put
together as trees, and the tree of a program holds all of it (`Program.codeAll_tree`).
-/

namespace Offside

/-! ## Limits -/

/-- The limit that `maxDepth` stands for. -/
def scopeLimit (maxDepth : Int) : Int := if maxDepth = 0 then defaultMaxDepth else maxDepth

/-- The limit that is left inside of a scope. It is negative where there is no room for another
scope, since zero stands for the default. -/
def limitWithin (maxDepth : Int) : Int :=
  if scopeLimit maxDepth = 1 then -1 else scopeLimit maxDepth - 1

theorem scopeLimit_pos {maxDepth : Int} (h : 0 ≤ maxDepth) : 0 < scopeLimit maxDepth := by
  unfold scopeLimit
  split
  · decide
  · omega

theorem Layout.Context.matches_limitWithin {c : Context} (hc : c.scopes = 1) (maxDepth : Int) :
    c.Matches (scopeLimit (limitWithin maxDepth)) (scopeLimit maxDepth) := by
  intro n
  rw [hc, limitWithin]
  generalize scopeLimit maxDepth = limit
  split
  · rw [scopeLimit, if_neg (by decide)]
    omega
  · rw [scopeLimit, if_neg (by omega)]
    omega

theorem Layout.Context.matches_self {c : Context} (hc : c.scopes = 0) (limit : Int) :
    c.Matches limit limit := by
  intro n
  rw [hc, Nat.add_zero]

/-! ## Programs and their trees -/

namespace Program

/-- The program of a list of instructions. -/
def ofInstructions (contextType : Text) (l : List Instruction) : Program where
  contextType
  code := (matchScopes 0 l).1.toArray

/-- The tree of a program. -/
def tree (p : Program) : List Node := (Node.ofCode? p.code.toList).getD []

theorem ofInstructions_of_gather (contextType : Text) {l : List Instruction} {ns : List Node}
    (h : Node.gather l = some (ns, [])) :
    ofInstructions contextType l = { contextType, code := (Node.codeAll 0 ns).toArray } := by
  rw [ofInstructions, Node.matchScopes_of_gather h]
  rfl

theorem gather_of_balanced (contextType : Text) {l : List Instruction} (h : Balanced l) :
    Node.gather l = some ((ofInstructions contextType l).tree, []) := by
  obtain ⟨ns, hns, -⟩ := Node.matchScopes_eq_codeAll h
  have htree : (ofInstructions contextType l).tree = ns := by
    show (Node.ofCode? (matchScopes 0 l).1).getD [] = ns
    rw [Node.ofCode?_matchScopes, hns]
    rfl
  rw [htree]
  unfold Node.ofCode? at hns
  split at hns
  · rename_i ms hg
    rw [hg, Option.some.inj hns]
  · cases hns

end Program

/-! ## Reading the lines below -/

namespace Layout

theorem readDoctype_of_lineEnd {ts : List Token} (h : LineEnd ts) :
    readDoctype { rest := ts } = .ok { rest := ts } := by
  rcases h with rfl | ⟨t, ts, rfl, ht⟩
  · rfl
  · show (if t.kind ≠ .doctypeMark then _ else _) = _
    rw [if_pos (by simp [ht])]

theorem balanced_of_readAll {limit : Int} {stop : Location} {ts : List Token}
    {l : List Instruction} (h : readAll limit stop { rest := ts } = .ok l) : Balanced l := by
  obtain ⟨s, hs, rfl⟩ := map_eq_ok.1 h
  have hstart : Sound limit { rest := ts } := ⟨.nil, .nil, rfl⟩
  exact (hstart.readLines hs).balanced

/-- On the tokens of lines no reader runs out of tokens. -/
theorem readAll_lexLines_ne {file : Text} {line offset : Nat} {lines : List Text}
    (hline : line ≠ 0) (limit : Int) (stop pos : Location) :
    readAll limit stop { rest := lexLines file line offset none lines } ≠
      .error ⟨.unexpectedEnd, pos⟩ := by
  have hsheet : IsSheet none (lexLines file line offset none lines) (markupRows line none lines) :=
    lexLines_sheet file offset none fun h => absurd h hline
  obtain ⟨raws, ls, hlex, hraws, hchain, -⟩ := hsheet
  have hraws : raws = [] := hraws
  rw [hraws, List.nil_append] at hlex
  have hgives : Reading.Gives (fun _ => True) (ls.flatMap (·.tokens))
      (readLines limit stop { rest := ls.flatMap (·.tokens) }) :=
    readLines_of_sheet (P := fun _ _ => True) (fun _ _ _ _ _ _ _ _ => trivial) hchain rfl trivial
  intro he
  rw [hlex, readAll] at he
  cases hr : readLines limit stop { rest := ls.flatMap (·.tokens) } with
  | ok s =>
    rw [hr] at he
    cases he
  | error e =>
    rw [hr] at he hgives
    cases he
    exact absurd hgives.1 (by simp)

/-- The first line is read, and then the others. -/
theorem readAll_of_line {limit : Int} {stop : Location} {indent : Token} {ts : List Token}
    {s : Layout} (hi : indent.kind = .indent) (hle : s.rest.length ≤ ts.length)
    (h : readBody limit stop { rest := ts, pending := [⟨indent.depth, false⟩] } = .ok s) :
    readAll limit stop { rest := indent :: ts } = s.readAll limit stop := by
  have hindent : readIndent { rest := indent :: ts } =
      { rest := ts, pending := [⟨indent.depth, false⟩] } := readIndent_of_indent rfl hi
  rw [readAll, readAll, readLines_cons rfl, readLine_eq_readBody, hindent, h]
  show Except.map _ (if s.rest.length < (indent :: ts).length then _ else _) = _
  rw [if_pos (by rw [List.length_cons]; omega)]

end Layout

namespace Program

theorem ofTokens_eq_readAll {tokens : List Token} (h : LineEnd tokens) (contextType : Text)
    (maxDepth : Int) :
    ofTokens contextType maxDepth tokens =
      (Layout.readAll (scopeLimit maxDepth) (Layout.endOf tokens) { rest := tokens }).map
        (ofInstructions contextType) := by
  unfold ofTokens layOut
  rw [Layout.readDoctype_of_lineEnd h, Layout.readAll]
  show Except.map _ (Layout.readLines (scopeLimit maxDepth) _ _ >>= _) = _
  cases Layout.readLines (scopeLimit maxDepth) (Layout.endOf tokens) { rest := tokens } <;> rfl

theorem ofTokens_nil (contextType : Text) (maxDepth : Int) :
    ofTokens contextType maxDepth [] = .ok { contextType, code := #[] } := by
  rw [ofTokens_eq_readAll (.inl rfl), Layout.readAll, Layout.readLines_nil rfl]
  rfl

/-- The tree of a program holds all of it. -/
theorem codeAll_tree {contextType : Text} {maxDepth : Int} {tokens : List Token} {p : Program}
    (h : ofTokens contextType maxDepth tokens = .ok p) : Node.codeAll 0 p.tree = p.code.toList := by
  obtain ⟨-, nodes, -, -, hnodes, hcode⟩ := ofTokens_ok h
  rw [tree, hnodes]
  exact hcode

/-- The program of the lines that stand below the lines `above`. -/
def ofLinesBelow (file contextType : Text) (maxDepth : Int) (above lines : List Text) :
    Reading Program :=
  ofTokens contextType maxDepth
    (lexLines file above.length (above.flatMap (· ++ ['\n'])).length none lines)

theorem ofLinesBelow_cons (file contextType : Text) (maxDepth : Int) (l : Text)
    (above lines : List Text) :
    ofLinesBelow file contextType maxDepth (l :: above) lines =
      ofTokens contextType maxDepth (lexLines file (1 + above.length)
        (l.length + 1 + (above.flatMap (· ++ ['\n'])).length) none lines) := by
  rw [ofLinesBelow, List.length_cons, List.flatMap_cons, List.length_append, List.length_append,
    Nat.add_comm above.length]
  rfl

section Line

variable {file contextType : Text} {maxDepth maxDepth' : Int} {indent : Token} {us : List Token}
  {n m offset offset' : Nat} {inner after : List Text}

/-- The program of a line with lines below it, the first of which may belong to it. What the line
leaves open stands around these; they have the program that they have alone, and so have the lines
after them. -/
theorem ofTokens_of_line {c : Layout.Context} {nodes : List Node → List Node → List Node}
    (hi : indent.kind = .indent) (hn : n ≠ 0) (hm : m ≠ 0)
    (hc : c.after = lexLines file m offset' none after)
    (hlimit : c.Matches (scopeLimit maxDepth') (scopeLimit maxDepth))
    (hinner : ∀ t ∈ lexLines file n offset none inner, t.kind = .indent → c.Fits t.depth)
    (hafter : ∀ p ∈ c.around, Layout.NotDeeper p.depth c.after)
    (hbody : ∀ stop, Layout.readBody (scopeLimit maxDepth) stop {
        rest := us ++ (lexLines file n offset none inner ++ c.after)
        pending := [⟨indent.depth, false⟩] } =
      .ok (c.put { rest := lexLines file n offset none inner }))
    (hnodes : ∀ {l₁ l₂ ns₁ ns₂}, Node.gather l₁ = some (ns₁, []) →
      Node.gather l₂ = some (ns₂, []) →
      Node.gather (c.before.reverse ++ l₁ ++ List.replicate c.scopes .close ++ l₂) =
        some (nodes ns₁ ns₂, [])) :
    ofTokens contextType maxDepth
        (indent :: (us ++ (lexLines file n offset none inner ++ c.after))) =
      ofTokens contextType maxDepth' (lexLines file n offset none inner) >>= fun p =>
        (ofTokens contextType maxDepth c.after).map fun q =>
          { contextType, code := (Node.codeAll 0 (nodes p.tree q.tree)).toArray } := by
  have hlines : LineEnd (lexLines file n offset none inner) :=
    lineEnd_lexLines file offset none inner hn
  have hend : LineEnd c.after := hc ▸ lineEnd_lexLines file offset' none after hm
  have hholds : c.Holds { rest := lexLines file n offset none inner } := by
    refine ⟨by simp, hinner, .inr ?_⟩
    rcases hlines with he | ⟨t, ts, he, ht⟩
    · simp [he]
    · simpa [he] using ht
  have hall := fun stop => @Layout.readAll_put c { rest := lexLines file n offset none inner }
    (scopeLimit maxDepth') (scopeLimit maxDepth) (Layout.endOf (lexLines file n offset none inner))
    (Layout.endOf c.after) stop hlimit hholds hafter hend (Layout.readAll_lexLines_ne hn _ _)
    (hc ▸ Layout.readAll_lexLines_ne hm _ _)
  rw [ofTokens_eq_readAll (.inr ⟨indent, _, rfl, hi⟩), ofTokens_eq_readAll hlines,
    ofTokens_eq_readAll hend, Layout.readAll_of_line hi (by simp [Layout.Context.put]) (hbody _),
    hall]
  cases h₁ : Layout.readAll (scopeLimit maxDepth')
      (Layout.endOf (lexLines file n offset none inner))
      { rest := lexLines file n offset none inner } with
  | error e => rfl
  | ok l₁ =>
    cases h₂ : Layout.readAll (scopeLimit maxDepth) (Layout.endOf c.after) { rest := c.after } with
    | error e => rfl
    | ok l₂ =>
      have hgather := hnodes (gather_of_balanced contextType (Layout.balanced_of_readAll h₁))
        (gather_of_balanced contextType (Layout.balanced_of_readAll h₂))
      exact congrArg Except.ok (ofInstructions_of_gather contextType hgather)

/-- A line that is an entry of its own, with no deeper line below it, comes before the program of
the lines below. -/
theorem ofTokens_of_leaf {leaf : Instruction} {node : Node} (hnode : node.code 0 = [leaf])
    (hi : indent.kind = .indent) (hn : n ≠ 0) (hafter : NextShallow indent.depth after)
    (hbody : ∀ limit stop, Layout.readBody limit stop {
        rest := us ++ lexLines file n offset none after
        pending := [⟨indent.depth, false⟩] } =
      .ok {
        rest := lexLines file n offset none after
        emitted := [leaf]
        pending := [⟨indent.depth, false⟩] }) :
    ofTokens contextType maxDepth (indent :: (us ++ lexLines file n offset none after)) =
      (ofTokens contextType maxDepth (lexLines file n offset none after)).map fun p =>
        { contextType, code := (Node.codeAll 0 (node :: p.tree)).toArray } := by
  let c : Layout.Context := ⟨[leaf], [⟨indent.depth, false⟩], lexLines file n offset none after⟩
  -- none of the lines below belongs to the line
  have hline := @ofTokens_of_line file contextType maxDepth maxDepth indent us n n offset offset []
    after c (fun ns₁ ns₂ => node :: (ns₁ ++ ns₂)) hi hn hn rfl
    (Layout.Context.matches_self rfl _) (by simp [lexLines])
    (by simpa [c] using notDeeper_lexLines hn hafter) (hbody _) ?_
  · rw [show lexLines file n offset none [] = [] from rfl, ofTokens_nil] at hline
    exact hline
  · intro l₁ l₂ ns₁ ns₂ h₁ h₂
    show Node.gather ([leaf] ++ l₁ ++ [] ++ l₂) = _
    rw [List.append_nil, List.append_assoc, ← hnode, Node.gather_code, Node.gather_append h₁, h₂]
    rfl

/-- A line that opens a control block has the deeper lines below it as the body of the block. -/
theorem ofTokens_of_control {pos : Location} {control : Control} (hi : indent.kind = .indent)
    (hn : n ≠ 0) (hm : m ≠ 0)
    (hinner : ∀ l ∈ inner, l.isBlank = true ∨ indent.depth < indentation l)
    (hafter : NextShallow indent.depth after)
    (hbody : ∀ stop, Layout.readBody (scopeLimit maxDepth) stop {
        rest := us ++ (lexLines file n offset none inner ++ lexLines file m offset' none after)
        pending := [⟨indent.depth, false⟩] } =
      .ok {
        rest := lexLines file n offset none inner ++ lexLines file m offset' none after
        emitted := [.openControl pos control indent.depth 0]
        pending := [⟨indent.depth, true⟩, ⟨indent.depth, false⟩] }) :
    ofTokens contextType maxDepth
        (indent ::
          (us ++ (lexLines file n offset none inner ++ lexLines file m offset' none after))) =
      ofTokens contextType (limitWithin maxDepth) (lexLines file n offset none inner) >>= fun p =>
        (ofTokens contextType maxDepth (lexLines file m offset' none after)).map fun q => {
          contextType
          code := (Node.codeAll 0
            (.control pos control indent.depth p.tree :: q.tree)).toArray } := by
  let c : Layout.Context := ⟨[.openControl pos control indent.depth 0],
    [⟨indent.depth, true⟩, ⟨indent.depth, false⟩], lexLines file m offset' none after⟩
  have hshallow : Layout.NotDeeper indent.depth c.after := notDeeper_lexLines hm hafter
  have hfits : ∀ t ∈ lexLines file n offset none inner, t.kind = .indent → c.Fits t.depth := by
    intro t ht hk
    obtain ⟨l, hl, hblank, hd⟩ := exists_line_of_indent hn ht hk
    have hlt : indent.depth < indentation l := by simpa [hblank] using hinner l hl
    rw [hd]
    refine ⟨by simpa [c] using hlt, ?_⟩
    exact hshallow.imp id fun ⟨u, us, he, hu, hle⟩ => ⟨u, us, he, hu, by omega⟩
  have hline := @ofTokens_of_line file contextType maxDepth (limitWithin maxDepth) indent us n m
    offset offset' inner after c (fun ns₁ ns₂ => .control pos control indent.depth ns₁ :: ns₂)
    hi hn hm rfl (Layout.Context.matches_limitWithin rfl maxDepth) hfits
    (by simpa [c] using hshallow) hbody ?_
  · exact hline
  · intro l₁ l₂ ns₁ ns₂ h₁ h₂
    show Node.gather (.openControl pos control indent.depth 0 :: (l₁ ++ [.close] ++ l₂)) = _
    rw [List.append_assoc, List.singleton_append, Node.gather, Node.gather_append h₁, Node.gather,
      h₂]
    simp [Node.place]

end Line
end Program
end Offside
