import Mathlib.Data.List.Forall2
import Offside.Proofs.FilterUses
import Offside.Proofs.Indentation
import Offside.Proofs.LineInstructions

/-!
# Tags with their output on one line

Joining lines of fragments changes nothing in what they render to: the joined line renders if all
of them do, to their texts one after the other, and fails as the first fragment that fails
(`Renderer.line_join`, `Renderer.line_eq_error_iff`).

A line of markup that has a tag with output behind it (`OneLiner`) is one instruction of the
program, with the fragments of the tag and of the output joined. Main statement: running it adds one
entry, which is the opening text of the tag, what the output renders to by itself, and the closing
text (`Program.one_liner_keeps_content`). To find the instruction, the program is followed back to
the lines that made it (`MadeBy`).
-/

namespace Offside

/-! ## Rendering joined lines -/

namespace Renderer

variable (r : Renderer) (env : Env)

/-- The texts of several lines one after the other. The first line that fails is the one that
counts. -/
def lines : List Fragments → Except Failure Text
  | [] => .ok []
  | v :: vs => do
    let t ← r.line env v
    let ts ← lines vs
    .ok (t ++ ts)

theorem line_append (v w : Fragments) :
    r.line env (v ++ w) = (r.line env v >>= fun t => r.line env w >>= fun u => .ok (t ++ u)) := by
  induction v with
  | nil =>
    show r.line env w = (r.line env w >>= fun u => .ok u)
    cases r.line env w <;> rfl
  | cons f v ih =>
    rw [List.cons_append, line, line, ih]
    cases r.fragment env f with
    | error e => rfl
    | ok t =>
      cases r.line env v with
      | error e => rfl
      | ok ts =>
        cases r.line env w with
        | error e => rfl
        | ok us => exact congrArg Except.ok (List.append_assoc t ts us).symm

theorem line_literal_cons (t : Text) (v : Fragments) :
    r.line env (.literal t :: v) = (r.line env v).map (t ++ ·) := by
  rw [line]
  cases r.line env v <;> rfl

theorem line_merge (v : Fragments) : r.line env v.merge = r.line env v := by
  fun_induction Fragments.merge v with
  | case1 => rfl
  | case2 a fs b gs hm ih =>
    rw [hm, line_literal_cons] at ih
    rw [line_literal_cons, line_literal_cons, ← ih]
    cases r.line env gs with
    | error e => rfl
    | ok t => exact congrArg Except.ok (List.append_assoc a b t)
  | case3 a fs hm ih => rw [line_literal_cons, line_literal_cons, ih]
  | case4 f fs hf ih => rw [line, line, ih]

theorem line_flatten (vs : List Fragments) : r.line env vs.flatten = r.lines env vs := by
  induction vs with
  | nil => rfl
  | cons v vs ih => rw [List.flatten_cons, line_append, ih, lines]

/-- Joined lines render as they do one after the other. -/
theorem line_join (vs : List Fragments) : r.line env (Fragments.join vs) = r.lines env vs := by
  rw [Fragments.join, line_merge, line_flatten]

theorem lines_eq_ok_iff (vs : List Fragments) (t : Text) :
    r.lines env vs = .ok t ↔
      ∃ ts, List.Forall₂ (fun v t => r.line env v = .ok t) vs ts ∧ t = ts.flatten := by
  induction vs generalizing t with
  | nil =>
    constructor
    · intro h
      cases h
      exact ⟨[], .nil, rfl⟩
    · rintro ⟨ts, h, rfl⟩
      cases h
      rfl
  | cons v vs ih =>
    constructor
    · intro h
      rw [lines] at h
      cases hv : r.line env v with
      | error e =>
        rw [hv] at h
        cases h
      | ok u =>
        cases hvs : r.lines env vs with
        | error e =>
          rw [hv, hvs] at h
          cases h
        | ok us =>
          rw [hv, hvs] at h
          cases h
          obtain ⟨ts, hts, rfl⟩ := (ih us).mp hvs
          exact ⟨u :: ts, .cons hv hts, rfl⟩
    · rintro ⟨ts, h, rfl⟩
      cases h with
      | @cons _ u _ ts hv hts =>
        rw [lines, hv, (ih ts.flatten).mpr ⟨ts, hts, rfl⟩]
        rfl

/-- A line fails as the first of its fragments that fails. -/
theorem line_eq_error_iff (v : Fragments) (e : Failure) :
    r.line env v = .error e ↔
      ∃ before f after, v = before ++ f :: after ∧
        (∀ g ∈ before, ∃ t, r.fragment env g = .ok t) ∧ r.fragment env f = .error e := by
  induction v with
  | nil =>
    refine iff_of_false (fun h => by cases h) ?_
    rintro ⟨before, f, after, h, -⟩
    cases before <;> cases h
  | cons f v ih =>
    rw [line]
    cases hf : r.fragment env f with
    | error e' =>
      constructor
      · intro h
        cases h
        exact ⟨[], f, v, rfl, by simp, hf⟩
      · rintro ⟨_ | ⟨g, before⟩, f', after, h, hbefore, hfail⟩
        · cases h
          rw [hf] at hfail
          cases hfail
          rfl
        · cases h
          obtain ⟨t, ht⟩ := hbefore f List.mem_cons_self
          rw [hf] at ht
          cases ht
    | ok t =>
      have hrest : (Except.ok t >>= fun t => r.line env v >>= fun ts => .ok (t ++ ts)) =
          Except.error e ↔ r.line env v = .error e := by
        cases r.line env v with
        | error e' => exact Iff.rfl
        | ok ts => exact iff_of_false (fun h => by cases h) (fun h => by cases h)
      rw [hrest, ih]
      constructor
      · rintro ⟨before, g, after, rfl, hbefore, hfail⟩
        refine ⟨f :: before, g, after, rfl, ?_, hfail⟩
        exact List.forall_mem_cons.mpr ⟨⟨t, hf⟩, hbefore⟩
      · rintro ⟨_ | ⟨g, before⟩, f', after, h, hbefore, hfail⟩
        · cases h
          rw [hf] at hfail
          cases hfail
        · cases h
          exact ⟨before, f', after, rfl, (List.forall_mem_cons.mp hbefore).2, hfail⟩

theorem line_of_isLiteral {v : Fragments} (h : v.isLiteral = true) :
    r.line env v = .ok v.describe := by
  induction v with
  | nil => rfl
  | cons f v ih =>
    rw [Fragments.isLiteral, List.all_cons, Bool.and_eq_true] at h
    cases f with
    | literal t =>
      rw [line_literal_cons, ih h.2]
      rfl
    | expression | filter => cases h.1

end Renderer

/-! ## Output by itself -/

namespace Layout

variable {limit : Int} {stop : Location} {d : Nat} {i : Instruction} {out : List Token}

theorem deeperThan_of_not_indent {ts : List Token} (h : ∀ t ∈ ts, t.kind ≠ .indent) (d : Nat) :
    deeperThan d ts = false := by
  cases ts with
  | nil => rfl
  | cons t ts =>
    have ht : (t.kind == .indent) = false := beq_eq_false_iff_ne.mpr (h t List.mem_cons_self)
    rw [deeperThan, ht, Bool.false_and]

/-- A filter takes all tokens that are left, if they are of its line. -/
theorem readFilter_of_last {s : Layout} {mark : Token} {ts : List Token} (alone : Bool)
    (hr : s.rest = mark :: ts) (hm : mark.kind = .filterMark) (hts : ∀ t ∈ ts, t.kind ≠ .indent) :
    s.readFilter alone = .ok (true, emit { s with rest := [] }
      (.filtered mark.start (filterName mark.contents) (ts.flatMap (·.contents)) s.depth)) := by
  have hnext : nextIsDeeper { s with rest := ts } = false := by
    rw [nextIsDeeper_eq]
    exact deeperThan_of_not_indent hts _
  have htake := takeWhile_of_lineEnd hts (.inl rfl)
  have hdrop := dropWhile_of_lineEnd hts (.inl rfl)
  rw [List.append_nil] at htake hdrop
  rw [readFilter_line hr hm (by rw [hnext, Bool.and_false]), htake, hdrop]

/-- A line that is no filter line and has no tag is left to the reader of output. -/
theorem readBody_of_head {s : Layout} {t : Token} {ts : List Token} {s' : Layout}
    (hr : s.rest = t :: ts) (ht : t.kind ∈ [.text, .commentMark, .outputMark, .silentMark])
    (h : s.readOutput limit stop = .ok (true, s')) : s.readBody limit stop = .ok s' := by
  have htag : s.readTag limit stop = .ok (false, s) := by
    refine readTag_eq_false ?_
    intro u us he
    rw [hr] at he
    cases he
    exact ⟨fun hk => by simp [hk] at ht, fun hk => by rcases hk with hk | hk <;> simp [hk] at ht⟩
  unfold readBody
  rw [readFilter_of_head hr fun hk => by simp [hk] at ht]
  show (s.readTag limit stop >>= _) = _
  rw [htag]
  show (s.readOutput limit stop >>= _) = _
  rw [h]
  rfl

/-- Output by itself, at the end of the tokens, makes its instruction. -/
theorem readBody_of_content {s : Layout} (h : Content s.depth false out i) (hr : s.rest = out) :
    s.readBody limit stop = .ok (emit { s with rest := [] } i) := by
  cases h with
  | @text t ht =>
    refine readBody_of_head hr (by simp [ht]) ?_
    unfold readOutput
    rw [hr]
    dsimp only
    rw [ht]
  | @comment mark c hm hc =>
    have htake : takeOne stop [.comment] [c] = .ok (c, []) := by
      rw [takeOne, if_pos (by simp [hc])]
    refine readBody_of_head hr (by simp [hm]) ?_
    unfold readOutput
    rw [hr]
    dsimp only
    rw [hm]
    dsimp only
    rw [htake]
    rfl
  | @value mark c hm hc _ =>
    refine readBody_of_head hr (by simp [hm]) ?_
    unfold readOutput readCode
    rw [hr]
    dsimp only
    rw [hm]
    dsimp only
    rw [readCodeBody_of_lineEnd hc (.inl rfl)]
    rfl
  | @filter mark ts hm hts =>
    exact readBody_of_filter_ok (readFilter_of_last true hr hm hts) (.inl rfl)

theorem Content.isLeaf {deeper : Bool} (h : Content d deeper out i) : i.isLeaf = true := by
  cases h with
  | text => exact Instruction.isLeaf_ofFragments ..
  | comment | value | filter => rfl

theorem Content.depth?_eq {deeper : Bool} (h : Content d deeper out i) : i.depth? = some d := by
  cases h with
  | text => exact Instruction.depth?_ofFragments ..
  | comment | value | filter => rfl

/-- What is put out is the same where no deeper line follows. -/
theorem Content.alone {deeper : Bool} (h : Content d deeper out i) : Content d false out i := by
  cases h with
  | text ht => exact .text ht
  | comment hm hc => exact .comment hm hc
  | value hm hc => exact .value hm hc rfl
  | filter hm hts => exact .filter hm hts

/-- The layout after a line that made one instruction and opened nothing. -/
def afterLine (d : Nat) (i : Instruction) : Layout where
  rest := []
  emitted := [i]
  pending := [⟨d, false⟩]

theorem readLines_of_content {indent : Token} (hindent : indent.kind = .indent)
    (h : Content indent.depth false out i) :
    readLines limit stop { rest := indent :: out } = .ok (afterLine indent.depth i) := by
  have hline : readLine limit stop { rest := indent :: out } =
      .ok (afterLine indent.depth i) := by
    rw [readLine_eq_readBody, readIndent_of_indent rfl hindent]
    exact readBody_of_content h rfl
  rw [readLines_cons rfl, hline]
  dsimp only [bind, Except.bind]
  rw [if_pos (by simp [afterLine])]
  exact readLines_nil rfl

end Layout

/-- A line with output and no tag is a program of one instruction. -/
theorem Program.ofTokens_of_content {indent : Token} {out : List Token} {i : Instruction}
    (hindent : indent.kind = .indent) (h : Layout.Content indent.depth false out i)
    (contextType : Text) (maxDepth : Int) :
    Program.ofTokens contextType maxDepth (indent :: out) = .ok ⟨contextType, #[i]⟩ := by
  have hdoctype : Layout.readDoctype { rest := indent :: out } = .ok { rest := indent :: out } := by
    unfold Layout.readDoctype
    dsimp only
    rw [if_pos (by rw [hindent]; simp)]
  have hclose : ((Layout.afterLine indent.depth i).closeTo 0).emitted = [i] := by
    simp [Layout.closeTo, Layout.closePending, Layout.afterLine]
  have hmatch : matchScopes 0 [i] = ([i], []) := matchScopes_leaf h.isLeaf rfl
  unfold Program.ofTokens layOut
  rw [hdoctype]
  dsimp only [bind, Except.bind]
  rw [Layout.readLines_of_content hindent h]
  dsimp only [Except.map]
  rw [hclose, List.reverse_singleton, hmatch]

/-! ## Running one instruction -/

/-- Adds an entry, unless its text is a failure. -/
def Output.entry (w : Output) (depth : Nat) : Except Failure Text → Output × Option Failure
  | .ok t => (w.line depth t, none)
  | .error e => (w, some e)

theorem Output.block_of_not_indent {w : Output} (h : w.indent = false) (depth : Nat) (t : Text) :
    w.block depth t = w.line depth t := by
  have hmargin : w.margin depth = [] := by rw [margin, h, if_neg Bool.false_ne_true]
  have hsame : Text.replace ['\n'] ['\n'] t = t := by
    induction t with
    | nil => rfl
    | cons c t ih =>
      rw [Text.replace_newline_cons, ih]
      split
      · rename_i hc
        rw [hc]
        rfl
      · rfl
  rw [block, line, hmargin, hsame]

namespace Renderer

variable {r : Renderer} {code : Array Instruction} {a d : Nat} {env : Env} {prior : Outcome}
  {w : Output}

theorem run_of_le {i stop : Nat} (h : stop ≤ i) : r.run code i stop env prior w = (w, none) := by
  rw [run, dif_neg (by omega)]

theorem run_output {pos : Location} {v : Fragments} (h : code[a]? = some (.output pos v d)) :
    r.run code a (a + 1) env prior w = w.entry d (r.line env v) := by
  obtain ⟨hlt, -⟩ := Array.getElem?_eq_some_iff.mp h
  rw [run, dif_pos ⟨Nat.lt_succ_self a, hlt⟩, h]
  dsimp only
  cases r.line env v with
  | error e => rfl
  | ok t => exact run_of_le (Nat.le_refl _)

theorem run_literal {pos : Location} {t : Text} (h : code[a]? = some (.literal pos t d)) :
    r.run code a (a + 1) env prior w = w.entry d (.ok t) := by
  obtain ⟨hlt, -⟩ := Array.getElem?_eq_some_iff.mp h
  rw [run, dif_pos ⟨Nat.lt_succ_self a, hlt⟩, h]
  exact run_of_le (Nat.le_refl _)

theorem run_ofFragments {pos : Location} {v : Fragments}
    (h : code[a]? = some (.ofFragments pos v d)) :
    r.run code a (a + 1) env prior w = w.entry d (r.line env v) := by
  unfold Instruction.ofFragments at h
  split at h
  · rename_i hliteral
    rw [run_literal h, line_of_isLiteral r env hliteral]
  · exact run_output h

theorem run_filtered {pos : Location} {filter t : Text}
    (h : code[a]? = some (.filtered pos filter t d)) :
    r.run code a (a + 1) env prior w = (w.block d (r.filters.apply filter t), none) := by
  obtain ⟨hlt, -⟩ := Array.getElem?_eq_some_iff.mp h
  rw [run, dif_pos ⟨Nat.lt_succ_self a, hlt⟩, h]
  exact run_of_le (Nat.le_refl _)

/-- A scope puts out its opening text, its body and its closing text. -/
theorem run_openTag {pos : Location} {opening closing : Fragments} {last : Nat}
    (h : code[a]? = some (.openTag pos opening closing d last)) (hlast : a ≤ last) :
    r.run code a (last + 1) env prior w =
      Sink.andThen (w.entry d (r.line env opening)) fun w =>
      Sink.andThen (r.run code (a + 1) last env .none w) fun w =>
      w.entry d (r.line env closing) := by
  obtain ⟨hlt, -⟩ := Array.getElem?_eq_some_iff.mp h
  rw [run, dif_pos ⟨Nat.lt_succ_of_le hlast, hlt⟩, h]
  dsimp only
  cases r.line env opening with
  | error e => rfl
  | ok t =>
    show _ = Sink.andThen (r.run code (a + 1) last env .none (w.line d t)) _
    dsimp only
    rcases r.run code (a + 1) last env .none (w.line d t) with ⟨w', _ | e⟩
    · show _ = w'.entry d (r.line env closing)
      dsimp only
      cases r.line env closing with
      | error e => rfl
      | ok t => exact run_of_le (by omega)
    · rfl

/-- Rendered by itself and without indentation, output puts out what its fragments render to. -/
theorem run_content {i : Instruction} {v : Fragments} (hv : Layout.contentOf? i = some v)
    (hd : i.depth? = some d) :
    r.run #[i] 0 1 env prior { indent := false } =
      Output.entry { indent := false } d (r.line env v) := by
  have hi : (#[i] : Array Instruction)[0]? = some i := rfl
  cases i with
  | literal pos t depth =>
    cases hv
    cases hd
    have htext : r.line env (Fragments.ofLiteral t) = .ok t := by
      rw [line_of_isLiteral r env rfl]
      simp [Fragments.describe, Fragments.ofLiteral, Fragment.describe]
    rw [run_literal hi, htext]
  | output pos value depth =>
    cases hv
    cases hd
    exact run_output hi
  | filtered pos filter t depth =>
    cases hv
    cases hd
    have htext : r.line env [.filter filter t] = .ok (r.filters.apply filter t) := by
      simp [line, fragment, bind, Except.bind]
    rw [run_filtered hi, Output.block_of_not_indent rfl, htext]
    rfl
  | exec | openTag | openControl | close => cases hv

end Renderer

/-! ## Tag lines with output -/

/-- The lines of a sheet have different numbers. -/
theorem number_ne_of_isChain {ls₁ ls₂ : List MarkupLine} {l l' : MarkupLine}
    (hchain : (ls₁ ++ l :: ls₂).IsChain MarkupLine.Follows) (hl' : l' ∈ ls₁ ∨ l' ∈ ls₂) :
    l'.number ≠ l.number := by
  have hnumbers : ((ls₁ ++ l :: ls₂).map (·.number)).Pairwise (· < ·) :=
    ((List.isChain_map _).2 (hchain.imp fun _ _ h => h.1)).pairwise
  have hpairs : (ls₁ ++ l :: ls₂).Pairwise fun l l' => l.number < l'.number :=
    List.pairwise_map.1 hnumbers
  rw [List.pairwise_append, List.pairwise_cons] at hpairs
  obtain ⟨-, ⟨hbelow, -⟩, habove⟩ := hpairs
  rcases hl' with hl' | hl'
  · exact Nat.ne_of_lt (habove l' hl' l List.mem_cons_self)
  · exact Nat.ne_of_gt (hbelow l' hl')

/-- A line of a token list that has a tag and, behind it, text, a comment, a filter, or the value of
an expression that opens no block. -/
structure OneLiner (tokens : List Token) where
  before : List Token
  indent : Token
  header : List Token
  mark : Token
  more : List Token
  after : List Token
  tag : Tag
  tokens_eq : tokens = before ++ indent :: (header ++ (mark :: more ++ after))
  kind_indent : indent.kind = .indent
  one_line : ∀ t ∈ header ++ mark :: more, t.kind ≠ .indent
  ends : LineEnd after
  /-- The tag is what is read off the line; the mark is where it ends. -/
  read_tag : Tag.read (Layout.endOf tokens) (header ++ (mark :: more ++ after)) =
    .ok (some tag, mark :: more ++ after)
  kind_mark : mark.kind ∈ [.text, .commentMark, .filterMark, .outputMark]
  no_block : mark.kind = .outputMark → Layout.deeperThan indent.depth after = false

namespace OneLiner

variable {tokens : List Token} (o : OneLiner tokens)

/-- What the line puts out behind its tag. -/
def output : List Token := o.mark :: o.more

/-- Whether a deeper line follows. -/
def deeper : Bool := Layout.deeperThan o.indent.depth o.after

end OneLiner

/-- In a raw block, text follows every indentation. -/
theorem Layout.RawBlock.text_of_indent {d : Nat} {block before rest : List Token} {indent : Token}
    (h : Layout.RawBlock d block) (hblock : block = before ++ indent :: rest)
    (hindent : indent.kind = .indent) : ∃ t ts, rest = t :: ts ∧ t.kind = .text := by
  induction h generalizing before with
  | nil => simp at hblock
  | @cons t u ts ht _ hu _ ih =>
    rcases before with _ | ⟨x, _ | ⟨y, before⟩⟩
    · cases hblock
      exact ⟨u, ts, rfl, hu⟩
    · cases hblock
      rw [hu] at hindent
      cases hindent
    · cases hblock
      exact ih rfl

namespace MarkupLine

/-- Lines of markup start where another one ends. -/
theorem lineEnd_flatMap (ls : List MarkupLine) : LineEnd (ls.flatMap (·.tokens)) := by
  cases ls with
  | nil => exact .inl rfl
  | cons l ls => exact .inr ⟨l.indent, _, rfl, l.kind_indent⟩

/-- Only a line that leads off with a filter has a block. -/
theorem block_eq_nil_of_lead (l : MarkupLine) {t : Token} {ts : List Token} (h : l.body = t :: ts)
    (ht : t.kind ≠ .filterMark) : l.block = [] := by
  refine l.block_eq ?_
  cases halone : l.alone with
  | false => rfl
  | true =>
    have hform := l.form
    rw [halone, h, List.map_cons] at hform
    generalize hks : t.kind :: ts.map (·.kind) = ks at hform
    cases hform
    exact absurd (List.cons.inj hks).1 ht

/-- An indentation among the tokens of lines starts one of them, unless raw text follows it. -/
theorem exists_of_indent {ls : List MarkupLine} {before rest : List Token} {indent : Token}
    (h : ls.flatMap (·.tokens) = before ++ indent :: rest) (hindent : indent.kind = .indent)
    (hrest : ∀ t ts, rest = t :: ts → t.kind ≠ .text) :
    ∃ ls₁ l ls₂, ls = ls₁ ++ l :: ls₂ ∧ indent = l.indent ∧
      rest = l.body ++ (l.block ++ ls₂.flatMap (·.tokens)) := by
  induction ls generalizing before with
  | nil => simp at h
  | cons l ls ih =>
    -- what starts further down starts one of the lines there
    have hbelow : ∀ {before'}, ls.flatMap (·.tokens) = before' ++ indent :: rest →
        ∃ ls₁ l' ls₂, l :: ls = ls₁ ++ l' :: ls₂ ∧ indent = l'.indent ∧
          rest = l'.body ++ (l'.block ++ ls₂.flatMap (·.tokens)) := by
      intro before' h
      obtain ⟨ls₁, l', ls₂, rfl, hline⟩ := ih h
      exact ⟨l :: ls₁, l', ls₂, rfl, hline⟩
    -- and what starts in the block of the line has text behind it
    have hraw : ∀ {before'}, l.block ++ ls.flatMap (·.tokens) = before' ++ indent :: rest →
        ∃ ls₁ l' ls₂, l :: ls = ls₁ ++ l' :: ls₂ ∧ indent = l'.indent ∧
          rest = l'.body ++ (l'.block ++ ls₂.flatMap (·.tokens)) := by
      intro before' h
      rcases List.append_eq_append_iff.1 h with ⟨cs, -, hls⟩ | ⟨_ | ⟨x, cs⟩, hcs, hls⟩
      · exact hbelow hls
      · exact hbelow (show _ = [] ++ indent :: rest from hls.symm)
      · obtain ⟨rfl, rfl⟩ := List.cons.inj hls
        obtain ⟨u, us, rfl, hu⟩ := l.raw.text_of_indent hcs hindent
        exact absurd hu (hrest u _ rfl)
    rw [List.flatMap_cons, MarkupLine.tokens, List.cons_append, List.append_assoc] at h
    cases before with
    | nil =>
      obtain ⟨rfl, rfl⟩ := List.cons.inj h
      exact ⟨[], l, ls, rfl, rfl, rfl⟩
    | cons t before =>
      have hbody : l.body ++ (l.block ++ ls.flatMap (·.tokens)) = before ++ indent :: rest :=
        (List.cons.inj h).2
      rcases List.append_eq_append_iff.1 hbody with ⟨cs, -, hls⟩ | ⟨_ | ⟨x, cs⟩, hcs, hls⟩
      · exact hraw hls
      · exact hraw (show _ = [] ++ indent :: rest from hls.symm)
      · obtain ⟨rfl, -⟩ := List.cons.inj hls
        have hmem : indent ∈ l.body := by simp [hcs]
        exact absurd (hindent ▸ List.mem_map_of_mem hmem) l.form.indent_not_mem

end MarkupLine

namespace OneLiner

variable {tokens : List Token} (o : OneLiner tokens)

/-- The line leads off with a tag. -/
theorem lead_kind {t : Token} {ts : List Token}
    (h : o.header ++ (o.mark :: o.more ++ o.after) = t :: ts) :
    t.kind ∈ [.tagMark, .idMark, .classMark] := by
  have htag := o.read_tag
  rw [h] at htag
  exact Layout.kind_of_readTag htag

/-- The line is one of the lines of markup, and the lines that follow it are those after it. -/
theorem exists_line {doctype : List Token} {ls : List MarkupLine}
    (hlex : tokens = doctype ++ ls.flatMap (·.tokens))
    (hdoctype : doctype.map (·.kind) ⊆ [.doctypeMark, .doctypeWord]) :
    ∃ ls₁ l ls₂, ls = ls₁ ++ l :: ls₂ ∧ l.indent = o.indent ∧
      l.body = o.header ++ o.mark :: o.more ∧ ls₂.flatMap (·.tokens) = o.after := by
  have hrest : ∀ t ts, o.header ++ (o.mark :: o.more ++ o.after) = t :: ts → t.kind ≠ .text := by
    intro t ts h hk
    have := o.lead_kind h
    simp [hk] at this
  obtain ⟨ls₁, l, ls₂, rfl, hindent, hline⟩ : ∃ ls₁ l ls₂, ls = ls₁ ++ l :: ls₂ ∧
      o.indent = l.indent ∧ o.header ++ (o.mark :: o.more ++ o.after) =
        l.body ++ (l.block ++ ls₂.flatMap (·.tokens)) := by
    rcases List.append_eq_append_iff.1 (hlex.symm.trans o.tokens_eq) with
      ⟨cs, -, hls⟩ | ⟨_ | ⟨x, cs⟩, hcs, hls⟩
    · exact MarkupLine.exists_of_indent hls o.kind_indent hrest
    · exact MarkupLine.exists_of_indent (show _ = [] ++ _ from hls.symm) o.kind_indent hrest
    · obtain ⟨rfl, -⟩ := List.cons.inj hls
      have hmem := hdoctype (List.mem_map_of_mem (show o.indent ∈ doctype by simp [hcs]))
      simp [o.kind_indent] at hmem
  -- both are all that stands before the next indentation
  have hbody : l.body = o.header ++ o.mark :: o.more := by
    have hnot : ∀ t ∈ l.body, t.kind ≠ .indent := by
      intro t ht hk
      exact l.form.indent_not_mem (hk ▸ List.mem_map_of_mem ht)
    rw [← Layout.takeWhile_of_lineEnd hnot (l.raw.lineEnd (MarkupLine.lineEnd_flatMap ls₂)),
      ← hline, ← List.append_assoc, Layout.takeWhile_of_lineEnd o.one_line o.ends]
  have hblock : l.block = [] := by
    obtain ⟨t, ts, ht⟩ := List.exists_cons_of_ne_nil l.body_ne_nil
    have hlead := o.lead_kind (hline.trans (by rw [ht, List.cons_append]))
    exact l.block_eq_nil_of_lead ht fun hk => by simp [hk] at hlead
  refine ⟨ls₁, l, ls₂, rfl, hindent.symm, hbody, ?_⟩
  rw [hblock, List.nil_append, hbody, ← List.append_assoc] at hline
  exact (List.append_cancel_left hline).symm

/-- What the line makes: the tag has taken in what is put out behind it. -/
theorem joined_of_makes {d : Nat} {new : List Instruction} (hd : o.indent.depth = d)
    (h : Layout.Makes (Layout.endOf tokens) d o.after (o.header ++ o.mark :: o.more) new) :
    ∃ i v pos, Layout.Content d o.deeper (o.mark :: o.more) i ∧ Layout.contentOf? i = some v ∧
      new = [if o.deeper then .openTag pos (Fragments.join [o.tag.opening, v]) o.tag.closing d 0
        else .ofFragments pos (Fragments.join [o.tag.opening, v, o.tag.closing]) d] := by
  have hread : Tag.read (Layout.endOf tokens) (o.header ++ o.mark :: o.more ++ o.after) =
      .ok (some o.tag, o.mark :: o.more ++ o.after) := by
    rw [List.append_assoc]
    exact o.read_tag
  subst hd
  cases h with
  | filter hbody hm =>
    have hlead := o.lead_kind (by rw [← List.append_assoc, hbody, List.cons_append])
    simp [hm] at hlead
  | output htag =>
    rw [hread] at htag
    cases htag
  | tag _ htag =>
    rw [hread] at htag
    have hlength := congrArg List.length (Prod.mk.inj (Except.ok.inj htag)).2
    simp only [List.length_append, List.length_cons] at hlength
    omega
  | @joined lead more out tag i v hbody htag hcontent hv =>
    rw [hread] at htag
    obtain ⟨htag, hout⟩ := Prod.mk.inj (Except.ok.inj htag)
    cases htag
    obtain rfl := List.append_cancel_right hout
    exact ⟨i, v, lead.start, hcontent, hv, rfl⟩
  | @around lead more out tag i hbody htag hemits hi =>
    rw [hread] at htag
    obtain rfl := List.append_cancel_right (Prod.mk.inj (Except.ok.inj htag)).2
    have hkind := o.kind_mark
    -- what a tag cannot take in has another mark, or opens a block
    generalize hout : o.mark :: o.more = out at hemits
    cases hemits with
    | content h =>
      obtain ⟨v, hv⟩ := h.exists_content
      rw [hi] at hv
      cases hv
    | exec hm =>
      rw [← (List.cons.inj hout).1] at hm
      simp [hm] at hkind
    | control hm hc hdeeper =>
      rw [← (List.cons.inj hout).1] at hm
      rcases hm with hm | hm
      · rw [o.no_block hm] at hdeeper
        cases hdeeper
      · simp [hm] at hkind

/-- Taken alone, the output of the line is rendered as the fragments `v` are. -/
def Alone (v : Fragments) : Prop :=
  ∀ (contextType : Text) (maxDepth : Int), ∃ i,
    Program.ofTokens contextType maxDepth (o.indent :: o.output) = .ok ⟨contextType, #[i]⟩ ∧
    ∀ (r : Renderer) (env : Env) (prior : Outcome),
      r.run #[i] 0 1 env prior { indent := false } =
        Output.entry { indent := false } o.indent.depth (r.line env v)

theorem alone_of_content {i : Instruction} {v : Fragments}
    (h : Layout.Content o.indent.depth o.deeper o.output i) (hv : Layout.contentOf? i = some v) :
    o.Alone v := by
  intro contextType maxDepth
  refine ⟨i, Program.ofTokens_of_content o.kind_indent h.alone contextType maxDepth, ?_⟩
  intro r env prior
  exact Renderer.run_content hv h.depth?_eq

end OneLiner

/-! ## Programs with one-liners -/

/-- What differs from an entry in nothing but where it stops is the entry. -/
theorem Instruction.eq_of_withStop_eq_ofFragments {x : Instruction} {pos : Location}
    {v : Fragments} {d n : Nat} (h : x.withStop n = .ofFragments pos v d) :
    x = .ofFragments pos v d := by
  unfold ofFragments at h ⊢
  split at h
  · rename_i hv
    rw [if_pos hv]
    exact eq_of_withStop_eq_literal h
  · rename_i hv
    rw [if_neg hv]
    cases x with
    | output => exact h
    | literal | exec | filtered | openTag | openControl | close => cases h

theorem Instruction.exists_of_withStop_eq_openTag {x : Instruction} {pos : Location}
    {opening closing : Fragments} {d n : Nat}
    (h : x.withStop n = .openTag pos opening closing d n) :
    ∃ last, x = .openTag pos opening closing d last := by
  cases x with
  | openTag _ _ _ _ last =>
    cases h
    exact ⟨last, rfl⟩
  | literal | output | exec | filtered | openControl | close => cases h

/-- Where a list of instructions is `before`, `x` and `after`, apart from where scopes stop. -/
theorem exists_split_of_map_withStop {code before after : List Instruction} {x : Instruction}
    (h : code.map (·.withStop 0) = (before ++ x :: after).map (·.withStop 0)) :
    ∃ before' x' after', code = before' ++ x' :: after' ∧ x'.withStop 0 = x.withStop 0 ∧
      ∀ i ∈ before' ++ after', ∃ j ∈ before ++ after, i.withStop 0 = j.withStop 0 := by
  rw [List.map_append, List.map_cons] at h
  obtain ⟨before', more, rfl, hbefore, hmore⟩ := List.map_eq_append_iff.1 h
  obtain ⟨x', after', rfl, hx, hafter⟩ := List.map_eq_cons_iff.1 hmore
  refine ⟨before', x', after', rfl, hx, ?_⟩
  intro i hi
  have hmem : i.withStop 0 ∈ (before ++ after).map (·.withStop 0) := by
    rw [List.map_append, ← hbefore, ← hafter, ← List.map_append]
    exact List.mem_map_of_mem hi
  obtain ⟨j, hj, he⟩ := List.mem_map.1 hmem
  exact ⟨j, hj, he.symm⟩

namespace Program

variable {file source contextType : Text} {maxDepth : Int} {p : Program}

/-- The doctype line is above the lines of markup. -/
theorem line_lt_of_doctype {doctype : List Token} {ls : List MarkupLine}
    (hlex : lex file source = doctype ++ ls.flatMap (·.tokens)) {mark : Token}
    (hmark : mark ∈ doctype) {l : MarkupLine} (hl : l ∈ ls) : mark.start.line < l.number := by
  have hpairs := lt_line_of_indent file 0 0 none (splitLines (normalise source))
  change (lex file source).Pairwise _ at hpairs
  rw [hlex, List.pairwise_append] at hpairs
  have hmem : l.indent ∈ ls.flatMap (·.tokens) :=
    List.mem_flatMap_of_mem hl List.mem_cons_self
  rw [← l.line_eq l.indent List.mem_cons_self]
  exact hpairs.2.2 mark hmark l.indent hmem l.kind_indent

/-- In a finished program, a line that has a tag with output behind it is one instruction, and it is
the tag that has taken in the output. -/
theorem exists_oneLiner (h : Program.ofTokens contextType maxDepth (lex file source) = .ok p)
    (o : OneLiner (lex file source)) :
    ∃ (v : Fragments) (pos : Location) (before after : List Instruction) (x : Instruction),
      o.Alone v ∧ p.code.toList = before ++ x :: after ∧
      (∀ i ∈ before ++ after, i.closes = false → i.pos.line ≠ o.indent.start.line) ∧
      pos.line = o.indent.start.line ∧
      x.withStop 0 = if o.deeper then
          .openTag pos (Fragments.join [o.tag.opening, v]) o.tag.closing o.indent.depth 0
        else .ofFragments pos (Fragments.join [o.tag.opening, v, o.tag.closing])
          o.indent.depth := by
  obtain ⟨s, nodes, hs, hmatch, -⟩ := ofTokens_ok h
  obtain ⟨doctype, ls, start, hlex, hdoctype, hchain, -, hrest, hliterals, hread⟩ := hs.exists_sheet
  obtain ⟨ls₁, l, ls₂, rfl, hindent, hbody, hbelow⟩ := o.exists_line hlex hdoctype
  obtain ⟨code, hmade, hem⟩ := madeBy_of_readLines hchain hrest hread
  obtain ⟨before, new, after, rfl, hmakes, hbefore, hafter⟩ := hmade.exists_split
  have hnumber : l.indent.start.line = l.number := l.line_eq _ List.mem_cons_self
  have hdepth : o.indent.depth = l.depth := by rw [← hindent, l.depth_indent]
  have hplace := hmakes.place
  rw [hbody, hbelow, ← hdepth] at hmakes
  obtain ⟨i, v, pos, hcontent, hv, rfl⟩ := o.joined_of_makes rfl hmakes
  have hpos : pos.line = l.number := by
    obtain ⟨-, t, ht, hpos⟩ := hplace _ List.mem_cons_self
    have hline := l.line_eq t (List.mem_cons_of_mem _ ht)
    rw [← hpos] at hline
    split at hline
    · exact hline
    · rwa [Instruction.pos_ofFragments] at hline
  obtain ⟨k, hmap⟩ := Layout.map_withStop_code hmatch
  rw [hem, List.reverse_singleton, List.singleton_append, List.append_assoc, List.append_assoc,
    List.cons_append, ← List.append_assoc] at hmap
  obtain ⟨before', x, after', hcode, hx, hothers⟩ := exists_split_of_map_withStop hmap
  refine ⟨v, pos, before', after', x, o.alone_of_content hcontent hv, hcode, ?_, ?_, ?_⟩
  · intro j hj hclose hline
    rw [← hindent, hnumber] at hline
    obtain ⟨y, hy, he⟩ := hothers j hj
    obtain ⟨hjpos, -, hjclose, -⟩ := Instruction.eq_of_withStop_eq he
    rw [hjpos] at hline
    rw [hjclose] at hclose
    simp only [List.mem_append, List.mem_reverse, or_assoc] at hy
    rcases hy with hy | hy | hy | hy
    · obtain ⟨mark, hmark, text, rfl⟩ := hliterals y hy
      exact Nat.ne_of_lt (line_lt_of_doctype hlex hmark (by simp)) hline
    · obtain ⟨l', hl', hl'line⟩ := hbefore y hy hclose
      exact number_ne_of_isChain hchain (.inl hl') (hl'line.symm.trans hline)
    · obtain ⟨l', hl', hl'line⟩ := hafter y hy hclose
      exact number_ne_of_isChain hchain (.inr hl') (hl'line.symm.trans hline)
    · rw [List.eq_of_mem_replicate hy] at hclose
      cases hclose
  · rw [hpos, ← hindent, hnumber]
  · rw [hx]
    split
    · rfl
    · unfold Instruction.ofFragments
      split <;> rfl

/-- Joining lines of fragments keeps what they render to: the joined line renders exactly if each of
them does, to their texts one after the other, and it fails as the first fragment that fails.

So it is where a tag takes in the output behind it. The line is one instruction of the program, and
running it adds one entry at the depth of the line: the opening text of the tag, the output as it
is rendered alone, and the closing text. Where a deeper line follows, the entry is the opening text
and the output, then the block is run, and the closing text is an entry after it. -/
theorem one_liner_keeps_content :
    (∀ (r : Renderer) (env : Env) (vs : List Fragments),
      (∀ t, r.line env (Fragments.join vs) = .ok t ↔
        ∃ ts, List.Forall₂ (fun v t => r.line env v = .ok t) vs ts ∧ t = ts.flatten) ∧
      ∀ e, r.line env (Fragments.join vs) = .error e ↔
        ∃ before f after, vs.flatten = before ++ f :: after ∧
          (∀ g ∈ before, ∃ t, r.fragment env g = .ok t) ∧ r.fragment env f = .error e) ∧
    ∀ (file source contextType : Text) (maxDepth : Int) (p : Program),
      Program.ofTokens contextType maxDepth (lex file source) = .ok p →
      ∀ o : OneLiner (lex file source), ∃ v, o.Alone v ∧
        ∃ (before after : List Instruction) (x : Instruction),
          p.code.toList = before ++ x :: after ∧ x.pos.line = o.indent.start.line ∧
          (∀ i ∈ before ++ after, i.closes = false → i.pos.line ≠ o.indent.start.line) ∧
          (o.deeper = false → ∀ (r : Renderer) (env : Env) (prior : Outcome) (w : Output),
            r.run p.code before.length (before.length + 1) env prior w =
              w.entry o.indent.depth (r.lines env [o.tag.opening, v, o.tag.closing])) ∧
          (o.deeper = true → ∃ last, x.stop? = some last ∧
            ClosedAt p.code.toList before.length last ∧
            ∀ (r : Renderer) (env : Env) (prior : Outcome) (w : Output),
              r.run p.code before.length (last + 1) env prior w =
                Sink.andThen (w.entry o.indent.depth (r.lines env [o.tag.opening, v])) fun w =>
                Sink.andThen (r.run p.code (before.length + 1) last env .none w) fun w =>
                w.entry o.indent.depth (r.line env o.tag.closing)) := by
  refine ⟨?_, ?_⟩
  · intro r env vs
    rw [Renderer.line_join, ← Renderer.line_flatten]
    refine ⟨?_, fun e => r.line_eq_error_iff env vs.flatten e⟩
    rw [Renderer.line_flatten]
    exact r.lines_eq_ok_iff env vs
  · intro file source contextType maxDepth p h o
    obtain ⟨v, pos, before, after, x, halone, hcode, hothers, hpos, hx⟩ := exists_oneLiner h o
    have hat : p.code[before.length]? = some x := by
      rw [← Array.getElem?_toList, hcode]
      simp
    have hline : x.pos.line = o.indent.start.line := by
      rw [← Instruction.pos_withStop x 0, hx, ← hpos]
      split
      · rfl
      · rw [Instruction.pos_ofFragments]
    refine ⟨v, halone, before, after, x, hcode, hline, hothers, ?_, ?_⟩
    · intro hdeeper r env prior w
      rw [hdeeper] at hx
      rw [Instruction.eq_of_withStop_eq_ofFragments hx] at hat
      rw [Renderer.run_ofFragments hat, Renderer.line_join]
    · intro hdeeper
      rw [hdeeper] at hx
      obtain ⟨last, rfl⟩ := Instruction.exists_of_withStop_eq_openTag hx
      obtain ⟨s, nodes, hs, hmatch, -, hnodes⟩ := ofTokens_ok h
      have hclosed : ClosedAt p.code.toList before.length last :=
        ((WellBracketed.of_readTo hs hmatch hnodes).stop?_eq_some_iff _ _ hat rfl last).1 rfl
      refine ⟨last, rfl, hclosed, ?_⟩
      intro r env prior w
      rw [Renderer.run_openTag hat (Nat.le_of_lt hclosed.lt), Renderer.line_join]

/-- A tag with text, around a block in which a tag has the value of an expression: both have taken
in what is behind them. -/
theorem one_liner_keeps_content_of_two :
    let source := "%a hi\n  %b= v".toList
    ∃ p : Program, Program.ofTokens [] 0 (lex [] source) = .ok p ∧
      (∃ o : OneLiner (lex [] source), o.mark.contents = "hi".toList ∧ ∃ v, o.Alone v ∧
        ∀ (r : Renderer) (env : Env) (prior : Outcome) (w : Output),
          r.run p.code 0 3 env prior w =
            Sink.andThen (w.entry 0 (r.lines env [[.literal "<a>".toList], v])) fun w =>
            Sink.andThen (r.run p.code 1 2 env .none w) fun w =>
            w.entry 0 (r.line env [.literal "</a>".toList])) ∧
      ∃ o : OneLiner (lex [] source), o.mark.contents = "=".toList ∧ ∃ v, o.Alone v ∧
        ∀ (r : Renderer) (env : Env) (prior : Outcome) (w : Output),
          r.run p.code 1 2 env prior w =
            w.entry 2 (r.lines env [[.literal "<b>".toList], v, [.literal "</b>".toList]]) := by
  intro source
  let opening : Instruction :=
    .openTag {} [.literal "<a>hi".toList] [.literal "</a>".toList] 0 2
  let value : Instruction := .output { line := 1, column := 2, offset := 8 }
    [.literal "<b>".toList, .expression ['v'] true, .literal "</b>".toList] 2
  let p : Program := ⟨[], #[opening, value, .close]⟩
  have hp : Program.ofTokens [] 0 (lex [] source) = .ok p := by decide +kernel
  let start : Token := ⟨.indent, {}, []⟩
  let a : List Token := [⟨.tagMark, {}, ['%']⟩, ⟨.word, { column := 1, offset := 1 }, ['a']⟩]
  let hi : Token := ⟨.text, { column := 3, offset := 3 }, "hi".toList⟩
  let next : Token := ⟨.indent, { line := 1, offset := 6 }, "  ".toList⟩
  let b : List Token := [⟨.tagMark, { line := 1, column := 2, offset := 8 }, ['%']⟩,
    ⟨.word, { line := 1, column := 3, offset := 9 }, ['b']⟩]
  let mark : Token := ⟨.outputMark, { line := 1, column := 4, offset := 10 }, ['=']⟩
  let code : Token := ⟨.code, { line := 1, column := 6, offset := 12 }, ['v']⟩
  let o : OneLiner (lex [] source) := {
    before := [], indent := start, header := a, mark := hi, more := []
    after := next :: (b ++ [mark, code]), tag := { name := some [.literal ['a']] }
    tokens_eq := by decide +kernel
    kind_indent := rfl
    one_line := by decide
    ends := .inr ⟨next, _, rfl, rfl⟩
    read_tag := by decide +kernel
    kind_mark := by decide
    no_block := by decide }
  let o' : OneLiner (lex [] source) := {
    before := start :: (a ++ [hi]), indent := next, header := b, mark := mark, more := [code]
    after := [], tag := { name := some [.literal ['b']] }
    tokens_eq := by decide +kernel
    kind_indent := rfl
    one_line := by decide
    ends := .inl rfl
    read_tag := by decide +kernel
    kind_mark := by decide
    no_block := by decide }
  refine ⟨p, hp, ⟨o, rfl, ?_⟩, ⟨o', rfl, ?_⟩⟩
  · obtain ⟨v, hv, before, after, x, hcode, hline, -, -, hdeeper⟩ :=
      one_liner_keeps_content.2 [] source [] 0 p hp o
    obtain ⟨last, hstop, -, hrun⟩ := hdeeper (by decide)
    -- of the three instructions, one is on the first line and has a scope
    rcases before with _ | ⟨_, _ | ⟨_, _ | ⟨_, before⟩⟩⟩
    · cases hcode
      cases hstop
      exact ⟨v, hv, hrun⟩
    · cases hcode
      cases hline
    · cases hcode
      cases hstop
    · have := congrArg List.length hcode
      simp [p] at this
  · obtain ⟨v, hv, before, after, x, hcode, hline, -, hrun, -⟩ :=
      one_liner_keeps_content.2 [] source [] 0 p hp o'
    rcases before with _ | ⟨_, _ | ⟨_, _ | ⟨_, before⟩⟩⟩
    · cases hcode
      cases hline
    · cases hcode
      exact ⟨v, hv, hrun (by decide)⟩
    · cases hcode
      cases hline
    · have := congrArg List.length hcode
      simp [p] at this

end Program

end Offside
