import Offside.Proofs.DepthLimit
import Offside.Proofs.EditorPlaces
import Offside.Proofs.FilterUses

/-!
# Where the filters of a template are placed

A filter that a template lists has a place, and a warning about it underlines as many characters
from there on as its mark has. A filter line becomes an instruction with the place of its mark. A
filter behind a tag is taken into the tag's entry, and all that is left of its place is that of the
tag. So every filter is placed where its line leads off, behind the indentation
(`Engine.filters_of_compile`): that is the mark itself if the filter stands alone on its line, and
otherwise the first mark of a tag, which never reads like the filter
(`Engine.filter_behind_tag_misplaced`).
-/

namespace Offside

/-! ## Filters with their places -/

/-- All filters that the instructions use are placed at `p`. -/
def FiltersAt (p : Location) (code : List Instruction) : Prop :=
  ∀ i ∈ code, i.filterNames ≠ [] → i.pos = p

theorem filtersAt_singleton {p : Location} {i : Instruction}
    (h : i.filterNames ≠ [] → i.pos = p) : FiltersAt p [i] := by
  intro j hj
  rw [List.mem_singleton.1 hj]
  exact h

theorem FiltersAt.filterUses_eq {p : Location} {code : List Instruction} (h : FiltersAt p code) :
    Engine.filterUses code = (code.flatMap (·.filterNames)).map fun name => { name, pos := p } := by
  rw [List.map_flatMap]
  refine List.flatMap_congr ?_
  intro i hi
  by_cases hnone : i.filterNames = []
  · rw [hnone, List.map_nil, List.map_nil]
  · rw [h i hi hnone]

/-- The filter marks of a token list as uses, each placed as told. -/
def markUses (place : Token → Location) (ts : List Token) : List FilterUse :=
  (ts.filter (·.kind == .filterMark)).map fun t =>
    { name := Layout.filterName t.contents, pos := place t }

@[simp] theorem markUses_append (place : Token → Location) (ts us : List Token) :
    markUses place (ts ++ us) = markUses place ts ++ markUses place us := by
  rw [markUses, List.filter_append, List.map_append]
  rfl

/-- Where all marks have the same place, it is put to their names. -/
theorem markUses_eq_map {place : Token → Location} {ts : List Token} {p : Location}
    (h : ∀ t ∈ ts, t.kind = .filterMark → place t = p) :
    markUses place ts = (markNames ts).map fun name => { name, pos := p } := by
  rw [markUses, markNames, List.map_map]
  refine List.map_congr_left ?_
  intro t ht
  obtain ⟨hmem, hk⟩ := List.mem_filter.1 ht
  rw [h t hmem (eq_of_beq hk)]
  rfl

/-- Matching the scopes of a program moves no filter. -/
theorem filterUses_map_withStop (code : List Instruction) (n : Nat) :
    Engine.filterUses (code.map (·.withStop n)) = Engine.filterUses code := by
  simp [Engine.filterUses, List.flatMap_map]

/-- Neither the indentation of a line nor its block has a filter mark. -/
theorem MarkupLine.mem_body_of_filterMark (l : MarkupLine) {t : Token} (ht : t ∈ l.tokens)
    (hk : t.kind = .filterMark) : t ∈ l.body := by
  rcases List.mem_cons.1 ht with rfl | ht
  · rw [l.kind_indent] at hk
    cases hk
  · rcases List.mem_append.1 ht with ht | ht
    · exact ht
    · have hnone := l.raw.markNames_eq_nil
      rw [markNames, List.map_eq_nil_iff, List.filter_eq_nil_iff] at hnone
      exact absurd hk (by simpa using hnone t ht)

namespace Layout

variable {limit : Int} {stop : Location} {s s' : Layout} {b : Bool}

/-- The filters that the instructions so far use, in the order in which they were read. -/
def filterUses (s : Layout) : List FilterUse := Engine.filterUses s.emitted.reverse

/-! ## The readers -/

/-- A tag is placed where the line is when it is read. -/
theorem pos_of_readTag {t : Token} {ts : List Token} {i : Instruction} (hr : s.rest = t :: ts)
    (h : s.readTag limit stop = .ok (b, s')) (hem : s'.emitted = i :: s.emitted) :
    i.pos = t.start := by
  cases hread : Tag.read stop s.rest with
  | error e =>
    unfold readTag at h
    rw [hread] at h
    cases h
  | ok p =>
    obtain ⟨_ | tag, rest⟩ := p
    · rw [readTag_of_none hread] at h
      cases h
      exact absurd hem.symm (List.cons_ne_self _ _)
    · rw [readTag_of_some hread hr] at h
      split at h
      · cases h
        rw [← (List.cons.inj hem).1]
        exact Instruction.pos_ofFragments ..
      · obtain ⟨s₁, hopen, h⟩ := map_eq_ok.1 h
        obtain ⟨-, -, hem', -⟩ := openScope_ok hopen
        cases h
        rw [← (List.cons.inj (hem'.symm.trans hem)).1]
        rfl

/-- Output that uses a filter is the filter whose mark stands there. It ends its line, and a tag can
take it in. -/
theorem filter_of_readOutput {i : Instruction} (h : s.readOutput limit stop = .ok (b, s'))
    (hem : s'.emitted = i :: s.emitted) (hi : i.filterNames ≠ []) :
    (∃ mark ts, s.rest = mark :: ts ∧ mark.kind = .filterMark) ∧ LineEnd s'.rest ∧
      contentOf? i ≠ none := by
  have hhead : headNames s.rest = i.filterNames := by
    have hnames := filterNames_readOutput h
    rw [filterNames_of_emitted hem] at hnames
    exact (List.append_cancel_left hnames).symm
  cases hr : s.rest with
  | nil =>
    rw [hr] at hhead
    exact absurd hhead.symm hi
  | cons mark ts =>
    by_cases hm : mark.kind = .filterMark
    · refine ⟨⟨mark, ts, rfl, hm⟩, ?_⟩
      unfold readOutput at h
      rw [hr] at h
      dsimp only at h
      rw [hm] at h
      rcases readFilter_cases h with ⟨-, -, hne⟩ | ⟨mark', ts', text, -, -, -, -, hend, -, hem'⟩
      · exact absurd hm (hne mark ts hr)
      · rw [← (List.cons.inj (hem'.symm.trans hem)).1]
        exact ⟨hend, by simp [contentOf?]⟩
    · rw [hr, headNames_cons_of_ne hm] at hhead
      exact absurd hhead.symm hi

/-- A tag gives its place to the filter that it takes in. -/
theorem filtersAt_fuse {i : Instruction} {pos : Location} {opening closing : Fragments}
    {depth : Nat} {em : List Instruction}
    (hem : s.emitted = i :: .openTag pos opening closing depth 0 :: em)
    (hi : i.filterNames ≠ [] → LineEnd s.rest ∧ contentOf? i ≠ none) :
    ∃ new, s.fuse.emitted = new ++ em ∧ FiltersAt pos new := by
  have hone : ∀ j : Instruction, j.pos = pos → FiltersAt pos [j] :=
    fun j hj => filtersAt_singleton fun _ => hj
  by_cases hnone : i.filterNames = []
  · rcases fuse_cases hem with he | ⟨v, -, he | he⟩ <;> rw [he]
    · refine ⟨[i, .openTag pos opening closing depth 0], hem, ?_⟩
      intro j hj hne
      rcases List.mem_cons.1 hj with rfl | hj
      · exact absurd hnone hne
      · rw [List.mem_singleton.1 hj]
        rfl
    · exact ⟨[_], rfl, hone _ (Instruction.pos_ofFragments ..)⟩
    · exact ⟨[_], rfl, hone _ rfl⟩
  · obtain ⟨hend, hcontent⟩ := hi hnone
    rcases fuse_of_lineEnd hem hend with ⟨hno, -⟩ | ⟨-, v, he | he⟩
    · exact absurd hno hcontent
    · exact ⟨[_], he, hone _ (Instruction.pos_ofFragments ..)⟩
    · exact ⟨[_], he, hone _ rfl⟩

/-- Output where no filter mark stands uses no filter. -/
theorem filtersAt_output (p : Location)
    (hne : ∀ mark ts, s.rest = mark :: ts → mark.kind ≠ .filterMark)
    (h : s.readOutput limit stop = .ok (b, s')) :
    ∃ new, s'.emitted = new ++ s.emitted ∧ FiltersAt p new := by
  have hplain : ∀ i, s'.emitted = i :: s.emitted → FiltersAt p [i] := by
    intro i hem
    refine filtersAt_singleton fun hi => ?_
    obtain ⟨⟨mark, ts, hmark, hm⟩, -⟩ := filter_of_readOutput h hem hi
    exact absurd hm (hne mark ts hmark)
  rcases readOutput_ok h with ⟨-, rfl⟩ | ⟨-, -, ⟨i, -, -, hem, -⟩ | ⟨_, _, -, -, hem, -⟩⟩
  · exact ⟨[], rfl, by simp [FiltersAt]⟩
  · exact ⟨[_], hem, hplain _ hem⟩
  · exact ⟨[_], hem, hplain _ hem⟩

/-- The filters of a tag, those of the output behind it included, are placed where the tag is. -/
theorem filtersAt_tagged {lead : Token} {ts : List Token} {s₁ : Layout} (hr : s.rest = lead :: ts)
    (htag : s.readTag limit stop = .ok (true, s₁))
    (houtput : s₁.readOutput limit stop = .ok (b, s')) :
    ∃ new, (if b then s'.fuse else s').emitted = new ++ s.emitted ∧
      FiltersAt lead.start new := by
  have hpos : ∀ i, s₁.emitted = i :: s.emitted → i.pos = lead.start :=
    fun i hem => pos_of_readTag hr htag hem
  rcases readTag_ok htag with ⟨hfalse, -⟩ |
    ⟨-, -, ⟨i, -, -, hend, hem, -⟩ | ⟨pos, opening, closing, -, -, hem, -⟩⟩
  · cases hfalse
  · -- the tag ends its line
    obtain ⟨rfl, rfl⟩ := readOutput_of_lineEnd hend houtput
    exact ⟨[i], hem, filtersAt_singleton fun _ => hpos i hem⟩
  · have hstart : pos = lead.start := hpos _ hem
    rcases readOutput_ok houtput with ⟨rfl, rfl⟩ | ⟨rfl, -, hadds⟩
    · exact ⟨[_], hem, filtersAt_singleton fun _ => hstart⟩
    · obtain ⟨i, hem'⟩ : ∃ i, s'.emitted = i :: s₁.emitted := by
        rcases hadds with ⟨i, -, -, hem', -⟩ | ⟨_, _, -, -, hem', -⟩ <;> exact ⟨_, hem'⟩
      have hi := fun hi => (filter_of_readOutput houtput hem' hi).2
      rw [hem] at hem'
      rw [← hstart]
      exact filtersAt_fuse hem' hi

/-- All filters of a line are placed where it leads off. -/
theorem filtersAt_readBody {lead : Token} {ts : List Token} (hr : s.rest = lead :: ts)
    (h : s.readBody limit stop = .ok s') :
    ∃ new, s'.emitted = new ++ s.emitted ∧ FiltersAt lead.start new := by
  unfold readBody at h
  rw [bind_eq_ok] at h
  obtain ⟨⟨filtered, s₁⟩, h₁, h⟩ := h
  rw [bind_eq_ok] at h
  obtain ⟨⟨tagged, s₂⟩, h₂, h⟩ := h
  rw [bind_eq_ok] at h
  obtain ⟨⟨output, s₃⟩, h₃, h⟩ := h
  dsimp only at h₂ h₃ h
  rcases readFilter_cases h₁ with
    ⟨-, rfl, hne⟩ | ⟨mark, us, text, hmark, hm, -, -, hend, -, hem⟩
  · cases tagged with
    | true =>
      cases h
      exact filtersAt_tagged hr h₂ h₃
    | false =>
      rcases readTag_ok h₂ with ⟨-, rfl⟩ | ⟨htrue, -⟩
      · cases h
        exact filtersAt_output lead.start hne h₃
      · cases htrue
  · -- a filter line: after the filter it is at its end
    obtain ⟨rfl, rfl⟩ := readTag_of_lineEnd hend h₂
    obtain ⟨rfl, rfl⟩ := readOutput_of_lineEnd hend h₃
    cases h
    rw [hr] at hmark
    cases hmark
    exact ⟨[_], hem, filtersAt_singleton fun _ => rfl⟩

/-! ## Lines -/

/-- Reading a line of markup adds its filter marks, at the place where the line leads off. -/
theorem filterUses_readLine {rest ts : List Token} {lead : Token} (l : MarkupLine)
    (hbody : l.body = lead :: ts) (hend : LineEnd rest) (hr : s.rest = l.tokens ++ rest)
    (h : s.readLine limit stop = .ok s') :
    s'.filterUses = s.filterUses ++
      (markNames l.tokens).map fun name => { name, pos := lead.start } := by
  have hnames := filterNames_readLine l hend hr h
  obtain ⟨hrest, -, hindent⟩ := readIndent_of_markup l hr
  rw [hbody] at hrest
  rw [readLine_eq_readBody] at h
  obtain ⟨new, hem, hnew⟩ := filtersAt_readBody hrest h
  obtain ⟨k, hclose⟩ := exists_emitted_closeTo s l.depth
  rw [hindent, hclose, ← List.append_assoc] at hem
  have hall : FiltersAt lead.start (new ++ List.replicate k Instruction.close).reverse := by
    intro i hi hne
    rcases List.mem_append.1 (List.mem_reverse.1 hi) with hi | hi
    · exact hnew i hi hne
    · rw [List.eq_of_mem_replicate hi] at hne
      exact absurd rfl hne
  -- the names among what was added are those of the marks
  rw [filterNames, filterNames, hem, List.reverse_append, List.flatMap_append] at hnames
  rw [filterUses, hem, List.reverse_append, Engine.filterUses, List.flatMap_append,
    ← List.append_cancel_left hnames]
  exact congrArg _ hall.filterUses_eq

/-- Reading the lines of a sheet adds all their filter marks, if the place that is told for a mark
is the one where its line leads off. -/
theorem filterUses_readLines {place : Token → Location} {ls : List MarkupLine}
    (hplace : ∀ l ∈ ls, ∃ lead ts, l.body = lead :: ts ∧ ∀ t ∈ l.body, place t = lead.start)
    (hchain : ls.IsChain MarkupLine.Follows) (hr : s.rest = ls.flatMap (·.tokens))
    (h : s.readLines limit stop = .ok s') :
    s'.filterUses = s.filterUses ++ markUses place (ls.flatMap (·.tokens)) := by
  -- at each line: the uses so far, and those of the marks that are still ahead
  have hgives : Reading.Gives (fun t => (∀ l ∈ ([] : List MarkupLine), l ∈ ls) ∧
      t.filterUses ++ markUses place [] = s.filterUses ++ markUses place (ls.flatMap (·.tokens)))
      (ls.flatMap (·.tokens)) (s.readLines limit stop) := by
    refine readLines_of_sheet (P := fun t ls' => (∀ l ∈ ls', l ∈ ls) ∧ t.filterUses ++
      markUses place (ls'.flatMap (·.tokens)) =
        s.filterUses ++ markUses place (ls.flatMap (·.tokens))) ?_ hchain hr ⟨fun _ h => h, rfl⟩
    intro l ls' t t' hchain hr ⟨hmem, ht⟩ hread
    refine ⟨fun l' hl' => hmem l' (List.mem_cons_of_mem _ hl'), ?_⟩
    obtain ⟨lead, ts, hbody, hlead⟩ := hplace l (hmem l (List.mem_cons_self ..))
    have hmarks : markUses place l.tokens =
        (markNames l.tokens).map fun name => { name, pos := lead.start } :=
      markUses_eq_map fun u hu hk => hlead u (l.mem_body_of_filterMark hu hk)
    rw [← ht, List.flatMap_cons, markUses_append, ← List.append_assoc, hmarks,
      filterUses_readLine l hbody (MarkupLine.endsBefore_of_isChain hchain).1 hr hread]
  rw [h] at hgives
  simpa [Reading.Gives, markUses] using hgives.2

end Layout

/-! ## Sources -/

/-- The token that the line of a token leads off with, behind the indentation. -/
def lineLead (ts : List Token) (t : Token) : Token :=
  (ts.find? fun u => u.start.line == t.start.line && u.kind != .indent).getD t

theorem lineLead_of_line {tokens before after ts : List Token} {l : MarkupLine} {lead t : Token}
    (hpairs : tokens.Pairwise fun t u => u.kind = .indent → t.start.line < u.start.line)
    (htokens : tokens = before ++ (l.tokens ++ after)) (hbody : l.body = lead :: ts)
    (ht : t ∈ l.body) : lineLead tokens t = lead := by
  have hline : ∀ u ∈ l.body, u.start.line = l.number :=
    fun u hu => l.line_eq u (List.mem_cons_of_mem _ hu)
  have hlead : lead ∈ l.body := hbody ▸ List.mem_cons_self ..
  have hkind : lead.kind ≠ .indent := by
    intro hk
    exact l.form.indent_not_mem (List.mem_map.2 ⟨lead, hlead, hk⟩)
  -- the indentation of the line stands behind all that is before the line
  have hbefore : ∀ u ∈ before, u.start.line < l.number := by
    intro u hu
    rw [htokens, List.pairwise_append] at hpairs
    have hlt := hpairs.2.2 u hu l.indent (by simp [MarkupLine.tokens]) l.kind_indent
    rwa [l.line_eq l.indent (List.mem_cons_self ..)] at hlt
  have hnone : before.find? (fun u => u.start.line == l.number && u.kind != .indent) = none := by
    refine List.find?_eq_none.2 ?_
    intro u hu hfound
    have hlt := hbefore u hu
    have heq := eq_of_beq (Bool.and_eq_true_iff.1 hfound).1
    omega
  rw [lineLead, hline t ht, htokens, List.find?_append, hnone, Option.none_or, MarkupLine.tokens,
    hbody, List.cons_append, List.find?_cons_of_neg (by simp [l.kind_indent]), List.cons_append,
    List.cons_append, List.find?_cons_of_pos (by simp [hline lead hlead, hkind])]
  rfl

/-- A line with a filter mark leads off with it, and has no other, or it leads off with a tag. -/
theorem LineBody.head_of_filterMark {alone : Bool} {ks : List TokenKind} (h : LineBody alone ks)
    (hmark : .filterMark ∈ ks) :
    ∃ k ks', ks = k :: ks' ∧
      (k = .filterMark ∧ .filterMark ∉ ks' ∨ k ∈ [.tagMark, .idMark, .classMark]) := by
  cases h with
  | filter | filterText => exact ⟨_, _, rfl, .inl ⟨rfl, by simp⟩⟩
  | output h => exact absurd (h.subset hmark) (by decide)
  | tag hh =>
    obtain ⟨k, ks', rfl, hk⟩ := hh.head
    exact ⟨k, _, rfl, .inr hk⟩

theorem exists_lead_of_line {file source : Text} {doctype : List Token} {ls : List MarkupLine}
    (hlex : lex file source = doctype ++ ls.flatMap (·.tokens)) {l : MarkupLine} (hl : l ∈ ls) :
    ∃ lead ts, l.body = lead :: ts ∧ ∀ t ∈ l.body, lineLead (lex file source) t = lead := by
  obtain ⟨lead, ts, hbody⟩ := List.exists_cons_of_ne_nil l.body_ne_nil
  obtain ⟨ls₁, ls₂, rfl⟩ := List.append_of_mem hl
  have hsplit : lex file source = (doctype ++ ls₁.flatMap (·.tokens)) ++
      (l.tokens ++ ls₂.flatMap (·.tokens)) := by
    rw [hlex, List.flatMap_append, List.flatMap_cons, List.append_assoc]
  exact ⟨lead, ts, hbody, fun t ht => lineLead_of_line (lt_line_of_indent ..) hsplit hbody ht⟩

namespace Layout.ReadTo

variable {file source : Text} {maxDepth : Int} {s : Layout}

/-- Reading a source leads to its filter marks, each placed where its line leads off. -/
theorem filterUses_eq (h : ReadTo maxDepth (lex file source) s) :
    s.filterUses = markUses (fun t => (lineLead (lex file source) t).start) (lex file source) := by
  obtain ⟨doctype, ls, start, hlex, hdoctype, hchain, -, hrest, hliterals, hread⟩ := h.exists_sheet
  have hstart : start.filterUses = [] := by
    refine List.flatMap_eq_nil_iff.2 ?_
    intro i hi
    obtain ⟨mark, -, text, rfl⟩ := hliterals i (List.mem_reverse.1 hi)
    rfl
  have hnone : ∀ place, markUses place doctype = [] := by
    intro place
    have hnames := markNames_of_kinds rfl hdoctype (by decide)
    rw [markNames, List.map_eq_nil_iff] at hnames
    rw [markUses, hnames, List.map_nil]
  have hplace : ∀ l ∈ ls, ∃ lead ts, l.body = lead :: ts ∧
      ∀ t ∈ l.body, (lineLead (lex file source) t).start = lead.start := by
    intro l hl
    obtain ⟨lead, ts, hbody, hlead⟩ := exists_lead_of_line hlex hl
    exact ⟨lead, ts, hbody, fun t ht => congrArg Token.start (hlead t ht)⟩
  rw [filterUses_readLines hplace hchain hrest hread, hstart, List.nil_append]
  nth_rewrite 3 [hlex]
  rw [markUses_append, hnone, List.nil_append]

/-- The line of a filter mark leads off with the mark, or with a tag. -/
theorem lineLead_cases (h : ReadTo maxDepth (lex file source) s) {mark : Token}
    (hmem : mark ∈ lex file source) (hk : mark.kind = .filterMark) :
    ∃ lead ∈ lex file source, lineLead (lex file source) mark = lead ∧
      lead.start.line = mark.start.line ∧
      (lead = mark ∨ lead.kind ∈ [.tagMark, .idMark, .classMark]) := by
  obtain ⟨doctype, ls, start, hlex, hdoctype, -⟩ := h.exists_sheet
  obtain ⟨l, hl, hline⟩ : ∃ l ∈ ls, mark ∈ l.tokens := by
    rw [hlex] at hmem
    rcases List.mem_append.1 hmem with hmem | hmem
    · exact absurd (hdoctype (List.mem_map_of_mem hmem)) (by rw [hk]; decide)
    · exact List.mem_flatMap.1 hmem
  have hmark := l.mem_body_of_filterMark hline hk
  obtain ⟨lead, ts, hbody, hlead⟩ := exists_lead_of_line hlex hl
  have hfirst : lead ∈ l.body := hbody ▸ List.mem_cons_self ..
  have hnumber : ∀ t ∈ l.body, t.start.line = l.number :=
    fun t ht => l.line_eq t (List.mem_cons_of_mem _ ht)
  refine ⟨lead, ?_, hlead mark hmark, (hnumber lead hfirst).trans (hnumber mark hmark).symm, ?_⟩
  · rw [hlex]
    refine List.mem_append_right _ (List.mem_flatMap.2 ⟨l, hl, ?_⟩)
    exact List.mem_cons_of_mem _ (List.mem_append_left _ hfirst)
  · obtain ⟨k, ks, hks, hcases⟩ := l.form.head_of_filterMark (List.mem_map.2 ⟨mark, hmark, hk⟩)
    rw [hbody, List.map_cons] at hks
    obtain ⟨rfl, rfl⟩ := List.cons.inj hks
    refine hcases.imp_left fun hfilter => ?_
    rw [hbody] at hmark
    rcases List.mem_cons.1 hmark with rfl | hmark
    · rfl
    · exact absurd (List.mem_map.2 ⟨mark, hmark, hk⟩) hfilter.2

end Layout.ReadTo

/-- The filters of a program are the filter marks of its source, each placed where its line leads
off. -/
theorem Program.filterUses_of_ofTokens_lex {file source contextType : Text} {maxDepth : Int}
    {p : Program} (h : Program.ofTokens contextType maxDepth (lex file source) = .ok p) :
    Engine.filterUses p.code.toList =
      markUses (fun t => (lineLead (lex file source) t).start) (lex file source) := by
  obtain ⟨s, nodes, hs, hmatch, -⟩ := Program.ofTokens_ok h
  have hcode := map_withStop_matchScopes 0 0 (s.closeTo 0).emitted.reverse
  rw [hmatch] at hcode
  obtain ⟨k, hclose⟩ := Layout.exists_emitted_closeTo s 0
  have hnone : Engine.filterUses (List.replicate k .close) = [] := by
    refine List.flatMap_eq_nil_iff.2 ?_
    intro i hi
    rw [List.eq_of_mem_replicate hi]
    rfl
  rw [← filterUses_map_withStop _ 0, hcode, filterUses_map_withStop, hclose, List.reverse_append,
    List.reverse_replicate, Engine.filterUses, List.flatMap_append, ← Engine.filterUses,
    ← Engine.filterUses, hnone, List.append_nil]
  exact hs.filterUses_eq

/-! ## What stands there -/

/-- The value in a tag header is none of the header's marks. -/
theorem ne_of_scanValue {k : TokenKind} {raw t rest : Text} {v : Piece}
    (hk : k ∈ [.tagMark, .idMark, .classMark])
    (h : scanValue endsHeaderWord false t = some (v, rest)) : .token k raw ≠ v := by
  obtain ⟨k', raw', rfl, -, -, hword⟩ := scanValue_token h
  intro he
  cases he
  rcases List.mem_cons.1 (hword rfl) with rfl | hword
  · exact absurd hk (by decide)
  · rw [List.mem_singleton.1 hword] at hk
    exact absurd hk (by decide)

/-- The mark of a tag name, an id or a class is one character, and no colon. -/
theorem char_of_mem_scanMarks {k : TokenKind} {raw t rest : Text} {ps : List Piece}
    (hk : k ∈ [.tagMark, .idMark, .classMark]) (h : scanMarks t = some (ps, rest))
    (hmem : .token k raw ∈ ps) : ∃ c, raw = [c] ∧ c ≠ ':' := by
  fun_induction scanMarks t generalizing ps rest with
  | case1 =>
    cases h
    cases hmem
  | case2 c t hc =>
    cases h
    cases hmem
  | case3 => cases h
  | case4 c t kind hc v rest' hv ih =>
    obtain ⟨⟨qs, rest''⟩, hq, he⟩ := Option.map_eq_some_iff.1 h
    cases he
    rcases List.mem_cons.1 hmem with he | hmem
    · cases he
      refine ⟨c, rfl, ?_⟩
      rintro rfl
      cases hc
    · exact ih hq (List.mem_of_ne_of_mem (ne_of_scanValue hk hv) hmem)

theorem char_of_mem_scanHeader {k : TokenKind} {raw t rest : Text} {ps : List Piece}
    (hk : k ∈ [.tagMark, .idMark, .classMark]) (h : scanHeader t = some (ps, rest))
    (hmem : .token k raw ∈ ps) : ∃ c, raw = [c] ∧ c ≠ ':' := by
  unfold scanHeader at h
  split at h
  · split at h
    · cases h
    · rename_i v rest' hv
      obtain ⟨⟨qs, rest''⟩, hq, he⟩ := Option.map_eq_some_iff.1 h
      cases he
      rcases List.mem_cons.1 hmem with he | hmem
      · cases he
        exact ⟨'%', rfl, by decide⟩
      · exact char_of_mem_scanMarks hk hq (List.mem_of_ne_of_mem (ne_of_scanValue hk hv) hmem)
  · split at h
    · cases h
    · exact char_of_mem_scanMarks hk h hmem

theorem char_of_mem_lex {file source : Text} {t : Token} (h : t ∈ lex file source)
    (hk : t.kind ∈ [.tagMark, .idMark, .classMark]) : ∃ c, t.contents = [c] ∧ c ≠ ':' := by
  obtain ⟨first, block, l, raw, hmem, hcontents⟩ := exists_piece_of_mem_lexLines h
  have hraw : t.contents = raw := by
    rw [hcontents]
    exact contents_eq_raw (fun he => absurd hk (by rw [he]; decide))
      (fun he => absurd hk (by rw [he]; decide)) raw
  rw [hraw]
  cases cutFrom_of_mem_scanLine hmem with
  | indent he | rawText he => exact absurd hk (by rw [he]; decide)
  | doctype t h =>
    exact absurd h (not_mem_of_kinds hk _ (kindsOf_scanDoctype_subset t) (by decide))
  | filter hf h =>
    exact absurd h (not_mem_of_kinds hk _ (kindsOf_scanFilter_subset hf) (by decide))
  | header hh h => exact char_of_mem_scanHeader hk hh h
  | attributes t h =>
    exact absurd h (not_mem_of_kinds hk _ (scanAttributes_cut t).1.subset (by decide))
  | output t h =>
    exact absurd h (not_mem_of_kinds hk _ (kindsOf_scanOutput_subset t) (by decide))

/-- What stands at the place of a token that is not trimmed is its text. -/
theorem exists_drop_of_mem_lex {file source : Text} {t : Token} (ht : t ∈ lex file source)
    (hc : t.kind ≠ .code) (hv : t.kind ≠ .vars) :
    ∃ after, (normalise source).drop t.start.offset = t.contents ++ after := by
  obtain ⟨before, raw, after, htext, hoff, hcon⟩ :=
    ((lexLines_standIn file 0 0 none (normalise source)).2 t ht).stretch
  rw [contents_eq_raw hc hv] at hcon
  refine ⟨after, ?_⟩
  rw [htext, hoff, Nat.zero_add, List.drop_left, hcon]

/-- A text that starts with the token that leads off a line starts with a filter mark of that line
just if the mark leads off. -/
theorem take_eq_mark_iff {lead mark : Token} {name after : Text}
    (hmark : mark.contents = ':' :: name)
    (hlead : lead = mark ∨ ∃ c, lead.contents = [c] ∧ c ≠ ':') :
    (lead.contents ++ after).take (':' :: name).length = ':' :: name ↔ lead = mark := by
  constructor
  · intro htake
    rcases hlead with hlead | ⟨c, hc, hne⟩
    · exact hlead
    · rw [hc, List.singleton_append, List.length_cons, List.take_succ_cons] at htake
      exact absurd (List.cons.inj htake).1 hne
  · rintro rfl
    rw [hmark, List.take_left]

open Editor

/-- What a warning underlines on its line. -/
def Editor.Diagnostic.underlined (source : Text) (d : Diagnostic) : Text :=
  ((lineOf source d.start.line).drop d.start.character).take
    (d.stop.character - d.start.character)

namespace Engine

/-- The filters that a template lists are the filter marks of its source, in order, and each is
placed where the line of its mark leads off behind the indentation. That is the mark itself, or else
the first mark of a tag. What stands at the place, and what a warning about the filter underlines,
is the colon with the name just if the line leads off with the mark, and so just if no tag stands
before the filter. -/
theorem filters_of_compile {e : Engine} {name source contextType : Text} {t : Template}
    (h : e.compile name source contextType = .ok t) :
    t.filters = markUses (fun mark => (lineLead (lex name source) mark).start) (lex name source) ∧
      ∀ mark ∈ lex name source, mark.kind = .filterMark →
        ∃ lead ∈ lex name source, lineLead (lex name source) mark = lead ∧
          lead.start.line = mark.start.line ∧
          (lead = mark ∨ lead.kind ∈ [.tagMark, .idMark, .classMark]) ∧
          ∃ use : FilterUse, use = ⟨Layout.filterName mark.contents, lead.start⟩ ∧
            mark.contents = ':' :: use.name ∧
            (((normalise source).drop use.pos.offset).take (':' :: use.name).length =
              ':' :: use.name ↔ lead = mark) ∧
            ∀ engine d, Diagnostic.ofFilterUse? engine use = some d →
              (d.underlined source = ':' :: use.name ↔ lead = mark) := by
  obtain ⟨hprogram, hfilters, -⟩ := compile_ok h
  obtain ⟨s, nodes, hs, -⟩ := Program.ofTokens_ok hprogram
  refine ⟨hfilters ▸ Program.filterUses_of_ofTokens_lex hprogram, ?_⟩
  intro mark hmem hk
  obtain ⟨lead, hlead, heq, hline, hcases⟩ := hs.lineLead_cases hmem hk
  have hmark := (isFilterMark_of_mem_lex hmem hk).cons_filterName.symm
  have hchar : lead = mark ∨ ∃ c, lead.contents = [c] ∧ c ≠ ':' :=
    hcases.imp_right fun hk => char_of_mem_lex hlead hk
  have hplain : lead.kind ≠ .code ∧ lead.kind ≠ .vars := by
    rcases hcases with rfl | hcases
    · simp [hk]
    · constructor <;> exact fun he => absurd hcases (by rw [he]; decide)
  refine ⟨lead, hlead, heq, hline, hcases, _, rfl, hmark, ?_, ?_⟩
  · obtain ⟨after, hafter⟩ := exists_drop_of_mem_lex hlead hplain.1 hplain.2
    rw [hafter]
    exact take_eq_mark_iff hmark hchar
  · intro engine d hd
    obtain ⟨before, after, hl, hcol⟩ := exists_stretch_of_mem_lex hlead hplain.1 hplain.2
    unfold Diagnostic.ofFilterUse? at hd
    split at hd
    · cases hd
    · cases hd
      rw [Diagnostic.underlined, Position.ofLocation, lineOf_eq hl, hcol, List.drop_left,
        Nat.add_assoc, Nat.add_sub_cancel_left]
      exact take_eq_mark_iff hmark hchar

/-- A filter behind a tag, and one on an indented line of its own: a warning underlines the mark of
the second one only. -/
theorem filters_of_compile_of_both_kinds :
    let source := "%p :foo hi\n  :bar".toList
    let foo : FilterUse := ⟨"foo".toList, {}⟩
    let bar : FilterUse := ⟨"bar".toList, { line := 1, column := 2, offset := 13 }⟩
    (∃ t : Template, ({} : Engine).compile [] source [] = .ok t ∧ t.filters = [foo, bar]) ∧
      (∃ d, Diagnostic.ofFilterUse? {} foo = some d ∧
        d.underlined source ≠ ":foo".toList) ∧
      ∃ d, Diagnostic.ofFilterUse? {} bar = some d ∧
        d.underlined source = ":bar".toList := by
  intro source foo bar
  let t : Template := ⟨[], ⟨[], #[
    .openTag {} [.literal "<p>".toList, .filter "foo".toList "hi".toList]
      [.literal "</p>".toList] 0 2,
    .filtered { line := 1, column := 2, offset := 13 } "bar".toList [] 2, .close]⟩, [foo, bar]⟩
  have h : ({} : Engine).compile [] source [] = .ok t := by decide +kernel
  obtain ⟨hlisted, hmarks⟩ := filters_of_compile h
  let tag : Token := ⟨.tagMark, {}, ['%']⟩
  let fooMark : Token := ⟨.filterMark, { column := 3, offset := 3 }, ":foo".toList⟩
  let barMark : Token := ⟨.filterMark, { line := 1, column := 2, offset := 13 }, ":bar".toList⟩
  have hfoo : lineLead (lex [] source) fooMark = tag := by decide +kernel
  have hbar : lineLead (lex [] source) barMark = barMark := by decide +kernel
  have huses : markUses (fun mark => (lineLead (lex [] source) mark).start) (lex [] source) =
      [foo, bar] := by
    decide +kernel
  obtain ⟨_, -, rfl, -, -, _, rfl, -, -, hwarns⟩ := hmarks fooMark (by decide +kernel) rfl
  obtain ⟨_, -, rfl, -, -, _, rfl, -, -, hwarns'⟩ := hmarks barMark (by decide +kernel) rfl
  rw [hfoo] at hwarns
  rw [hbar] at hwarns'
  let message := Diagnostic.unknownFilter {}
  refine ⟨⟨t, h, hlisted.trans huses⟩,
    ⟨⟨⟨0, 0⟩, ⟨0, 4⟩, .warning, message foo.name⟩, by decide +kernel, fun hunder => ?_⟩,
    ⟨⟨⟨1, 2⟩, ⟨1, 6⟩, .warning, message bar.name⟩, by decide +kernel, ?_⟩⟩
  · have hsame : tag = fooMark := (hwarns {} _ (by decide +kernel)).1 hunder
    exact absurd hsame (by decide)
  · exact (hwarns' {} _ (by decide +kernel)).2 rfl

/-- The filter behind a tag is listed at the place of the tag, three characters before its mark, and
the warning underlines the tag's mark, its name, the blank and the colon. -/
theorem filter_behind_tag_misplaced :
    let source := "%p :foo hi".toList
    ∃ t : Template, ({} : Engine).compile [] source [] = .ok t ∧
      t.filters = [⟨"foo".toList, {}⟩] ∧
      (∃ mark ∈ lex [] source, mark.contents = ":foo".toList ∧ mark.start.offset = 3) ∧
      (∀ use ∈ t.filters, ((normalise source).drop use.pos.offset).take 4 = "%p :".toList) ∧
      (Diagnostic.ofTemplate {} t).map (·.underlined source) = ["%p :".toList] := by
  intro source
  let t : Template := ⟨[], ⟨[], #[.output {} [.literal "<p>".toList,
    .filter "foo".toList "hi".toList, .literal "</p>".toList] 0]⟩, [⟨"foo".toList, {}⟩]⟩
  refine ⟨t, by decide +kernel, rfl, ⟨⟨.filterMark, { column := 3, offset := 3 },
    ":foo".toList⟩, by decide +kernel, rfl, rfl⟩, ?_, by decide +kernel⟩
  intro use huse
  rw [List.mem_singleton.1 huse]
  decide +kernel

end Engine

end Offside
