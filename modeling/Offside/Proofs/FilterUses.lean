import Offside.Engine
import Offside.Proofs.Escaping
import Offside.Proofs.SourceReading

/-!
# The filters of a template are its filter marks

Filters get into a program in two ways: a filter line becomes an instruction of its own, and a
filter behind a tag becomes a fragment of the tag's line. Neither loses a filter, doubles one or
changes the order. Of the tokens of a source, the names of the filters that the program uses are
therefore those of the filter marks, one by one (`filterNames_of_ofTokens_lex`).

Each reader adds the name of the mark that it starts with, if it starts with one; a line of the
grammar has at most one mark, and it stands where a reader starts. The text of a mark is a colon and
the name (`map_contents_filterMarks`).
-/

namespace Offside

/-! ## Names among fragments -/

namespace Fragments

@[simp] theorem filterNames_append (v w : Fragments) :
    filterNames (v ++ w) = v.filterNames ++ w.filterNames :=
  List.filterMap_append

theorem filterNames_eq_nil_iff {v : Fragments} :
    v.filterNames = [] ↔ ∀ name text, .filter name text ∉ v := by
  rw [filterNames, List.filterMap_eq_nil_iff]
  constructor
  · intro h name text hmem
    cases h _ hmem
  · intro h f hf
    cases f with
    | literal | expression => rfl
    | filter name text => exact absurd hf (h name text)

/-- Putting lines together keeps their filters, in order. -/
theorem filterNames_merge (v : Fragments) : (merge v).filterNames = v.filterNames := by
  fun_induction merge v with
  | case1 => rfl
  | case2 a fs b gs hm ih =>
    rw [hm] at ih
    exact ih
  | case3 a fs hm ih => exact ih
  | case4 f fs hf ih =>
    rw [← List.singleton_append, filterNames_append, ih, ← filterNames_append,
      List.singleton_append]

theorem filterNames_join (vs : List Fragments) :
    (join vs).filterNames = vs.flatMap filterNames := by
  rw [join, filterNames_merge, filterNames, List.filterMap_flatten]
  rfl

theorem filterNames_of_isLiteral {v : Fragments} (h : v.isLiteral = true) : v.filterNames = [] := by
  refine filterNames_eq_nil_iff.2 ?_
  intro name text hmem
  cases List.all_eq_true.1 h _ hmem

end Fragments

/-- Text between expressions passes through no filter. -/
theorem filterNames_interpolate (t : Text) : (interpolate t).filterNames = [] := by
  have hfrom : ∀ t name text, .filter name text ∉ (interpolateFrom t).2 := by
    intro t name text
    fun_induction interpolateFrom t with
    | case1 => simp
    | case2 t lit fs hfs ih => simpa [hfs] using ih
    | case3 t n hn lit fs hfs ih => simpa [hfs] using ih
    | case4 t hn lit fs hfs ih => simpa [hfs] using ih
    | case5 c t _ _ lit fs hfs ih => simpa [hfs] using ih
  refine Fragments.filterNames_eq_nil_iff.2 ?_
  intro name text
  simpa [interpolate] using hfrom t name text

/-- A tag itself uses no filter. -/
theorem Tag.filterNames_of_read {stop : Location} {tag : Tag} {ts rest : List Token}
    (h : read stop ts = .ok (some tag, rest)) :
    tag.opening.filterNames = [] ∧ tag.closing.filterNames = [] := by
  have hvalue : ∀ name text (t : Token), .filter name text ∉ tagValue t := by
    intro name text t
    unfold tagValue
    split
    · simp
    · exact not_mem_ofLiteral rfl _
    · exact not_mem_ofLiteral rfl _
  have hnone := fun name text => not_mem_of_read rfl h (hvalue name text)
  exact ⟨Fragments.filterNames_eq_nil_iff.2 fun name text => (hnone name text).1,
    Fragments.filterNames_eq_nil_iff.2 fun name text => (hnone name text).2⟩

namespace Instruction

@[simp] theorem filterNames_withStop (i : Instruction) (n : Nat) :
    (i.withStop n).filterNames = i.filterNames := by
  cases i <;> rfl

@[simp] theorem filterNames_ofFragments (pos : Location) (v : Fragments) (depth : Nat) :
    (ofFragments pos v depth).filterNames = v.filterNames := by
  unfold ofFragments
  split
  · rename_i hv
    exact (Fragments.filterNames_of_isLiteral hv).symm
  · rfl

/-- What a tag takes in brings its filters with it. -/
theorem filterNames_contentOf {i : Instruction} {v : Fragments}
    (h : Layout.contentOf? i = some v) : v.filterNames = i.filterNames := by
  cases i <;> simp only [Layout.contentOf?, Option.some.injEq, reduceCtorEq] at h <;> subst h <;>
    rfl

end Instruction

/-! ## Names among tokens -/

/-- The names in the filter marks of a token list. -/
def markNames (ts : List Token) : List Text :=
  (ts.filter (·.kind == .filterMark)).map fun t => Layout.filterName t.contents

@[simp] theorem markNames_nil : markNames [] = [] := rfl

@[simp] theorem markNames_append (ts us : List Token) :
    markNames (ts ++ us) = markNames ts ++ markNames us := by
  rw [markNames, List.filter_append, List.map_append]
  rfl

theorem markNames_cons_of_mark {t : Token} (h : t.kind = .filterMark) (ts : List Token) :
    markNames (t :: ts) = Layout.filterName t.contents :: markNames ts := by
  simp [markNames, h]

theorem markNames_cons_of_ne {t : Token} (h : t.kind ≠ .filterMark) (ts : List Token) :
    markNames (t :: ts) = markNames ts := by
  simp [markNames, h]

/-- Tokens of other kinds only name no filter. -/
theorem markNames_of_kinds {ts : List Token} {ks known : List TokenKind}
    (hts : ts.map (·.kind) = ks) (hks : ks ⊆ known) (hknown : .filterMark ∉ known) :
    markNames ts = [] := by
  rw [markNames, List.map_eq_nil_iff, List.filter_eq_nil_iff]
  intro t ht hk
  have hmem : t.kind ∈ ks := hts ▸ List.mem_map_of_mem ht
  exact hknown (eq_of_beq hk ▸ hks hmem)

/-- The name in the mark that a token list starts with, if it starts with one. -/
def headNames (ts : List Token) : List Text := markNames (ts.take 1)

theorem headNames_cons_of_mark {t : Token} (h : t.kind = .filterMark) (ts : List Token) :
    headNames (t :: ts) = [Layout.filterName t.contents] :=
  markNames_cons_of_mark h []

theorem headNames_cons_of_ne {t : Token} (h : t.kind ≠ .filterMark) (ts : List Token) :
    headNames (t :: ts) = [] :=
  markNames_cons_of_ne h []

theorem headNames_of_lineEnd {ts : List Token} (h : LineEnd ts) : headNames ts = [] := by
  rcases h with rfl | ⟨t, us, rfl, ht⟩
  · rfl
  · exact headNames_cons_of_ne (by simp [ht]) us

namespace Layout

/-- The filters that the instructions so far use, in the order in which they were read. -/
def filterNames (s : Layout) : List Text := s.emitted.reverse.flatMap (·.filterNames)

variable {limit : Int} {stop : Location} {s s' : Layout} {b : Bool}

theorem filterNames_of_emitted {i : Instruction} (h : s'.emitted = i :: s.emitted) :
    s'.filterNames = s.filterNames ++ i.filterNames := by
  simp [filterNames, h]

theorem filterNames_closeTo (s : Layout) (d : Nat) : (s.closeTo d).filterNames = s.filterNames := by
  obtain ⟨k, hk⟩ := exists_emitted_closeTo s d
  have hclose : (List.replicate k Instruction.close).flatMap (·.filterNames) = [] := by
    rw [List.flatMap_eq_nil_iff]
    intro i hi
    rw [List.eq_of_mem_replicate hi]
    rfl
  rw [filterNames, hk, List.reverse_append, List.reverse_replicate, List.flatMap_append, hclose,
    List.append_nil]
  rfl

/-! ## The readers -/

/-- A filter is named by the mark that it starts with, and it ends its line. -/
theorem filterNames_readFilter {alone : Bool} (h : s.readFilter alone = .ok (b, s')) :
    s'.filterNames = s.filterNames ++ headNames s.rest ∧
      (headNames s.rest ≠ [] → LineEnd s'.rest) := by
  rcases readFilter_cases h with
    ⟨-, rfl, hne⟩ | ⟨mark, ts, text, hr, hm, -, -, hend, -, hem⟩
  · have hnone : headNames s'.rest = [] := by
      cases hr : s'.rest with
      | nil => rfl
      | cons t ts => exact headNames_cons_of_ne (hne t ts hr) ts
    rw [hnone, List.append_nil]
    exact ⟨rfl, fun h => absurd rfl h⟩
  · refine ⟨?_, fun _ => hend⟩
    rw [filterNames_of_emitted hem, hr, headNames_cons_of_mark hm]
    rfl

/-- A tag adds one instruction, which uses no filter. If it opens a scope, its closing text uses
none either. -/
theorem filterNames_readTag (h : s.readTag limit stop = .ok (b, s')) :
    s'.filterNames = s.filterNames ∧
      (b = true → LineEnd s'.rest ∨ ∃ pos opening closing, closing.filterNames = [] ∧
        s'.emitted = .openTag pos opening closing s.depth 0 :: s.emitted) := by
  cases hread : Tag.read stop s.rest with
  | error e =>
    unfold readTag at h
    rw [hread] at h
    cases h
  | ok p =>
    obtain ⟨tag?, rest⟩ := p
    obtain ⟨hw, ⟨rfl, rfl⟩ | ⟨hsome, hlt⟩⟩ := Tag.read_ok hread
    · rw [readTag_of_none hread] at h
      cases h
      exact ⟨rfl, fun hb => nomatch hb⟩
    · obtain ⟨tag, rfl⟩ := Option.isSome_iff_exists.1 hsome
      obtain ⟨t, ts, hts, -⟩ := hw.exists_cons hlt
      obtain ⟨hopening, hclosing⟩ := Tag.filterNames_of_read hread
      rw [readTag_of_some hread hts] at h
      split at h
      · rename_i hcloses
        cases h
        refine ⟨?_, fun _ => .inl (lineEnd_of_nextCloses hcloses)⟩
        rw [filterNames_of_emitted (s := s) rfl, Instruction.filterNames_ofFragments,
          Fragments.filterNames_join]
        simp [hopening, hclosing]
      · obtain ⟨s₁, hopen, h⟩ := map_eq_ok.1 h
        obtain ⟨-, -, hem, -⟩ := openScope_ok hopen
        cases h
        refine ⟨?_, fun _ => .inr ⟨_, _, _, hclosing, hem⟩⟩
        rw [filterNames_of_emitted (s := s) hem]
        simp [Instruction.filterNames, hopening, hclosing]

theorem filterNames_readCode {capture : Bool} {leaf : Location → Text → Nat → Instruction}
    {ts : List Token} (hleaf : ∀ pos source depth, (leaf pos source depth).filterNames = [])
    (h : s.readCode limit stop capture leaf ts = .ok s') : s'.filterNames = s.filterNames := by
  unfold readCode at h
  rw [bind_eq_ok] at h
  obtain ⟨⟨⟨code, vars⟩, rest⟩, -, h⟩ := h
  dsimp only at h
  split at h
  · obtain ⟨-, -, hem, -⟩ := openScope_ok h
    rw [filterNames_of_emitted (s := s) hem]
    exact List.append_nil _
  · split at h
    · cases h
      rw [filterNames_of_emitted (s := s) rfl, hleaf, List.append_nil]
    · cases h

/-- Of all that a line can put out, only a filter uses one. -/
theorem filterNames_readOutput (h : s.readOutput limit stop = .ok (b, s')) :
    s'.filterNames = s.filterNames ++ headNames s.rest := by
  cases hr : s.rest with
  | nil =>
    unfold readOutput at h
    rw [hr] at h
    cases h
    exact (List.append_nil _).symm
  | cons mark ts =>
    unfold readOutput at h
    rw [hr] at h
    dsimp only at h
    by_cases hm : mark.kind = .filterMark
    · rw [hm] at h
      rw [← hr]
      exact (filterNames_readFilter h).1
    · rw [headNames_cons_of_ne hm, List.append_nil]
      split at h
      · exact absurd ‹_› hm
      · obtain ⟨s₁, hcode, h⟩ := bind_eq_ok.1 h
        cases h
        exact filterNames_readCode (fun _ _ _ => rfl) hcode
      · obtain ⟨s₁, hcode, h⟩ := bind_eq_ok.1 h
        cases h
        exact filterNames_readCode (fun _ _ _ => rfl) hcode
      · obtain ⟨⟨comment, rest⟩, -, h⟩ := bind_eq_ok.1 h
        cases h
        rw [filterNames_of_emitted (s := s) rfl]
        exact List.append_nil _
      · cases h
        rw [filterNames_of_emitted (s := s) rfl, Instruction.filterNames_ofFragments,
          filterNames_interpolate, List.append_nil]
      · cases h
        rfl

/-- A tag takes in what follows it on its line without changing the order of the filters. -/
theorem filterNames_fuse {i : Instruction} {pos : Location} {opening closing : Fragments}
    {depth : Nat} {em : List Instruction} (hclosing : closing.filterNames = [])
    (h : s.emitted = i :: .openTag pos opening closing depth 0 :: em) :
    s.fuse.filterNames = s.filterNames := by
  have hbefore : s.filterNames =
      em.reverse.flatMap (·.filterNames) ++ opening.filterNames ++ i.filterNames := by
    simp [filterNames, h, Instruction.filterNames, hclosing]
  rcases fuse_cases h with he | ⟨v, hv, he | he⟩
  · rw [he]
  · rw [he, hbefore]
    simp [filterNames, Fragments.filterNames_join, Instruction.filterNames_contentOf hv, hclosing]
  · rw [he, hbefore]
    simp [filterNames, Instruction.filterNames, Fragments.filterNames_join,
      Instruction.filterNames_contentOf hv, hclosing]

/-! ## Lines -/

/-- Reading what follows the indentation adds the name of the mark that the line starts with and of
the one that stands after its tag, where there are such marks. -/
theorem filterNames_readBody (h : s.readBody limit stop = .ok s') :
    ∃ b₁ s₁ b₂ s₂, s.readFilter true = .ok (b₁, s₁) ∧ s₁.readTag limit stop = .ok (b₂, s₂) ∧
      s'.filterNames = s.filterNames ++ headNames s.rest ++ headNames s₂.rest := by
  unfold readBody at h
  obtain ⟨⟨filtered, s₁⟩, h₁, h⟩ := bind_eq_ok.1 h
  obtain ⟨⟨tagged, s₂⟩, h₂, h⟩ := bind_eq_ok.1 h
  obtain ⟨⟨output, s₃⟩, h₃, h⟩ := bind_eq_ok.1 h
  dsimp only at h₂ h₃ h
  refine ⟨filtered, s₁, tagged, s₂, h₁, h₂, ?_⟩
  have hread : s₃.filterNames = s.filterNames ++ headNames s.rest ++ headNames s₂.rest := by
    rw [filterNames_readOutput h₃, (filterNames_readTag h₂).1, (filterNames_readFilter h₁).1]
  cases h
  split
  · -- a tag takes in the output behind it, and the output is all that was added after the tag
    rename_i hboth
    obtain ⟨rfl, rfl⟩ := Bool.and_eq_true_iff.1 hboth
    rw [← hread]
    rcases (filterNames_readTag h₂).2 rfl with hend | ⟨pos, opening, closing, hclosing, hem⟩
    · cases (readOutput_of_lineEnd hend h₃).1
    · rcases readOutput_ok h₃ with ⟨hb, -⟩ | ⟨-, -, ⟨i, -, -, hem', -⟩ | ⟨_, _, -, -, hem', -⟩⟩
      · cases hb
      · rw [hem] at hem'
        exact filterNames_fuse hclosing hem'
      · rw [hem] at hem'
        exact filterNames_fuse hclosing hem'
  · exact hread

theorem RawBlock.markNames_eq_nil {d : Nat} {block : List Token} (h : RawBlock d block) :
    markNames block = [] := by
  induction h with
  | nil => rfl
  | cons ht _ hu _ ih =>
    rw [markNames_cons_of_ne (by simp [ht]), markNames_cons_of_ne (by simp [hu]), ih]

section LineBody

variable {b₁ b₂ : Bool} {s₁ s₂ : Layout} {us rest : List Token} {ks : List TokenKind}

/-- After a filter the line is at its end, so that no other filter is found. -/
theorem headNames_of_mark {mark : Token} {ts : List Token} (hr : s.rest = mark :: ts)
    (hm : mark.kind = .filterMark) (h₁ : s.readFilter true = .ok (b₁, s₁))
    (h₂ : s₁.readTag limit stop = .ok (b₂, s₂)) :
    headNames s.rest ++ headNames s₂.rest = [filterName mark.contents] := by
  have hname : headNames s.rest = [filterName mark.contents] := by
    rw [hr, headNames_cons_of_mark hm]
  have hend : LineEnd s₁.rest := (filterNames_readFilter h₁).2 (by simp [hname])
  rw [(readTag_of_lineEnd hend h₂).2, headNames_of_lineEnd hend, hname, List.append_nil]

theorem markNames_of_output (rest : List Token) (h : OutputLine ks)
    (hus : us.map (·.kind) = ks) : markNames us = [] ∧ headNames (us ++ rest) = [] := by
  refine ⟨markNames_of_kinds hus h.subset (by decide), ?_⟩
  obtain ⟨k, ks', rfl, hk⟩ := h.head
  obtain ⟨t, ts, rfl, ht, -⟩ := List.map_eq_cons_iff.1 hus
  exact headNames_cons_of_ne (fun he => by simp [← ht, he] at hk) _

/-- What follows a tag has a filter mark only at its start. -/
theorem headNames_of_tail (h : TagTail ks) (hus : us.map (·.kind) = ks) (hend : LineEnd rest) :
    headNames (us ++ rest) = markNames us := by
  cases h with
  | nothing =>
    rw [List.map_eq_nil_iff.1 hus]
    exact headNames_of_lineEnd hend
  | filter =>
    obtain ⟨mark, vs, rfl, hm, hvs⟩ := List.map_eq_cons_iff.1 hus
    rw [List.map_eq_nil_iff.1 hvs, markNames_cons_of_mark hm]
    exact headNames_cons_of_mark hm _
  | filterText =>
    obtain ⟨mark, vs, rfl, hm, hvs⟩ := List.map_eq_cons_iff.1 hus
    obtain ⟨t, vs, rfl, ht, hvs⟩ := List.map_eq_cons_iff.1 hvs
    rw [List.map_eq_nil_iff.1 hvs, markNames_cons_of_mark hm, markNames_cons_of_ne (by simp [ht])]
    exact headNames_cons_of_mark hm _
  | output h =>
    obtain ⟨hnone, hhead⟩ := markNames_of_output rest h hus
    rw [hnone, hhead]

theorem headNames_of_tag {hs as : List TokenKind} (hh : Header hs) (ha : Attributes as)
    (hk : TagTail ks) (hus : us.map (·.kind) = hs ++ (as ++ ks)) (hend : LineEnd rest)
    (hr : s.rest = us ++ rest) (h₁ : s.readFilter true = .ok (b₁, s₁))
    (h₂ : s₁.readTag limit stop = .ok (b₂, s₂)) :
    headNames s.rest ++ headNames s₂.rest = markNames us := by
  rw [List.map_eq_append_iff] at hus
  obtain ⟨us, ws, rfl, hus, hws⟩ := hus
  rw [List.map_eq_append_iff] at hws
  obtain ⟨vs, ws, rfl, hvs, hws⟩ := hws
  rw [List.append_assoc, List.append_assoc] at hr
  -- neither the header nor the attributes have a filter mark
  have hheader : markNames us = [] := markNames_of_kinds hus hh.subset (by decide)
  have hattributes : markNames vs = [] := markNames_of_kinds hvs ha.subset (by decide)
  obtain ⟨k, hs', rfl, hhead⟩ := hh.head
  obtain ⟨t, ts, rfl, ht, -⟩ := List.map_eq_cons_iff.1 hus
  have hne : t.kind ≠ .filterMark := fun he => by simp [← ht, he] at hhead
  rw [readFilter_of_head hr hne] at h₁
  cases h₁
  have hrest : s₂.rest = ws ++ rest := by
    have hgives : Reading.Gives (fun r => r.1 = true ∧ r.2.rest = ws ++ rest) (t :: ts)
        (s.readTag limit stop) :=
      readTag_gives hh ha hus hvs (ends_of_tail hk hws hend) hr
    rw [h₂] at hgives
    exact hgives.2
  have hfirst : headNames s.rest = [] := by
    rw [hr]
    exact headNames_cons_of_ne hne _
  rw [hfirst, hrest, headNames_of_tail hk hws hend, markNames_append, markNames_append, hheader,
    hattributes]
  rfl

theorem headNames_of_lineBody {alone : Bool} {block : List Token} (h : LineBody alone ks)
    (hus : us.map (·.kind) = ks) (hblock : alone = false → block = []) (hend : LineEnd rest)
    (hr : s.rest = us ++ (block ++ rest)) (h₁ : s.readFilter true = .ok (b₁, s₁))
    (h₂ : s₁.readTag limit stop = .ok (b₂, s₂)) :
    headNames s.rest ++ headNames s₂.rest = markNames us := by
  cases h with
  | filter =>
    obtain ⟨mark, vs, rfl, hm, hvs⟩ := List.map_eq_cons_iff.1 hus
    rw [headNames_of_mark hr hm h₁ h₂, markNames_cons_of_mark hm, List.map_eq_nil_iff.1 hvs]
    rfl
  | filterText =>
    obtain ⟨mark, vs, rfl, hm, hvs⟩ := List.map_eq_cons_iff.1 hus
    obtain ⟨t, vs, rfl, ht, hvs⟩ := List.map_eq_cons_iff.1 hvs
    rw [headNames_of_mark hr hm h₁ h₂, markNames_cons_of_mark hm, List.map_eq_nil_iff.1 hvs,
      markNames_cons_of_ne (by simp [ht])]
    rfl
  | output h =>
    rw [hblock rfl, List.nil_append] at hr
    obtain ⟨hnone, hhead⟩ := markNames_of_output rest h hus
    rw [← hr] at hhead
    -- neither a filter nor a tag is found, so that the line is still to be read
    obtain ⟨k, ks', rfl, hk⟩ := h.head
    obtain ⟨t, ts, rfl, ht, -⟩ := List.map_eq_cons_iff.1 hus
    rw [readFilter_of_head hr fun he => by simp [← ht, he] at hk] at h₁
    cases h₁
    have htag : s.readTag limit stop = .ok (false, s) := by
      refine readTag_eq_false ?_
      intro u us he
      rw [hr] at he
      cases he
      subst ht
      exact ⟨fun he => by simp [he] at hk, fun he => by rcases he with he | he <;> simp [he] at hk⟩
    rw [htag] at h₂
    cases h₂
    rw [hhead, hnone]
    rfl
  | tag hh ha hk =>
    rw [hblock rfl, List.nil_append] at hr
    exact headNames_of_tag hh ha hk hus hend hr h₁ h₂

end LineBody

/-- Reading a line of markup adds the names of its filter marks. -/
theorem filterNames_readLine {rest : List Token} (l : MarkupLine) (hend : LineEnd rest)
    (hr : s.rest = l.tokens ++ rest) (h : s.readLine limit stop = .ok s') :
    s'.filterNames = s.filterNames ++ markNames l.tokens := by
  obtain ⟨hrest, -, hem⟩ := readIndent_of_markup l hr
  have hindent : s.readIndent.filterNames = s.filterNames := by
    rw [filterNames, hem]
    exact filterNames_closeTo s l.depth
  have htokens : markNames l.tokens = markNames l.body := by
    rw [MarkupLine.tokens, markNames_cons_of_ne (by simp [l.kind_indent]), markNames_append,
      l.raw.markNames_eq_nil, List.append_nil]
  rw [readLine_eq_readBody] at h
  obtain ⟨b₁, s₁, b₂, s₂, h₁, h₂, hnames⟩ := filterNames_readBody h
  rw [hnames, hindent, List.append_assoc,
    headNames_of_lineBody l.form rfl l.block_eq hend hrest h₁ h₂, htokens]

/-- Reading the lines of a sheet adds the names of all their filter marks. -/
theorem filterNames_readLines {ls : List MarkupLine} (hchain : ls.IsChain MarkupLine.Follows)
    (hr : s.rest = ls.flatMap (·.tokens)) (h : s.readLines limit stop = .ok s') :
    s'.filterNames = s.filterNames ++ markNames (ls.flatMap (·.tokens)) := by
  -- at each line: the names so far, and those of the marks that are still ahead
  have hgives : Reading.Gives (fun t => t.filterNames ++ markNames [] =
      s.filterNames ++ markNames (ls.flatMap (·.tokens))) (ls.flatMap (·.tokens))
      (s.readLines limit stop) := by
    refine readLines_of_sheet (P := fun t ls' => t.filterNames ++
      markNames (ls'.flatMap (·.tokens)) = s.filterNames ++ markNames (ls.flatMap (·.tokens)))
      ?_ hchain hr rfl
    intro l ls' t t' hchain hr ht hread
    rw [← ht, List.flatMap_cons, markNames_append, ← List.append_assoc,
      filterNames_readLine l (MarkupLine.endsBefore_of_isChain hchain).1 hr hread]
  rw [h] at hgives
  simpa [Reading.Gives] using hgives

end Layout

/-! ## Sources -/

/-- The tokens of a source are those of a doctype line, if it has one, and then lines of markup.
Where all of them are read, the doctype line becomes literals, and the lines are read after it. -/
theorem Layout.ReadTo.exists_sheet {file source : Text} {maxDepth : Int} {s : Layout}
    (h : Layout.ReadTo maxDepth (lex file source) s) :
    ∃ (doctype : List Token) (ls : List MarkupLine) (start : Layout),
      lex file source = doctype ++ ls.flatMap (·.tokens) ∧
      doctype.map (·.kind) ⊆ [.doctypeMark, .doctypeWord] ∧ ls.IsChain MarkupLine.Follows ∧
      Layout.readDoctype { rest := lex file source } = .ok start ∧
      start.rest = ls.flatMap (·.tokens) ∧
      (∀ i ∈ start.emitted, ∃ mark ∈ doctype, ∃ text, i = .literal mark.start text 0) ∧
      start.readLines (if maxDepth = 0 then 100 else maxDepth) (endOf (lex file source)) =
        .ok s := by
  obtain ⟨start, hstart, hread⟩ := h
  have hdoctype := hstart
  rcases doctype_cases source with hfirst | ⟨t, ts, rest, hlines, hcut⟩
  · obtain ⟨ls, hlex, hchain, -⟩ := lex_of_not_doctype file hfirst
    rw [hlex, Layout.readDoctype_of_markup] at hstart
    cases hstart
    exact ⟨[], ls, _, hlex, List.nil_subset _, hchain, hdoctype, rfl, by simp, hread⟩
  · obtain ⟨mark, words, ls, hlex, hm, -, hws, -, hchain, -⟩ := lex_of_doctype file hlines hcut
    rw [hlex,
      Layout.readDoctype_of_words hm hws (MarkupLine.not_doctypeWord_of_tokens ls)] at hstart
    split at hstart
    · cases hstart
    · rename_i literals hliterals
      cases hstart
      -- a third word would have stopped the reading
      cases hdrop : words.drop 2 with
      | cons w more =>
        have hw : w.kind = .doctypeWord :=
          hws w (List.mem_of_mem_drop (hdrop ▸ List.mem_cons_self ..))
        rw [hdrop, Layout.readLines_of_doctypeWord rfl hw] at hread
        cases hread
      | nil =>
        rw [hdrop] at hread
        rw [hdrop] at hdoctype
        refine ⟨mark :: words, ls, _, hlex, ?_, hchain, hdoctype, rfl, ?_, hread⟩
        · refine List.cons_subset.2 ⟨by simp [hm], ?_⟩
          intro k hk
          obtain ⟨w, hw, rfl⟩ := List.mem_map.1 hk
          simp [hws w hw]
        · intro i hi
          obtain ⟨text, -, rfl⟩ := List.mem_map.1 (List.mem_reverse.1 hi)
          exact ⟨mark, List.mem_cons_self .., text, rfl⟩

/-- The filters that reading a source leads to are those of its marks. -/
theorem Layout.filterNames_readTo {file source : Text} {maxDepth : Int} {s : Layout}
    (h : Layout.ReadTo maxDepth (lex file source) s) :
    s.filterNames = markNames (lex file source) := by
  obtain ⟨doctype, ls, start, hlex, hdoctype, hchain, -, hrest, hliterals, hread⟩ := h.exists_sheet
  have hstart : start.filterNames = [] := by
    refine List.flatMap_eq_nil_iff.2 ?_
    intro i hi
    obtain ⟨mark, -, text, rfl⟩ := hliterals i (List.mem_reverse.1 hi)
    rfl
  rw [filterNames_readLines hchain hrest hread, hstart, hlex, markNames_append,
    markNames_of_kinds rfl hdoctype (by decide)]

/-- The filters that a program uses are the names in the filter marks of its source. -/
theorem Program.filterNames_of_ofTokens_lex {file source contextType : Text} {maxDepth : Int}
    {p : Program} (h : Program.ofTokens contextType maxDepth (lex file source) = .ok p) :
    p.code.toList.flatMap (·.filterNames) = markNames (lex file source) := by
  obtain ⟨s, nodes, hs, hmatch, -⟩ := Program.ofTokens_ok h
  -- matching the scopes changes no filter
  have hstops : ∀ code : List Instruction,
      (code.map (·.withStop 0)).flatMap (·.filterNames) = code.flatMap (·.filterNames) := by
    intro code
    simp [List.flatMap_map]
  have hcode := map_withStop_matchScopes 0 0 (s.closeTo 0).emitted.reverse
  rw [hmatch] at hcode
  rw [← hstops, hcode, hstops, ← Layout.filterNames_readTo hs]
  exact s.filterNames_closeTo 0

/-! ## The text of a filter mark -/

/-- A colon, and the characters of a name. -/
def IsFilterMark (raw : Text) : Prop :=
  ∃ name : Text, raw = ':' :: name ∧ ∀ c ∈ name, isFilterNameChar c = true

/-- The name in a filter mark is all but its colon. -/
theorem IsFilterMark.cons_filterName {raw : Text} (h : IsFilterMark raw) :
    ':' :: Layout.filterName raw = raw := by
  obtain ⟨name, rfl, hname⟩ := h
  have hplain : ∀ c ∈ name, ¬ (c == ':' || c == ' ') = true := by
    intro c hc hends
    have hchar := hname c hc
    rcases Bool.or_eq_true_iff.1 hends with he | he <;> rw [eq_of_beq he] at hchar <;>
      exact absurd hchar (by decide)
  have hdrop : ∀ t : Text, t ⊆ name → t.dropWhile (fun c => c == ':' || c == ' ') = t := by
    intro t ht
    cases t with
    | nil => rfl
    | cons c t => exact List.dropWhile_cons_of_neg (hplain c (ht (List.mem_cons_self ..)))
  rw [Layout.filterName, Text.trimBoth, List.dropWhile_cons_of_pos (by decide),
    hdrop name (List.Subset.refl _), hdrop name.reverse fun c hc => List.mem_reverse.1 hc,
    List.reverse_reverse]

/-- Every filter mark among the pieces is a colon with a name. -/
def MarksFilters (ps : List Piece) : Prop :=
  ∀ raw, .token .filterMark raw ∈ ps → IsFilterMark raw

namespace MarksFilters

theorem of_kinds {ps : List Piece} (known : List TokenKind) (hks : kindsOf ps ⊆ known)
    (hknown : .filterMark ∉ known) : MarksFilters ps :=
  fun _ hmem => absurd (hks (List.mem_filterMap.2 ⟨_, hmem, rfl⟩)) hknown

theorem append {ps qs : List Piece} (hp : MarksFilters ps) (hq : MarksFilters qs) :
    MarksFilters (ps ++ qs) :=
  fun raw hmem => (List.mem_append.1 hmem).elim (hp raw) (hq raw)

/-- A piece that is no filter mark adds none. -/
theorem cons {p : Piece} {ps : List Piece} (hp : p.kind? ≠ some .filterMark)
    (hps : MarksFilters ps) : MarksFilters (p :: ps) := by
  intro raw hmem
  rcases List.mem_cons.1 hmem with rfl | hmem
  · exact absurd rfl hp
  · exact hps raw hmem

end MarksFilters

theorem scanFilter_marks {t : Text} {ps : List Piece} {content : Bool}
    (h : scanFilter t = some (ps, content)) : MarksFilters ps := by
  unfold scanFilter at h
  split at h
  · intro raw hmem
    split at h <;> cases h <;> rename_i hs
    all_goals
      simp only [List.mem_cons, Piece.token.injEq, reduceCtorEq, false_and, List.not_mem_nil,
        or_false, true_and] at hmem
      exact ⟨_, hmem, all_of_splitWhile hs⟩
  · cases h

theorem scanTrailingFilter_marks {t : Text} {ps : List Piece} (h : scanTrailingFilter t = some ps) :
    MarksFilters ps := by
  unfold scanTrailingFilter at h
  split at h
  · cases h
  · obtain ⟨⟨qs, content⟩, hq, he⟩ := Option.map_eq_some_iff.1 h
    cases he
    exact (scanFilter_marks hq).cons (by simp [Piece.kind?])

theorem scanOutput_marks (t : Text) : MarksFilters (scanOutput t) :=
  .of_kinds _ (kindsOf_scanOutput_subset t) (by decide)

theorem scanBody_marks (t : Text) : MarksFilters (scanBody t).1 := by
  unfold scanBody
  split
  · rename_i hf
    exact scanFilter_marks hf
  · split
    · exact scanOutput_marks t
    · rename_i header rest hh
      have hheader : MarksFilters header := .of_kinds _ (scanHeader_cut hh).1.subset (by decide)
      have hattributes : MarksFilters (scanAttributes rest).1 :=
        .of_kinds _ (scanAttributes_cut rest).1.subset (by decide)
      dsimp only
      split
      · rename_i hp
        exact (hheader.append hattributes).append (scanTrailingFilter_marks hp)
      · exact (hheader.append hattributes).append
          ((scanOutput_marks _).cons (by simp [Piece.kind?]))

theorem scanDoctype_marks (t : Text) : MarksFilters (scanDoctype t) :=
  .of_kinds _ (kindsOf_scanDoctype_subset t) (by decide)

theorem scanLine_marks (first : Bool) (block : Option Nat) (t : Text) :
    MarksFilters (scanLine first block t).1 := by
  have hmarkup : MarksFilters (scanMarkup t).1 :=
    (scanBody_marks _).cons (by simp [Piece.kind?])
  unfold scanLine
  split
  · exact .of_kinds _ (List.nil_subset []) (by simp)
  · split
    · exact .of_kinds [.indent, .text] (List.Subset.refl _) (by decide)
    · split
      · split
        · exact scanDoctype_marks _
        · exact hmarkup
      · exact hmarkup

/-- The filter marks of a source are colons with names. -/
theorem isFilterMark_of_mem_lex {file source : Text} {t : Token} (h : t ∈ lex file source)
    (hk : t.kind = .filterMark) : IsFilterMark t.contents := by
  obtain ⟨first, block, l, raw, hmem, hcontents⟩ := exists_piece_of_mem_lexLines h
  rw [hk] at hmem hcontents
  rw [hcontents]
  exact scanLine_marks first block l raw hmem

/-- The texts of the filter marks of a source are the names in them, with a colon before each. -/
theorem map_contents_filterMarks (file source : Text) :
    ((lex file source).filter (·.kind == .filterMark)).map (·.contents) =
      (markNames (lex file source)).map (':' :: ·) := by
  rw [markNames, List.map_map]
  refine List.map_congr_left fun t ht => ?_
  obtain ⟨hmem, hk⟩ := List.mem_filter.1 ht
  exact (isFilterMark_of_mem_lex hmem (eq_of_beq hk)).cons_filterName.symm

end Offside
