import Offside.Proofs.PrettyOutput
import Offside.Proofs.SourceReading

/-!
# What a line of markup makes

Reading a line of markup adds a few instructions, and which ones they are depends on three things
only: the tokens of the line, how deep it is indented, and whether the line after it is deeper. This
module says it once and in full (`Layout.Makes`): what a line puts out by itself, what is left of
it behind a tag, and how the two are joined. What lines make one after the other is then put
together (`MadeBy`).
-/

namespace Offside
namespace Layout

/-! ## The line that follows -/

/-- Whether the tokens start with a line that is deeper than `d`. -/
def deeperThan (d : Nat) : List Token → Bool
  | [] => false
  | t :: _ => t.kind == .indent && d < t.depth

theorem nextIsDeeper_eq (s : Layout) : s.nextIsDeeper = deeperThan s.depth s.rest := by
  unfold nextIsDeeper deeperThan
  cases s.rest <;> rfl

/-- At the end of a line, the next one is deeper or closes the line. -/
theorem nextCloses_eq {s : Layout} (h : LineEnd s.rest) :
    s.nextCloses = !deeperThan s.depth s.rest := by
  unfold nextCloses deeperThan
  rcases h with hr | ⟨t, ts, hr, ht⟩
  · rw [hr]
    rfl
  · rw [hr]
    simp only [ht, beq_self_eq_true, Bool.true_and]
    rw [← decide_not]
    exact decide_eq_decide.mpr Nat.not_lt.symm

/-! ## What output makes -/

/-- Output that a tag can take in, by its tokens, and the instruction that it is by itself. An
expression is only put out where no deeper line follows. -/
inductive Content (d : Nat) (deeper : Bool) : List Token → Instruction → Prop
  | text {t : Token} (ht : t.kind = .text) :
    Content d deeper [t] (.ofFragments t.start (interpolate t.contents) d)
  | comment {mark c : Token} (hm : mark.kind = .commentMark) (hc : c.kind = .comment) :
    Content d deeper [mark, c]
      (.literal mark.start ("<!-- ".toList ++ c.contents ++ " -->".toList) d)
  | value {mark c : Token} (hm : mark.kind = .outputMark) (hc : c.kind = .code)
    (hdeeper : deeper = false) :
    Content d deeper [mark, c]
      (.output c.start [.expression c.contents (mark.contents == ['='])] d)
  | filter {mark : Token} {ts : List Token} (hm : mark.kind = .filterMark)
    (hts : ∀ t ∈ ts, t.kind ≠ .indent) :
    Content d deeper (mark :: ts)
      (.filtered mark.start (filterName mark.contents) (ts.flatMap (·.contents)) d)

theorem Content.exists_content {d : Nat} {deeper : Bool} {out : List Token} {i : Instruction}
    (h : Content d deeper out i) : ∃ v, contentOf? i = some v := by
  cases h with
  | text =>
    unfold Instruction.ofFragments
    split
    · exact ⟨_, rfl⟩
    · exact ⟨_, rfl⟩
  | comment | value | filter => exact ⟨_, rfl⟩

/-- All that a line can put out, by its tokens: nothing, something that a tag can take in, an
expression that is only evaluated, or a control block. -/
inductive Emits (d : Nat) (deeper : Bool) : List Token → List Instruction → Prop
  | nothing : Emits d deeper [] []
  | content {out : List Token} {i : Instruction} (h : Content d deeper out i) :
    Emits d deeper out [i]
  | exec {mark c : Token} (hm : mark.kind = .silentMark) (hc : c.kind = .code)
    (hdeeper : deeper = false) : Emits d deeper [mark, c] [.exec c.start c.contents]
  | control {mark c : Token} {more : List Token} {vars : List Text} (hm : IsCodeMark mark.kind)
    (hc : c.kind = .code) (hdeeper : deeper = true) :
    Emits d deeper (mark :: c :: more)
      [.openControl c.start ⟨c.contents, vars, mark.kind == .outputMark⟩ d 0]

/-- What is put out is one instruction, which a tag can take in, or cannot. -/
theorem Emits.cases_of_ne_nil {d : Nat} {deeper : Bool} {out : List Token}
    {new : List Instruction} (h : Emits d deeper out new) (hne : out ≠ []) :
    ∃ i, new = [i] ∧ (Content d deeper out i ∨ contentOf? i = none) := by
  cases h with
  | nothing => exact absurd rfl hne
  | content h => exact ⟨_, rfl, .inl h⟩
  | exec | control => exact ⟨_, rfl, .inr rfl⟩

section Output

variable {limit : Int} {stop : Location} {b : Bool} {s s' : Layout} {us rest : List Token}

/-- The output of a line has been read to its end, and has made what it makes. -/
structure OutputRead (us rest : List Token) (s : Layout) (b : Bool) (s' : Layout) : Prop where
  rest_eq : s'.rest = rest
  output_iff : b = true ↔ us ≠ []
  emits : ∃ new, Emits s.depth (deeperThan s.depth rest) us new ∧ s'.emitted = new ++ s.emitted
  depth_eq : s'.depth = s.depth

theorem outputRead_emit {i : Instruction} (hne : us ≠ [])
    (h : Content s.depth (deeperThan s.depth rest) us i) :
    OutputRead us rest s true (emit { s with rest } i) where
  rest_eq := rfl
  output_iff := iff_of_true rfl hne
  emits := ⟨[i], .content h, rfl⟩
  depth_eq := rfl

/-- A code line: a control block if a deeper line follows, and otherwise an expression. -/
theorem outputRead_of_code {mark c : Token} {more ts : List Token} {vars : List Text}
    {leaf : Location → Text → Nat → Instruction} (hm : IsCodeMark mark.kind)
    (hc : c.kind = .code) (hbody : readCodeBody stop ts = .ok ((c, vars), rest))
    (hleaf : vars = [] → deeperThan s.depth rest = false →
      Emits s.depth (deeperThan s.depth rest) (mark :: c :: more)
        [leaf c.start c.contents s.depth])
    (h : readCode limit stop (mark.kind == .outputMark) leaf s ts = .ok s') :
    OutputRead (mark :: c :: more) rest s true s' := by
  have hnext : nextIsDeeper { s with rest } = deeperThan s.depth rest := nextIsDeeper_eq _
  have hne : mark :: c :: more ≠ [] := List.cons_ne_nil _ _
  unfold readCode at h
  rw [hbody] at h
  change (if nextIsDeeper { s with rest } then _ else _) = _ at h
  rw [hnext] at h
  cases hdeep : deeperThan s.depth rest with
  | true =>
    rw [hdeep, if_pos rfl] at h
    obtain ⟨-, hrest, hem, hpe⟩ := openScope_ok h
    refine ⟨hrest, iff_of_true rfl hne, ⟨_, .control hm hc hdeep, hem⟩, ?_⟩
    simp only [depth, hpe]
  | false =>
    rw [hdeep, if_neg Bool.false_ne_true] at h
    split at h
    · rename_i hvars
      cases h
      exact ⟨rfl, iff_of_true rfl hne, ⟨_, hleaf (List.isEmpty_iff.1 hvars) hdeep, rfl⟩, rfl⟩
    · cases h

theorem outputRead_of_output {ks : List TokenKind} (h : OutputLine ks)
    (hus : us.map (·.kind) = ks) (hend : LineEnd rest) (hr : s.rest = us ++ rest)
    (hok : s.readOutput limit stop = .ok (b, s')) : OutputRead us rest s b s' := by
  unfold readOutput at hok
  rw [hr] at hok
  -- both marks of a code line go on in the same way, with and without variables
  have hcode : ∀ {mark c : Token} {more : List Token} {vars : List Text}, us = mark :: c :: more →
      IsCodeMark mark.kind → c.kind = .code →
      (readCodeBody stop (c :: (more ++ rest)) = .ok ((c, vars), rest)) →
      (vars = [] → more = []) → OutputRead us rest s b s' := by
    rintro mark c more vars rfl hm hc hbody hvars
    dsimp only [List.cons_append] at hok
    rcases hm with hm | hm
    · rw [hm] at hok
      obtain ⟨s₁, hread, hs₁⟩ := bind_eq_ok.1 hok
      cases hs₁
      refine outputRead_of_code (.inl hm) hc hbody ?_ (by rwa [hm])
      intro hnone hdeep
      cases hvars hnone
      exact .content (.value hm hc hdeep)
    · rw [hm] at hok
      obtain ⟨s₁, hread, hs₁⟩ := bind_eq_ok.1 hok
      cases hs₁
      refine outputRead_of_code (.inr hm) hc hbody ?_ (by rwa [hm])
      intro hnone hdeep
      cases hvars hnone
      exact .exec hm hc hdeep
  cases h with
  | text =>
    obtain ⟨t, vs, rfl, ht, hvs⟩ := List.map_eq_cons_iff.1 hus
    cases List.map_eq_nil_iff.1 hvs
    dsimp only [List.cons_append, List.nil_append] at hok
    rw [ht] at hok
    cases hok
    exact outputRead_emit (List.cons_ne_nil _ _) (.text ht)
  | comment =>
    obtain ⟨mark, vs, rfl, hm, hvs⟩ := List.map_eq_cons_iff.1 hus
    obtain ⟨c, ws, rfl, hc, hws⟩ := List.map_eq_cons_iff.1 hvs
    cases List.map_eq_nil_iff.1 hws
    dsimp only [List.cons_append, List.nil_append] at hok
    rw [hm] at hok
    obtain ⟨⟨c', rest'⟩, htake, hs'⟩ := bind_eq_ok.1 hok
    obtain ⟨he, -⟩ := takeOne_ok htake
    cases he
    cases hs'
    exact outputRead_emit (List.cons_ne_nil _ _) (.comment hm hc)
  | code hm =>
    obtain ⟨mark, vs, he, rfl, hvs⟩ := List.map_eq_cons_iff.1 hus
    obtain ⟨c, ws, rfl, hc, hws⟩ := List.map_eq_cons_iff.1 hvs
    cases List.map_eq_nil_iff.1 hws
    exact hcode he hm hc (readCodeBody_of_lineEnd hc hend) fun _ => rfl
  | lambda hm =>
    obtain ⟨mark, vs, he, rfl, hvs⟩ := List.map_eq_cons_iff.1 hus
    obtain ⟨c, ws, rfl, hc, hws⟩ := List.map_eq_cons_iff.1 hvs
    obtain ⟨a, xs, rfl, ha, hxs⟩ := List.map_eq_cons_iff.1 hws
    obtain ⟨v, ys, rfl, hv, hys⟩ := List.map_eq_cons_iff.1 hxs
    cases List.map_eq_nil_iff.1 hys
    refine hcode he hm hc (readCodeBody_of_arrow hc ha hv) ?_
    intro hnone
    exact absurd (List.map_eq_nil_iff.1 hnone) (Text.splitAt_ne_nil _ _)

/-- What follows a tag makes what it makes. -/
theorem outputRead_of_tail {ks : List TokenKind} (h : TagTail ks) (hus : us.map (·.kind) = ks)
    (hend : LineEnd rest) (hr : s.rest = us ++ rest)
    (hok : s.readOutput limit stop = .ok (b, s')) : OutputRead us rest s b s' := by
  have hfilter : ∀ {mark : Token} {vs : List Token}, us = mark :: vs → mark.kind = .filterMark →
      (∀ t ∈ vs, t.kind ≠ .indent) → OutputRead us rest s b s' := by
    rintro mark vs rfl hm hvs
    rw [List.cons_append] at hr
    unfold readOutput at hok
    rw [hr] at hok
    dsimp only at hok
    rw [hm] at hok
    dsimp only at hok
    rw [readFilter_line hr hm (Bool.false_and _), dropWhile_of_lineEnd hvs hend,
      takeWhile_of_lineEnd hvs hend] at hok
    cases hok
    exact outputRead_emit (List.cons_ne_nil _ _) (.filter hm hvs)
  cases h with
  | nothing =>
    cases List.map_eq_nil_iff.1 hus
    rw [List.nil_append] at hr
    rw [readOutput_eq_false (by rwa [hr])] at hok
    cases hok
    exact ⟨hr, iff_of_false Bool.false_ne_true (not_not_intro rfl), ⟨[], .nothing, rfl⟩, rfl⟩
  | filter =>
    obtain ⟨mark, vs, he, hm, hvs⟩ := List.map_eq_cons_iff.1 hus
    exact hfilter he hm (by simp [List.map_eq_nil_iff.1 hvs])
  | filterText =>
    obtain ⟨mark, vs, he, hm, hvs⟩ := List.map_eq_cons_iff.1 hus
    obtain ⟨t, ws, rfl, ht, hws⟩ := List.map_eq_cons_iff.1 hvs
    exact hfilter he hm (by simp [List.map_eq_nil_iff.1 hws, ht])
  | output h => exact outputRead_of_output h hus hend hr hok

end Output

/-! ## What a line makes -/

/-- What a line at depth `d` makes of its tokens, where `rest` are the tokens after it. The
instructions are given newest first. -/
inductive Makes (stop : Location) (d : Nat) (rest body : List Token) : List Instruction → Prop
  /-- A filter line, with its text on the line or in the block below. -/
  | filter {mark : Token} {more : List Token} (hbody : body = mark :: more)
    (hm : mark.kind = .filterMark) (text : Text) :
    Makes stop d rest body [.filtered mark.start (filterName mark.contents) text d]
  /-- Output without a tag. -/
  | output {i : Instruction} (htag : Tag.read stop (body ++ rest) = .ok (none, body ++ rest))
    (h : Emits d (deeperThan d rest) body [i]) : Makes stop d rest body [i]
  /-- A tag alone. -/
  | tag {lead : Token} {more : List Token} {tag : Tag} (hbody : body = lead :: more)
    (htag : Tag.read stop (body ++ rest) = .ok (some tag, rest)) :
    Makes stop d rest body [
      if deeperThan d rest then .openTag lead.start tag.opening tag.closing d 0
      else .ofFragments lead.start (Fragments.join [tag.opening, tag.closing]) d]
  /-- A tag that takes in the output behind it. -/
  | joined {lead : Token} {more out : List Token} {tag : Tag} {i : Instruction} {v : Fragments}
    (hbody : body = lead :: more)
    (htag : Tag.read stop (body ++ rest) = .ok (some tag, out ++ rest))
    (h : Content d (deeperThan d rest) out i) (hv : contentOf? i = some v) :
    Makes stop d rest body [
      if deeperThan d rest then
        .openTag lead.start (Fragments.join [tag.opening, v]) tag.closing d 0
      else .ofFragments lead.start (Fragments.join [tag.opening, v, tag.closing]) d]
  /-- A tag around what it cannot take in. -/
  | around {lead : Token} {more out : List Token} {tag : Tag} {i : Instruction}
    (hbody : body = lead :: more)
    (htag : Tag.read stop (body ++ rest) = .ok (some tag, out ++ rest))
    (h : Emits d (deeperThan d rest) out [i]) (hi : contentOf? i = none) :
    Makes stop d rest body [i, .openTag lead.start tag.opening tag.closing d 0]

/-! ## Where it is placed -/

section Places

variable {stop : Location} {d : Nat} {deeper : Bool} {rest body out : List Token}
  {new : List Instruction}

theorem Emits.place (h : Emits d deeper out new) :
    ∀ i ∈ new, i.closes = false ∧ ∃ t ∈ out, i.pos = t.start := by
  cases h with
  | nothing => simp
  | content h =>
    intro i hi
    rw [List.mem_singleton.1 hi]
    cases h with
    | text =>
      refine ⟨?_, _, List.mem_cons_self, Instruction.pos_ofFragments ..⟩
      exact (Instruction.isLeaf_iff.1 (Instruction.isLeaf_ofFragments ..)).2
    | comment | filter => exact ⟨rfl, _, List.mem_cons_self, rfl⟩
    | value => exact ⟨rfl, _, List.mem_cons_of_mem _ List.mem_cons_self, rfl⟩
  | exec | control =>
    intro i hi
    rw [List.mem_singleton.1 hi]
    exact ⟨rfl, _, List.mem_cons_of_mem _ List.mem_cons_self, rfl⟩

/-- What is read as a tag leads off with one of its marks. -/
theorem kind_of_readTag {tag : Tag} {t : Token} {ts : List Token}
    (h : Tag.read stop (t :: ts) = .ok (some tag, rest)) :
    t.kind ∈ [.tagMark, .idMark, .classMark] := by
  by_contra hne
  have hnone : Tag.read stop (t :: ts) = .ok (none, t :: ts) := by
    refine Tag.read_eq_none stop ?_
    intro u us he
    cases he
    simpa [IsMark] using hne
  rw [h] at hnone
  cases hnone

/-- What is left of a line behind its tag is of the line. -/
theorem subset_of_read {tag? : Option Tag}
    (h : Tag.read stop (body ++ rest) = .ok (tag?, out ++ rest)) : out ⊆ body := by
  obtain ⟨⟨read, hread, -⟩, -⟩ := Tag.read_ok h
  rw [← List.append_assoc] at hread
  rw [List.append_cancel_right hread]
  exact List.subset_append_right ..

/-- What a line makes closes nothing and is placed on the line. -/
theorem Makes.place (h : Makes stop d rest body new) :
    ∀ i ∈ new, i.closes = false ∧ ∃ t ∈ body, i.pos = t.start := by
  have hlead : ∀ {lead : Token} {more : List Token} {i : Instruction}, body = lead :: more →
      i.closes = false → i.pos = lead.start → i.closes = false ∧ ∃ t ∈ body, i.pos = t.start := by
    rintro lead more i rfl hclose hpos
    exact ⟨hclose, lead, List.mem_cons_self, hpos⟩
  have hentry : ∀ (pos : Location) (v : Fragments),
      (Instruction.ofFragments pos v d).closes = false :=
    fun pos v => (Instruction.isLeaf_iff.1 (Instruction.isLeaf_ofFragments ..)).2
  cases h with
  | filter hbody => simpa using hlead hbody rfl rfl
  | output _ h => exact h.place
  | tag hbody =>
    simp only [List.mem_singleton, forall_eq]
    split
    · exact hlead hbody rfl rfl
    · exact hlead hbody (hentry ..) (Instruction.pos_ofFragments ..)
  | joined hbody =>
    simp only [List.mem_singleton, forall_eq]
    split
    · exact hlead hbody rfl rfl
    · exact hlead hbody (hentry ..) (Instruction.pos_ofFragments ..)
  | @around lead more out tag i hbody htag h =>
    intro j hj
    rcases List.mem_cons.1 hj with rfl | hj
    · obtain ⟨hclose, t, ht, hpos⟩ := h.place j List.mem_cons_self
      exact ⟨hclose, t, subset_of_read htag ht, hpos⟩
    · rw [List.mem_singleton.1 hj]
      exact hlead hbody rfl rfl

end Places

/-! ## Reading a line -/

section Lines

variable {limit : Int} {stop : Location} {s s' : Layout} {us rest : List Token}

/-- How a tag is joined with what it can take in. -/
theorem emitted_fuse {i : Instruction} {pos : Location} {opening closing v : Fragments} {d : Nat}
    {em : List Instruction} (hem : s.emitted = i :: .openTag pos opening closing d 0 :: em)
    (hv : contentOf? i = some v) (hend : LineEnd s.rest) :
    s.fuse.emitted =
      (if deeperThan s.depth s.rest then .openTag pos (Fragments.join [opening, v]) closing d 0
        else .ofFragments pos (Fragments.join [opening, v, closing]) d) :: em := by
  unfold fuse
  rw [hem]
  dsimp only
  rw [hv]
  dsimp only
  rw [nextCloses_eq hend, nextIsDeeper_eq]
  cases deeperThan s.depth s.rest <;> rfl

theorem emitted_fuse_of_none {i : Instruction} {pos : Location} {opening closing : Fragments}
    {d : Nat} {em : List Instruction}
    (hem : s.emitted = i :: .openTag pos opening closing d 0 :: em) (hv : contentOf? i = none) :
    s.fuse = s := by
  unfold fuse
  rw [hem]
  dsimp only
  rw [hv]

/-- A tag with what follows it makes what it makes. -/
theorem makes_of_tag {hs as ks : List TokenKind} (hh : Header hs) (ha : Attributes as)
    (hk : TagTail ks) (hus : us.map (·.kind) = hs ++ (as ++ ks)) (hend : LineEnd rest)
    (hr : s.rest = us ++ rest) (h : s.readBody limit stop = .ok s') :
    ∃ new, Makes stop s.depth rest us new ∧ s'.emitted = new ++ s.emitted := by
  obtain ⟨ts, vs', hsplit, hts, hvs'⟩ := List.map_eq_append_iff.1 hus
  obtain ⟨vs, out, rfl, hvs, hout⟩ := List.map_eq_append_iff.1 hvs'
  obtain ⟨tag, hread⟩ := Tag.read_of_header stop hh ha hts hvs (ends_of_tail hk hout hend)
  have htag : Tag.read stop (us ++ rest) = .ok (some tag, out ++ rest) := by
    rw [hsplit, List.append_assoc, List.append_assoc]
    exact hread
  obtain ⟨lead, more, hbody, hlead⟩ :
      ∃ lead more, us = lead :: more ∧ lead.kind ∈ [.tagMark, .idMark, .classMark] := by
    obtain ⟨k, hs', rfl, hmem⟩ := hh.head
    obtain ⟨lead, more, rfl, rfl, -⟩ := List.map_eq_cons_iff.1 hts
    exact ⟨lead, _, hsplit, hmem⟩
  have hr' : s.rest = lead :: (more ++ rest) := by rw [hr, hbody, List.cons_append]
  unfold readBody at h
  obtain ⟨f, hf, h⟩ := bind_eq_ok.1 h
  rw [readFilter_of_head hr' (fun he => by simp [he] at hlead)] at hf
  cases hf
  obtain ⟨⟨tagged, s₁⟩, h₁, h⟩ := bind_eq_ok.1 h
  obtain ⟨⟨output, s₂⟩, h₂, h⟩ := bind_eq_ok.1 h
  dsimp only at h₁ h₂ h
  rw [readTag_of_some (by rw [hr]; exact htag) hr'] at h₁
  by_cases hnone : out = []
  · -- the tag is alone on its line
    subst hnone
    rw [List.nil_append] at h₁ htag
    rw [nextCloses_eq (s := { s with rest }) hend] at h₁
    refine ⟨_, .tag hbody htag, ?_⟩
    show s'.emitted = (if deeperThan s.depth rest then _ else _) :: s.emitted
    change (if (!deeperThan s.depth rest) = true then _ else _) = _ at h₁
    cases hdeep : deeperThan s.depth rest with
    | false =>
      rw [hdeep] at h₁
      cases h₁
      rw [readOutput_eq_false hend] at h₂
      cases h₂
      cases h
      rfl
    | true =>
      rw [hdeep] at h₁
      obtain ⟨s₀, hopen, he⟩ := map_eq_ok.1 h₁
      cases he
      obtain ⟨-, hrest, hem, -⟩ := openScope_ok hopen
      have hrest : s₁.rest = rest := hrest
      rw [readOutput_eq_false (by rwa [hrest])] at h₂
      cases h₂
      cases h
      exact hem
  · -- there is more on the line, so that the scope is opened first
    obtain ⟨w, ws, hw⟩ := List.exists_cons_of_ne_nil hnone
    have hopens : nextCloses { s with rest := out ++ rest } = false := by
      obtain rfl | ⟨k, ks', rfl, hkind⟩ := hk.head
      · exact absurd (List.map_eq_nil_iff.1 hout) hnone
      · rw [hw, List.map_cons] at hout
        obtain ⟨rfl, -⟩ := List.cons.inj hout
        rw [hw]
        show (w.kind == .indent && _) = false
        rw [Bool.and_eq_false_iff, beq_eq_false_iff_ne]
        exact .inl fun he => by simp [he] at hkind
    rw [hopens, if_neg Bool.false_ne_true] at h₁
    obtain ⟨s₀, hopen, he⟩ := map_eq_ok.1 h₁
    cases he
    obtain ⟨-, hrest, hem, hpe⟩ := openScope_ok hopen
    have hdepth : s₁.depth = s.depth := by
      simp only [depth, hpe]
    obtain ⟨hrest₂, houtput, ⟨new, hemits, hem₂⟩, hdepth₂⟩ :=
      outputRead_of_tail hk hout hend hrest h₂
    rw [hdepth] at hemits hdepth₂
    obtain rfl : output = true := houtput.2 hnone
    obtain rfl := Except.ok.inj h
    obtain ⟨i, rfl, hi⟩ := hemits.cases_of_ne_nil hnone
    rw [hem] at hem₂
    show ∃ new, _ ∧ s₂.fuse.emitted = new ++ s.emitted
    rcases hi with hcontent | hi
    · obtain ⟨v, hv⟩ := hcontent.exists_content
      refine ⟨_, .joined hbody htag hcontent hv, ?_⟩
      rw [emitted_fuse hem₂ hv (by rwa [hrest₂]), hrest₂, hdepth₂]
      rfl
    · refine ⟨_, .around hbody htag hemits hi, ?_⟩
      rw [emitted_fuse_of_none hem₂ hi, hem₂]
      rfl

theorem makes_of_output {ks : List TokenKind} (hk : OutputLine ks) (hus : us.map (·.kind) = ks)
    (hend : LineEnd rest) (hr : s.rest = us ++ rest) (h : s.readBody limit stop = .ok s') :
    ∃ new, Makes stop s.depth rest us new ∧ s'.emitted = new ++ s.emitted := by
  obtain ⟨k, ks', rfl, hkind⟩ := hk.head
  obtain ⟨t, ts, hbody, rfl, -⟩ := List.map_eq_cons_iff.1 hus
  have hr' : s.rest = t :: (ts ++ rest) := by rw [hr, hbody, List.cons_append]
  have htag : Tag.read stop (us ++ rest) = .ok (none, us ++ rest) := by
    refine Tag.read_eq_none stop ?_
    intro u vs he
    rw [hbody] at he
    cases he
    exact ⟨fun he => by simp [he] at hkind,
      fun he => by rcases he with he | he <;> simp [he] at hkind⟩
  unfold readBody at h
  obtain ⟨f, hf, h⟩ := bind_eq_ok.1 h
  rw [readFilter_of_head hr' (fun he => by simp [he] at hkind)] at hf
  cases hf
  obtain ⟨⟨tagged, s₁⟩, h₁, h⟩ := bind_eq_ok.1 h
  obtain ⟨⟨output, s₂⟩, h₂, h⟩ := bind_eq_ok.1 h
  dsimp only at h₁ h₂ h
  rw [readTag_of_none (by rw [hr]; exact htag)] at h₁
  cases h₁
  cases h
  obtain ⟨-, -, ⟨new, hemits, hem⟩, -⟩ := outputRead_of_output hk hus hend rfl h₂
  obtain ⟨i, rfl, -⟩ := hemits.cases_of_ne_nil (by simp [hbody])
  exact ⟨_, .output htag hemits, hem⟩

theorem makes_of_filter {mark : Token} {more ts : List Token} (hbody : us = mark :: more)
    (hm : mark.kind = .filterMark) (hr : s.rest = mark :: ts)
    (h : s.readBody limit stop = .ok s') :
    ∃ new, Makes stop s.depth rest us new ∧ s'.emitted = new ++ s.emitted := by
  cases hf : s.readFilter true with
  | error e =>
    rw [readBody_of_filter_error hf] at h
    cases h
  | ok f =>
    obtain ⟨b, s₁⟩ := f
    obtain ⟨-, -, hend, -, text, hem⟩ := readFilter_mark_ok hr hm hf
    rw [readBody_of_filter_ok hf hend] at h
    cases h
    exact ⟨_, .filter hbody hm text, hem⟩

theorem makes_of_lineBody {alone : Bool} {ks : List TokenKind} {block : List Token}
    (hk : LineBody alone ks) (hus : us.map (·.kind) = ks) (hblock : alone = false → block = [])
    (hend : LineEnd rest) (hr : s.rest = us ++ (block ++ rest))
    (h : s.readBody limit stop = .ok s') :
    ∃ new, Makes stop s.depth rest us new ∧ s'.emitted = new ++ s.emitted := by
  cases hk with
  | filter | filterText =>
    obtain ⟨mark, more, hbody, hm, -⟩ := List.map_eq_cons_iff.1 hus
    rw [hbody] at hr
    exact makes_of_filter hbody hm hr h
  | output hk =>
    rw [hblock rfl, List.nil_append] at hr
    exact makes_of_output hk hus hend hr h
  | tag hh ha hk =>
    rw [hblock rfl, List.nil_append] at hr
    exact makes_of_tag hh ha hk hus hend hr h

/-- Reading a line of markup ends what is as deep as the line, and then adds what the line makes. -/
theorem makes_of_readLine (l : MarkupLine) (hend : LineEnd rest) (hr : s.rest = l.tokens ++ rest)
    (h : s.readLine limit stop = .ok s') :
    ∃ k new, Makes stop l.depth rest l.body new ∧
      s'.emitted = new ++ (List.replicate k .close ++ s.emitted) := by
  obtain ⟨hrest, hdepth, hem⟩ := readIndent_of_markup l hr
  obtain ⟨k, hclose⟩ := s.exists_emitted_closeTo l.depth
  rw [readLine_eq_readBody] at h
  obtain ⟨new, hmakes, hnew⟩ := makes_of_lineBody l.form rfl l.block_eq hend hrest h
  rw [hdepth] at hmakes
  rw [hem, hclose] at hnew
  exact ⟨k, new, hmakes, hnew⟩

end Lines

end Layout

/-! ## Lines one after the other -/

/-- What lines of markup make, in the order of the source: each of them closes some scopes, and then
adds what it makes of its tokens and of those of the lines below. -/
inductive MadeBy (stop : Location) : List MarkupLine → List Instruction → Prop
  | nil : MadeBy stop [] []
  | cons {l : MarkupLine} {ls : List MarkupLine} {new code : List Instruction} (k : Nat)
    (h : Layout.Makes stop l.depth (ls.flatMap (·.tokens)) l.body new)
    (hbelow : MadeBy stop ls code) :
    MadeBy stop (l :: ls) (List.replicate k .close ++ (new.reverse ++ code))

section Lines

variable {limit : Int} {stop : Location} {s s' : Layout} {l : MarkupLine}
  {ls ls₁ ls₂ : List MarkupLine} {code : List Instruction}

/-- Reading lines of markup adds what they make. -/
theorem madeBy_of_readLines (hchain : ls.IsChain MarkupLine.Follows)
    (hr : s.rest = ls.flatMap (·.tokens)) (h : s.readLines limit stop = .ok s') :
    ∃ code, MadeBy stop ls code ∧ s'.emitted.reverse = s.emitted.reverse ++ code := by
  induction ls generalizing s with
  | nil =>
    rw [Layout.readLines_nil hr] at h
    cases h
    exact ⟨[], .nil, (List.append_nil _).symm⟩
  | cons l ls ih =>
    rw [List.flatMap_cons] at hr
    have hends := MarkupLine.endsBefore_of_isChain hchain
    rw [Layout.readLines_cons hr, bind_eq_ok] at h
    obtain ⟨s₁, h₁, h⟩ := h
    have hrest : s₁.rest = ls.flatMap (·.tokens) := by
      have hgives : Reading.Gives (fun s' => s'.rest = ls.flatMap (·.tokens)) l.tokens
          (s.readLine limit stop) := Layout.readLine_of_markup l hends hr
      rw [h₁] at hgives
      exact hgives
    split at h
    · obtain ⟨k, new, hnew, hem⟩ := Layout.makes_of_readLine l hends.1 hr h₁
      obtain ⟨code, hcode, hem'⟩ := ih hchain.tail hrest h
      refine ⟨_, .cons k hnew hcode, ?_⟩
      rw [hem', hem]
      simp
    · cases h

theorem line_of_makes {rest : List Token} {new : List Instruction} {i : Instruction}
    (h : Layout.Makes stop l.depth rest l.body new) (hi : i ∈ new) : i.pos.line = l.number := by
  obtain ⟨-, t, ht, hpos⟩ := h.place i hi
  rw [hpos]
  exact l.line_eq t (List.mem_cons_of_mem _ ht)

/-- Where a line closes scopes and makes something, what closes nothing is what it makes, or is
below it. -/
theorem mem_of_mem_made {new : List Instruction} {k : Nat} {i : Instruction}
    (hi : i ∈ List.replicate k .close ++ (new.reverse ++ code)) (hc : i.closes = false) :
    i ∈ new ∨ i ∈ code := by
  rcases List.mem_append.1 hi with hi | hi
  · rw [List.eq_of_mem_replicate hi] at hc
    cases hc
  · rwa [List.mem_append, List.mem_reverse] at hi

/-- What closes nothing is made by one of the lines. -/
theorem MadeBy.exists_makes (h : MadeBy stop ls code) {i : Instruction} (hi : i ∈ code)
    (hc : i.closes = false) :
    ∃ ls₁ l ls₂ new, ls = ls₁ ++ l :: ls₂ ∧
      Layout.Makes stop l.depth (ls₂.flatMap (·.tokens)) l.body new ∧ i ∈ new := by
  induction h with
  | nil => cases hi
  | @cons l ls new code k h _ ih =>
    rcases mem_of_mem_made hi hc with hi | hi
    · exact ⟨[], l, ls, new, rfl, h, hi⟩
    · obtain ⟨ls₁, l', ls₂, new, rfl, hmade⟩ := ih hi
      exact ⟨l :: ls₁, l', ls₂, new, rfl, hmade⟩

theorem MadeBy.exists_line (h : MadeBy stop ls code) {i : Instruction} (hi : i ∈ code)
    (hc : i.closes = false) : ∃ l ∈ ls, i.pos.line = l.number := by
  obtain ⟨ls₁, l, ls₂, new, rfl, hnew, hi⟩ := h.exists_makes hi hc
  exact ⟨l, by simp, line_of_makes hnew hi⟩

/-- What one of the lines makes stands between what the lines above and below make. -/
theorem MadeBy.exists_split (h : MadeBy stop (ls₁ ++ l :: ls₂) code) :
    ∃ before new after, code = before ++ (new.reverse ++ after) ∧
      Layout.Makes stop l.depth (ls₂.flatMap (·.tokens)) l.body new ∧
      (∀ i ∈ before, i.closes = false → ∃ l' ∈ ls₁, i.pos.line = l'.number) ∧
      ∀ i ∈ after, i.closes = false → ∃ l' ∈ ls₂, i.pos.line = l'.number := by
  induction ls₁ generalizing code with
  | nil =>
    cases h with
    | cons k h below =>
      refine ⟨_, _, _, rfl, h, ?_, fun i hi hc => below.exists_line hi hc⟩
      intro i hi hc
      rw [List.eq_of_mem_replicate hi] at hc
      cases hc
  | cons l₁ ls₁ ih =>
    rw [List.cons_append] at h
    cases h with
    | @cons _ _ new₁ code k h below =>
      obtain ⟨before, new, after, rfl, hnew, hbefore, hafter⟩ := ih below
      refine ⟨List.replicate k .close ++ (new₁.reverse ++ before), new, after, by simp, hnew, ?_,
        hafter⟩
      intro i hi hc
      rcases mem_of_mem_made hi hc with hi | hi
      · exact ⟨l₁, List.mem_cons_self, line_of_makes h hi⟩
      · obtain ⟨l', hl', hline⟩ := hbefore i hi hc
        exact ⟨l', List.mem_cons_of_mem _ hl', hline⟩

end Lines

end Offside
