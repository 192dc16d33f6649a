import Mathlib.Data.List.Infix
import Offside.Proofs.DepthLimit
import Offside.Proofs.SourceLines

/-!
# Tags that the limit counts as scopes

A tag with output on its line is opened as a scope before the output is read. If both then become
one entry, the program has no scope for the tag, but its gate was there (`Instruction.Joined`). So
the gates of a program are those of its scopes and those of its joined tags (`gatesOf`), and what
the limit does to a source can be read off the program that the source has under any other limit: a
limit that leaves room for the scopes is enough, unless a joined tag stands where the scopes already
fill it, and there the source is refused (`Program.limit_counts_joined_tags`).

The limit is therefore not a bound on the scopes of programs alone: one tag in another, with a word
after it, makes a program with a single scope, and a limit of one refuses it
(`Program.joined_tag_refused_at_limit`).
-/

namespace Offside

/-! ## The tokens of one line -/

/-- The tokens with the line number of an indentation are those from it up to the next one. -/
theorem filter_line_lexLines {file : Text} {line offset : Nat} {block : Option Nat}
    {ts : List Text} {before after : List Token} {x : Token} (hx : x.kind = .indent)
    (h : lexLines file line offset block ts = before ++ x :: after) :
    (lexLines file line offset block ts).filter (·.start.line == x.start.line) =
      x :: after.takeWhile (·.kind != .indent) := by
  induction ts generalizing line offset block before with
  | nil => simp [lexLines] at h
  | cons t ts ih =>
    rw [lexLines_cons] at h ⊢
    have hhere : ∀ u ∈ placePieces file line offset 0 (scanLine (line == 0) block t).1,
        u.start.line = line := fun u hu => (mem_placePieces hu).1
    have hbelow : ∀ u ∈ lexLines file (line + 1) (offset + t.length + 1)
        (scanLine (line == 0) block t).2 ts, line < u.start.line :=
      fun u hu => le_line_of_mem_lexLines hu
    rw [List.filter_append]
    -- an indentation further down has nothing of this line with its number
    have hlater : ∀ before', lexLines file (line + 1) (offset + t.length + 1)
          (scanLine (line == 0) block t).2 ts = before' ++ x :: after →
        (placePieces file line offset 0 (scanLine (line == 0) block t).1).filter
            (·.start.line == x.start.line) ++
          (lexLines file (line + 1) (offset + t.length + 1)
            (scanLine (line == 0) block t).2 ts).filter (·.start.line == x.start.line) =
          x :: after.takeWhile (·.kind != .indent) := by
      intro before' hsplit
      have hlt := hbelow x (by rw [hsplit]; simp)
      rw [ih hsplit, List.filter_eq_nil_iff.2, List.nil_append]
      intro u hu
      rw [hhere u hu, beq_iff_eq]
      omega
    rcases List.append_eq_append_iff.1 h with ⟨before', -, hsplit⟩ | ⟨mid, hmid, hsplit⟩
    · exact hlater before' hsplit
    · cases mid with
      | nil => exact hlater [] hsplit.symm
      | cons y mid =>
        rw [List.cons_append] at hsplit
        obtain ⟨rfl, rfl⟩ := List.cons.inj hsplit
        -- no token but the first of a line is an indentation, so this is the first one
        have htail := (scanLine_pieces (line == 0) block t).2
        rw [← map_kind_placePieces file line offset 0, hmid] at htail
        cases before with
        | cons u before =>
          refine absurd ?_ htail
          simp [← hx]
        | nil =>
          have hmem : x ∈ placePieces file line offset 0 (scanLine (line == 0) block t).1 := by
            rw [hmid]
            simp
          have hnot : ∀ u ∈ mid, u.kind ≠ .indent := by
            intro u hu hk
            exact htail (by simpa using ⟨u, hu, hk⟩)
          have hend := lineEnd_lexLines file (offset + t.length + 1)
            (scanLine (line == 0) block t).2 ts (Nat.succ_ne_zero line)
          rw [Layout.takeWhile_of_lineEnd hnot hend, hhere x hmem, List.filter_eq_self.2,
            List.filter_eq_nil_iff.2, hmid]
          · simp
          · intro u hu
            have := hbelow u hu
            rw [beq_iff_eq]
            omega
          · intro u hu
            rw [hhere u hu, beq_iff_eq]

/-! ## Tags with output on their line -/

/-- There is the mark of a tag and the start of some output. -/
def TagWithOutput (ks : List TokenKind) : Prop :=
  (∃ k ∈ ks, k ∈ [TokenKind.tagMark, .idMark, .classMark]) ∧
    ∃ k ∈ ks, k ∈ [TokenKind.filterMark, .text, .commentMark, .outputMark, .silentMark]

instance (ks : List TokenKind) : Decidable (TagWithOutput ks) :=
  inferInstanceAs (Decidable (_ ∧ _))

@[simp] theorem tagWithOutput_cons_indent (ks : List TokenKind) :
    TagWithOutput (.indent :: ks) ↔ TagWithOutput ks := by
  simp [TagWithOutput]

/-- A tag with its attributes has no output in it. -/
theorem tagWithOutput_iff_of_tag {hs as ks : List TokenKind} (hh : Header hs) (ha : Attributes as)
    (hk : TagTail ks) : TagWithOutput (hs ++ (as ++ ks)) ↔ ks ≠ [] := by
  obtain ⟨m, hs', hhead, hm⟩ := hh.head
  constructor
  · rintro ⟨-, k, hmem, hout⟩ rfl
    simp only [List.mem_cons, List.not_mem_nil, or_false] at hout
    rw [List.append_nil] at hmem
    rcases List.mem_append.1 hmem with hmem | hmem
    · have := hh.subset hmem
      rcases hout with rfl | rfl | rfl | rfl | rfl <;> simp at this
    · have := ha.subset hmem
      rcases hout with rfl | rfl | rfl | rfl | rfl <;> simp at this
  · intro hne
    rcases hk.head with rfl | ⟨k, ks', rfl, hkind⟩
    · exact absurd rfl hne
    · exact ⟨⟨m, by simp [hhead], hm⟩, k, by simp, hkind⟩

/-- What is read of a line is more than its tag just if the line has a tag and output. -/
theorem LineBody.tagAndMore_iff {alone : Bool} {ks : List TokenKind} {us rest : List Token}
    (stop : Location) (h : LineBody alone ks) (hus : us.map (·.kind) = ks) (hend : LineEnd rest) :
    Layout.TagAndMore stop (us ++ rest) ↔ TagWithOutput ks := by
  -- without the mark of a tag there is no tag to read
  have hnone : (∀ k ∈ ks, k ∉ [TokenKind.tagMark, .idMark, .classMark]) →
      (Layout.TagAndMore stop (us ++ rest) ↔ TagWithOutput ks) := by
    intro hks
    have hread : Tag.read stop (us ++ rest) = .ok (none, us ++ rest) := by
      refine Tag.read_eq_none stop ?_
      intro t ts he
      cases us with
      | nil => exact absurd hus.symm h.ne_nil
      | cons u us =>
        cases he
        simpa [IsMark] using hks t.kind (by rw [← hus]; simp)
    refine iff_of_false ?_ ?_
    · rintro ⟨tag, rest', hread', -⟩
      rw [hread] at hread'
      cases hread'
    · rintro ⟨⟨k, hk, hmark⟩, -⟩
      exact hks k hk hmark
  cases h with
  | filter | filterText => exact hnone (by simp)
  | output hk =>
    refine hnone ?_
    intro k hmem hmark
    have := hk.subset hmem
    simp only [List.mem_cons, List.not_mem_nil, or_false] at hmark
    rcases hmark with rfl | rfl | rfl <;> simp at this
  | tag hh ha hk =>
    obtain ⟨us, vs', rfl, hhs, hvs'⟩ := List.map_eq_append_iff.1 hus
    obtain ⟨vs, ws, rfl, has, hws⟩ := List.map_eq_append_iff.1 hvs'
    obtain ⟨tag, hread⟩ := Tag.read_of_header stop hh ha hhs has (Layout.ends_of_tail hk hws hend)
    rw [tagWithOutput_iff_of_tag hh ha hk, List.append_assoc, List.append_assoc]
    have hmore : Layout.TagAndMore stop (us ++ (vs ++ (ws ++ rest))) ↔ ¬ LineEnd (ws ++ rest) := by
      constructor
      · rintro ⟨tag', rest', hread', hnot⟩
        rw [hread] at hread'
        cases hread'
        exact hnot
      · exact fun hnot => ⟨tag, _, hread, hnot⟩
    rw [hmore]
    rcases hk.head with rfl | ⟨k, ks', rfl, hkind⟩
    · rw [List.map_eq_nil_iff.1 hws, List.nil_append]
      exact iff_of_false (not_not_intro hend) (by simp)
    · obtain ⟨w, ws, rfl, hw, -⟩ := List.map_eq_cons_iff.1 hws
      refine iff_of_true ?_ (by simp)
      rintro (he | ⟨t, ts, he, ht⟩) <;> cases he
      rw [← hw, ht] at hkind
      simp at hkind

namespace Instruction

/-- The instruction is an entry of a line with a tag and output, which it therefore holds both. -/
def Joined (tokens : List Token) (i : Instruction) : Prop :=
  i.isLeaf = true ∧ i.depth?.isSome = true ∧
    TagWithOutput ((tokens.filter (·.start.line == i.pos.line)).map (·.kind))

instance (tokens : List Token) (i : Instruction) : Decidable (i.Joined tokens) :=
  inferInstanceAs (Decidable (_ ∧ _))

@[simp] theorem joined_withStop {tokens : List Token} {i : Instruction} {n : Nat} :
    (i.withStop n).Joined tokens ↔ i.Joined tokens := by
  simp [Joined]

end Instruction

/-! ## The gates of instructions -/

open Reading (Gate Gated)

/-- The gates of instructions, newest first: one for every scope and one for every joined tag. -/
def gatesOf (tokens : List Token) : List Instruction → List Gate
  | [] => []
  | i :: l => gatesOf tokens l ++
      if i.opens = true ∨ i.Joined tokens then [⟨(openScopes l).length, i.pos⟩] else []

section Gates

variable {tokens : List Token} {i : Instruction} {l : List Instruction}

theorem gatesOf_cons_of_pos (h : i.opens = true ∨ i.Joined tokens) :
    gatesOf tokens (i :: l) = gatesOf tokens l ++ [⟨(openScopes l).length, i.pos⟩] := by
  rw [gatesOf, if_pos h]

theorem gatesOf_cons_of_neg (ho : i.opens = false) (hj : ¬ i.Joined tokens) :
    gatesOf tokens (i :: l) = gatesOf tokens l := by
  rw [gatesOf, if_neg (by simp [ho, hj]), List.append_nil]

theorem gatesOf_eq_nil (h : ∀ i ∈ l, i.opens = false ∧ ¬ i.Joined tokens) :
    gatesOf tokens l = [] := by
  induction l with
  | nil => rfl
  | cons i l ih =>
    obtain ⟨⟨ho, hj⟩, hl⟩ := List.forall_mem_cons.1 h
    rw [gatesOf_cons_of_neg ho hj, ih hl]

theorem gatesOf_replicate_close (tokens : List Token) (k : Nat) (l : List Instruction) :
    gatesOf tokens (List.replicate k .close ++ l) = gatesOf tokens l := by
  induction k with
  | zero => rfl
  | succ k ih =>
    rw [List.replicate_succ, List.cons_append, gatesOf_cons_of_neg rfl, ih]
    rintro ⟨hleaf, -⟩
    cases hleaf

theorem gatesOf_map_withStop (tokens : List Token) (l : List Instruction) (n : Nat) :
    gatesOf tokens (l.map (·.withStop n)) = gatesOf tokens l := by
  induction l with
  | nil => rfl
  | cons i l ih =>
    rw [List.map_cons, gatesOf, gatesOf, ih, openScopes_map_withStop]
    simp

theorem exists_gatesOf_append (tokens : List Token) (l m : List Instruction) :
    ∃ gs, gatesOf tokens (l ++ m) = gatesOf tokens m ++ gs := by
  induction l with
  | nil => exact ⟨[], (List.append_nil _).symm⟩
  | cons i l ih =>
    obtain ⟨gs, hgs⟩ := ih
    rw [List.cons_append, gatesOf, hgs, List.append_assoc]
    exact ⟨_, rfl⟩

theorem mem_gatesOf {g : Gate} (h : g ∈ gatesOf tokens l) :
    ∃ i m, i :: m <:+ l ∧ (i.opens = true ∨ i.Joined tokens) ∧
      g = ⟨(openScopes m).length, i.pos⟩ := by
  induction l with
  | nil => cases h
  | cons i l ih =>
    rcases List.mem_append.1 h with h | h
    · obtain ⟨j, m, hsuf, hj, hg⟩ := ih h
      exact ⟨j, m, hsuf.trans (List.suffix_cons ..), hj, hg⟩
    · split at h
      · rename_i hi
        exact ⟨i, l, List.suffix_refl _, hi, List.mem_singleton.1 h⟩
      · cases h

/-- The instructions of a line have the gates of the line. -/
theorem Layout.LineGates.gatesOf_append {more : Prop} {scopes : Nat} {new : List Instruction}
    {gs : List Gate} (h : Layout.LineGates more scopes new gs)
    (hscopes : (openScopes l).length = scopes)
    (hmore : ∀ i ∈ new,
      TagWithOutput ((tokens.filter (·.start.line == i.pos.line)).map (·.kind)) ↔ more) :
    gatesOf tokens (new ++ l) = gatesOf tokens l ++ gs := by
  cases h with
  | nothing => simp
  | @leaf i hi hn =>
    rw [List.cons_append, gatesOf_cons_of_neg (Instruction.isLeaf_iff.1 hi).1, List.append_nil]
    · rfl
    · rintro ⟨-, -, hout⟩
      exact hn ((hmore i (by simp)).1 hout)
  | @joined i hi hd hm =>
    have hjoined : i.Joined tokens := ⟨hi, hd, (hmore i (by simp)).2 hm⟩
    rw [← hscopes]
    exact gatesOf_cons_of_pos (.inr hjoined)
  | scope hi =>
    rw [← hscopes]
    exact gatesOf_cons_of_pos (.inl hi)
  | @leafInTag i t hi hd ht =>
    have hnot : ¬ i.Joined tokens := by
      rintro ⟨-, hsome, -⟩
      rw [hd] at hsome
      cases hsome
    rw [List.cons_append, gatesOf_cons_of_neg (Instruction.isLeaf_iff.1 hi).1 hnot, ← hscopes]
    exact gatesOf_cons_of_pos (.inl ht)
  | @scopeInTag i t hi ht =>
    have hlen : (openScopes (t :: l)).length = scopes + 1 := by
      rw [openScopes_opens ht, List.length_cons, hscopes]
    show gatesOf tokens (i :: t :: l) = _
    rw [gatesOf_cons_of_pos (.inl hi), gatesOf_cons_of_pos (.inl ht), hlen, hscopes,
      List.append_assoc]
    rfl

end Gates

/-! ## The gates of a source -/

section Source

variable {file source : Text} {limit : Int} {stop : Location} {s s' : Layout}

theorem rest_of_readLine {l : MarkupLine} {rest : List Token} (hrest : l.EndsBefore rest)
    (hr : s.rest = l.tokens ++ rest) (h : s.readLine limit stop = .ok s') : s'.rest = rest := by
  have hline : Reading.Gives (fun s' => s'.rest = rest) l.tokens (s.readLine limit stop) :=
    Layout.readLine_of_markup l hrest hr
  rw [h] at hline
  exact hline

/-- What a line of markup adds has the gates that the line is read behind. -/
theorem gatesOf_readLine {l : MarkupLine} {rest : List Token} (hsound : s.Sound limit)
    (hrest : l.EndsBefore rest) (hr : s.rest = l.tokens ++ rest)
    (hsuf : s.rest <:+ lex file source) (h : s.readLine limit stop = .ok s') :
    ∃ gs, Gated (fun limit => s.readLine limit stop) gs (.ok s') ∧
      gatesOf (lex file source) s'.emitted = gatesOf (lex file source) s.emitted ++ gs := by
  obtain ⟨gs, hgated, hadds⟩ := (s.readIndent.readBody_gated stop).of_ok h
  -- the line is read to its end, whatever the limit, so that its gates are known
  obtain ⟨new, hem, hgates⟩ := hadds (by rw [rest_of_readLine hrest hr h]; exact hrest.1)
  refine ⟨gs, hgated, ?_⟩
  obtain ⟨hrest₁, -, hem₁⟩ := Layout.readIndent_of_markup l hr
  obtain ⟨k, hclose⟩ := s.exists_emitted_closeTo l.depth
  have hfrom : ∀ i ∈ new, s.readIndent.FromLine i := by
    rcases Layout.readLine_ok h with rfl | ⟨new', -, hem', -, -, hfrom, -⟩
    · rw [List.self_eq_append_left] at hem
      simp [hem]
    · rw [List.append_cancel_right (hem.symm.trans hem')]
      exact hfrom
  -- the tokens with the number of the line are its own
  have htokens : (lex file source).filter (·.start.line == l.number) = l.indent :: l.body := by
    obtain ⟨before, hbefore⟩ := hsuf
    rw [hr] at hbefore
    have hfilter := filter_line_lexLines (x := l.indent) l.kind_indent hbefore.symm
    have htake := l.line_readIndent hrest.1 hr
    rw [Layout.line, hrest₁, ← List.append_assoc] at htake
    rw [l.line_eq l.indent (List.mem_cons_self ..)] at hfilter
    exact hfilter.trans (congrArg (l.indent :: ·) htake)
  rw [hem, hgates.gatesOf_append hsound.readIndent.length_openScopes, hem₁, hclose,
    gatesOf_replicate_close]
  intro i hi
  rw [(l.place_of_fromLine hrest.1 hr (hfrom i hi)).1, htokens, List.map_cons, l.kind_indent,
    tagWithOutput_cons_indent, hrest₁, l.form.tagAndMore_iff stop rfl (l.raw.lineEnd hrest.1)]

/-- What lines of markup add has the gates that they are read behind. -/
theorem gatesOf_readLines {ls : List MarkupLine} (hsound : s.Sound limit)
    (hchain : ls.IsChain MarkupLine.Follows) (hr : s.rest = ls.flatMap (·.tokens))
    (hsuf : s.rest <:+ lex file source) (h : s.readLines limit stop = .ok s') :
    ∃ gs, Gated (fun limit => s.readLines limit stop) gs (.ok s') ∧
      gatesOf (lex file source) s'.emitted = gatesOf (lex file source) s.emitted ++ gs := by
  induction ls generalizing s with
  | nil =>
    rw [Layout.readLines_nil hr] at h
    cases h
    refine ⟨[], ?_, (List.append_nil _).symm⟩
    intro limit
    exact Layout.readLines_nil hr
  | cons l ls ih =>
    rw [List.flatMap_cons] at hr
    have hrest := MarkupLine.endsBefore_of_isChain hchain
    rw [Layout.readLines_cons hr, bind_eq_ok] at h
    obtain ⟨s₁, h₁, h⟩ := h
    have hs₁ := rest_of_readLine hrest hr h₁
    split at h
    · rename_i hlt
      obtain ⟨gs, hgs, hem⟩ := gatesOf_readLine hsound hrest hr hsuf h₁
      obtain ⟨hs, hhs, hem'⟩ := ih (hsound.readLine h₁) hchain.tail hs₁
        (by rw [hs₁]; exact ((List.suffix_append ..).trans (hr ▸ hsuf))) h
      refine ⟨gs ++ hs, ?_, by rw [hem', hem, List.append_assoc]⟩
      intro n
      show s.readLines n stop = _
      have hgs : s.readLine n stop = Reading.behind n gs (.ok s₁) := hgs n
      have hhs : s₁.readLines n stop = Reading.behind n hs (.ok s') := hhs n
      rw [Layout.readLines_cons hr, hgs, Reading.behind_bind, Reading.behind_append, ← hhs]
      show Reading.behind n gs (if s₁.rest.length < s.rest.length then _ else _) = _
      rw [if_pos hlt]
    · cases h

/-- A doctype line has no tag on it. -/
theorem not_tagWithOutput_of_hasDoctype (file : Text)
    (h : HasDoctype (splitLines (normalise source))) :
    ¬ TagWithOutput (((lex file source).filter (·.start.line == 0)).map (·.kind)) := by
  obtain ⟨t, ht, rest, hrest⟩ := h
  cases hlines : splitLines (normalise source) with
  | nil => simp [hlines] at ht
  | cons u ts =>
    rw [hlines, List.head?_cons, Option.mem_some_iff] at ht
    subst ht
    have hblank : u.isBlank = false := by
      rw [← hrest]
      rfl
    rintro ⟨⟨k, hk, hmark⟩, -⟩
    obtain ⟨x, hx, rfl⟩ := List.mem_map.1 hk
    obtain ⟨hmem, hline⟩ := List.mem_filter.1 hx
    have hzero : x.start.line = 0 := by simpa using hline
    rw [lex, hlines, lexLines_cons] at hmem
    rcases List.mem_append.1 hmem with hmem | hmem
    · rw [show (0 == 0) = true from rfl,
        scanLine_of_doctype hblank rfl (cut?_eq_some_iff.2 hrest.symm)] at hmem
      have hkind := List.mem_map_of_mem (f := fun x : Token => x.kind) hmem
      rw [map_kind_placePieces] at hkind
      rcases List.mem_cons.1 hkind with hkind | hkind
      · rw [hkind] at hmark
        simp at hmark
      · rw [scanDoctype_kinds rest _ hkind] at hmark
        simp at hmark
    · have := le_line_of_mem_lexLines hmem
      omega

/-- The gates of a source are those of its program, which it has under every limit that leaves room
at them. -/
theorem Program.ofTokens_lex_eq_behind {contextType : Text} {m : Int} {p : Program}
    (h : Program.ofTokens contextType m (lex file source) = .ok p) {n : Int} (hn : 0 < n) :
    Program.ofTokens contextType n (lex file source) =
      Reading.behind n (gatesOf (lex file source) p.code.toList.reverse) (.ok p) := by
  obtain ⟨s, -, ⟨start, hstart, hs⟩, hmatch, -⟩ := Program.ofTokens_ok h
  obtain ⟨code, -, rfl⟩ := map_eq_ok.1 h
  have hdoc := readDoctype_lex file source
  rw [hstart] at hdoc
  cases hdoc with
  | overfull _ _ hkind hrest =>
    rw [Layout.readLines_of_doctypeWord hrest hkind] at hs
    cases hs
  | @sheet _ ls _ hchain hrest _ _ hliterals =>
    have hsuf : start.rest <:+ lex file source := by
      rcases Layout.readDoctype_ok hstart with rfl | ⟨mark, ts, -, hlex, -, hdrop, -⟩
      · exact List.suffix_refl _
      · rw [hdrop, show lex file source = mark :: ts from hlex]
        exact (List.drop_suffix ..).trans (List.suffix_cons ..)
    obtain ⟨gs, hgated, hem⟩ := gatesOf_readLines (.start hstart) hchain hrest hsuf hs
    -- the literals of a doctype line are no joined tags
    have hstart₀ : gatesOf (lex file source) start.emitted = [] := by
      refine gatesOf_eq_nil ?_
      intro i hi
      obtain ⟨hd, pos, text, rfl, hpos⟩ := hliterals i hi
      refine ⟨rfl, ?_⟩
      rintro ⟨-, -, hout⟩
      rw [show (Instruction.literal pos text 0).pos = pos from rfl, hpos] at hout
      exact not_tagWithOutput_of_hasDoctype file hd hout
    rw [hstart₀, List.nil_append] at hem
    have hcode : gatesOf (lex file source) code.reverse = gs := by
      obtain ⟨k, hk⟩ := Layout.map_withStop_code hmatch
      rw [← gatesOf_map_withStop _ _ 0, List.map_reverse]
      rw [hk, ← List.map_reverse, gatesOf_map_withStop, List.reverse_append,
        List.reverse_replicate, List.reverse_reverse, gatesOf_replicate_close, hem]
    have hgs : start.readLines n (Layout.endOf (lex file source)) = Reading.behind n gs (.ok s) :=
      hgated n
    unfold Program.ofTokens
    rw [layOut_of_pos hn, hstart]
    show Except.map _ (start.readLines n _ >>= _) = _
    rw [hgs, Reading.behind_bind, Reading.behind_map, hcode]
    show Reading.behind n gs (.ok _) = _
    rw [hmatch]

end Source

/-! ## Counting the scopes of the program -/

section Count

variable {tokens : List Token} {code : List Instruction} {n : Nat}

/-- The scopes that are open after some instructions are those opened less those closed. -/
theorem opened_eq_of_closed_le (code : List Instruction)
    (h : ∀ start, start <+: code → closed start ≤ opened start) :
    opened code = closed code + (openScopes code.reverse).length := by
  have hsuffix : ∀ start, start <:+ code.reverse → closed start ≤ opened start := by
    intro start hs
    have := h start.reverse (by simpa using List.reverse_prefix.2 hs)
    simpa using this
  obtain ⟨inner, hopen, hcount⟩ := openScopes_append (l := []) hsuffix
  rw [List.append_nil, openScopes_nil, List.append_nil] at hopen
  rwa [opened_reverse, closed_reverse, ← hopen] at hcount

/-- The gate of an instruction comes after the gates of the instructions before it. -/
theorem exists_gatesOf_split (before after : List Instruction) {i : Instruction}
    (h : i.opens = true ∨ i.Joined tokens) :
    ∃ gs, gatesOf tokens (before ++ i :: after).reverse =
      gatesOf tokens before.reverse ++ ⟨(openScopes before.reverse).length, i.pos⟩ :: gs := by
  obtain ⟨gs, hgs⟩ := exists_gatesOf_append tokens after.reverse (i :: before.reverse)
  refine ⟨gs, ?_⟩
  rw [List.reverse_append, List.reverse_cons, List.append_assoc, List.singleton_append, hgs,
    gatesOf_cons_of_pos h, List.append_assoc, List.singleton_append]

/-- There is room at all gates if there is room for the scopes and at the joined tags. -/
theorem around_lt_of_mem_gatesOf (hbal : ∀ start, start <+: code → closed start ≤ opened start)
    (hopen : ∀ start, start <+: code → opened start ≤ closed start + n)
    (hjoined : ∀ before i after, code = before ++ i :: after → i.Joined tokens →
      opened before < closed before + n) :
    ∀ g ∈ gatesOf tokens code.reverse, (g.around : Int) < n := by
  intro g hg
  obtain ⟨i, m, ⟨more, hsuf⟩, hi, rfl⟩ := mem_gatesOf hg
  have hcode : code = m.reverse ++ i :: more.reverse := by
    rw [← List.reverse_reverse code, ← hsuf]
    simp
  have hcount := opened_eq_of_closed_le m.reverse (by
    intro start hs
    exact hbal start (hs.trans (hcode ▸ List.prefix_append ..)))
  rw [List.reverse_reverse] at hcount
  show ((openScopes m).length : Int) < n
  rcases hi with hi | hi
  · -- with the scope that opens here there are no more than `n`
    have hle := hopen (m.reverse ++ [i]) ⟨more.reverse, by rw [hcode]; simp⟩
    have hone : opened [i] = 1 := by rw [opened_cons, hi]; rfl
    have hzero : closed [i] = 0 := by rw [closed_cons, Instruction.closes_of_opens hi]; rfl
    rw [opened_append, closed_append, hone, hzero] at hle
    omega
  · have := hjoined m.reverse i more.reverse hcode hi
    omega

end Count

namespace Program

/-- What a limit with room for the scopes of a program does to its source. With room for one scope
more there is the program. At the limit itself there is the program just if no joined tag stands
where the scopes fill the limit, and the first one that does is where the source is refused. -/
theorem limit_counts_joined_tags {file source contextType : Text} {m : Int} {n : Nat}
    {p : Program} (hn : 1 ≤ n) (hp : Program.ofTokens contextType m (lex file source) = .ok p)
    (hopen : ∀ start, start <+: p.code.toList → opened start ≤ closed start + n) :
    Program.ofTokens contextType (n + 1) (lex file source) = .ok p ∧
      (Program.ofTokens contextType n (lex file source) = .ok p ↔
        ∀ before i after, p.code.toList = before ++ i :: after → i.Joined (lex file source) →
          opened before < closed before + n) ∧
      ∀ before i after, p.code.toList = before ++ i :: after → i.Joined (lex file source) →
        opened before = closed before + n →
        (∀ before' j after', before = before' ++ j :: after' → j.Joined (lex file source) →
          opened before' < closed before' + n) →
        Program.ofTokens contextType n (lex file source) = .error ⟨.tooDeep, i.pos⟩ := by
  obtain ⟨s, nodes, hs, hmatch, -, hnodes⟩ := ofTokens_ok hp
  have hbal := (WellBracketed.of_readTo hs hmatch hnodes).balanced.closed_le
  -- what starts the instructions before another one starts the program
  have hstart : ∀ {before i after}, p.code.toList = before ++ i :: after →
      ∀ start, start <+: before → start <+: p.code.toList :=
    fun h start hs => hs.trans (h ▸ List.prefix_append ..)
  rw [ofTokens_lex_eq_behind hp (by omega), ofTokens_lex_eq_behind hp (by omega)]
  refine ⟨Reading.behind_of_lt ?_, ⟨?_, ?_⟩, ?_⟩
  · refine around_lt_of_mem_gatesOf (n := n + 1) hbal ?_ ?_
    · intro start hs
      have := hopen start hs
      omega
    · intro before i after hcode _
      have := hopen before (hstart hcode before (List.prefix_refl _))
      omega
  · intro hok before i after hcode hi
    obtain ⟨gs, hgs⟩ := exists_gatesOf_split before after (.inr hi)
    have hcount := opened_eq_of_closed_le before fun start hs => hbal start (hstart hcode start hs)
    rw [hcode, hgs] at hok
    rcases Reading.behind_cases n (gatesOf (lex file source) before.reverse ++
      ⟨(openScopes before.reverse).length, i.pos⟩ :: gs) (.ok p) with hlt | ⟨pos, he⟩
    · have hlt : ((openScopes before.reverse).length : Int) < n :=
        hlt ⟨(openScopes before.reverse).length, i.pos⟩ (by simp)
      omega
    · rw [he] at hok
      cases hok
  · intro hjoined
    exact Reading.behind_of_lt (around_lt_of_mem_gatesOf hbal hopen hjoined)
  · intro before i after hcode hi hfull hjoined
    obtain ⟨gs, hgs⟩ := exists_gatesOf_split before after (.inr hi)
    have hcount := opened_eq_of_closed_le before fun start hs => hbal start (hstart hcode start hs)
    rw [hcode, hgs]
    refine Reading.behind_of_le ?_ ?_
    · exact around_lt_of_mem_gatesOf (fun start hs => hbal start (hstart hcode start hs))
        (fun start hs => hopen start (hstart hcode start hs)) hjoined
    · show (n : Int) ≤ (openScopes before.reverse).length
      omega

/-- A joined tag outside the one scope of the program is let through by a limit of one, and a joined
tag inside the scope is not. -/
theorem limit_counts_joined_tags_of_two :
    ∃ p : Program, Program.ofTokens [] 0 (lex [] "%c x\n%a\n %b x".toList) = .ok p ∧
      (∀ start, start <+: p.code.toList → opened start ≤ closed start + 1) ∧
      Program.ofTokens [] 2 (lex [] "%c x\n%a\n %b x".toList) = .ok p ∧
      Program.ofTokens [] 1 (lex [] "%c x\n%a\n %b x".toList) =
        .error ⟨.tooDeep, { line := 2, column := 1, offset := 9 }⟩ := by
  have h : Program.ofTokens [] 0 (lex [] "%c x\n%a\n %b x".toList) = .ok ⟨[],
      #[.literal {} "<c>x</c>".toList 0,
        .openTag { line := 1, offset := 5 } [.literal "<a>".toList] [.literal "</a>".toList] 0 3,
        .literal { line := 2, column := 1, offset := 9 } "<b>x</b>".toList 1, .close]⟩ := by
    decide +kernel
  have hopen : ∀ start, start <+: [Instruction.literal {} "<c>x</c>".toList 0,
      .openTag { line := 1, offset := 5 } [.literal "<a>".toList] [.literal "</a>".toList] 0 3,
      .literal { line := 2, column := 1, offset := 9 } "<b>x</b>".toList 1, .close] →
      opened start ≤ closed start + 1 := by
    simp only [← List.mem_inits]
    decide +kernel
  obtain ⟨htwo, -, hone⟩ := limit_counts_joined_tags (n := 1) (Nat.le_refl 1) h hopen
  refine ⟨_, h, hopen, htwo, hone [_, _] _ [_] rfl (by decide +kernel) (by decide +kernel) ?_⟩
  -- nothing but the first joined tag stands before the scope
  intro before i after hsplit hi
  rcases before with _ | ⟨x, _ | ⟨y, before⟩⟩
  · decide
  · cases hsplit
    decide
  · have := congrArg List.length hsplit
    simp at this

/-- The limit counts more than the scopes of programs: here the program has a single scope, and a
limit of one refuses its source. -/
theorem joined_tag_refused_at_limit :
    ∃ p : Program, Program.ofTokens [] 2 (lex [] "%a\n %b x".toList) = .ok p ∧
      (∀ start, start <+: p.code.toList → opened start ≤ closed start + 1) ∧
      Program.ofTokens [] 1 (lex [] "%a\n %b x".toList) =
        .error ⟨.tooDeep, { line := 1, column := 1, offset := 4 }⟩ := by
  refine ⟨⟨[],
      #[.openTag {} [.literal "<a>".toList] [.literal "</a>".toList] 0 2,
        .literal { line := 1, column := 1, offset := 4 } "<b>x</b>".toList 1, .close]⟩,
    by decide +kernel, ?_, by decide +kernel⟩
  simp only [← List.mem_inits]
  decide +kernel

end Program
end Offside
