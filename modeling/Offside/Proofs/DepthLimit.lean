import Offside.Proofs.Indentation

/-!
# The limit on open scopes

The limit is asked for in one place only, where a scope is opened. So reading depends on it through
the scopes that are opened on the way and through nothing else: each of them is a gate, which is
passed if the limit leaves room for one more scope, and what is behind the gates is the same for
all limits (`Reading.Gated`). A limit that is not reached therefore changes nothing
(`Program.ofTokens_eq_of_limit_le`).

Which gates a line has is said once for all lines (`Layout.LineGates`). There is one for every scope
that the line leaves open, and there is one more case: a tag with output on its line is opened as a
scope before the output is read, also where both then become one entry.
-/

namespace Offside

namespace Reading

/-! ## Gates -/

/-- A scope that is opened on the way: how many scopes are open around it, and its place. -/
structure Gate where
  around : Nat
  pos : Location
deriving DecidableEq, Repr

/-- A reading behind gates. The first gate for which the limit leaves no room ends it. -/
def behind {α : Type} (limit : Int) : List Gate → Reading α → Reading α
  | [], x => x
  | g :: gs, x => if limit ≤ g.around then .error ⟨.tooDeep, g.pos⟩ else behind limit gs x

section Behind

variable {α β : Type} {limit : Int} {gs hs : List Gate} {x : Reading α}

theorem behind_append (limit : Int) (gs hs : List Gate) (x : Reading α) :
    behind limit (gs ++ hs) x = behind limit gs (behind limit hs x) := by
  induction gs with
  | nil => rfl
  | cons g gs ih => rw [List.cons_append, behind, behind, ih]

theorem behind_bind (limit : Int) (gs : List Gate) (x : Reading α) (f : α → Reading β) :
    (behind limit gs x >>= f) = behind limit gs (x >>= f) := by
  induction gs with
  | nil => rfl
  | cons g gs ih =>
    rw [behind, behind, ← ih]
    split <;> rfl

theorem behind_map (limit : Int) (gs : List Gate) (x : Reading α) (f : α → β) :
    (behind limit gs x).map f = behind limit gs (x.map f) := by
  induction gs with
  | nil => rfl
  | cons g gs ih =>
    rw [behind, behind, ← ih]
    split <;> rfl

/-- With room at every gate there is what is behind them. -/
theorem behind_of_lt (h : ∀ g ∈ gs, (g.around : Int) < limit) : behind limit gs x = x := by
  induction gs with
  | nil => rfl
  | cons g gs ih =>
    obtain ⟨hg, hgs⟩ := List.forall_mem_cons.1 h
    rw [behind, if_neg (by omega), ih hgs]

/-- The first gate without room is where it ends. -/
theorem behind_of_le {g : Gate} (hgs : ∀ g ∈ gs, (g.around : Int) < limit)
    (hg : limit ≤ g.around) :
    behind limit (gs ++ g :: hs) x = .error ⟨.tooDeep, g.pos⟩ := by
  rw [behind_append, behind_of_lt hgs, behind, if_pos hg]

/-- Gates let the reading behind them through, or they end it for want of room. -/
theorem behind_cases (limit : Int) (gs : List Gate) (x : Reading α) :
    (∀ g ∈ gs, (g.around : Int) < limit) ∨
      ∃ pos, behind limit gs x = .error ⟨.tooDeep, pos⟩ := by
  induction gs with
  | nil => exact .inl (by simp)
  | cons g gs ih =>
    rw [behind]
    by_cases hg : limit ≤ g.around
    · exact .inr ⟨g.pos, if_pos hg⟩
    · rw [if_neg hg]
      refine ih.imp_left ?_
      intro hgs
      exact List.forall_mem_cons.2 ⟨by omega, hgs⟩

theorem eq_ok_of_behind {a : α} (h : behind limit gs x = .ok a) : x = .ok a := by
  rcases behind_cases limit gs x with hgs | ⟨pos, he⟩
  · rwa [behind_of_lt hgs] at h
  · rw [he] at h
    cases h

end Behind

/-- Under every limit the reading is `x` behind the gates `gs`. -/
def Gated {α : Type} (f : Int → Reading α) (gs : List Gate) (x : Reading α) : Prop :=
  ∀ limit, f limit = behind limit gs x

/-- The reading is behind gates, and what it gives fits them. -/
def GatedBy {α : Type} (f : Int → Reading α) (P : List Gate → α → Prop) : Prop :=
  ∃ gs x, Gated f gs x ∧ ∀ a, x = .ok a → P gs a

namespace GatedBy

variable {α β : Type} {f : Int → Reading α} {P : List Gate → α → Prop}

theorem const {x : Reading α} (h : ∀ a, x = .ok a → P [] a) : GatedBy (fun _ => x) P :=
  ⟨[], x, fun _ => rfl, h⟩

/-- What is given is given under some limit. -/
theorem exists_limit (h : GatedBy f P) :
    GatedBy f fun gs a => P gs a ∧ ∃ limit, f limit = .ok a := by
  obtain ⟨gs, x, hf, hP⟩ := h
  refine ⟨gs, x, hf, ?_⟩
  intro a ha
  obtain ⟨n, hn⟩ : ∃ n : Nat, ∀ g ∈ gs, g.around < n := by
    clear hf hP
    induction gs with
    | nil => exact ⟨0, by simp⟩
    | cons g gs ih =>
      obtain ⟨n, hn⟩ := ih
      refine ⟨max n (g.around + 1), List.forall_mem_cons.2 ⟨by omega, ?_⟩⟩
      intro g' hg'
      have := hn g' hg'
      omega
  refine ⟨hP a ha, n, ?_⟩
  rw [hf, behind_of_lt fun g hg => Int.ofNat_lt.2 (hn g hg), ha]

/-- One reading after another has the gates of both. -/
theorem bind {g : α → Int → Reading β} {Q : List Gate → β → Prop} (h : GatedBy f P)
    (hg : ∀ gs a, P gs a → GatedBy (g a) fun hs b => Q (gs ++ hs) b) :
    GatedBy (fun limit => f limit >>= fun a => g a limit) Q := by
  obtain ⟨gs, x, hf, hP⟩ := h
  cases x with
  | error e =>
    refine ⟨gs, .error e, ?_, by simp⟩
    intro limit
    show (f limit >>= _) = _
    rw [hf limit, behind_bind]
    rfl
  | ok a =>
    obtain ⟨hs, y, hy, hQ⟩ := hg gs a (hP a rfl)
    refine ⟨gs ++ hs, y, ?_, hQ⟩
    intro limit
    show (f limit >>= _) = _
    rw [hf limit, behind_bind, behind_append, ← hy limit]
    rfl

/-- Where one limit gives a result, that result is what is behind the gates. -/
theorem of_ok {limit : Int} {a : α} (h : GatedBy f P) (ha : f limit = .ok a) :
    ∃ gs, Gated f gs (.ok a) ∧ P gs a := by
  obtain ⟨gs, x, hf, hP⟩ := h
  obtain rfl : x = .ok a := eq_ok_of_behind ((hf limit).symm.trans ha)
  exact ⟨gs, hf, hP a rfl⟩

/-- A limit that did not end the reading can be raised without changing it. -/
theorem eq_of_le {n m : Int} (h : GatedBy f P) (hnm : n ≤ m)
    (hn : ∀ pos, f n ≠ .error ⟨.tooDeep, pos⟩) : f m = f n := by
  obtain ⟨gs, x, hf, -⟩ := h
  rcases behind_cases n gs x with hgs | ⟨pos, hpos⟩
  · rw [hf m, hf n, behind_of_lt hgs, behind_of_lt]
    intro g hg
    have := hgs g hg
    omega
  · exact absurd ((hf n).trans hpos) (hn pos)

end GatedBy
end Reading

namespace Layout

open Reading (Gate Gated GatedBy)

variable {s s' : Layout} {gs : List Gate}

/-! ## The gates of a tag and of output -/

/-- From `s` to `s'` no scope becomes pending and there is no gate, or a scope is opened and it is
the one gate. -/
def Opens (s s' : Layout) (gs : List Gate) : Prop :=
  gs = [] ∧ s'.pending = s.pending ∨
    ∃ i : Instruction, i.opens = true ∧ gs = [⟨s.scopes, i.pos⟩] ∧ s'.emitted = i :: s.emitted ∧
      s'.pending = ⟨s.depth, true⟩ :: s.pending

theorem Opens.eq_nil (h : s.Opens s' gs) (hpe : s'.pending = s.pending) : gs = [] := by
  rcases h with ⟨rfl, -⟩ | ⟨i, -, -, -, hpe'⟩
  · rfl
  · exact absurd (hpe'.symm.trans hpe) (List.cons_ne_self _ _)

theorem Opens.eq_singleton {i : Instruction} {p : Pending} (h : s.Opens s' gs)
    (hem : s'.emitted = i :: s.emitted) (hpe : s'.pending = p :: s.pending) :
    gs = [⟨s.scopes, i.pos⟩] := by
  rcases h with ⟨-, hpe'⟩ | ⟨j, -, rfl, hem', -⟩
  · exact absurd (hpe.symm.trans hpe') (List.cons_ne_self _ _)
  · rw [hem] at hem'
    cases hem'
    rfl

/-- To open a scope is to pass its gate. -/
theorem openScope_gated (s : Layout) {i : Instruction} (hi : i.opens = true) :
    GatedBy (fun limit => s.openScope limit i) fun gs s' => s.Opens s' gs := by
  refine ⟨[⟨s.scopes, i.pos⟩], _, fun _ => rfl, ?_⟩
  intro s' hs'
  cases hs'
  exact .inr ⟨i, hi, rfl, rfl, rfl⟩

theorem readTag_of_error {limit : Int} {stop : Location} {e : Located Problem}
    (h : Tag.read stop s.rest = .error e) : s.readTag limit stop = .error e := by
  unfold readTag
  rw [h]
  rfl

/-- A tag has a gate if it opens a scope, and it is there if the tokens start with one. -/
theorem readTag_gated (s : Layout) (stop : Location) :
    GatedBy (fun limit => s.readTag limit stop) fun gs r =>
      s.Opens r.2 gs ∧
        ∃ tag?, Tag.read stop s.rest = .ok (tag?, r.2.rest) ∧ tag?.isSome = r.1 := by
  cases hread : Tag.read stop s.rest with
  | error e =>
    simp only [readTag_of_error hread]
    exact .const (by simp)
  | ok p =>
    obtain ⟨tag?, rest⟩ := p
    cases tag? with
    | none =>
      simp only [readTag_of_none hread]
      refine .const ?_
      rintro - ⟨⟩
      exact ⟨.inl ⟨rfl, rfl⟩, none, rfl, rfl⟩
    | some tag =>
      obtain ⟨hw, ⟨hn, -⟩ | ⟨-, hlt⟩⟩ := Tag.read_ok hread
      · cases hn
      obtain ⟨t, ts, hr, -⟩ := hw.exists_cons hlt
      simp only [readTag_of_some hread hr]
      split
      · refine .const ?_
        rintro - ⟨⟩
        exact ⟨.inl ⟨rfl, rfl⟩, some tag, rfl, rfl⟩
      · refine (openScope_gated { s with rest } (i := .openTag t.start tag.opening tag.closing
          s.depth 0) rfl).exists_limit.bind (g := fun s' _ => .ok (true, s')) ?_
        rintro gs s' ⟨hopens, limit, hok⟩
        refine .const ?_
        rintro - ⟨⟩
        obtain ⟨-, hrest, -, -⟩ := openScope_ok hok
        rw [List.append_nil]
        exact ⟨hopens, some tag, by rw [hrest], rfl⟩

theorem readCode_gated (s : Layout) (stop : Location) (capture : Bool)
    (leaf : Location → Text → Nat → Instruction) (ts : List Token) :
    GatedBy (fun limit => readCode limit stop capture leaf s ts) fun gs s' => s.Opens s' gs := by
  cases hbody : readCodeBody stop ts with
  | error e =>
    have hread : ∀ limit, readCode limit stop capture leaf s ts = .error e := by
      intro limit
      unfold readCode
      rw [hbody]
      rfl
    simp only [hread]
    exact .const (by simp)
  | ok r =>
    obtain ⟨⟨code, vars⟩, rest⟩ := r
    have hread : ∀ limit, readCode limit stop capture leaf s ts =
        if nextIsDeeper { s with rest } then
          openScope limit { s with rest }
            (.openControl code.start ⟨code.contents, vars, capture⟩ s.depth 0)
        else if vars.isEmpty then
          .ok (emit { s with rest } (leaf code.start code.contents s.depth))
        else .error ⟨.variablesWithoutBlock, code.start⟩ := by
      intro limit
      unfold readCode
      rw [hbody]
      rfl
    simp only [hread]
    split
    · exact openScope_gated { s with rest } rfl
    · refine .const ?_
      intro s' hs'
      split at hs'
      · cases hs'
        exact .inl ⟨rfl, rfl⟩
      · cases hs'

/-- Output has a gate if it opens a control block. -/
theorem readOutput_gated (s : Layout) (stop : Location) :
    GatedBy (fun limit => s.readOutput limit stop) fun gs r => s.Opens r.2 gs := by
  have hcode : ∀ (capture : Bool) (leaf : Location → Text → Nat → Instruction) (ts : List Token),
      GatedBy (fun limit => readCode limit stop capture leaf s ts >>= fun s' => .ok (true, s'))
        fun gs r => s.Opens r.2 gs := by
    intro capture leaf ts
    refine (readCode_gated s stop capture leaf ts).bind (g := fun s' _ => .ok (true, s')) ?_
    intro gs s' hopens
    refine .const ?_
    rintro - ⟨⟩
    rwa [List.append_nil]
  have hconst : ∀ x : Reading (Bool × Layout),
      (∀ b s', x = .ok (b, s') → s'.pending = s.pending) →
        GatedBy (fun _ => x) fun gs r => s.Opens r.2 gs := by
    intro x hx
    refine .const ?_
    rintro ⟨b, s'⟩ hs'
    exact .inl ⟨rfl, hx b s' hs'⟩
  unfold readOutput
  split
  · refine hconst _ ?_
    rintro b s' ⟨⟩
    rfl
  · rename_i mark ts hr
    split
    · refine hconst _ ?_
      intro b s' hs'
      rcases readFilter_ok hs' with ⟨-, rfl⟩ | ⟨-, -, -, hpe, -⟩
      · rfl
      · exact hpe
    · exact hcode ..
    · exact hcode ..
    · refine hconst _ ?_
      intro b s' hs'
      rw [bind_eq_ok] at hs'
      obtain ⟨r, -, hs'⟩ := hs'
      cases hs'
      rfl
    · refine hconst _ ?_
      rintro b s' ⟨⟩
      rfl
    · refine hconst _ ?_
      rintro b s' ⟨⟩
      rfl

/-! ## The gates of a line -/

/-- The tokens start with a tag, and the tag does not end its line. -/
def TagAndMore (stop : Location) (ts : List Token) : Prop :=
  ∃ tag rest, Tag.read stop ts = .ok (some tag, rest) ∧ ¬ LineEnd rest

/-- The gates of a line that adds the given instructions, newest first, with `scopes` scopes open
before it. What counts besides the instructions is whether the line has more than its tag. -/
inductive LineGates (more : Prop) (scopes : Nat) : List Instruction → List Gate → Prop
  /-- A line without instructions. -/
  | nothing : LineGates more scopes [] []
  /-- An entry that is a tag alone or output alone. -/
  | leaf {i : Instruction} : i.isLeaf = true → ¬ more → LineGates more scopes [i] []
  /-- An entry that is a tag joined with the output after it: the tag was a scope first. -/
  | joined {i : Instruction} : i.isLeaf = true → i.depth?.isSome = true → more →
      LineGates more scopes [i] [⟨scopes, i.pos⟩]
  /-- A tag or a control block. -/
  | scope {i : Instruction} : i.opens = true → LineGates more scopes [i] [⟨scopes, i.pos⟩]
  /-- A tag with an instruction in it that puts nothing out. -/
  | leafInTag {i t : Instruction} : i.isLeaf = true → i.depth? = none → t.opens = true →
      LineGates more scopes [i, t] [⟨scopes, t.pos⟩]
  /-- A tag with a control block in it. -/
  | scopeInTag {i t : Instruction} : i.opens = true → t.opens = true →
      LineGates more scopes [i, t] [⟨scopes, t.pos⟩, ⟨scopes + 1, i.pos⟩]

theorem depth?_of_contentOf?_eq_none {i : Instruction} (hi : i.isLeaf = true)
    (h : contentOf? i = none) : i.depth? = none := by
  cases i with
  | exec => rfl
  | literal | output | filtered => cases h
  | openTag | openControl | close => cases hi

/-- At the end of a line a tag takes in every output that it can take in. -/
theorem fuse_of_lineEnd {i : Instruction} {pos : Location} {opening closing : Fragments}
    {depth : Nat} {em : List Instruction}
    (h : s.emitted = i :: .openTag pos opening closing depth 0 :: em) (hend : LineEnd s.rest) :
    contentOf? i = none ∧ s.fuse = s ∨
      (contentOf? i).isSome = true ∧
        ∃ v, s.fuse.emitted = .ofFragments pos v depth :: em ∨
          s.fuse.emitted = .openTag pos v closing depth 0 :: em := by
  unfold fuse
  rw [h]
  dsimp only
  cases hv : contentOf? i with
  | none => exact .inl ⟨rfl, rfl⟩
  | some v =>
    dsimp only
    split
    · exact .inr ⟨rfl, _, .inl rfl⟩
    · rename_i hcloses
      split
      · exact .inr ⟨rfl, _, .inr rfl⟩
      · -- what follows is deeper or it is not
        rename_i hdeeper
        rcases hend with hr | ⟨t, ts, hr, ht⟩
        · simp [nextCloses, hr] at hcloses
        · simp only [nextCloses, nextIsDeeper, hr, ht, beq_self_eq_true, Bool.true_and,
            decide_eq_true_eq] at hcloses hdeeper
          omega

/-- The gates of a tag with what follows it on its line. -/
theorem lineGates_of_tag {stop : Location} {s₁ s₂ : Layout} {output : Bool} {hs : List Gate}
    {n₁ n₂ : Int} (hend : LineEnd s₂.rest)
    (h₁ : s.readTag n₁ stop = .ok (true, s₁)) (hgs : s.Opens s₁ gs)
    (hmore : TagAndMore stop s.rest ↔ ¬ LineEnd s₁.rest)
    (h₂ : s₁.readOutput n₂ stop = .ok (output, s₂)) (hhs : s₁.Opens s₂ hs) :
    ∃ new, (if output then s₂.fuse else s₂).emitted = new ++ s.emitted ∧
      LineGates (TagAndMore stop s.rest) s.scopes new (gs ++ hs) := by
  rcases readTag_ok h₁ with ⟨hn, -⟩ |
    ⟨-, -, ⟨i, hi, -, hend₁, hem, hpe⟩ | ⟨pos, opening, closing, -, -, hem, hpe⟩⟩
  · cases hn
  · -- the tag is all that there is
    obtain ⟨rfl, rfl⟩ := readOutput_of_lineEnd hend₁ h₂
    rw [hgs.eq_nil hpe, hhs.eq_nil rfl]
    exact ⟨[i], hem, .leaf hi (by rwa [hmore, not_not])⟩
  · rw [hgs.eq_singleton hem hpe]
    rcases readOutput_ok h₂ with ⟨rfl, rfl⟩ |
      ⟨rfl, -, ⟨i, hi, hf, hem', hpe'⟩ | ⟨pos', control, -, -, hem', hpe'⟩⟩
    · rw [hhs.eq_nil rfl]
      exact ⟨[_], hem, .scope rfl⟩
    · rw [hhs.eq_nil hpe']
      have hnot : TagAndMore stop s.rest := hmore.2 hf.not_lineEnd
      rw [hem] at hem'
      rcases fuse_of_lineEnd hem' hend with ⟨hcontent, he⟩ | ⟨-, v, he | he⟩
      · refine ⟨[i, _], ?_, .leafInTag hi (depth?_of_contentOf?_eq_none hi hcontent) rfl⟩
        rw [if_pos rfl, he, hem']
        rfl
      · refine ⟨[.ofFragments pos v s.depth], by rw [if_pos rfl, he]; rfl, ?_⟩
        have hjoined : LineGates (TagAndMore stop s.rest) s.scopes [.ofFragments pos v s.depth]
            [⟨s.scopes, (Instruction.ofFragments pos v s.depth).pos⟩] :=
          .joined (Instruction.isLeaf_ofFragments ..) (by simp) hnot
        rwa [Instruction.pos_ofFragments] at hjoined
      · refine ⟨[.openTag pos v closing s.depth 0], by rw [if_pos rfl, he]; rfl, ?_⟩
        exact .scope (i := .openTag pos v closing s.depth 0) rfl
    · have hscopes : s₁.scopes = s.scopes + 1 := by simp [scopes, hpe]
      rw [hhs.eq_singleton hem' hpe', hscopes]
      rw [hem] at hem'
      -- a control block is no content, so that the tag stays around it
      rcases fuse_of_lineEnd hem' hend with ⟨-, he⟩ | ⟨hcontent, -⟩
      · refine ⟨[_, _], ?_, .scopeInTag rfl rfl⟩
        rw [if_pos rfl, he, hem']
        rfl
      · cases hcontent

/-- The gates of a line, whatever its tokens are, if it is read to its end. -/
theorem readBody_gated (s : Layout) (stop : Location) :
    GatedBy (fun limit => s.readBody limit stop) fun gs s' =>
      LineEnd s'.rest → ∃ new, s'.emitted = new ++ s.emitted ∧
        LineGates (TagAndMore stop s.rest) s.scopes new gs := by
  unfold readBody
  refine GatedBy.bind (P := fun gs f => gs = [] ∧ s.readFilter true = .ok f)
    (g := fun f limit => f.2.readTag limit stop >>= fun t =>
      t.2.readOutput limit stop >>= fun o => .ok (if t.1 && o.1 then o.2.fuse else o.2))
    (.const fun f hf => ⟨rfl, hf⟩) ?_
  rintro - ⟨filtered, s₀⟩ ⟨rfl, hfilter⟩
  refine (readTag_gated s₀ stop).exists_limit.bind
    (g := fun t limit => t.2.readOutput limit stop >>= fun o =>
      .ok (if t.1 && o.1 then o.2.fuse else o.2)) ?_
  rintro gs ⟨tagged, s₁⟩ ⟨⟨hgs, tag?, hread, htag⟩, n₁, h₁⟩
  refine (readOutput_gated s₁ stop).exists_limit.bind
    (g := fun o _ => .ok (if tagged && o.1 then o.2.fuse else o.2)) ?_
  rintro hs ⟨output, s₂⟩ ⟨hhs, n₂, h₂⟩
  refine .const ?_
  rintro s' hs' hend
  cases hs'
  rw [List.append_nil, List.nil_append]
  rcases readFilter_cases hfilter with ⟨-, rfl, -⟩ | ⟨mark, ts, text, hr, hm, -, -, hend₀, hpe, hem⟩
  · cases tagged with
    | true =>
      have hmore : TagAndMore stop s₀.rest ↔ ¬ LineEnd s₁.rest := by
        obtain ⟨tag, rfl⟩ := Option.isSome_iff_exists.1 htag
        constructor
        · rintro ⟨tag', rest, hread', hnot⟩
          rw [hread] at hread'
          cases hread'
          exact hnot
        · exact fun hnot => ⟨tag, _, hread, hnot⟩
      refine lineGates_of_tag ?_ h₁ hgs hmore h₂ hhs
      cases output with
      | true => rwa [← rest_fuse]
      | false => exact hend
    | false =>
      -- there is no tag, only output
      have hmore : ¬ TagAndMore stop s₀.rest := by
        rintro ⟨tag, rest, hread', -⟩
        rw [hread] at hread'
        cases hread'
        cases htag
      rcases readTag_ok h₁ with ⟨-, rfl⟩ | ⟨hn, -⟩
      · rw [hgs.eq_nil rfl, List.nil_append]
        rcases readOutput_ok h₂ with ⟨-, rfl⟩ |
          ⟨-, -, ⟨i, hi, -, hem, hpe⟩ | ⟨pos, control, -, -, hem, hpe⟩⟩
        · rw [hhs.eq_nil rfl]
          exact ⟨[], rfl, .nothing⟩
        · rw [hhs.eq_nil hpe]
          exact ⟨[i], hem, .leaf hi hmore⟩
        · rw [hhs.eq_singleton hem hpe]
          exact ⟨[_], hem, .scope rfl⟩
      · cases hn
  · -- a filter ends its line, and it is not a tag
    obtain ⟨rfl, rfl⟩ := readTag_of_lineEnd hend₀ h₁
    obtain ⟨rfl, rfl⟩ := readOutput_of_lineEnd hend₀ h₂
    rw [hgs.eq_nil rfl, hhs.eq_nil rfl]
    refine ⟨[_], hem, .leaf rfl ?_⟩
    rintro ⟨tag, rest, hread', -⟩
    have hnone : Tag.read stop s.rest = .ok (none, s.rest) := by
      refine Tag.read_eq_none stop ?_
      intro t us he
      rw [hr] at he
      cases he
      simp [hm, IsMark]
    rw [hnone] at hread'
    cases hread'

theorem readLines_gated (s : Layout) (stop : Location) :
    GatedBy (fun limit => s.readLines limit stop) fun _ _ => True := by
  cases hr : s.rest with
  | nil =>
    simp only [readLines_nil hr]
    exact .const fun _ _ => trivial
  | cons t ts =>
    simp only [readLines_cons hr]
    refine (readBody_gated s.readIndent stop).bind (g := fun s' limit =>
      if s'.rest.length < s.rest.length then s'.readLines limit stop
      else .error ⟨.unexpectedToken t, t.start⟩) ?_
    intro gs s' _
    split
    · exact readLines_gated s' stop
    · exact .const fun _ _ => trivial
termination_by s.rest.length

end Layout

theorem layOut_gated (tokens : List Token) :
    Reading.GatedBy (fun limit => Layout.readDoctype { rest := tokens } >>= fun s =>
      s.readLines limit (Layout.endOf tokens) >>= fun s =>
        .ok (matchScopes 0 (s.closeTo 0).emitted.reverse).1) fun _ _ => True := by
  refine Reading.GatedBy.bind (P := fun _ _ => True) (g := fun (s : Layout) limit =>
    s.readLines limit (Layout.endOf tokens) >>= fun s =>
      .ok (matchScopes 0 (s.closeTo 0).emitted.reverse).1) (.const fun _ _ => trivial) ?_
  intro gs s _
  refine (s.readLines_gated (Layout.endOf tokens)).bind (g := fun (s : Layout) _ =>
    .ok (matchScopes 0 (s.closeTo 0).emitted.reverse).1) ?_
  intro hs s _
  exact .const fun _ _ => trivial

theorem layOut_of_pos {n : Int} (hn : 0 < n) (tokens : List Token) :
    layOut n tokens = Layout.readDoctype { rest := tokens } >>= fun s =>
      s.readLines n (Layout.endOf tokens) >>= fun s =>
        .ok (matchScopes 0 (s.closeTo 0).emitted.reverse).1 := by
  unfold layOut
  rw [if_neg (by omega)]

namespace Program

/-- Raising a limit that was not exceeded changes nothing: there is the same program, or the same
problem at the same place. -/
theorem ofTokens_eq_of_limit_le {contextType : Text} {n m : Int} {tokens : List Token}
    (hn : 0 < n) (hnm : n ≤ m)
    (h : ∀ pos, Program.ofTokens contextType n tokens ≠ .error ⟨.tooDeep, pos⟩) :
    Program.ofTokens contextType m tokens = Program.ofTokens contextType n tokens := by
  unfold Program.ofTokens
  refine congrArg _ ?_
  rw [layOut_of_pos hn, layOut_of_pos (by omega)]
  refine (layOut_gated tokens).eq_of_le hnm ?_
  intro pos he
  refine h pos (ofTokens_eq_error.2 ?_)
  rwa [layOut_of_pos hn]

/-- Two tags fill a limit of two, so that what is wrong on the next line is wrong under any limit
above it too. -/
theorem ofTokens_eq_of_limit_filled :
    Program.ofTokens [] 2 (lex [] "%a\n %b\n  - x -> y".toList) =
        .error ⟨.variablesWithoutBlock, { line := 2, column := 4, offset := 11 }⟩ ∧
      Program.ofTokens [] 100 (lex [] "%a\n %b\n  - x -> y".toList) =
        .error ⟨.variablesWithoutBlock, { line := 2, column := 4, offset := 11 }⟩ := by
  have h : Program.ofTokens [] 2 (lex [] "%a\n %b\n  - x -> y".toList) =
      .error ⟨.variablesWithoutBlock, { line := 2, column := 4, offset := 11 }⟩ := by
    decide +kernel
  refine ⟨h, (ofTokens_eq_of_limit_le (by decide) (by decide) ?_).trans h⟩
  intro pos he
  rw [h] at he
  cases he

end Program
end Offside
