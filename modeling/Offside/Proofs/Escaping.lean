import Offside.Proofs.ScopeInvariant

/-!
# Which expressions stay unescaped

An expression can get into a line of output in many ways: as the name of a tag, as an id, a class or
either side of an attribute, inside text, or as the code of an output line; and a line may be taken
into the tag before it. All of them are escaped but one. An expression that is put out as it is can
only be the code behind an output mark other than `=` (`Program.bare_of_ofTokens`), for any token
list whatsoever.

The proof follows the expressions through the joining of fragments, which touches only literals, and
through the reading of a line (`Layout.Accounted`).
-/

namespace Offside

/-! ## Expressions among fragments -/

namespace Instruction

/-- The fragments that an instruction puts out. -/
def fragments : Instruction → Fragments
  | output _ value _ => value
  | openTag _ opening closing _ _ => opening ++ closing
  | _ => []

@[simp] theorem fragments_withStop (i : Instruction) (n : Nat) :
    (i.withStop n).fragments = i.fragments := by
  cases i <;> rfl

end Instruction

/-! Only literals are touched when lines are put together: every other fragment stays as it is. -/

section Joining

variable {f : Fragment}

theorem mem_merge (hf : f.isLiteral = false) {v : Fragments} :
    f ∈ Fragments.merge v ↔ f ∈ v := by
  have hne : ∀ text, f ≠ .literal text := by
    rintro text rfl
    cases hf
  fun_induction Fragments.merge v with
  | case1 => rfl
  | case2 a fs b gs hm ih =>
    rw [hm] at ih
    simpa [hne] using ih
  | case3 a fs hm ih => simpa [hne] using ih
  | case4 g fs hg ih => simp [ih]

/-- Joining lines neither adds a fragment nor loses one. -/
theorem mem_join (hf : f.isLiteral = false) {vs : List Fragments} :
    f ∈ Fragments.join vs ↔ ∃ v ∈ vs, f ∈ v := by
  rw [Fragments.join, mem_merge hf, List.mem_flatten]

theorem not_mem_ofLiteral (hf : f.isLiteral = false) (t : Text) : f ∉ Fragments.ofLiteral t := by
  intro h
  rw [List.mem_singleton.1 h] at hf
  cases hf

theorem expression_mem_ofFragments {source : Text} {escape : Bool} {pos : Location} {v : Fragments}
    {depth : Nat}
    (h : .expression source escape ∈ (Instruction.ofFragments pos v depth).fragments) :
    .expression source escape ∈ v := by
  unfold Instruction.ofFragments at h
  split at h
  · cases h
  · exact h

end Joining

/-- Expressions in text are escaped. -/
theorem bare_not_mem_interpolate (source t : Text) : .expression source false ∉ interpolate t := by
  have hfrom : .expression source false ∉ (interpolateFrom t).2 := by
    fun_induction interpolateFrom t with
    | case1 => simp
    | case2 t lit fs hfs ih => simpa [hfs] using ih
    | case3 t n hn lit fs hfs ih => simpa [hfs] using ih
    | case4 t hn lit fs hfs ih => simpa [hfs] using ih
    | case5 c t _ _ lit fs hfs ih => simpa [hfs] using ih
  simpa [interpolate] using hfrom

/-- Expressions in tags are escaped. -/
theorem bare_not_mem_tagValue (source : Text) (t : Token) :
    .expression source false ∉ tagValue t := by
  unfold tagValue
  split
  · simp
  · exact not_mem_ofLiteral rfl _
  · exact not_mem_ofLiteral rfl _

/-! ## Tags -/

namespace Tag

/-- The values that a tag is written with. -/
def values (tag : Tag) : List Fragments :=
  tag.name.toList ++ (tag.id.toList ++ (tag.classes ++ tag.attributes.flatMap fun a => [a.1, a.2]))

theorem mem_values {tag : Tag} {v : Fragments} :
    v ∈ tag.values ↔
      tag.name = some v ∨ tag.id = some v ∨ v ∈ tag.classes ∨
        ∃ a ∈ tag.attributes, v = a.1 ∨ v = a.2 := by
  simp [values]

/-- A name is the value of a token that is read. -/
theorem values_readName {stop : Location} {tag : Tag} {ts rest : List Token}
    (h : readName stop ts = .ok (tag, rest)) : ∀ v ∈ tag.values, ∃ t ∈ ts, v = tagValue t := by
  intro v hv
  cases ts with
  | nil =>
    cases h
    simp [values] at hv
  | cons t ts =>
    rw [readName] at h
    split at h
    · rw [bind_eq_ok] at h
      obtain ⟨⟨w, us⟩, hw, h⟩ := h
      obtain ⟨rfl, -⟩ := takeOne_ok hw
      cases h
      have he : v = tagValue w := by simpa [values] using hv
      exact ⟨w, by simp, he⟩
    · cases h
      simp [values] at hv

/-- Ids and classes are values of the tokens that are read. -/
theorem values_readMarks {stop : Location} {tag tag' : Tag} {ts rest : List Token}
    (h : readMarks stop tag ts = .ok (tag', rest)) :
    ∀ v ∈ tag'.values, v ∈ tag.values ∨ ∃ t ∈ ts, v = tagValue t := by
  fun_induction readMarks stop tag ts with
  | case1 | case5 =>
    cases h
    exact fun v hv => .inl hv
  | case3 tag m hm w ts hw ih =>
    intro v hv
    rcases ih h v hv with hv | ⟨t, ht, he⟩
    · have hone : v ∈ tag.values ∨ v = tagValue w := by
        split at hv <;> simp only [mem_values] at hv ⊢ <;> grind
      exact hone.imp_right fun he => ⟨w, by simp, he⟩
    · exact .inr ⟨t, by simp [ht], he⟩
  | case2 | case4 => cases h

/-- Both sides of an attribute are values of the tokens that are read. -/
theorem values_readAttributes {stop : Location} {tag tag' : Tag} {ts rest : List Token}
    (h : readAttributes stop tag ts = .ok (tag', rest)) :
    ∀ v ∈ tag'.values, v ∈ tag.values ∨ ∃ t ∈ ts, v = tagValue t := by
  fun_induction readAttributes stop tag ts with
  | case1 | case7 =>
    cases h
    exact fun v hv => .inl hv
  | case4 tag n hn e he w ts hw ih =>
    intro v hv
    rcases ih h v hv with hv | ⟨t, ht, he⟩
    · have hone : v ∈ tag.values ∨ v = tagValue n ∨ v = tagValue w := by
        simp only [mem_values] at hv ⊢
        grind
      rcases hone with hv | he | he
      · exact .inl hv
      · exact .inr ⟨n, by simp, he⟩
      · exact .inr ⟨w, by simp, he⟩
    · exact .inr ⟨t, by simp [ht], he⟩
  | case2 | case3 | case5 | case6 => cases h

/-- Everything in a tag is the value of a token. -/
theorem values_read {stop : Location} {tag : Tag} {ts rest : List Token}
    (h : read stop ts = .ok (some tag, rest)) : ∀ v ∈ tag.values, ∃ t ∈ ts, v = tagValue t := by
  unfold read at h
  rw [bind_eq_ok] at h
  obtain ⟨⟨tag₁, ts₁⟩, h₁, h⟩ := h
  rw [bind_eq_ok] at h
  obtain ⟨⟨tag₂, ts₂⟩, h₂, h⟩ := h
  dsimp only at h₂ h
  split at h
  · cases h
  rw [bind_eq_ok] at h
  obtain ⟨⟨tag₃, ts₃⟩, h₃, h⟩ := h
  cases h
  have hsub₁ : ts₁ ⊆ ts := (readName_ok h₁).1.suffix.subset
  have hsub₂ : ts₂ ⊆ ts := fun t ht => hsub₁ ((readMarks_ok h₂).1.suffix.subset ht)
  intro v hv
  rcases values_readAttributes h₃ v hv with hv | ⟨t, ht, he⟩
  · rcases values_readMarks h₂ v hv with hv | ⟨t, ht, he⟩
    · exact values_readName h₁ v hv
    · exact ⟨t, hsub₁ ht, he⟩
  · exact ⟨t, hsub₂ ht, he⟩

theorem takeAttribute_eq_some {name : Text} {attributes rest : List (Fragments × Fragments)}
    {v : Fragments} (h : takeAttribute name attributes = some (v, rest)) :
    (∃ n, (n, v) ∈ attributes) ∧ ∀ a ∈ rest, a ∈ attributes := by
  induction attributes generalizing v rest with
  | nil => cases h
  | cons a as ih =>
    rw [takeAttribute] at h
    split at h
    · cases h
      exact ⟨⟨a.1, List.mem_cons_self ..⟩, fun b hb => List.mem_cons_of_mem _ hb⟩
    · obtain ⟨⟨v', rest'⟩, hr, he⟩ := Option.map_eq_some_iff.1 h
      cases he
      obtain ⟨⟨n, hn⟩, hsub⟩ := ih hr
      refine ⟨⟨n, List.mem_cons_of_mem _ hn⟩, ?_⟩
      intro b hb
      rcases List.mem_cons.1 hb with rfl | hb
      · exact List.mem_cons_self ..
      · exact List.mem_cons_of_mem _ (hsub b hb)

/-- An attribute that becomes the id was a value of the tag before. -/
theorem values_setId_subset {tag : Tag} {name : Text} {w : Fragments}
    {rest : List (Fragments × Fragments)} (h : takeAttribute name tag.attributes = some (w, rest)) :
    values { tag with id := some w, attributes := rest } ⊆ tag.values := by
  obtain ⟨⟨n, hn⟩, hsub⟩ := takeAttribute_eq_some h
  intro v hv
  simp only [mem_values] at hv ⊢
  grind

/-- An attribute that becomes a class was a value of the tag before. -/
theorem values_addClass_subset {tag : Tag} {name : Text} {w : Fragments}
    {rest : List (Fragments × Fragments)} (h : takeAttribute name tag.attributes = some (w, rest)) :
    values { tag with classes := tag.classes ++ [w], attributes := rest } ⊆ tag.values := by
  obtain ⟨⟨n, hn⟩, hsub⟩ := takeAttribute_eq_some h
  intro v hv
  simp only [mem_values] at hv ⊢
  grind

/-- The attributes called `id` and `class` only change places. -/
theorem values_settle_subset (tag : Tag) : tag.settle.values ⊆ tag.values := by
  intro v hv
  unfold settle at hv
  cases hid : takeAttribute "id".toList tag.attributes with
  | none =>
    rw [hid] at hv
    dsimp only at hv
    split at hv
    · exact values_addClass_subset ‹_› hv
    · exact hv
  | some found =>
    obtain ⟨w, rest⟩ := found
    have hsub := values_setId_subset hid
    rw [hid] at hv
    dsimp only at hv
    split at hv
    · -- the classes are settled in the tag whose id is settled already
      rename_i hclass
      exact hsub (values_addClass_subset hclass hv)
    · exact hsub hv

theorem mem_spaced {vs : List Fragments} {v : Fragments} (h : v ∈ spaced vs) :
    v ∈ vs ∨ v = Fragments.ofString " " := by
  fun_induction spaced vs with
  | case1 => cases h
  | case2 w => exact .inl h
  | case3 w ws hws ih => grind

section Text

variable {tag : Tag} {f : Fragment}

/-- The name of the element is the tag's, or it is literal. -/
theorem exists_value_of_mem_element (hf : f.isLiteral = false) (h : f ∈ tag.element) :
    ∃ v ∈ tag.values, f ∈ v := by
  cases hn : tag.name with
  | none =>
    rw [element, hn] at h
    exact absurd h (not_mem_ofLiteral hf _)
  | some v =>
    rw [element, hn] at h
    exact ⟨v, mem_values.2 (.inl hn), h⟩

theorem exists_value_of_mem_openingOf (hf : f.isLiteral = false) (h : f ∈ tag.openingOf) :
    ∃ v ∈ tag.values, f ∈ v := by
  obtain ⟨v, hv, h⟩ := (mem_join hf).1 h
  have hlit : ∀ s : String, v ≠ Fragments.ofString s :=
    fun s he => not_mem_ofLiteral hf s.toList (by rwa [he] at h)
  simp only [List.mem_append, List.mem_cons, List.not_mem_nil, or_false, List.mem_flatMap,
    hlit, false_or] at hv
  rcases hv with ((hv | hv) | hv) | ⟨a, ha, hv⟩
  · exact exists_value_of_mem_element hf (hv ▸ h)
  · split at hv
    · rename_i w hid
      simp only [List.mem_cons, List.not_mem_nil, or_false, hlit, false_or] at hv
      exact ⟨v, mem_values.2 (.inr (.inl (hv ▸ hid))), h⟩
    · cases hv
  · split at hv
    · cases hv
    · simp only [List.mem_append, List.mem_cons, List.not_mem_nil, or_false, hlit, false_or] at hv
      have hclass : v ∈ tag.classes := (mem_spaced hv).resolve_right (hlit _)
      exact ⟨v, mem_values.2 (.inr (.inr (.inl hclass))), h⟩
  · simp only [attributeText, List.mem_cons, List.not_mem_nil, or_false, hlit, false_or] at hv
    exact ⟨v, mem_values.2 (.inr (.inr (.inr ⟨a, ha, hv⟩))), h⟩

/-- What opens an element is literal but for the values of its tag. -/
theorem exists_value_of_mem_opening (hf : f.isLiteral = false) (h : f ∈ tag.opening) :
    ∃ v ∈ tag.values, f ∈ v := by
  obtain ⟨v, hv, h⟩ := exists_value_of_mem_openingOf hf h
  exact ⟨v, values_settle_subset tag hv, h⟩

/-- What closes an element is literal but for the name of its tag. -/
theorem exists_value_of_mem_closing (hf : f.isLiteral = false) (h : f ∈ tag.closing) :
    ∃ v ∈ tag.values, f ∈ v := by
  obtain ⟨v, hv, h⟩ := (mem_join hf).1 h
  have hlit : ∀ s : String, v ≠ Fragments.ofString s :=
    fun s he => not_mem_ofLiteral hf s.toList (by rwa [he] at h)
  simp only [List.mem_cons, List.not_mem_nil, or_false, hlit, false_or] at hv
  exact exists_value_of_mem_element hf (hv ▸ h)

/-- Where the tokens that are read have no such fragment in them, the tag has none. -/
theorem not_mem_of_read {stop : Location} {ts rest : List Token} (hf : f.isLiteral = false)
    (h : read stop ts = .ok (some tag, rest)) (hts : ∀ t, f ∉ tagValue t) :
    f ∉ tag.opening ∧ f ∉ tag.closing := by
  have hvalues : ∀ v ∈ tag.values, f ∉ v := by
    intro v hv
    obtain ⟨t, -, rfl⟩ := values_read h v hv
    exact hts t
  constructor
  · intro hmem
    obtain ⟨v, hv, hin⟩ := exists_value_of_mem_opening hf hmem
    exact hvalues v hv hin
  · intro hmem
    obtain ⟨v, hv, hin⟩ := exists_value_of_mem_closing hf hmem
    exact hvalues v hv hin

end Text

/-- Nothing in a tag that is read stays unescaped. -/
theorem bare_not_mem_of_read {stop : Location} {tag : Tag} {ts rest : List Token}
    (h : read stop ts = .ok (some tag, rest)) (source : Text) :
    .expression source false ∉ tag.opening ∧ .expression source false ∉ tag.closing :=
  not_mem_of_read rfl h (bare_not_mem_tagValue source)

end Tag

/-! ## Lines -/

/-- Among the tokens, `source` is the code behind an output mark that does not ask for
escaping. -/
def Bare (tokens : List Token) (source : Text) : Prop :=
  ∃ mark code after, mark :: code :: after <:+ tokens ∧ mark.kind = .outputMark ∧
    mark.contents ≠ ['='] ∧ code.kind = .code ∧ code.contents = source

/-- What the fragments leave unescaped is marked so among the tokens. -/
def Fragments.BareOnlyIf (tokens : List Token) (v : Fragments) : Prop :=
  ∀ source, .expression source false ∈ v → Bare tokens source

/-- What an instruction puts out unescaped is marked so among the tokens. -/
def Instruction.BareOnlyIf (tokens : List Token) (i : Instruction) : Prop :=
  i.fragments.BareOnlyIf tokens

section BareOnlyIf

variable {tokens : List Token}

theorem Fragments.BareOnlyIf.join {vs : List Fragments} (h : ∀ v ∈ vs, v.BareOnlyIf tokens) :
    (Fragments.join vs).BareOnlyIf tokens := by
  intro source hmem
  obtain ⟨v, hv, hin⟩ := (mem_join rfl).1 hmem
  exact h v hv source hin

theorem Fragments.BareOnlyIf.append {v w : Fragments} :
    Fragments.BareOnlyIf tokens (v ++ w) ↔ v.BareOnlyIf tokens ∧ w.BareOnlyIf tokens := by
  simp only [Fragments.BareOnlyIf, List.mem_append, or_imp, forall_and]

namespace Instruction.BareOnlyIf

theorem of_fragments_eq_nil {i : Instruction} (h : i.fragments = []) : i.BareOnlyIf tokens := by
  intro source hmem
  rw [h] at hmem
  cases hmem

theorem ofFragments {v : Fragments} (h : v.BareOnlyIf tokens) (pos : Location) (depth : Nat) :
    (Instruction.ofFragments pos v depth).BareOnlyIf tokens :=
  fun source hmem => h source (expression_mem_ofFragments hmem)

/-- What a tag takes in is what the instruction puts out. -/
theorem contentOf {i : Instruction} {v : Fragments} (h : i.BareOnlyIf tokens)
    (hv : Layout.contentOf? i = some v) : v.BareOnlyIf tokens := by
  intro source hmem
  cases i <;> simp only [Layout.contentOf?, Option.some.injEq, reduceCtorEq] at hv
  case output => exact h source (hv ▸ hmem)
  all_goals
    subst hv
    simp [Fragments.ofLiteral] at hmem

end Instruction.BareOnlyIf
end BareOnlyIf

namespace Layout

/-- What has been read off `tokens` so far accounts for every unescaped expression. -/
structure Accounted (tokens : List Token) (s : Layout) : Prop where
  suffix : s.rest <:+ tokens
  bare : ∀ i ∈ s.emitted, i.BareOnlyIf tokens

namespace Accounted

variable {tokens : List Token} {limit : Int} {stop : Location} {s s' : Layout} {b : Bool}

theorem add {i : Instruction} (h : s.Accounted tokens) (hi : i.BareOnlyIf tokens)
    (hrest : s'.rest <:+ s.rest) (hem : s'.emitted = i :: s.emitted) : s'.Accounted tokens where
  suffix := hrest.trans h.suffix
  bare := by
    intro j hj
    rw [hem] at hj
    rcases List.mem_cons.1 hj with rfl | hj
    · exact hi
    · exact h.bare j hj

protected theorem closeTo (h : s.Accounted tokens) (d : Nat) : (s.closeTo d).Accounted tokens where
  suffix := h.suffix
  bare := by
    intro i hi
    obtain ⟨k, hk⟩ := exists_emitted_closeTo s d
    rw [hk] at hi
    rcases List.mem_append.1 hi with hi | hi
    · rw [List.eq_of_mem_replicate hi]
      exact .of_fragments_eq_nil rfl
    · exact h.bare i hi

protected theorem readIndent (h : s.Accounted tokens) : s.readIndent.Accounted tokens := by
  by_cases hi : ∃ t ts, s.rest = t :: ts ∧ t.kind = .indent
  · obtain ⟨t, ts, hr, ht⟩ := hi
    have hts : ts <:+ s.rest := hr ▸ List.suffix_cons t ts
    have hrest : Accounted tokens { s with rest := ts } := ⟨hts.trans h.suffix, h.bare⟩
    rw [readIndent_of_indent hr ht]
    exact ⟨(hrest.closeTo t.depth).suffix, (hrest.closeTo t.depth).bare⟩
  · rw [readIndent_of_not_indent fun t ts hr ht => hi ⟨t, ts, hr, ht⟩]
    exact h

/-- Filtered text holds no expressions. -/
protected theorem readFilter {alone : Bool} (h : s.Accounted tokens)
    (hr : s.readFilter alone = .ok (b, s')) : s'.Accounted tokens := by
  rcases readFilter_cases hr with
    ⟨-, rfl, -⟩ | ⟨mark, ts, text, -, -, -, hsuf, -, -, hem⟩
  · exact h
  · exact h.add (.of_fragments_eq_nil rfl) hsuf hem

/-- A tag escapes all of its values. -/
protected theorem readTag (h : s.Accounted tokens) (hr : s.readTag limit stop = .ok (b, s')) :
    s'.Accounted tokens := by
  cases hread : Tag.read stop s.rest with
  | error e =>
    unfold readTag at hr
    rw [hread] at hr
    cases hr
  | ok p =>
    obtain ⟨tag?, rest⟩ := p
    obtain ⟨hw, ⟨rfl, rfl⟩ | ⟨hsome, hlt⟩⟩ := Tag.read_ok hread
    · rw [readTag_of_none hread] at hr
      cases hr
      exact h
    · obtain ⟨tag, rfl⟩ := Option.isSome_iff_exists.1 hsome
      obtain ⟨t, ts, hts, -⟩ := hw.exists_cons hlt
      have hopening : tag.opening.BareOnlyIf tokens :=
        fun source hmem => absurd hmem (Tag.bare_not_mem_of_read hread source).1
      have hclosing : tag.closing.BareOnlyIf tokens :=
        fun source hmem => absurd hmem (Tag.bare_not_mem_of_read hread source).2
      rw [readTag_of_some hread hts] at hr
      split at hr
      · cases hr
        refine h.add (.ofFragments (.join ?_) _ _) hw.suffix rfl
        simpa using ⟨hopening, hclosing⟩
      · obtain ⟨s₁, hopen, hr⟩ := map_eq_ok.1 hr
        obtain ⟨-, hrest, hem, -⟩ := openScope_ok hopen
        cases hr
        refine h.add ?_ (hrest ▸ hw.suffix) hem
        exact Fragments.BareOnlyIf.append.2 ⟨hopening, hclosing⟩

/-- The head of a control block holds no fragments, so that all depends on what the line is
otherwise. -/
protected theorem readCode {capture : Bool} {leaf : Location → Text → Nat → Instruction}
    {ts : List Token} (h : s.Accounted tokens) (hts : ts <:+ s.rest)
    (hleaf : ∀ code after, ts = code :: after → code.kind = .code →
      (leaf code.start code.contents s.depth).BareOnlyIf tokens)
    (hr : s.readCode limit stop capture leaf ts = .ok s') : s'.Accounted tokens := by
  unfold Layout.readCode at hr
  rw [bind_eq_ok] at hr
  obtain ⟨⟨⟨code, vars⟩, rest⟩, hbody, hr⟩ := hr
  obtain ⟨hw, after, he, hk⟩ := readCodeBody_ok hbody
  have hsuf : rest <:+ s.rest := hw.suffix.trans hts
  dsimp only at hr
  split at hr
  · obtain ⟨-, hrest, hem, -⟩ := openScope_ok hr
    exact h.add (.of_fragments_eq_nil rfl) (hrest ▸ hsuf) hem
  · split at hr
    · cases hr
      exact h.add (hleaf code after he hk) hsuf rfl
    · cases hr

/-- Of all that a line can put out after its tag, only the code behind an output mark can stay
unescaped. -/
protected theorem readOutput (h : s.Accounted tokens)
    (hr : s.readOutput limit stop = .ok (b, s')) : s'.Accounted tokens := by
  unfold Layout.readOutput at hr
  split at hr
  · cases hr
    exact h
  rename_i mark ts hrest
  have hts : ts <:+ s.rest := hrest ▸ List.suffix_cons mark ts
  split at hr
  · exact h.readFilter hr
  · rename_i hm
    rw [bind_eq_ok] at hr
    obtain ⟨s₁, hcode, hr⟩ := hr
    cases hr
    -- the only fragment that is ever made without escaping, if the mark is not `=`
    refine h.readCode hts ?_ hcode
    intro code after he hk source hmem
    have hsuf : mark :: code :: after <:+ tokens := he ▸ hrest ▸ h.suffix
    have hout : source = code.contents ∧ mark.contents ≠ ['='] := by
      simpa [Instruction.fragments] using hmem
    exact ⟨mark, code, after, hsuf, hm, hout.2, hk, hout.1.symm⟩
  · rw [bind_eq_ok] at hr
    obtain ⟨s₁, hcode, hr⟩ := hr
    cases hr
    exact h.readCode hts (fun _ _ _ _ => .of_fragments_eq_nil rfl) hcode
  · rw [bind_eq_ok] at hr
    obtain ⟨⟨comment, rest⟩, hc, hr⟩ := hr
    obtain ⟨rfl, -⟩ := takeOne_ok hc
    cases hr
    exact h.add (.of_fragments_eq_nil rfl) ((List.suffix_cons comment rest).trans hts) rfl
  · cases hr
    have htext : (interpolate mark.contents).BareOnlyIf tokens :=
      fun source hmem => absurd hmem (bare_not_mem_interpolate source mark.contents)
    exact h.add (.ofFragments htext _ _) hts rfl
  · cases hr
    exact h

/-- A tag takes in the fragments of its line as they are. -/
protected theorem fuse (h : s.Accounted tokens) : s.fuse.Accounted tokens := by
  unfold Layout.fuse
  split
  case h_2 => exact h
  rename_i content pos opening closing depth stop em hem
  split
  · exact h
  rename_i v hv
  have hin : v.BareOnlyIf tokens := (h.bare content (by simp [hem])).contentOf hv
  have htag := h.bare (.openTag pos opening closing depth stop) (by simp [hem])
  obtain ⟨hopening, hclosing⟩ := Fragments.BareOnlyIf.append.1 htag
  have hbefore : ∀ i ∈ em, i.BareOnlyIf tokens := fun i hi => h.bare i (by simp [hem, hi])
  split
  · refine ⟨h.suffix, List.forall_mem_cons.2 ⟨.ofFragments (.join ?_) _ _, hbefore⟩⟩
    simpa using ⟨hopening, hin, hclosing⟩
  split
  · have hjoined : (Fragments.join [opening, v]).BareOnlyIf tokens :=
      .join (by simpa using ⟨hopening, hin⟩)
    exact ⟨h.suffix, List.forall_mem_cons.2
      ⟨Fragments.BareOnlyIf.append.2 ⟨hjoined, hclosing⟩, hbefore⟩⟩
  · exact h

protected theorem readLine (h : s.Accounted tokens) (hr : s.readLine limit stop = .ok s') :
    s'.Accounted tokens := by
  unfold Layout.readLine at hr
  dsimp only at hr
  rw [bind_eq_ok] at hr
  obtain ⟨⟨filtered, s₁⟩, h₁, hr⟩ := hr
  rw [bind_eq_ok] at hr
  obtain ⟨⟨tagged, s₂⟩, h₂, hr⟩ := hr
  rw [bind_eq_ok] at hr
  obtain ⟨⟨output, s₃⟩, h₃, hr⟩ := hr
  have hread : s₃.Accounted tokens := ((h.readIndent.readFilter h₁).readTag h₂).readOutput h₃
  cases hr
  split
  · exact hread.fuse
  · exact hread

/-- A doctype line holds no expressions. -/
theorem start (h : readDoctype { rest := tokens } = .ok s) : s.Accounted tokens := by
  rcases readDoctype_ok h with rfl | ⟨mark, ts, lines, hr, -, hrest, hem, -⟩
  · exact ⟨List.suffix_rfl, by simp⟩
  · change tokens = mark :: ts at hr
    refine ⟨?_, ?_⟩
    · rw [hrest, hr]
      exact (List.drop_suffix _ _).trans (List.suffix_cons mark ts)
    · intro i hi
      rw [hem, List.append_nil] at hi
      obtain ⟨l, -, rfl⟩ := List.mem_map.1 hi
      exact .of_fragments_eq_nil rfl

end Accounted

theorem ReadTo.accounted {maxDepth : Int} {tokens : List Token} {s : Layout}
    (h : ReadTo maxDepth tokens s) : s.Accounted tokens := by
  obtain ⟨start, hstart, hs⟩ := h
  exact (readLines_ok (fun _ _ hs _ hr => hs.readLine hr) (Accounted.start hstart) hs).1

end Layout

/-- Matching the scopes changes no fragment. -/
theorem exists_fragments_eq_of_mem_matchScopes {n : Nat} {l : List Instruction} {i : Instruction}
    (h : i ∈ (matchScopes n l).1) : ∃ j ∈ l, j.fragments = i.fragments := by
  have hmem : i.withStop 0 ∈ l.map (·.withStop 0) := by
    rw [← map_withStop_matchScopes n 0 l]
    exact List.mem_map_of_mem h
  obtain ⟨j, hj, he⟩ := List.mem_map.1 hmem
  refine ⟨j, hj, ?_⟩
  rw [← j.fragments_withStop 0, he, i.fragments_withStop]

/-- Whatever the tokens are, an expression is put out as it is only where it stands behind an
output mark that says so. -/
theorem Program.bare_of_ofTokens {contextType : Text} {maxDepth : Int} {tokens : List Token}
    {p : Program} (h : Program.ofTokens contextType maxDepth tokens = .ok p) :
    ∀ i ∈ p.code.toList, i.BareOnlyIf tokens := by
  intro i hi
  obtain ⟨s, nodes, hs, hmatch, -⟩ := Program.ofTokens_ok h
  have hi : i ∈ (matchScopes 0 (s.closeTo 0).emitted.reverse).1 := by rwa [hmatch]
  obtain ⟨j, hj, he⟩ := exists_fragments_eq_of_mem_matchScopes hi
  intro source hmem
  exact (hs.accounted.closeTo 0).bare j (List.mem_reverse.1 hj) source (he ▸ hmem)

end Offside
