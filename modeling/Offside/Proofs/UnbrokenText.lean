import Offside.Proofs.FilterUses
import Offside.Proofs.Indentation
import Offside.Proofs.LineInstructions
import Offside.Proofs.Positions

/-!
# Text without line breaks

A line of a source holds no line break, so neither do its tokens. What is made from them copies and
escapes their characters and adds markup, none of which is a line break. The literal text of a
program is hence unbroken (`Fragments.Unbroken`); the one thing in a line of output that can be
broken into several lines is what a filter makes of its text.

A line of output that holds a filter comes from a tag with a filter behind it (`Splices`), and any
other line of output holds none (`Layout.Makes.plain_or_splices`).
-/

namespace Offside

/-! ## Tokens -/

theorem Piece.contents_subset (kind : TokenKind) (raw : Text) : Piece.contents kind raw ⊆ raw := by
  have htrim : Text.trim raw ⊆ raw := by
    intro c hc
    have hright : c ∈ raw.trimLeft.reverse.dropWhile isSpace := List.mem_reverse.1 hc
    have hleft := List.mem_reverse.1 ((List.dropWhile_sublist _).subset hright)
    exact (List.dropWhile_sublist _).subset hleft
  unfold Piece.contents
  split
  · exact htrim
  · exact htrim
  · exact List.Subset.refl _

/-- A token of lines without a character has none of it. -/
theorem not_mem_contents_of_mem_lexLines {file : Text} {line offset : Nat} {block : Option Nat}
    {ts : List Text} {c : Char} (hts : ∀ l ∈ ts, c ∉ l) {t : Token}
    (h : t ∈ lexLines file line offset block ts) : c ∉ t.contents := by
  induction ts generalizing line offset block with
  | nil => cases h
  | cons l ts ih =>
    obtain ⟨hl, hts⟩ := List.forall_mem_cons.1 hts
    rw [lexLines_cons] at h
    rcases List.mem_append.1 h with h | h
    · obtain ⟨before, raw, after, rfl, -, hcontents, -⟩ :=
        exists_stretch_of_mem_placePieces (scanLine_covers (line == 0) block l) h
      rw [hcontents]
      intro hc
      have hraw := Piece.contents_subset _ _ hc
      exact hl (by simp [hraw])
    · exact ih hts h

/-- The tokens of a source hold no line break. -/
theorem unbroken_of_mem_lex {file source : Text} {t : Token} (h : t ∈ lex file source) :
    '\n' ∉ t.contents :=
  not_mem_contents_of_mem_lexLines (fun _ hl => Text.not_mem_of_mem_splitAt hl) h

/-! ## Fragments -/

theorem Text.newline_not_mem_escape {t : Text} (h : '\n' ∉ t) : '\n' ∉ t.escape := by
  have hchar : ∀ c, c ≠ '\n' → '\n' ∉ escapeChar c := by
    intro c hc
    unfold escapeChar
    split_ifs
    · decide
    · decide
    · decide
    · decide
    · decide
    · simpa using Ne.symm hc
  intro hmem
  obtain ⟨c, hc, hin⟩ := List.mem_flatMap.1 hmem
  exact hchar c (fun he => h (he ▸ hc)) hin

namespace Fragments

/-- No literal of the line holds a line break. -/
def Unbroken (v : Fragments) : Prop := ∀ t, .literal t ∈ v → '\n' ∉ t

/-- The line holds no filter, and no literal of it a line break. -/
structure Plain (v : Fragments) : Prop where
  unbroken : v.Unbroken
  filterNames_eq : v.filterNames = []

variable {v : Fragments} {vs : List Fragments}

theorem Unbroken.ofLiteral {t : Text} (h : '\n' ∉ t) : (ofLiteral t).Unbroken := by
  intro u hu
  cases List.mem_singleton.1 hu
  exact h

theorem Unbroken.merge (h : v.Unbroken) : v.merge.Unbroken := by
  fun_induction Fragments.merge v with
  | case1 => exact h
  | case2 a fs b gs hm ih =>
    have hfs := ih fun t ht => h t (List.mem_cons_of_mem _ ht)
    rw [hm] at hfs
    intro t ht
    rcases List.mem_cons.1 ht with he | ht
    · cases he
      rw [List.mem_append, not_or]
      exact ⟨h a List.mem_cons_self, hfs b List.mem_cons_self⟩
    · exact hfs t (List.mem_cons_of_mem _ ht)
  | case3 a fs hm ih =>
    intro t ht
    rcases List.mem_cons.1 ht with he | ht
    · exact h t (he ▸ List.mem_cons_self)
    · exact ih (fun u hu => h u (List.mem_cons_of_mem _ hu)) t ht
  | case4 f fs hf ih =>
    intro t ht
    rcases List.mem_cons.1 ht with he | ht
    · exact h t (he ▸ List.mem_cons_self)
    · exact ih (fun u hu => h u (List.mem_cons_of_mem _ hu)) t ht

theorem Unbroken.join (h : ∀ v ∈ vs, v.Unbroken) : (join vs).Unbroken := by
  refine Unbroken.merge ?_
  intro t ht
  obtain ⟨v, hv, ht⟩ := List.mem_flatten.1 ht
  exact h v hv t ht

theorem Plain.join (h : ∀ v ∈ vs, v.Plain) : (join vs).Plain where
  unbroken := .join fun v hv => (h v hv).unbroken
  filterNames_eq := by
    rw [filterNames_join, List.flatMap_eq_nil_iff]
    exact fun v hv => (h v hv).filterNames_eq

theorem Plain.nil : Plain [] := by
  refine ⟨?_, rfl⟩
  intro t ht
  cases ht

theorem Plain.ofLiteral {t : Text} (h : '\n' ∉ t) : (Fragments.ofLiteral t).Plain :=
  ⟨.ofLiteral h, rfl⟩

/-- The text of a line that is all literal is unbroken. -/
theorem Unbroken.newline_not_mem_describe (h : v.Unbroken) (hv : v.isLiteral = true) :
    '\n' ∉ v.describe := by
  intro hmem
  obtain ⟨f, hf, hin⟩ := List.mem_flatMap.1 hmem
  cases f with
  | literal t => exact h t hf hin
  | expression | filter => cases List.all_eq_true.1 hv _ hf

end Fragments

theorem Text.newline_not_mem_dropEnds {t : Text} (h : '\n' ∉ t) : '\n' ∉ t.dropEnds := by
  have hstump : ∀ n, '\n' ∉ List.replicate n replacement := by
    intro n hn
    exact absurd (List.eq_of_mem_replicate hn) (by decide)
  unfold Text.dropEnds
  split
  · exact List.not_mem_nil
  · exact hstump _
  · rename_i c d t
    rw [List.mem_cons, not_or] at h
    simp only [List.mem_append, not_or]
    refine ⟨⟨hstump _, ?_⟩, hstump _⟩
    exact fun hmem => h.2 ((List.dropLast_sublist _).subset hmem)

theorem unbroken_tagValue {t : Token} (h : '\n' ∉ t.contents) : (tagValue t).Unbroken := by
  unfold tagValue
  split
  · intro u hu
    cases List.mem_singleton.1 hu
  · exact .ofLiteral (Text.newline_not_mem_escape (Text.newline_not_mem_dropEnds h))
  · exact .ofLiteral (Text.newline_not_mem_escape h)

theorem plain_interpolate {t : Text} (h : '\n' ∉ t) : (interpolate t).Plain := by
  have hfrom : '\n' ∉ (interpolateFrom t).1 ∧ Fragments.Unbroken (interpolateFrom t).2 := by
    fun_induction interpolateFrom t with
    | case1 => exact ⟨List.not_mem_nil, fun _ hu => by cases hu⟩
    | case2 t lit fs hfs ih | case4 t hn lit fs hfs ih =>
      simp only [List.mem_cons, not_or] at h
      rw [hfs] at ih
      obtain ⟨hlit, hrest⟩ := ih (by simp [h])
      exact ⟨by simp [hlit], hrest⟩
    | case3 t n hn lit fs hfs ih =>
      simp only [List.mem_cons, not_or] at h
      rw [hfs] at ih
      obtain ⟨hlit, hrest⟩ := ih fun hmem => h.2.2 (List.mem_of_mem_drop hmem)
      refine ⟨List.not_mem_nil, ?_⟩
      intro u hu
      simp only [List.mem_cons, reduceCtorEq, false_or, Fragment.literal.injEq] at hu
      rcases hu with rfl | hu
      · exact Text.newline_not_mem_escape hlit
      · exact hrest u hu
    | case5 c t _ _ lit fs hfs ih =>
      rw [List.mem_cons, not_or] at h
      rw [hfs] at ih
      obtain ⟨hlit, hrest⟩ := ih h.2
      exact ⟨by simp [hlit, h.1], hrest⟩
  refine ⟨?_, filterNames_interpolate t⟩
  intro u hu
  rcases List.mem_cons.1 hu with he | hu
  · cases he
    exact Text.newline_not_mem_escape hfrom.1
  · exact hfrom.2 u hu

/-! ## Tags -/

namespace Tag

variable {tag : Tag}

theorem unbroken_element (h : ∀ v ∈ tag.values, v.Unbroken) : tag.element.Unbroken := by
  cases hn : tag.name with
  | none =>
    rw [element, hn]
    exact .ofLiteral (by decide)
  | some v =>
    rw [element, hn]
    exact h v (mem_values.2 (.inl hn))

theorem unbroken_openingOf (h : ∀ v ∈ tag.values, v.Unbroken) : tag.openingOf.Unbroken := by
  have hstring : ∀ {s : String} {v : Fragments}, v = Fragments.ofString s → '\n' ∉ s.toList →
      v.Unbroken := by
    rintro s v rfl hs
    exact .ofLiteral hs
  refine .join ?_
  intro v hv
  simp only [List.mem_append, List.mem_cons, List.not_mem_nil, or_false, List.mem_flatMap] at hv
  rcases hv with ((((hv | rfl) | hv) | hv) | ⟨a, ha, hv⟩) | hv
  · exact hstring hv (by decide)
  · exact unbroken_element h
  · split at hv
    · rename_i id hid
      simp only [List.mem_cons, List.not_mem_nil, or_false] at hv
      rcases hv with hv | rfl | hv
      · exact hstring hv (by decide)
      · exact h v (mem_values.2 (.inr (.inl hid)))
      · exact hstring hv (by decide)
    · cases hv
  · split at hv
    · cases hv
    · simp only [List.mem_append, List.mem_cons, List.not_mem_nil, or_false] at hv
      rcases hv with (hv | hv) | hv
      · exact hstring hv (by decide)
      · rcases mem_spaced hv with hv | hv
        · exact h v (mem_values.2 (.inr (.inr (.inl hv))))
        · exact hstring hv (by decide)
      · exact hstring hv (by decide)
  · simp only [attributeText, List.mem_cons, List.not_mem_nil, or_false] at hv
    have hside : ∀ w, w = a.1 ∨ w = a.2 → w.Unbroken :=
      fun w hw => h w (mem_values.2 (.inr (.inr (.inr ⟨a, ha, hw⟩))))
    rcases hv with hv | hv | hv | hv | hv
    · exact hstring hv (by decide)
    · exact hside v (.inl hv)
    · exact hstring hv (by decide)
    · exact hside v (.inr hv)
    · exact hstring hv (by decide)
  · exact hstring hv (by decide)

theorem plain_of_read {stop : Location} {ts rest : List Token}
    (hts : ∀ t ∈ ts, '\n' ∉ t.contents) (h : read stop ts = .ok (some tag, rest)) :
    tag.opening.Plain ∧ tag.closing.Plain := by
  have hvalues : ∀ v ∈ tag.values, v.Unbroken := by
    intro v hv
    obtain ⟨t, ht, rfl⟩ := values_read h v hv
    exact unbroken_tagValue (hts t ht)
  obtain ⟨hopening, hclosing⟩ := filterNames_of_read h
  refine ⟨⟨unbroken_openingOf fun v hv => hvalues v (values_settle_subset tag hv), hopening⟩,
    ⟨.join ?_, hclosing⟩⟩
  intro v hv
  simp only [List.mem_cons, List.not_mem_nil, or_false] at hv
  rcases hv with rfl | rfl | rfl
  · exact .ofLiteral (by decide)
  · exact unbroken_element hvalues
  · exact .ofLiteral (by decide)

end Tag

/-! ## Doctype lines -/

/-- The declarations are checked piece by piece, since they are long. -/
theorem Doctype.unbroken_table : ∀ row ∈ table, '\n' ∉ row.2.toList := by
  have happend : ∀ {s t : String}, '\n' ∉ s.toList → '\n' ∉ t.toList → '\n' ∉ (s ++ t).toList := by
    intro s t hs ht
    rw [String.toList_append, List.mem_append, not_or]
    exact ⟨hs, ht⟩
  have hxhtml : ∀ {title address : String}, '\n' ∉ title.toList → '\n' ∉ address.toList →
      '\n' ∉ (xhtml1 title address).toList := by
    intro title address ht ha
    refine happend (happend (happend (happend ?_ ht) ?_) ha) ?_ <;> decide +kernel
  intro row hrow
  unfold table at hrow
  simp only [List.mem_cons, List.not_mem_nil, or_false] at hrow
  rcases hrow with rfl | rfl | rfl | rfl | rfl | rfl | rfl | rfl | rfl
  iterate 4 exact hxhtml (by decide) (by decide)
  · decide +kernel
  iterate 4 exact happend (by decide +kernel) (by decide +kernel)

theorem Doctype.unbroken_lines {keyword encoding : Text} {lines : List Text}
    (h : Doctype.lines? keyword encoding = some lines) (he : '\n' ∉ encoding) :
    ∀ l ∈ lines, '\n' ∉ l := by
  have hprolog : ∀ e : Text, '\n' ∉ e → '\n' ∉ prolog e := by
    have hfirst : '\n' ∉ "<?xml version='1.0' encoding='".toList := by decide +kernel
    have hlast : '\n' ∉ "' ?>".toList := by decide +kernel
    intro e he hmem
    rcases List.mem_append.1 hmem with hmem | hmem
    · rcases List.mem_append.1 hmem with hmem | hmem
      · exact hfirst hmem
      · exact he hmem
    · exact hlast hmem
  unfold lines? at h
  split at h
  · cases h
    intro l hl
    rw [List.mem_singleton.1 hl]
    refine hprolog _ ?_
    split
    · decide
    · exact he
  · obtain ⟨d, hd, rfl⟩ := Option.map_eq_some_iff.1 h
    obtain ⟨row, hrow, rfl⟩ := Option.map_eq_some_iff.1 hd
    have hdeclaration := unbroken_table row (List.mem_of_find?_eq_some hrow)
    split
    · simpa using hdeclaration
    · simpa using ⟨hprolog _ he, hdeclaration⟩

theorem Layout.unbroken_readDoctype {tokens : List Token} {s : Layout}
    (hts : ∀ t ∈ tokens, '\n' ∉ t.contents) (h : readDoctype { rest := tokens } = .ok s) :
    ∀ i ∈ s.emitted, ∃ pos text, i = .literal pos text 0 ∧ '\n' ∉ text := by
  unfold readDoctype at h
  cases tokens with
  | nil =>
    cases h
    simp
  | cons mark ts =>
    dsimp only at h
    split at h
    · cases h
      simp
    · split at h
      · cases h
      · rename_i lines hlines
        cases h
        have hencoding : '\n' ∉ (((ts.takeWhile (·.kind == .doctypeWord)).take 2).map
            (·.contents))[1]?.getD [] := by
          cases hword : (((ts.takeWhile (·.kind == .doctypeWord)).take 2).map (·.contents))[1]? with
          | none => exact List.not_mem_nil
          | some e =>
            obtain ⟨t, ht, rfl⟩ := List.mem_map.1 (List.mem_of_getElem? hword)
            have hmem := (List.takeWhile_sublist _).subset (List.mem_of_mem_take ht)
            exact hts t (List.mem_cons_of_mem _ hmem)
        intro i hi
        simp only [List.append_nil, List.mem_reverse, List.mem_map] at hi
        obtain ⟨l, hl, rfl⟩ := hi
        exact ⟨mark.start, l, rfl, Doctype.unbroken_lines hlines hencoding l hl⟩

/-! ## Lines -/

/-- The lines of fragments that an instruction puts out. -/
def Instruction.lines : Instruction → List Fragments
  | literal _ text _ => [Fragments.ofLiteral text]
  | output _ value _ => [value]
  | openTag _ opening closing _ _ => [opening, closing]
  | _ => []

@[simp] theorem Instruction.lines_withStop (i : Instruction) (n : Nat) :
    (i.withStop n).lines = i.lines := by
  cases i <;> rfl

/-- A tag at `pos` that has taken in what the filter behind it puts out. -/
inductive Splices (body : List Token) (pos : Location) : Fragments → Prop
  | intro {lead mark : Token} {opening closing : Fragments} (text : Text) (lead_mem : lead ∈ body)
    (kind_lead : lead.kind ∈ [.tagMark, .idMark, .classMark]) (pos_eq : pos = lead.start)
    (mark_mem : mark ∈ body) (kind_mark : mark.kind = .filterMark) (plain_opening : opening.Plain)
    (plain_closing : closing.Plain) :
    Splices body pos
      (Fragments.join [opening, [.filter (Layout.filterName mark.contents) text], closing])

theorem Splices.filterNames_ne {body : List Token} {pos : Location} {v : Fragments}
    (h : Splices body pos v) : v.filterNames ≠ [] := by
  cases h
  rw [Fragments.filterNames_join]
  simp [Fragments.filterNames]

/-- An entry of fragments puts out its fragments. -/
theorem Instruction.plain_of_mem_lines_ofFragments {pos : Location} {v w : Fragments} {d : Nat}
    (hv : v.Plain) (hw : w ∈ (Instruction.ofFragments pos v d).lines) : w.Plain := by
  unfold Instruction.ofFragments at hw
  split at hw
  · rename_i hlit
    rw [List.mem_singleton.1 hw]
    exact .ofLiteral (hv.unbroken.newline_not_mem_describe hlit)
  · rwa [List.mem_singleton.1 hw]

theorem Instruction.plain_of_mem_lines_openTag {pos : Location} {opening closing w : Fragments}
    {d stop : Nat} (hopening : opening.Plain) (hclosing : closing.Plain)
    (hw : w ∈ (Instruction.openTag pos opening closing d stop).lines) : w.Plain := by
  simp only [Instruction.lines, List.mem_cons, List.not_mem_nil, or_false] at hw
  rcases hw with rfl | rfl
  · exact hopening
  · exact hclosing

/-- What a tag takes in is a line of fragments, or what a filter puts out. -/
theorem Instruction.mem_lines_of_contentOf {i : Instruction} {v : Fragments}
    (h : Layout.contentOf? i = some v) :
    v ∈ i.lines ∨ ∃ pos filter text depth, i = .filtered pos filter text depth ∧
      v = [.filter filter text] := by
  cases i with
  | literal | output =>
    cases h
    exact .inl (List.mem_singleton_self _)
  | filtered pos filter text depth =>
    cases h
    exact .inr ⟨pos, filter, text, depth, rfl, rfl⟩
  | exec | openTag | openControl | close => cases h

namespace Layout

variable {stop : Location} {d : Nat} {deeper : Bool} {rest body out : List Token}
  {i : Instruction} {new : List Instruction}

theorem Content.plain (h : Content d deeper out i) (hts : ∀ t ∈ out, '\n' ∉ t.contents) :
    ∀ v ∈ i.lines, v.Plain := by
  cases h with
  | text =>
    intro v hv
    refine Instruction.plain_of_mem_lines_ofFragments (plain_interpolate ?_) hv
    exact hts _ List.mem_cons_self
  | @comment mark c =>
    have hc : '\n' ∉ c.contents := hts c (by simp)
    intro v hv
    rw [List.mem_singleton.1 hv]
    exact .ofLiteral (by simp [hc])
  | value =>
    intro v hv
    rw [List.mem_singleton.1 hv]
    refine ⟨?_, rfl⟩
    intro t ht
    cases List.mem_singleton.1 ht
  | filter => simp [Instruction.lines]

theorem Emits.plain (h : Emits d deeper out new) (hts : ∀ t ∈ out, '\n' ∉ t.contents) :
    ∀ i ∈ new, ∀ v ∈ i.lines, v.Plain := by
  cases h with
  | nothing => simp
  | content h => simpa using h.plain hts
  | exec | control => simp [Instruction.lines]

/-- Output that passes through a filter has its mark. -/
theorem Content.exists_mark {pos : Location} {filter text : Text} {depth : Nat}
    (h : Content d deeper out (.filtered pos filter text depth)) :
    ∃ mark ∈ out, mark.kind = .filterMark ∧ filter = filterName mark.contents := by
  generalize hi : Instruction.filtered pos filter text depth = i at h
  cases h with
  | text =>
    unfold Instruction.ofFragments at hi
    split at hi <;> cases hi
  | comment | value => cases hi
  | @filter mark ts hm =>
    cases hi
    exact ⟨mark, List.mem_cons_self, hm, rfl⟩

/-- A line that a line of markup puts out is plain, or it is that of a tag with a filter behind
it. -/
theorem Makes.plain_or_splices (h : Makes stop d rest body new)
    (hts : ∀ t ∈ body ++ rest, '\n' ∉ t.contents) :
    ∀ i ∈ new, ∀ v ∈ i.lines, v.Plain ∨ Splices body i.pos v := by
  cases h with
  | filter => simp [Instruction.lines]
  | output _ h =>
    intro i hi v hv
    exact .inl (h.plain (fun t ht => hts t (List.mem_append_left _ ht)) i hi v hv)
  | tag hbody htag =>
    obtain ⟨hopening, hclosing⟩ := Tag.plain_of_read hts htag
    simp only [List.mem_singleton, forall_eq]
    intro v hv
    left
    split at hv
    · exact Instruction.plain_of_mem_lines_openTag hopening hclosing hv
    · exact Instruction.plain_of_mem_lines_ofFragments (.join (by simp [hopening, hclosing])) hv
  | @joined lead more out tag i w hbody htag hcontent hw =>
    obtain ⟨hopening, hclosing⟩ := Tag.plain_of_read hts htag
    have hsub := subset_of_read htag
    simp only [List.mem_singleton, forall_eq]
    intro v hv
    rcases Instruction.mem_lines_of_contentOf hw with hw | ⟨pos, filter, text, depth, rfl, rfl⟩
    · have hplain : w.Plain :=
        hcontent.plain (fun t ht => hts t (List.mem_append_left _ (hsub ht))) w hw
      left
      split at hv
      · exact Instruction.plain_of_mem_lines_openTag (.join (by simp [hopening, hplain])) hclosing
          hv
      · exact Instruction.plain_of_mem_lines_ofFragments
          (.join (by simp [hopening, hplain, hclosing])) hv
    · obtain ⟨mark, hmark, hm, rfl⟩ := hcontent.exists_mark
      have hlead : lead.kind ∈ [.tagMark, .idMark, .classMark] := by
        rw [hbody, List.cons_append] at htag
        exact kind_of_readTag htag
      have hsplices : ∀ {closing : Fragments}, closing.Plain → Splices body lead.start
          (Fragments.join [tag.opening, [.filter (filterName mark.contents) text], closing]) := by
        intro closing h
        exact .intro text (by simp [hbody]) hlead rfl (hsub hmark) hm hopening h
      cases hdeep : deeperThan d rest with
      | true =>
        rw [hdeep, if_pos rfl] at hv
        simp only [Instruction.lines, List.mem_cons, List.not_mem_nil, or_false] at hv
        rcases hv with rfl | rfl
        · exact .inr (hsplices .nil)
        · exact .inl hclosing
      | false =>
        rw [hdeep, if_neg Bool.false_ne_true] at hv
        rw [if_neg Bool.false_ne_true, Instruction.pos_ofFragments]
        unfold Instruction.ofFragments at hv
        split at hv
        · -- a line with a filter is not all literal
          rename_i hlit
          exact absurd (Fragments.filterNames_of_isLiteral hlit) (hsplices hclosing).filterNames_ne
        · rw [List.mem_singleton.1 hv]
          exact .inr (hsplices hclosing)
  | @around lead more out tag i hbody htag hemits =>
    obtain ⟨hopening, hclosing⟩ := Tag.plain_of_read hts htag
    have hsub := subset_of_read htag
    intro j hj v hv
    left
    rcases List.mem_cons.1 hj with rfl | hj
    · exact hemits.plain (fun t ht => hts t (List.mem_append_left _ (hsub ht))) j
        List.mem_cons_self v hv
    · rw [List.mem_singleton.1 hj] at hv
      exact Instruction.plain_of_mem_lines_openTag hopening hclosing hv

end Layout

/-- A line that a program puts out is plain, or it is that of a line of markup that has a tag with a
filter behind it. -/
theorem Program.plain_or_splices {file source contextType : Text} {maxDepth : Int} {p : Program}
    (h : Program.ofTokens contextType maxDepth (lex file source) = .ok p) {i : Instruction}
    (hi : i ∈ p.code.toList) {v : Fragments} (hv : v ∈ i.lines) :
    v.Plain ∨ ∃ l : MarkupLine, l.body ⊆ lex file source ∧ Splices l.body i.pos v := by
  obtain ⟨s, nodes, hs, hmatch, -⟩ := ofTokens_ok h
  obtain ⟨doctype, ls, start, hlex, -, hchain, hstart, hrest, -, hread⟩ := hs.exists_sheet
  obtain ⟨code, hmade, hem⟩ := madeBy_of_readLines hchain hrest hread
  have hc : i.closes = false := by
    cases i with
    | close => cases hv
    | literal | output | exec | filtered | openTag | openControl => rfl
  obtain ⟨a, ha⟩ := List.getElem?_of_mem hi
  obtain ⟨⟨y, hy, he⟩, -⟩ := Layout.exists_emitted hmatch ha hc
  rw [← Instruction.lines_withStop i 0, he, Instruction.lines_withStop] at hv
  rw [(Instruction.eq_of_withStop_eq he).1]
  rw [(Instruction.eq_of_withStop_eq he).2.2.1] at hc
  have hy := List.mem_of_getElem? hy
  rw [hem, List.mem_append, List.mem_reverse] at hy
  rcases hy with hy | hy
  · obtain ⟨pos, text, rfl, htext⟩ :=
      Layout.unbroken_readDoctype (fun t ht => unbroken_of_mem_lex ht) hstart y hy
    rw [List.mem_singleton.1 hv]
    exact .inl (.ofLiteral htext)
  · obtain ⟨ls₁, l, ls₂, new, rfl, hmakes, hy⟩ := hmade.exists_makes hy hc
    have hbody : l.body ⊆ lex file source := by
      rw [hlex]
      intro t ht
      simp [MarkupLine.tokens, ht]
    have hbelow : ls₂.flatMap (·.tokens) ⊆ lex file source := by
      rw [hlex]
      intro t ht
      simp only [List.flatMap_append, List.flatMap_cons, List.mem_append]
      exact .inr (.inr (.inr ht))
    refine (hmakes.plain_or_splices ?_ y hy v hv).imp_right fun hsplices => ⟨l, hbody, hsplices⟩
    intro t ht
    exact unbroken_of_mem_lex ((List.mem_append.1 ht).elim (fun h => hbody h) fun h => hbelow h)

end Offside
