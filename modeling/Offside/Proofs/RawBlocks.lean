import Offside.Proofs.Sheet

/-!
# Which lines are swallowed

A filter that stands alone on its line opens a raw block: the lines after it belong to the block as
long as they are blank or deeper. Cutting a source into tokens keeps track of that with one number
that is handed from line to line. Here the same is said of a line and the lines before it
(`Swallowed`), and the lines that are left (`IsMarkup`) are shown to be those that become lines of
markup.
-/

namespace Offside

/-- The line is a filter that stands alone: a colon and a name, with at most one blank after it. -/
def OpensBlock (t : Text) : Prop :=
  ∃ name : Text, name ≠ [] ∧ (∀ c ∈ name, isFilterNameChar c = true) ∧
    (t.dropWhile (· == ' ') = ':' :: name ∨ t.dropWhile (· == ' ') = ':' :: (name ++ [' ']))

/-- After the lines `before`, a line with more than `n - 1` spaces belongs to a raw block: one of
them opens a block at a smaller indentation, and all lines after it are blank or deeper than it. -/
def Hangs (before : List Text) (n : Nat) : Prop :=
  ∃ earlier l between, before = earlier ++ l :: between ∧ OpensBlock l ∧ indentation l < n ∧
    ∀ t ∈ between, t.isBlank = true ∨ indentation l < indentation t

/-- Line `k` belongs to the raw block of a line before it. -/
def Swallowed (lines : List Text) (k : Nat) : Prop :=
  ∃ t, lines[k]? = some t ∧ Hangs (lines.take k) (indentation t)

/-- Line `k` is the text `t`, and it is neither blank nor a doctype line nor part of a raw block. -/
structure IsMarkup (lines : List Text) (k : Nat) (t : Text) : Prop where
  line : lines[k]? = some t
  not_blank : t.isBlank = false
  not_doctype : ¬ (k = 0 ∧ ['!', '!', '!'] <+: t)
  not_swallowed : ¬ Swallowed lines k

/-- The first line is a doctype line. -/
def HasDoctype (lines : List Text) : Prop := ∃ t ∈ lines.head?, ['!', '!', '!'] <+: t

theorem IsMarkup.pos_of_hasDoctype {lines : List Text} {k : Nat} {t : Text} (h : IsMarkup lines k t)
    (hd : HasDoctype lines) : 0 < k := by
  obtain ⟨u, hu, hprefix⟩ := hd
  refine Nat.pos_of_ne_zero ?_
  rintro rfl
  have hline := h.line
  rw [← List.head?_eq_getElem?, hu] at hline
  cases hline
  exact h.not_doctype ⟨rfl, hprefix⟩

theorem IsMarkup.unique {lines : List Text} {k : Nat} {t u : Text} (ht : IsMarkup lines k t)
    (hu : IsMarkup lines k u) : t = u :=
  Option.some.inj (ht.line.symm.trans hu.line)

/-! ## Filters that stand alone -/

theorem all_of_splitWhile {p : Char → Bool} {t a b : Text} (h : Text.splitWhile p t = (a, b)) :
    ∀ c ∈ a, p c = true := by
  intro c hc
  rw [← (Prod.mk.inj h).1] at hc
  exact List.mem_takeWhile_imp hc

theorem splitWhile_of_all {p : Char → Bool} {a b : Text} (ha : ∀ c ∈ a, p c = true)
    (hb : ∀ c ∈ b.head?, p c = false) : Text.splitWhile p (a ++ b) = (a, b) := by
  rw [Text.splitWhile, List.takeWhile_append_of_pos ha, List.dropWhile_append_of_pos ha]
  cases b with
  | nil => simp
  | cons c b =>
    have hc : ¬ p c = true := by simp [hb c rfl]
    rw [List.takeWhile_cons_of_neg hc, List.dropWhile_cons_of_neg hc, List.append_nil]

theorem scanFilter_of_name {name : Text} (hne : name ≠ [])
    (hall : ∀ c ∈ name, isFilterNameChar c = true) :
    scanFilter (':' :: name) = some ([.token .filterMark (':' :: name)], false) := by
  have hsplit := splitWhile_of_all hall (show ∀ c ∈ ([] : Text).head?, _ by simp)
  rw [List.append_nil] at hsplit
  unfold scanFilter
  simp only [hsplit]

theorem scanFilter_alone_iff {t : Text} :
    (∃ ps, scanFilter t = some (ps, false)) ↔
      ∃ name : Text, name ≠ [] ∧ (∀ c ∈ name, isFilterNameChar c = true) ∧
        (t = ':' :: name ∨ t = ':' :: (name ++ [' '])) := by
  constructor
  · rintro ⟨ps, h⟩
    unfold scanFilter at h
    split at h
    · split at h
      · cases h
      · rename_i name hne hsplit
        refine ⟨name, hne, all_of_splitWhile hsplit, .inl ?_⟩
        rw [← Text.splitWhile_append hsplit, List.append_nil]
      · rename_i name hne hsplit
        refine ⟨name, hne, all_of_splitWhile hsplit, .inr ?_⟩
        rw [← Text.splitWhile_append hsplit]
      · cases h
      · cases h
    · cases h
  · rintro ⟨name, hne, hall, rfl | rfl⟩
    · exact ⟨_, scanFilter_of_name hne hall⟩
    · have hblank : ∀ c ∈ ([' '] : Text).head?, isFilterNameChar c = false := by
        rintro c ⟨⟩
        decide
      have hsplit := splitWhile_of_all hall hblank
      unfold scanFilter
      simp only [hsplit]
      cases name with
      | nil => exact absurd rfl hne
      | cons c name => exact ⟨_, rfl⟩

/-- The flag of a line's body is that of a filter that stands alone. -/
theorem scanBody_opens_iff {t : Text} :
    (scanBody (t.dropWhile (· == ' '))).2 = true ↔ OpensBlock t := by
  rw [OpensBlock, ← scanFilter_alone_iff]
  unfold scanBody
  split
  · rename_i ps content hf
    rw [hf]
    simp
  · rename_i hf
    rw [hf]
    split
    · simp
    · dsimp only
      split <;> simp

theorem OpensBlock.not_blank {t : Text} (h : OpensBlock t) : t.isBlank = false := by
  obtain ⟨name, -, -, h⟩ := h
  have hcolon : ':' ∈ t := by
    refine (List.dropWhile_sublist (· == ' ')).subset ?_
    rcases h with h | h <;> rw [h] <;> exact List.mem_cons_self ..
  cases hblank : t.isBlank with
  | false => rfl
  | true =>
    have := List.all_eq_true.1 hblank ':' hcolon
    exact absurd this (by decide)

/-! ## Blocks that are open -/

theorem not_hangs_nil (n : Nat) : ¬ Hangs [] n := by
  rintro ⟨earlier, l, between, h, -⟩
  cases earlier <;> cases h

theorem Hangs.mono {before : List Text} {m n : Nat} (h : Hangs before m) (hmn : m ≤ n) :
    Hangs before n := by
  obtain ⟨earlier, l, between, he, ho, hlt, hb⟩ := h
  exact ⟨earlier, l, between, he, ho, Nat.lt_of_lt_of_le hlt hmn, hb⟩

/-- One more line opens a block itself, or it goes on with one that was open before it. -/
theorem hangs_concat {before : List Text} {t : Text} {n : Nat} :
    Hangs (before ++ [t]) n ↔
      OpensBlock t ∧ indentation t < n ∨
        ∃ earlier l between, before = earlier ++ l :: between ∧ OpensBlock l ∧ indentation l < n ∧
          (∀ u ∈ between, u.isBlank = true ∨ indentation l < indentation u) ∧
          (t.isBlank = true ∨ indentation l < indentation t) := by
  constructor
  · rintro ⟨earlier, l, between, he, ho, hlt, hb⟩
    rcases List.eq_nil_or_concat between with rfl | ⟨between, u, rfl⟩
    · obtain ⟨-, hl⟩ := List.append_inj' he rfl
      cases hl
      exact .inl ⟨ho, hlt⟩
    · have he : before ++ [t] = (earlier ++ l :: between) ++ [u] := by simpa using he
      obtain ⟨hbefore, hu⟩ := List.append_inj' he rfl
      cases hu
      refine .inr ⟨earlier, l, between, hbefore, ho, hlt, ?_, hb t (by simp)⟩
      intro u hu
      exact hb u (by simp [hu])
  · rintro (⟨ho, hlt⟩ | ⟨earlier, l, between, rfl, ho, hlt, hb, ht⟩)
    · exact ⟨before, t, [], rfl, ho, hlt, by simp⟩
    · refine ⟨earlier, l, between ++ [t], by simp, ho, hlt, ?_⟩
      intro u hu
      rcases List.mem_append.1 hu with hu | hu
      · exact hb u hu
      · rw [List.mem_singleton.1 hu]
        exact ht

theorem hangs_concat_blank {before : List Text} {t : Text} (ht : t.isBlank = true) (n : Nat) :
    Hangs (before ++ [t]) n ↔ Hangs before n := by
  rw [hangs_concat]
  constructor
  · rintro (⟨ho, -⟩ | ⟨earlier, l, between, he, ho, hlt, hb, -⟩)
    · rw [ho.not_blank] at ht
      cases ht
    · exact ⟨earlier, l, between, he, ho, hlt, hb⟩
  · rintro ⟨earlier, l, between, he, ho, hlt, hb⟩
    exact .inr ⟨earlier, l, between, he, ho, hlt, hb, .inl ht⟩

theorem hangs_concat_not_blank {before : List Text} {t : Text} (ht : t.isBlank = false) (n : Nat) :
    Hangs (before ++ [t]) n ↔
      OpensBlock t ∧ indentation t < n ∨ Hangs before (min n (indentation t)) := by
  rw [hangs_concat]
  refine or_congr_right ⟨?_, ?_⟩
  · rintro ⟨earlier, l, between, he, ho, hlt, hb, ht' | hdeep⟩
    · rw [ht] at ht'
      cases ht'
    · exact ⟨earlier, l, between, he, ho, Nat.lt_min.2 ⟨hlt, hdeep⟩, hb⟩
  · rintro ⟨earlier, l, between, he, ho, hlt, hb⟩
    obtain ⟨hlt, hdeep⟩ := Nat.lt_min.1 hlt
    exact ⟨earlier, l, between, he, ho, hlt, hb, .inr hdeep⟩

/-- The number that is handed from line to line tells which blocks the lines so far leave open. -/
def Tracks (before : List Text) (block : Option Nat) : Prop :=
  ∀ n, block.any (· < n) = true ↔ Hangs before n

theorem tracks_nil : Tracks [] none := by
  intro n
  simp [not_hangs_nil]

theorem Tracks.next {before : List Text} {block : Option Nat} (h : Tracks before block) (t : Text) :
    Tracks (before ++ [t]) (scanLine false block t).2 := by
  intro n
  by_cases hblank : t.isBlank = true
  · rw [scanLine_of_blank hblank, hangs_concat_blank hblank]
    exact h n
  rw [Bool.not_eq_true] at hblank
  rw [hangs_concat_not_blank hblank]
  by_cases hany : block.any (· < indentation t) = true
  · -- a line of the block: whatever it looks like, it changes nothing
    rw [scanLine_of_raw hblank hany, ← h]
    cases block with
    | none => cases hany
    | some d =>
      simp only [Option.any_some, decide_eq_true_eq] at hany ⊢
      omega
  · -- no block goes on, so that the one that is open is that of the line itself
    have hnone : ¬ Hangs before (min n (indentation t)) := by
      intro hh
      exact hany ((h _).2 (hh.mono (Nat.min_le_right ..)))
    rw [Bool.not_eq_true] at hany
    rw [scanLine_of_markup hblank hany, ← scanBody_opens_iff]
    cases (scanBody (t.dropWhile (· == ' '))).2 <;> simp [hnone]

/-! ## Lines of markup -/

/-- The rows are the lines that are neither blank nor swallowed. -/
theorem mem_markupRows_iff {before ts : List Text} {block : Option Nat} {r : Nat × Nat}
    (h : Tracks before block) :
    r ∈ markupRows before.length block ts ↔
      ∃ i t, ts[i]? = some t ∧ r = (before.length + i, indentation t) ∧ t.isBlank = false ∧
        ¬ Hangs (before ++ ts.take i) (indentation t) := by
  induction ts generalizing before block with
  | nil => simp [markupRows]
  | cons t ts ih =>
    -- a line below the first is a line of the rest, which has the first one before it as well
    have htail : r ∈ markupRows (before.length + 1) (scanLine false block t).2 ts ↔
        ∃ i u, (t :: ts)[i + 1]? = some u ∧ r = (before.length + (i + 1), indentation u) ∧
          u.isBlank = false ∧ ¬ Hangs (before ++ (t :: ts).take (i + 1)) (indentation u) := by
      simpa [Nat.add_comm 1, Nat.add_assoc] using ih (h.next t)
    have hskip : (t.isBlank || block.any (· < indentation t)) = true ↔
        t.isBlank = true ∨ Hangs before (indentation t) := by
      rw [Bool.or_eq_true, h]
    show r ∈ (if _ then _ else _) ↔ _
    constructor
    · intro hr
      split at hr
      · obtain ⟨i, u, hu⟩ := htail.1 hr
        exact ⟨i + 1, u, hu⟩
      · rename_i hnot
        rw [hskip, not_or, Bool.not_eq_true] at hnot
        rcases List.mem_cons.1 hr with rfl | hr
        · exact ⟨0, t, rfl, rfl, hnot.1, by simpa using hnot.2⟩
        · obtain ⟨i, u, hu⟩ := htail.1 hr
          exact ⟨i + 1, u, hu⟩
    · rintro ⟨i, u, hu, hr, hblank, hfree⟩
      cases i with
      | zero =>
        cases hu
        rw [if_neg]
        · exact List.mem_cons.2 (.inl hr)
        · rw [hskip, not_or, Bool.not_eq_true]
          exact ⟨hblank, by simpa using hfree⟩
      | succ i =>
        have hr := htail.2 ⟨i, u, hu, hr, hblank, hfree⟩
        split
        · exact hr
        · exact List.mem_cons_of_mem _ hr

/-- Without a doctype line every line of markup has its row, and no other line has. -/
theorem mem_markupRows_zero {lines : List Text} {k d : Nat}
    (hfirst : ∀ t ∈ lines.head?, Text.cut? ['!', '!', '!'] t = none) :
    (k, d) ∈ markupRows 0 none lines ↔ ∃ t, IsMarkup lines k t ∧ d = indentation t := by
  have hplain : ∀ t, lines[k]? = some t → ¬ (k = 0 ∧ ['!', '!', '!'] <+: t) := by
    rintro t hline ⟨rfl, rest, rfl⟩
    rw [← List.head?_eq_getElem?] at hline
    have := hfirst _ hline
    rw [cut?_eq_some_iff.2 rfl] at this
    cases this
  have hrows : (k, d) ∈ markupRows 0 none lines ↔ _ := mem_markupRows_iff tracks_nil
  rw [hrows]
  constructor
  · rintro ⟨i, t, hline, hr, hblank, hfree⟩
    have hk : k = i := by simpa using (Prod.mk.inj hr).1
    subst hk
    exact ⟨t, ⟨hline, hblank, hplain t hline, by simpa [Swallowed, hline] using hfree⟩,
      (Prod.mk.inj hr).2⟩
  · rintro ⟨t, ⟨hline, hblank, -, hfree⟩, rfl⟩
    exact ⟨k, t, hline, by simp, hblank, by simpa [Swallowed, hline] using hfree⟩

/-- After a doctype line it is the lines below it that can be lines of markup. -/
theorem mem_markupRows_one {t₀ rest : Text} {lines : List Text} {k d : Nat}
    (hcut : Text.cut? ['!', '!', '!'] t₀ = some rest) :
    (k, d) ∈ markupRows 1 none lines ↔ ∃ t, IsMarkup (t₀ :: lines) k t ∧ d = indentation t := by
  have ht₀ : t₀ = '!' :: '!' :: '!' :: rest := cut?_eq_some_iff.1 hcut
  have htracks : Tracks [t₀] none := by
    intro n
    refine ⟨fun h => absurd h (by simp), ?_⟩
    rw [← List.nil_append [t₀], hangs_concat]
    rintro (⟨⟨name, -, -, h⟩, -⟩ | ⟨earlier, l, between, h, -⟩)
    · rw [ht₀] at h
      rcases h with h | h <;> cases h
    · exact absurd h (by simp)
  have hrows : (k, d) ∈ markupRows 1 none lines ↔ _ := mem_markupRows_iff htracks
  rw [hrows]
  constructor
  · rintro ⟨i, t, hline, hr, hblank, hfree⟩
    have hk : k = i + 1 := by simpa [Nat.add_comm] using (Prod.mk.inj hr).1
    subst hk
    exact ⟨t, ⟨hline, hblank, by simp, by simpa [Swallowed, hline] using hfree⟩,
      (Prod.mk.inj hr).2⟩
  · rintro ⟨t, ⟨hline, hblank, hplain, hfree⟩, rfl⟩
    cases k with
    | zero =>
      cases hline
      exact absurd ⟨rfl, rest, ht₀.symm⟩ hplain
    | succ k =>
      rw [List.getElem?_cons_succ] at hline
      exact ⟨k, t, hline, by simp [Nat.add_comm], hblank, by simpa [Swallowed, hline] using hfree⟩

end Offside
