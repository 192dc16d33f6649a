import Offside.Proofs.Interpolating

/-!
# Where a brace is closed

An opening brace is closed by counting: the depth goes up and down with the braces, and the end is
where it comes back to zero. The same is said here without a counter (`Text.BraceSlice`): the
stretch from the brace to its end opens as many braces as it closes, and no start of it does so
earlier. Counting finds this end, if there is one, and nothing else (`matchBraces_exact`).
-/

namespace Offside

namespace Text

/-- A stretch from an opening brace to the brace that closes it: it starts with an opening brace, it
opens as many braces as it closes, and before its end more are open than closed. -/
structure BraceSlice (slice : Text) : Prop where
  head : slice.head? = some '{'
  closed_eq : slice.count '{' = slice.count '}'
  closed_lt : ∀ start, start <+: slice → start ≠ [] → start ≠ slice →
    start.count '}' < start.count '{'

/-- The stretch of `t` from index `start` up to index `stop` is that of a brace and its end. -/
def BraceEndsAt (t : Text) (start stop : Nat) : Prop :=
  ∃ before slice after, t = before ++ (slice ++ after) ∧ before.length = start ∧
    start + slice.length = stop ∧ BraceSlice slice

/-! ## The inside of a stretch -/

/-- Between an opening and a closing brace, a text whose braces match gives a stretch. -/
theorem BraceBalanced.braceSlice {inner : Text} (h : inner.BraceBalanced) :
    BraceSlice ('{' :: (inner ++ ['}'])) where
  head := rfl
  closed_eq := by simp [h.closed_eq]
  closed_lt := by
    intro start hs hne hproper
    obtain ⟨c, start, rfl⟩ := List.exists_cons_of_ne_nil hne
    obtain ⟨rfl, htail⟩ := List.cons_prefix_cons.1 hs
    -- a start that is not the whole stretch ends before the closing brace
    have hinner : start <+: inner := by
      rcases List.prefix_concat_iff.1 htail with rfl | hinner
      · exact absurd rfl hproper
      · exact hinner
    have hle := h.closed_le start hinner
    rw [List.count_cons_of_ne (by decide), List.count_cons_self]
    omega

/-- A stretch ends with a closing brace, since one character before its end a brace is still
open, and what stands between the two braces matches. -/
theorem BraceSlice.exists_inner {slice : Text} (h : BraceSlice slice) :
    ∃ inner : Text, inner.BraceBalanced ∧ slice = '{' :: (inner ++ ['}']) := by
  obtain ⟨t, rfl⟩ := List.head?_eq_some_iff.1 h.head
  obtain rfl | ⟨inner, c, rfl⟩ := List.eq_nil_or_concat' t
  · exact absurd h.closed_eq (by decide)
  have hstarts : ∀ start, start <+: inner → start.count '}' ≤ start.count '{' := by
    intro start hs
    have hproper : '{' :: start ≠ '{' :: (inner ++ [c]) := by
      rintro he
      obtain ⟨-, rfl⟩ := List.cons.inj he
      exact absurd hs.length_le (by simp)
    have hlt := h.closed_lt ('{' :: start)
      (List.cons_prefix_cons.2 ⟨rfl, hs.trans (List.prefix_append ..)⟩) (by simp) hproper
    rw [List.count_cons_of_ne (by decide), List.count_cons_self] at hlt
    omega
  have hall := hstarts inner (List.prefix_refl _)
  have heq := h.closed_eq
  rw [List.count_cons_self, List.count_cons_of_ne (by decide), List.count_append,
    List.count_append] at heq
  have hc : c = '}' := by
    by_contra hne
    have hnone : [c].count '}' = 0 := List.count_eq_zero.2 (by simpa using Ne.symm hne)
    omega
  subst hc
  refine ⟨inner, ⟨hstarts, ?_⟩, rfl⟩
  rw [List.count_singleton_self, List.count_singleton, if_neg (by decide)] at heq
  omega

/-- The text closes `depth` braces more than it opens, and no start of it closes more than that. -/
structure Closes (depth : Nat) (t : Text) : Prop where
  closed_le : ∀ start, start <+: t → start.count '}' ≤ start.count '{' + depth
  closed_eq : t.count '}' = t.count '{' + depth

theorem Closes.cons {depth next : Nat} {c : Char} {t : Text} (h : Closes next t)
    (hc : next + [c].count '}' = depth + [c].count '{') : Closes depth (c :: t) where
  closed_le := by
    intro start hs
    cases start with
    | nil => simp
    | cons a start =>
      obtain ⟨rfl, htail⟩ := List.cons_prefix_cons.1 hs
      have hle := h.closed_le start htail
      rw [← List.singleton_append, List.count_append, List.count_append]
      omega
  closed_eq := by
    have heq := h.closed_eq
    rw [← List.singleton_append, List.count_append, List.count_append]
    omega

theorem Closes.braceBalanced {t : Text} (h : Closes 0 t) : t.BraceBalanced :=
  ⟨h.closed_le, h.closed_eq⟩

end Text

/-! ## Counting -/

/-- What counting passes over before it finds an end closes all but one of the open braces. -/
theorem exists_of_braceEnd {depth n : Nat} {t : Text} (h : braceEnd (depth + 1) t = some n) :
    ∃ inner rest, t = inner ++ '}' :: rest ∧ n = inner.length + 1 ∧ Text.Closes depth inner := by
  induction t generalizing depth n with
  | nil => cases h
  | cons c t ih =>
    -- the end in the rest is one further on, and the brace `c` is counted on the way
    have hstep : ∀ next, (braceEnd (next + 1) t).map (· + 1) = some n →
        next + [c].count '}' = depth + [c].count '{' →
        ∃ inner rest, c :: t = inner ++ '}' :: rest ∧ n = inner.length + 1 ∧
          Text.Closes depth inner := by
      intro next hn hc
      obtain ⟨m, hm, rfl⟩ := Option.map_eq_some_iff.1 hn
      obtain ⟨inner, rest, rfl, rfl, hinner⟩ := ih hm
      exact ⟨c :: inner, rest, rfl, rfl, hinner.cons hc⟩
    rw [braceEnd] at h
    split at h
    · rename_i hopen
      exact hstep (depth + 1) h (by simp [hopen])
    split at h
    · rename_i hclose
      subst hclose
      split at h
      · rename_i hlast
        obtain rfl : depth = 0 := by omega
        cases h
        exact ⟨[], t, rfl, rfl, ⟨by simp, rfl⟩⟩
      · obtain ⟨next, rfl⟩ : ∃ next, depth = next + 1 := ⟨depth - 1, by omega⟩
        exact hstep next h (by simp)
    · rename_i hopen hclose
      exact hstep depth h (by simp [hopen, hclose])

/-- Counting from one open brace ends right behind the first text whose braces match. -/
theorem braceEnd_one_eq_some_iff {n : Nat} {t : Text} :
    braceEnd 1 t = some n ↔
      ∃ inner rest, t = inner ++ '}' :: rest ∧ n = inner.length + 1 ∧
        Text.BraceBalanced inner := by
  constructor
  · intro h
    obtain ⟨inner, rest, ht, hn, hinner⟩ := exists_of_braceEnd h
    exact ⟨inner, rest, ht, hn, hinner.braceBalanced⟩
  · rintro ⟨inner, rest, rfl, rfl, hinner⟩
    exact braceEnd_of_braceBalanced hinner rest

/-- Behind `before`, the end of a brace is found by counting from it. -/
theorem matchBraces_append (before rest : Text) :
    matchBraces (before ++ '{' :: rest) before.length =
      (braceEnd 1 rest).map (· + (before.length + 1)) := by
  simp only [matchBraces, List.drop_left]

/-- Where an end is found, a brace stands. -/
theorem exists_of_matchBraces {t : Text} {start stop : Nat} (h : matchBraces t start = some stop) :
    ∃ before rest, t = before ++ '{' :: rest ∧ before.length = start := by
  unfold matchBraces at h
  split at h
  · rename_i rest hdrop
    refine ⟨t.take start, rest, ?_, ?_⟩
    · rw [← hdrop, List.take_append_drop]
    · have hlt : start < t.length := by
        by_contra hle
        rw [List.drop_eq_nil_of_le (Nat.le_of_not_lt hle)] at hdrop
        cases hdrop
      rw [List.length_take]
      omega
  · cases h

/-- Counting finds an end exactly where the stretch from the brace is one of a brace and its
end. -/
theorem matchBraces_eq_some_iff {t : Text} {start stop : Nat} :
    matchBraces t start = some stop ↔ t.BraceEndsAt start stop := by
  constructor
  · intro h
    obtain ⟨before, rest, rfl, rfl⟩ := exists_of_matchBraces h
    rw [matchBraces_append] at h
    obtain ⟨n, hn, rfl⟩ := Option.map_eq_some_iff.1 h
    obtain ⟨inner, after, rfl, rfl, hinner⟩ := braceEnd_one_eq_some_iff.1 hn
    refine ⟨before, '{' :: (inner ++ ['}']), after, by simp, rfl, ?_, hinner.braceSlice⟩
    simp only [List.length_cons, List.length_append, List.length_nil]
    omega
  · rintro ⟨before, slice, after, rfl, rfl, rfl, hslice⟩
    obtain ⟨inner, hinner, rfl⟩ := hslice.exists_inner
    have hrest : '{' :: (inner ++ ['}']) ++ after = '{' :: (inner ++ '}' :: after) := by simp
    rw [hrest, matchBraces_append, braceEnd_of_braceBalanced hinner, Option.map_some,
      Option.some.injEq]
    simp only [List.length_cons, List.length_append, List.length_nil]
    omega

/-- Of every index, counting gives the one end of the brace that stands there, and nothing if there
is no brace or no end. An end lies behind a second brace and not behind the text. -/
theorem matchBraces_exact (t : Text) (start : Nat) :
    (∀ stop, matchBraces t start = some stop ↔ t.BraceEndsAt start stop) ∧
      (matchBraces t start = none ↔ ¬ ∃ stop, t.BraceEndsAt start stop) ∧
      (∀ stop stop', t.BraceEndsAt start stop → t.BraceEndsAt start stop' → stop = stop') ∧
      ∀ stop, t.BraceEndsAt start stop → start + 2 ≤ stop ∧ stop ≤ t.length := by
  refine ⟨fun stop => matchBraces_eq_some_iff, ?_, ?_, ?_⟩
  · rw [Option.eq_none_iff_forall_ne_some, not_exists]
    exact forall_congr' fun stop => not_congr matchBraces_eq_some_iff
  · intro stop stop' h h'
    rw [← matchBraces_eq_some_iff] at h h'
    exact Option.some.inj (h.symm.trans h')
  · rintro stop ⟨before, slice, after, rfl, rfl, rfl, hslice⟩
    obtain ⟨inner, -, rfl⟩ := hslice.exists_inner
    simp only [List.length_cons, List.length_append, List.length_nil]
    omega

end Offside
