import Mathlib.Data.List.Induction
import Mathlib.Data.List.Sort
import Offside.Data.Truth
import Offside.Proofs.TextOrder

/-!
# The order of the entries of a map

A map keeps and prints its entries in the order of their keys: numbers by size, texts by code
point. A loop visits them in the order of the texts of the keys. The two orders are one for text
keys; for other keys they part exactly where two neighbours print the other way round
(`map_visited_by_printed_keys`), as 2 and 10 do.
-/

namespace Offside.Data

/-! ## Maps -/

/-- The keys of maps. Keys of a declared type may print as a method of theirs says. -/
inductive IsKey : KeyType → Data → Prop
  | text (t : Text) : IsKey .text (.text t)
  | int (type : IntType) (n : Int) : IsKey (.int type) (.int type n)
  | declared (type : TypeId) (methods : List (Text × Data)) (t : Text) :
    IsKey (.declared type) (.declared type methods (.text t))

/-- The order of keys: numbers by size, texts by code point. -/
def KeyBefore : KeyType → Data → Data → Prop
  | .int _, a, b => keyInt a < keyInt b
  | _, a, b => Text.lt (keyText a) (keyText b) = true

/-- The entries of a map: keys of its type, in their order and without repetition. -/
structure IsMap (key : KeyType) (entries : List (Data × Data)) : Prop where
  keys : ∀ e ∈ entries, IsKey key e.1
  ordered : entries.Pairwise fun e f => KeyBefore key e.1 f.1

section Insertion

variable {κ : Type} {lt : κ → κ → Bool} {keyOf : Data → κ} {e f : Data × Data}
  {entries : List (Data × Data)}

theorem mem_of_mem_insertEntry (h : f ∈ insertEntry lt keyOf e entries) : f = e ∨ f ∈ entries := by
  induction entries with
  | nil => simpa [insertEntry] using h
  | cons g gs ih =>
    simp only [insertEntry] at h
    split at h
    · simpa using h
    · split at h
      · rcases List.mem_cons.mp h with rfl | h
        · simp
        · exact (ih h).imp id (List.mem_cons_of_mem g)
      · exact (List.mem_cons.mp h).imp id (List.mem_cons_of_mem g)

theorem pairwise_insertEntry (htrans : ∀ {a b c}, lt a b = true → lt b c = true → lt a c = true)
    (htotal : ∀ {a b}, lt a b = false → lt b a = false → a = b)
    (h : entries.Pairwise fun e f => lt (keyOf e.1) (keyOf f.1) = true) :
    (insertEntry lt keyOf e entries).Pairwise fun e f => lt (keyOf e.1) (keyOf f.1) = true := by
  induction entries with
  | nil => simp [insertEntry]
  | cons g gs ih =>
    obtain ⟨hbefore, hrest⟩ := List.pairwise_cons.mp h
    simp only [insertEntry]
    split
    case isTrue hless =>
      refine List.pairwise_cons.mpr ⟨fun f hf => ?_, h⟩
      rcases List.mem_cons.mp hf with rfl | hf
      · exact hless
      · exact htrans hless (hbefore f hf)
    case isFalse hless =>
      split
      case isTrue hgreater =>
        refine List.pairwise_cons.mpr ⟨fun f hf => ?_, ih hrest⟩
        rcases mem_of_mem_insertEntry hf with rfl | hf
        · exact hgreater
        · exact hbefore f hf
      case isFalse hgreater =>
        have hsame : keyOf e.1 = keyOf g.1 :=
          htotal (Bool.eq_false_of_not_eq_true hless) (Bool.eq_false_of_not_eq_true hgreater)
        exact List.pairwise_cons.mpr ⟨fun f hf => hsame ▸ hbefore f hf, hrest⟩

variable (lt keyOf) in
/-- The entries put one after the other where they belong. -/
def insertAll (given : List (Data × Data)) : List (Data × Data) :=
  given.foldl (fun entries e => insertEntry lt keyOf e entries) []

theorem insertAll_concat (given : List (Data × Data)) :
    insertAll lt keyOf (given ++ [e]) = insertEntry lt keyOf e (insertAll lt keyOf given) := by
  simp [insertAll]

theorem mem_of_mem_insertAll {given : List (Data × Data)} (h : f ∈ insertAll lt keyOf given) :
    f ∈ given := by
  induction given using List.reverseRecOn with
  | nil => exact h
  | append_singleton given e ih =>
    rw [insertAll_concat] at h
    rcases mem_of_mem_insertEntry h with rfl | h
    · simp
    · exact List.mem_append_left [e] (ih h)

theorem pairwise_insertAll (htrans : ∀ {a b c}, lt a b = true → lt b c = true → lt a c = true)
    (htotal : ∀ {a b}, lt a b = false → lt b a = false → a = b) (given : List (Data × Data)) :
    (insertAll lt keyOf given).Pairwise fun e f => lt (keyOf e.1) (keyOf f.1) = true := by
  induction given using List.reverseRecOn with
  | nil => exact List.Pairwise.nil
  | append_singleton given e ih =>
    rw [insertAll_concat]
    exact pairwise_insertEntry htrans htotal ih

end Insertion

theorem ordered_insertAll_int (type : IntType) (given : List (Data × Data)) :
    (insertAll (fun a b : Int => decide (a < b)) keyInt given).Pairwise
      fun e f => KeyBefore (.int type) e.1 f.1 := by
  apply (pairwise_insertAll _ _ given).imp
  · intro e f hless
    show keyInt e.1 < keyInt f.1
    simpa using hless
  · intro a b c hab hbc
    simp only [decide_eq_true_eq] at *
    omega
  · intro a b hab hba
    simp only [decide_eq_false_iff_not] at *
    omega

theorem ordered_insertAll_text (given : List (Data × Data)) :
    (insertAll Text.lt keyText given).Pairwise
      fun e f => Text.lt (keyText e.1) (keyText f.1) = true := by
  apply pairwise_insertAll
  · exact Text.lt_trans
  · intro a b hab hba
    simp only [Text.lt, Bool.not_eq_false'] at hab hba
    exact Text.le_antisymm hba hab

/-- A map that is made from entries in any order has them in the order of their keys. -/
theorem isMap_ofEntries {key : KeyType} (elem : ElemType) {given : List (Data × Data)}
    (hkeys : ∀ e ∈ given, IsKey key e.1) :
    ∃ entries, ofEntries key elem given = dict key elem true entries ∧ IsMap key entries := by
  cases key with
  | int type =>
    exact ⟨_, rfl, fun e he => hkeys e (mem_of_mem_insertAll he), ordered_insertAll_int type given⟩
  | text =>
    exact ⟨_, rfl, fun e he => hkeys e (mem_of_mem_insertAll he), ordered_insertAll_text given⟩
  | declared type =>
    exact ⟨_, rfl, fun e he => hkeys e (mem_of_mem_insertAll he), ordered_insertAll_text given⟩

/-! ## The order in which a map prints -/

/-- The text of an entry of a map. -/
def shownEntry (e : Data × Data) : Text := shownInside e.1 ++ ':' :: shownInside e.2

theorem shownEntries_cons_cons (e f : Data × Data) (entries : List (Data × Data)) :
    shownEntries true (e :: f :: entries) =
      shownEntry e ++ [' '] ++ shownEntries true (f :: entries) := by
  rw [List.append_assoc]
  rfl

theorem shownEntries_eq_join (entries : List (Data × Data)) :
    shownEntries true entries = Text.join [' '] (entries.map shownEntry) := by
  induction entries with
  | nil => rfl
  | cons e entries ih =>
    cases entries with
    | nil => rfl
    | cons f entries =>
      rw [shownEntries_cons_cons, ih]
      rfl

theorem shown_dict (key : KeyType) (elem : ElemType) (present : Bool)
    (entries : List (Data × Data)) : (dict key elem present entries).shown =
      "map[".toList ++ Text.join [' '] (entries.map shownEntry) ++ [']'] := by
  rw [← shownEntries_eq_join]
  rfl

/-! ## The order in which a loop visits -/

/-- The first entry prints its key no later than the second. -/
def PrintsBefore (e f : Data × Data) : Prop := Text.le (shownInside e.1) (shownInside f.1) = true

instance : DecidableRel PrintsBefore :=
  fun e f => inferInstanceAs (Decidable (Text.le (shownInside e.1) (shownInside f.1) = true))

instance : Std.Total PrintsBefore where
  total e f := by
    have := Text.le_total (shownInside e.1) (shownInside f.1)
    rwa [Bool.or_eq_true] at this

instance : IsTrans (Data × Data) PrintsBefore where
  trans _ _ _ := Text.le_trans

theorem insertShown_eq_orderedInsert (e : Data × Data) (entries : List (Data × Data)) :
    insertShown e entries = entries.orderedInsert PrintsBefore e := by
  induction entries with
  | nil => rfl
  | cons f entries ih =>
    rw [insertShown, List.orderedInsert, ih]
    rfl

theorem sortShown_eq_insertionSort (entries : List (Data × Data)) :
    sortShown entries = entries.insertionSort PrintsBefore := by
  induction entries with
  | nil => rfl
  | cons e entries ih =>
    rw [List.insertionSort_cons, ← ih, ← insertShown_eq_orderedInsert]
    rfl

theorem sortShown_perm (entries : List (Data × Data)) : (sortShown entries).Perm entries := by
  rw [sortShown_eq_insertionSort]
  exact List.perm_insertionSort PrintsBefore entries

theorem pairwise_sortShown (entries : List (Data × Data)) :
    (sortShown entries).Pairwise PrintsBefore := by
  rw [sortShown_eq_insertionSort]
  exact List.pairwise_insertionSort PrintsBefore entries

theorem sortShown_eq_self_iff {entries : List (Data × Data)} :
    sortShown entries = entries ↔ entries.Pairwise PrintsBefore := by
  constructor
  · intro h
    rw [← h]
    exact pairwise_sortShown entries
  · intro h
    rw [sortShown_eq_insertionSort]
    exact h.insertionSort_eq

/-! ## The two orders -/

theorem KeyBefore.asymm {key : KeyType} {a b : Data} (hab : KeyBefore key a b) :
    ¬ KeyBefore key b a := by
  intro hba
  cases key with
  | int type =>
    have hlt : keyInt a < keyInt b := hab
    exact absurd hlt (Int.lt_asymm hba)
  | text => exact Text.lt_asymm hab hba
  | declared => exact Text.lt_asymm hab hba

/-- Whether two keys, the first of them before the second, print in this order. -/
def KeysPrintInOrder : KeyType → Data → Data → Prop
  | .text, _, _ => True
  | .int _, a, b => Text.DecimalsInOrder (keyInt a) (keyInt b)
  | .declared _, a, b => Text.le (shownInside a) (shownInside b) = true

theorem printsBefore_iff {key : KeyType} {e f : Data × Data} (he : IsKey key e.1)
    (hf : IsKey key f.1) (h : KeyBefore key e.1 f.1) :
    PrintsBefore e f ↔ KeysPrintInOrder key e.1 f.1 := by
  obtain ⟨a, x⟩ := e
  obtain ⟨b, y⟩ := f
  cases he with
  | text s =>
    cases hf with
    | text t => exact iff_of_true (Text.le_of_lt h) trivial
  | int type m =>
    cases hf with
    | int type n => exact Text.le_ofInt_iff h
  | declared type methods s => rfl

theorem IsMap.pairwise_printsBefore_iff {key : KeyType} {entries : List (Data × Data)}
    (h : IsMap key entries) :
    entries.Pairwise PrintsBefore ↔
      entries.Pairwise fun e f => KeysPrintInOrder key e.1 f.1 := by
  have hiff : entries.Pairwise fun e f => (PrintsBefore e f ↔ KeysPrintInOrder key e.1 f.1) :=
    h.ordered.imp_of_mem fun he hf => printsBefore_iff (h.keys _ he) (h.keys _ hf)
  constructor
  · intro hprints
    exact (hprints.and hiff).imp fun hboth => hboth.2.mp hboth.1
  · intro hprints
    exact (hprints.and hiff).imp fun hboth => hboth.2.mpr hboth.1

/-- A permutation of a map's entries that is in the order of the keys is the map itself. -/
theorem IsMap.ordered_iff_of_perm {key : KeyType} {entries visited : List (Data × Data)}
    (h : IsMap key entries) (hperm : visited.Perm entries) :
    visited.Pairwise (fun e f => KeyBefore key e.1 f.1) ↔ visited = entries := by
  constructor
  · intro hordered
    exact hperm.eq_of_pairwise (fun e f _ _ hef hfe => absurd hfe hef.asymm) hordered h.ordered
  · rintro rfl
    exact h.ordered

/-- A loop over a map visits every entry once, in the order of the texts of the keys, while the map
prints in the order of the keys. The loop keeps the order of the keys, and with it that of the
print, exactly if all keys print in order: text keys always do, integers if their decimals do. -/
theorem map_visited_by_printed_keys {key : KeyType} {entries : List (Data × Data)}
    (h : IsMap key entries) (elem : ElemType) (present : Bool) :
    (dict key elem present entries).shown =
        "map[".toList ++ Text.join [' '] (entries.map shownEntry) ++ [']'] ∧
      ∃ visited, (dict key elem present entries).elements? = some (.items visited) ∧
        visited.Perm entries ∧ visited.Pairwise PrintsBefore ∧
        (visited.Pairwise (fun e f => KeyBefore key e.1 f.1) ↔ visited = entries) ∧
        (visited = entries ↔ entries.Pairwise fun e f => KeysPrintInOrder key e.1 f.1) ∧
        (key = .text → visited = entries) := by
  have hkept : sortShown entries = entries ↔
      entries.Pairwise fun e f => KeysPrintInOrder key e.1 f.1 :=
    sortShown_eq_self_iff.trans h.pairwise_printsBefore_iff
  refine ⟨shown_dict key elem present entries, sortShown entries, rfl, sortShown_perm entries,
    pairwise_sortShown entries, h.ordered_iff_of_perm (sortShown_perm entries), hkept, ?_⟩
  rintro rfl
  exact hkept.mpr (List.pairwise_of_forall fun _ _ => trivial)

/-- The keys -5, 7 and 100: only 7 and 100 print the other way round. -/
theorem map_visited_by_printed_keys_of_three :
    ∃ entries, ofEntries .int .text [(ofInt 100, text ['a']), (ofInt (-5), text ['b']),
        (ofInt 7, text ['c'])] = dict .int .text true entries ∧ IsMap .int entries ∧
      ∃ visited, (dict .int .text true entries).elements? = some (.items visited) ∧
        visited.Perm entries ∧ visited.Pairwise PrintsBefore ∧ visited ≠ entries := by
  have hkeys : ∀ e ∈ [(ofInt 100, text ['a']), (ofInt (-5), text ['b']), (ofInt 7, text ['c'])],
      IsKey .int e.1 := by simp [ofInt, IsKey.int]
  obtain ⟨entries, hmade, hmap⟩ := isMap_ofEntries .text hkeys
  obtain ⟨-, visited, hvisits, hperm, hprints, -, hkept, -⟩ :=
    map_visited_by_printed_keys hmap .text true
  refine ⟨entries, hmade, hmap, visited, hvisits, hperm, hprints, fun hsame => ?_⟩
  obtain rfl : [(ofInt (-5), text ['b']), (ofInt 7, text ['c']), (ofInt 100, text ['a'])] =
    entries := (dict.inj hmade).2.2.2
  have horder := hkept.mp hsame
  simp only [List.pairwise_cons, List.mem_cons, forall_eq_or_imp] at horder
  have hseven : Text.DecimalsInOrder 7 100 := horder.2.1.1
  exact absurd hseven (by decide +kernel)

/-- 2 comes before 10 in the map and in its print, and a loop visits 10 before 2. -/
theorem ten_visited_before_two :
    ∃ m, m = ofEntries .int .text [(ofInt 2, text ['a']), (ofInt 10, text ['b'])] ∧
      m.shown = "map[2:a 10:b]".toList ∧
      m.elements? = some (.items [(ofInt 10, text ['b']), (ofInt 2, text ['a'])]) :=
  ⟨_, rfl, by decide +kernel, rfl⟩

end Offside.Data
