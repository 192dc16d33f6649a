import Mathlib.Algebra.Order.Ring.Int
import Mathlib.Tactic.Lift
import Offside.Text.Basic

/-!
# The order of texts

Texts are ordered by code point, and this is a linear order. Decimal texts are not in the order of
their numbers: `10` comes before `2`. When two decimals are in order is a comparison of the numbers
after all (`le_ofInt_iff`), once the shorter decimal is filled up with zeros at its end.
-/

namespace Offside.Text

theorem le_total (s t : Text) : (le s t || le t s) = true := by
  fun_induction le s t with
  | case1 t => rfl
  | case2 a s => rfl
  | case3 a s b t ih =>
    rw [le]
    rcases Nat.lt_trichotomy a.toNat b.toNat with hless | hsame | hgreater
    · simp [hless]
    · simpa [hsame] using ih
    · simp [hgreater]

theorem le_trans {s t u : Text} (hst : le s t = true) (htu : le t u = true) : le s u = true := by
  induction s generalizing t u with
  | nil => rfl
  | cons a s ih =>
    cases t with
    | nil => cases hst
    | cons b t =>
      cases u with
      | nil => cases htu
      | cons c u =>
        simp only [le, Bool.or_eq_true, decide_eq_true_eq, Bool.and_eq_true, beq_iff_eq] at *
        rcases hst with hab | ⟨hab, hst⟩
        · exact .inl (by omega)
        · rcases htu with hbc | ⟨hbc, htu⟩
          · exact .inl (by omega)
          · exact .inr ⟨hab.trans hbc, ih hst htu⟩

theorem le_antisymm {s t : Text} (hst : le s t = true) (hts : le t s = true) : s = t := by
  induction s generalizing t with
  | nil =>
    cases t with
    | nil => rfl
    | cons b t => cases hts
  | cons a s ih =>
    cases t with
    | nil => cases hst
    | cons b t =>
      simp only [le, Bool.or_eq_true, decide_eq_true_eq, Bool.and_eq_true, beq_iff_eq] at hst hts
      rcases hst with hab | ⟨hab, hst⟩
      · omega
      · rcases hts with hba | ⟨-, hts⟩
        · omega
        · rw [Char.toNat_inj.mp hab, ih hst hts]

theorem lt_of_le_of_ne {s t : Text} (h : le s t = true) (hne : s ≠ t) : lt s t = true := by
  rw [lt, Bool.not_eq_true']
  exact Bool.eq_false_iff.mpr fun hts => hne (le_antisymm h hts)

theorem le_of_lt {s t : Text} (h : lt s t = true) : le s t = true := by
  have htotal := le_total s t
  rw [lt, Bool.not_eq_true'] at h
  simpa [h] using htotal

theorem lt_asymm {s t : Text} (hst : lt s t = true) : ¬ lt t s = true := by
  intro hts
  rw [lt, le_of_lt hst] at hts
  cases hts

theorem lt_trans {s t u : Text} (hst : lt s t = true) (htu : lt t u = true) : lt s u = true := by
  rw [lt, Bool.not_eq_true', Bool.eq_false_iff]
  intro hus
  rw [lt, le_trans (le_of_lt htu) hus] at hst
  cases hst

/-! ## Decimals -/

/-- The number of digits of a natural number in decimal. -/
def places (n : Nat) : Nat := (ofNat n).length

/-- The number that a text of digits stands for. -/
def valueOf (digits : Text) : Nat := Nat.ofDigitChars 10 digits 0

theorem valueOf_cons (d : Char) (ds : Text) :
    valueOf (d :: ds) = 10 ^ ds.length * (d.toNat - '0'.toNat) + valueOf ds := by
  rw [valueOf, Nat.ofDigitChars_cons, Nat.ofDigitChars_eq_ofDigitChars_zero]
  simp [valueOf]

theorem toNat_of_isDigit {d : Char} (h : d.isDigit = true) :
    '0'.toNat ≤ d.toNat ∧ d.toNat - '0'.toNat < 10 := by
  simp only [Char.isDigit, Bool.and_eq_true, decide_eq_true_eq] at h
  have hlow : '0'.toNat ≤ d.toNat := UInt32.le_iff_toNat_le.mp h.1
  have hhigh : d.toNat ≤ '9'.toNat := UInt32.le_iff_toNat_le.mp h.2
  have hzero : '0'.toNat = 48 := rfl
  have hnine : '9'.toNat = 57 := rfl
  omega

theorem valueOf_lt {ds : Text} (hdigits : ∀ d ∈ ds, d.isDigit = true) :
    valueOf ds < 10 ^ ds.length := by
  induction ds with
  | nil => decide
  | cons d ds ih =>
    have hsmall : d.toNat - '0'.toNat ≤ 9 := by
      have := toNat_of_isDigit (hdigits d List.mem_cons_self)
      omega
    have hrest : valueOf ds < 10 ^ ds.length := ih fun e he => hdigits e (List.mem_cons_of_mem d he)
    have hhead : 10 ^ ds.length * (d.toNat - '0'.toNat) ≤ 10 ^ ds.length * 9 :=
      Nat.mul_le_mul_left _ hsmall
    rw [valueOf_cons, List.length_cons, Nat.pow_succ]
    omega

/-- Numbers in a positional system are compared at their first places, and by the rest where these
agree. -/
theorem mul_add_le_mul_add_iff {base x y a b : Nat} (ha : a < base) (hb : b < base) :
    base * x + a ≤ base * y + b ↔ x < y ∨ x = y ∧ a ≤ b := by
  rcases Nat.lt_trichotomy x y with hless | rfl | hgreater
  · have : base * (x + 1) ≤ base * y := Nat.mul_le_mul_left base hless
    rw [Nat.mul_add] at this
    omega
  · omega
  · have : base * (y + 1) ≤ base * x := Nat.mul_le_mul_left base hgreater
    rw [Nat.mul_add] at this
    omega

/-- Texts of digits are ordered as the numbers they stand for when the shorter one is filled up
with zeros at its end. -/
theorem le_digits_iff {ds es : Text} (hds : ∀ d ∈ ds, d.isDigit = true)
    (hes : ∀ e ∈ es, e.isDigit = true) (hlen : ds.length ≤ es.length) :
    le ds es = true ↔ valueOf ds * 10 ^ (es.length - ds.length) ≤ valueOf es := by
  induction ds generalizing es with
  | nil => simp [le, valueOf]
  | cons d ds ih =>
    cases es with
    | nil => cases hlen
    | cons e es =>
      have hds' : ∀ d ∈ ds, d.isDigit = true := fun x hx => hds x (List.mem_cons_of_mem d hx)
      have hes' : ∀ e ∈ es, e.isDigit = true := fun x hx => hes x (List.mem_cons_of_mem e hx)
      have hlen' : ds.length ≤ es.length := Nat.le_of_succ_le_succ hlen
      have hd := toNat_of_isDigit (hds d List.mem_cons_self)
      have he := toNat_of_isDigit (hes e List.mem_cons_self)
      have hfill : 10 ^ ds.length * 10 ^ (es.length - ds.length) = 10 ^ es.length := by
        rw [← Nat.pow_add, Nat.add_sub_of_le hlen']
      have hsmall : valueOf ds * 10 ^ (es.length - ds.length) < 10 ^ es.length := by
        rw [← hfill]
        exact Nat.mul_lt_mul_of_pos_right (valueOf_lt hds') (Nat.pow_pos (by decide))
      have hsplit : valueOf (d :: ds) * 10 ^ (es.length - ds.length) =
          10 ^ es.length * (d.toNat - '0'.toNat) + valueOf ds * 10 ^ (es.length - ds.length) := by
        rw [valueOf_cons, Nat.add_mul, Nat.mul_right_comm, hfill]
      have hfirst : le (d :: ds) (e :: es) = true ↔
          d.toNat < e.toNat ∨ d.toNat = e.toNat ∧ le ds es = true := by simp [le]
      rw [hfirst, List.length_cons, List.length_cons, Nat.succ_sub_succ, hsplit, valueOf_cons e es,
        mul_add_le_mul_add_iff hsmall (valueOf_lt hes'), ih hds' hes' hlen']
      omega

theorem isDigit_of_mem_ofNat {n : Nat} : ∀ d ∈ ofNat n, d.isDigit = true := by
  intro d hd
  rw [ofNat, Nat.toList_repr] at hd
  exact Nat.isDigit_of_mem_toDigits (by decide) (by decide) hd

theorem valueOf_ofNat (n : Nat) : valueOf (ofNat n) = n := by
  rw [ofNat, Nat.toList_repr]
  exact Nat.ofDigitChars_ten_toDigits

theorem places_le_places {m n : Nat} (h : m ≤ n) : places m ≤ places n := by
  have hbound : n < 10 ^ places n := by
    rw [← valueOf_ofNat n]
    simpa [places, valueOf_ofNat] using valueOf_lt (isDigit_of_mem_ofNat (n := n))
  have hpos : 0 < places n := by
    rw [places, ofNat, Nat.toList_repr]
    exact Nat.length_toDigits_pos
  have hdigits : ofNat m = Nat.toDigits 10 m := by rw [ofNat, Nat.toList_repr]
  rw [places, hdigits]
  exact (Nat.length_toDigits_le_iff (by decide) hpos).mpr (Nat.lt_of_le_of_lt h hbound)

theorem le_ofNat_iff {m n : Nat} (h : m ≤ n) :
    le (ofNat m) (ofNat n) = true ↔ m * 10 ^ (places n - places m) ≤ n := by
  have := le_digits_iff isDigit_of_mem_ofNat isDigit_of_mem_ofNat (places_le_places h)
  rwa [valueOf_ofNat, valueOf_ofNat] at this

/-- The smaller number is not printed first when it has more than the larger one at its places. -/
theorem le_ofNat_iff_of_lt {m n : Nat} (h : n < m) :
    le (ofNat m) (ofNat n) = true ↔ m < n * 10 ^ (places m - places n) := by
  have hback := le_ofNat_iff h.le
  constructor
  · intro hmn
    apply Nat.lt_of_not_le
    intro hnm
    exact h.ne (ofNat_inj (le_antisymm (hback.mpr hnm) hmn))
  · intro hmn
    have htotal := le_total (ofNat n) (ofNat m)
    rw [Bool.or_eq_true, hback] at htotal
    exact htotal.resolve_left (Nat.not_le_of_lt hmn)

/-- When the decimals of two integers, the first of them smaller, are in order. -/
def DecimalsInOrder (a b : Int) : Prop :=
  (0 ≤ a ∧ a * 10 ^ (places b.natAbs - places a.natAbs) ≤ b) ∨ (a < 0 ∧ 0 ≤ b) ∨
    (b < 0 ∧ -a < -b * 10 ^ (places a.natAbs - places b.natAbs))

instance (a b : Int) : Decidable (DecimalsInOrder a b) :=
  inferInstanceAs (Decidable (_ ∨ _ ∨ _))

theorem le_minus_cons (s t : Text) : le ('-' :: s) ('-' :: t) = le s t := by simp [le]

theorem le_minus_ofNat (s : Text) (n : Nat) : le ('-' :: s) (ofNat n) = true := by
  cases hdigits : ofNat n with
  | nil => exact absurd hdigits (by rw [ofNat, Nat.toList_repr]; exact Nat.toDigits_ne_nil)
  | cons d ds =>
    have hd := toNat_of_isDigit (isDigit_of_mem_ofNat (n := n) d (by simp [hdigits]))
    have hminus : '-'.toNat < d.toNat := Nat.lt_of_lt_of_le (by decide) hd.1
    rw [le, decide_eq_true hminus, Bool.true_or]

@[simp] theorem ofInt_natCast (n : Nat) : ofInt n = ofNat n := by
  simp [ofInt]

theorem ofInt_of_neg {a : Int} (h : a < 0) : ofInt a = '-' :: ofNat a.natAbs := by
  rw [ofInt, if_pos h]

theorem le_ofInt_iff {a b : Int} (h : a < b) :
    le (ofInt a) (ofInt b) = true ↔ DecimalsInOrder a b := by
  rcases Int.lt_or_le a 0 with ha | ha
  · rcases Int.lt_or_le b 0 with hb | hb
    · -- Both are negative: the signs agree, and the numbers behind them are the other way round.
      have hflipped : b.natAbs < a.natAbs := by omega
      have habs : (-a < -b * 10 ^ (places a.natAbs - places b.natAbs)) ↔
          a.natAbs < b.natAbs * 10 ^ (places a.natAbs - places b.natAbs) := by
        rw [← Int.ofNat_natAbs_of_nonpos ha.le, ← Int.ofNat_natAbs_of_nonpos hb.le]
        norm_cast
      rw [ofInt_of_neg ha, ofInt_of_neg hb, le_minus_cons, le_ofNat_iff_of_lt hflipped, ← habs,
        DecimalsInOrder]
      omega
    · lift b to Nat using hb
      rw [ofInt_of_neg ha, ofInt_natCast, le_minus_ofNat, DecimalsInOrder]
      simp [ha]
  · lift a to Nat using ha
    lift b to Nat using by omega
    have hle : a ≤ b := by omega
    rw [ofInt_natCast, ofInt_natCast, le_ofNat_iff hle, DecimalsInOrder]
    simp only [Int.natAbs_natCast]
    norm_cast
    omega

end Offside.Text
