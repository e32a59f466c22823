import Abacus.Token

/-! # Quotients rounded toward zero

What a division leaves over is less than its divisor and never on the other side of zero than its
dividend. This settles the quotient: no other integer leaves so little on that side, and the rules
of signs follow.
-/
namespace Abacus

/-- What `q` leaves over of the dividend is less than the divisor, and it is zero or has the sign of
the dividend. -/
structure IsQuotient (dividend divisor q : Int) : Prop where
  remainder_lt : (dividend - q * divisor).natAbs < divisor.natAbs
  sign_remainder : dividend - q * divisor = 0 ∨ (dividend - q * divisor).sign = dividend.sign

variable {a b q : Int}

namespace IsQuotient

theorem neg_left (h : IsQuotient a b q) : IsQuotient (-a) b (-q) := by
  have hremainder : -a - -q * b = -(a - q * b) := by
    rw [Int.neg_mul]
    omega
  constructor
  · rw [hremainder, Int.natAbs_neg]
    exact h.remainder_lt
  · rw [hremainder, Int.neg_eq_zero, Int.sign_neg, Int.sign_neg, Int.neg_inj]
    exact h.sign_remainder

theorem neg_right (h : IsQuotient a b q) : IsQuotient a (-b) (-q) := by
  have hremainder : a - -q * -b = a - q * b := by rw [Int.neg_mul_neg]
  constructor
  · rw [hremainder, Int.natAbs_neg]
    exact h.remainder_lt
  · rw [hremainder]
    exact h.sign_remainder

theorem remainder_nonneg (h : IsQuotient a b q) (ha : 0 ≤ a) : 0 ≤ a - q * b := by
  rcases h.sign_remainder with hzero | hsign
  · exact Int.le_of_eq hzero.symm
  · rwa [← Int.sign_nonneg_iff, hsign, Int.sign_nonneg_iff]

/-- Two remainders on one side of zero are less than the divisor apart, so they are the same. -/
theorem unique_of_nonneg {q' : Int} (h : IsQuotient a b q) (h' : IsQuotient a b q') (ha : 0 ≤ a) :
    q = q' := by
  have hle := h.remainder_nonneg ha
  have hle' := h'.remainder_nonneg ha
  have hlt := h.remainder_lt
  have hlt' := h'.remainder_lt
  have happart : ((q - q') * b).natAbs < b.natAbs := by
    rw [Int.sub_mul]
    omega
  rw [Int.natAbs_mul] at happart
  have hzero : (q - q').natAbs = 0 := by
    apply Nat.eq_zero_of_not_pos
    intro hpos
    exact absurd happart (Nat.not_lt.mpr (Nat.le_mul_of_pos_left _ hpos))
  omega

theorem unique {q' : Int} (h : IsQuotient a b q) (h' : IsQuotient a b q') : q = q' := by
  rcases Int.le_total 0 a with ha | ha
  · exact h.unique_of_nonneg h' ha
  · have hneg := h.neg_left.unique_of_nonneg h'.neg_left (Int.neg_nonneg_of_nonpos ha)
    omega

end IsQuotient

theorem isQuotient_natCast {m n : Nat} (h : n ≠ 0) : IsQuotient m n (m / n : Nat) := by
  have hremainder : (m : Int) - (m / n : Nat) * n = (m % n : Nat) := by
    have := Nat.div_add_mod' m n
    omega
  constructor
  · rw [hremainder]
    exact Nat.mod_lt m (Nat.pos_of_ne_zero h)
  · rw [hremainder]
    rcases Nat.eq_zero_or_pos (m % n) with hzero | hpos
    · exact .inl (congrArg Nat.cast hzero)
    · have hm : 0 < m := Nat.lt_of_lt_of_le hpos (Nat.mod_le m n)
      rw [Int.sign_eq_one_of_pos (by omega), Int.sign_eq_one_of_pos (by omega)]
      exact .inr rfl

theorem isQuotient_quotient (h : b ≠ 0) : IsQuotient a b (quotient a b) := by
  rw [quotient_eq_tdiv]
  cases a with
  | ofNat m =>
    cases b with
    | ofNat n => exact isQuotient_natCast (by simpa using h)
    | negSucc n => exact (isQuotient_natCast n.succ_ne_zero).neg_right
  | negSucc m =>
    cases b with
    | ofNat n => exact (isQuotient_natCast (m := m + 1) (by simpa using h)).neg_left
    | negSucc n =>
      have hboth := (isQuotient_natCast (m := m + 1) n.succ_ne_zero).neg_left.neg_right
      rwa [Int.neg_neg] at hboth

theorem isQuotient_iff (h : b ≠ 0) : IsQuotient a b q ↔ q = quotient a b := by
  constructor
  · intro hq
    exact hq.unique (isQuotient_quotient h)
  · rintro rfl
    exact isQuotient_quotient h

/-- The quotient is the only integer that leaves less than the divisor over, on the dividend's side
of zero. So a sign that is put before an operand comes before the quotient, no quotient is greater
than its dividend, and a product divided by one of its factors is the other. -/
theorem quotient_truncates (hb : b ≠ 0) :
    (∀ q, IsQuotient a b q ↔ q = quotient a b) ∧
      quotient (-a) b = -quotient a b ∧ quotient a (-b) = -quotient a b ∧
      (quotient a b).natAbs ≤ a.natAbs ∧ quotient (a * b) b = a := by
  have hquotient : IsQuotient a b (quotient a b) := isQuotient_quotient hb
  have hproduct : IsQuotient (a * b) b a := by
    have hpos := Int.natAbs_pos.mpr hb
    constructor
    · rwa [Int.sub_self]
    · exact .inl (Int.sub_self _)
  refine ⟨fun q => isQuotient_iff hb, ?_, ?_, ?_, ?_⟩
  · exact ((isQuotient_iff hb).mp hquotient.neg_left).symm
  · exact ((isQuotient_iff (Int.neg_ne_zero.mpr hb)).mp hquotient.neg_right).symm
  · rw [natAbs_quotient]
    exact Nat.div_le_self a.natAbs b.natAbs
  · exact ((isQuotient_iff hb).mp hproduct).symm

/-- A quotient that is not exact and that rounding down would take further from zero. -/
theorem quotient_truncates_negative : (2 : Int) ≠ 0 ∧ IsQuotient (-7) 2 (-3) ∧
    ¬ IsQuotient (-7) 2 (-4) ∧ quotient (-7) (-2) = 3 ∧ quotient (-7 * 2) 2 = -7 := by
  have htwo : (2 : Int) ≠ 0 := by decide
  obtain ⟨hiff, -, hright, -, hproduct⟩ := quotient_truncates (a := -7) htwo
  exact ⟨htwo, (hiff (-3)).mpr rfl, mt (hiff (-4)).mp (by decide), hright, hproduct⟩

end Abacus
