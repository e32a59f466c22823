import Abacus.Proofs.Reading
import Mathlib.Algebra.Ring.Int.Defs
import Mathlib.Algebra.Ring.Nat
import Mathlib.Data.List.Basic
import Mathlib.Data.List.Induction
import Mathlib.Data.List.TakeWhile

/-! # Decimal numerals

Digits are cut into chunks from the left where they are read and from the right where they are
written, so the two ways of cutting need not meet. But the value of digits does not hang on where
they are cut, and a number has only one numeral without leading zeros. Hence what is written is that
numeral, and it is read as the number again.
-/
namespace Abacus.Decimal

def digit (d : Char) : Nat := d.toNat - '0'.toNat

theorem value_append (as bs : List Char) :
    value (as ++ bs) = value as * 10 ^ bs.length + value bs := by
  simp only [value_eq_ofDigitChars]
  rw [Nat.ofDigitChars_append, Nat.ofDigitChars_eq_ofDigitChars_zero, Nat.mul_comm]

theorem value_nil : value [] = 0 := value_eq_ofDigitChars []

theorem value_singleton (d : Char) : value [d] = digit d := by
  simp [value_eq_ofDigitChars, Nat.ofDigitChars_cons, digit]

theorem value_snoc (ds : List Char) (d : Char) : value (ds ++ [d]) = value ds * 10 + digit d := by
  rw [value_append, value_singleton, List.length_singleton, Nat.pow_one]

/-- Digits read in chunks have their positional value, and digits put behind others move these to
the left by as many places. -/
theorem value_positional :
    (∀ ds : List Char, value ds = ds.foldl (fun n d => n * 10 + digit d) 0) ∧
      ∀ as bs : List Char, value (as ++ bs) = value as * 10 ^ bs.length + value bs := by
  constructor
  · intro ds
    induction ds using List.reverseRecOn with
    | nil => exact value_nil
    | append_singleton ds d ih =>
      rw [value_snoc, ih, List.foldl_append, List.foldl_cons, List.foldl_nil]
  · exact value_append

theorem digit_bounds {d : Char} (h : d.isDigit = true) : 48 ≤ d.toNat ∧ d.toNat ≤ 57 := by
  simpa [Char.isDigit, UInt32.le_iff_toNat_le] using h

theorem digitChar_digit {d : Char} (h : d.isDigit = true) :
    digit d < 10 ∧ (digit d).digitChar = d := by
  have hbounds := digit_bounds h
  have hlt : digit d < 10 := by
    simp only [digit, Char.reduceToNat]
    omega
  refine ⟨hlt, ?_⟩
  apply Char.toNat_inj.mp
  rw [Nat.toNat_digitChar_of_lt_ten hlt]
  simp only [digit, Char.reduceToNat]
  omega

theorem digit_eq_zero_iff {d : Char} (h : d.isDigit = true) : digit d = 0 ↔ d = '0' := by
  constructor
  · intro hd
    have hchar := (digitChar_digit h).2
    rw [hd] at hchar
    exact hchar.symm
  · rintro rfl
    rfl

theorem value_eq_zero_iff {ds : List Char} (h : ∀ d ∈ ds, d.isDigit = true) :
    value ds = 0 ↔ ∀ d ∈ ds, d = '0' := by
  induction ds using List.reverseRecOn with
  | nil => simp [value_nil]
  | append_singleton ds d ih =>
    rw [List.forall_mem_append, List.forall_mem_singleton] at h
    rw [List.forall_mem_append, List.forall_mem_singleton, value_snoc, ← ih h.1,
      ← digit_eq_zero_iff h.2]
    omega

/-- One digit or more, of which the first is a zero only where it stands alone. -/
structure Canonical (ds : List Char) : Prop where
  ne_nil : ds ≠ []
  isDigit : ∀ d ∈ ds, d.isDigit = true
  lead : ds.head? = some '0' → ds = ['0']

theorem Canonical.value_pos {ds : List Char} (h : Canonical ds) (hne : ds ≠ ['0']) :
    0 < value ds := by
  apply Nat.pos_of_ne_zero
  intro hzero
  rw [value_eq_zero_iff h.isDigit] at hzero
  cases ds with
  | nil => exact h.ne_nil rfl
  | cons d ds =>
    obtain rfl : d = '0' := hzero d List.mem_cons_self
    exact hne (h.lead rfl)

theorem Canonical.append {as bs : List Char} (h : Canonical as) (hne : as ≠ ['0'])
    (hbs : ∀ b ∈ bs, b.isDigit = true) : Canonical (as ++ bs) where
  ne_nil := List.append_ne_nil_of_left_ne_nil h.ne_nil bs
  isDigit := List.forall_mem_append.mpr ⟨h.isDigit, hbs⟩
  lead hzero := by
    rw [List.head?_append_of_ne_nil as h.ne_nil] at hzero
    exact absurd (h.lead hzero) hne

theorem Canonical.of_append {as bs : List Char} (h : Canonical (as ++ bs)) (has : as ≠ [])
    (hbs : bs ≠ []) : Canonical as ∧ as ≠ ['0'] := by
  have hhead : as.head? ≠ some '0' := by
    intro hzero
    have hlength := congrArg List.length (h.lead (by rwa [List.head?_append_of_ne_nil as has]))
    have := List.length_pos_iff.mpr has
    have := List.length_pos_iff.mpr hbs
    rw [List.length_append, List.length_singleton] at hlength
    omega
  constructor
  · exact {
      ne_nil := has
      isDigit := fun d hd => h.isDigit d (List.mem_append_left bs hd)
      lead := fun hzero => absurd hzero hhead }
  · rintro rfl
    exact hhead rfl

theorem Canonical.toDigits_value {ds : List Char} (h : Canonical ds) :
    Nat.toDigits 10 (value ds) = ds := by
  induction ds using List.reverseRecOn with
  | nil => exact absurd rfl h.ne_nil
  | append_singleton ds d ih =>
    have hd := digitChar_digit (h.isDigit d (by simp))
    by_cases hds : ds = []
    · rw [hds, List.nil_append, value_singleton, Nat.toDigits_of_lt_base hd.1, hd.2]
    · have hfront := h.of_append hds (List.cons_ne_nil d [])
      have hpos := hfront.1.value_pos hfront.2
      rw [value_snoc, Nat.mul_comm, ← Nat.toDigits_append_toDigits (by decide) hpos hd.1,
        ih hfront.1, Nat.toDigits_of_lt_base hd.1, hd.2]

theorem value_toDigits (n : Nat) : value (Nat.toDigits 10 n) = n := by
  rw [value_eq_ofDigitChars, Nat.ofDigitChars_ten_toDigits]

theorem head?_toDigits {n : Nat} (h : n ≠ 0) : (Nat.toDigits 10 n).head? ≠ some '0' := by
  induction n using Nat.strongRecOn with
  | ind n ih =>
    by_cases hlt : n < 10
    · simpa [Nat.toDigits_of_lt_base hlt] using h
    · rw [Nat.toDigits_of_base_le (by decide) (by omega),
        List.head?_append_of_ne_nil _ Nat.toDigits_ne_nil]
      exact ih (n / 10) (by omega) (by omega)

theorem canonical_toDigits (n : Nat) : Canonical (Nat.toDigits 10 n) where
  ne_nil := Nat.toDigits_ne_nil
  isDigit _ hd := Nat.isDigit_of_mem_toDigits (by decide) (by decide) hd
  lead hzero := by
    by_cases hn : n = 0
    · rw [hn, Nat.toDigits_zero]
    · exact absurd hzero (head?_toDigits hn)

theorem toDigits_ne_zero {n : Nat} (h : n ≠ 0) : Nat.toDigits 10 n ≠ ['0'] := by
  intro hzero
  have hhead := head?_toDigits h
  rw [hzero] at hhead
  exact hhead rfl

theorem value_replicate_zero (n : Nat) : value (List.replicate n '0') = 0 := by
  rw [value_eq_ofDigitChars, Nat.ofDigitChars_replicate_zero, Nat.mul_zero]

theorem value_inner (limb : Nat) : value (inner limb) = limb := by
  rw [inner, List.leftpad, value_append, value_replicate_zero, value_toDigits, Nat.zero_mul,
    Nat.zero_add]

theorem isDigit_inner {limb : Nat} : ∀ d ∈ inner limb, d.isDigit = true := by
  rw [inner, List.leftpad, List.forall_mem_append]
  constructor
  · intro d hd
    rw [List.eq_of_mem_replicate hd]
    rfl
  · exact (canonical_toDigits limb).isDigit

theorem chunkBase_eq : chunkBase = 10 ^ chunkLength := by
  rw [chunkBase, powerOfTen, Nat.pow_eq]

theorem length_toDigits_le_chunkLength_iff {n : Nat} :
    (Nat.toDigits 10 n).length ≤ chunkLength ↔ n < chunkBase := by
  rw [chunkBase_eq]
  exact Nat.length_toDigits_le_iff (by decide) (by decide)

theorem length_inner {limb : Nat} (h : limb < chunkBase) : (inner limb).length = chunkLength := by
  rw [inner, List.length_leftpad]
  exact Nat.max_eq_left (length_toDigits_le_chunkLength_iff.mpr h)

theorem limbs_of_lt {n : Nat} (h : n < chunkBase) : limbs n = [n] := by
  fun_cases limbs n with
  | case1 => rfl
  | case2 hge => exact absurd h hge

theorem limbs_of_le {n : Nat} (h : chunkBase ≤ n) :
    limbs n = limbs (n / chunkBase) ++ [n % chunkBase] := by
  fun_cases limbs n with
  | case1 hlt => exact absurd hlt (Nat.not_lt.mpr h)
  | case2 => rfl

theorem limbs_ne_nil (n : Nat) : limbs n ≠ [] := by
  fun_cases limbs n <;> simp

theorem numeralOfLimbs_snoc {ls : List Nat} (h : ls ≠ []) (limb : Nat) :
    numeralOfLimbs (ls ++ [limb]) = numeralOfLimbs ls ++ inner limb := by
  cases ls with
  | nil => exact absurd rfl h
  | cons top rest => simp [numeralOfLimbs]

/-- The numeral of a number has its digits one by one, although they are written limb by limb. -/
theorem numeral_eq_toDigits (n : Nat) : numeral n = Nat.toDigits 10 n := by
  induction n using limbs.induct with
  | case1 n hlt =>
    rw [numeral, limbs_of_lt hlt, numeralOfLimbs, List.flatMap_nil, List.append_nil]
  | case2 n hge ih =>
    rw [Nat.not_lt] at hge
    have hbase := chunkBase_pos
    have hhigh : n / chunkBase ≠ 0 := Nat.div_ne_zero_iff.mpr ⟨by omega, by omega⟩
    have hsplit : numeral n = Nat.toDigits 10 (n / chunkBase) ++ inner (n % chunkBase) := by
      rw [← ih, numeral, limbs_of_le hge, numeralOfLimbs_snoc (limbs_ne_nil _), numeral]
    have hcanonical : Canonical (numeral n) := by
      rw [hsplit]
      exact (canonical_toDigits _).append (toDigits_ne_zero hhigh) isDigit_inner
    have hvalue : value (numeral n) = n := by
      rw [hsplit, value_append, value_toDigits, value_inner,
        length_inner (Nat.mod_lt n hbase), ← chunkBase_eq]
      exact Nat.div_add_mod' n chunkBase
    rw [← hcanonical.toDigits_value, hvalue]

theorem toList_render (v : Int) : (render v).toList =
    if v < 0 then '-' :: Nat.toDigits 10 v.natAbs else Nat.toDigits 10 v.natAbs := by
  rw [render, String.toList_ofList, numeral_eq_toDigits]

theorem render_of_neg {v : Int} (h : v < 0) : render v = "-" ++ render v.natAbs := by
  have hnonneg : ¬ (v.natAbs : Int) < 0 := by omega
  rw [render, if_pos h, render, if_neg hnonneg, Int.natAbs_natCast, ← List.singleton_append,
    String.ofList_append]

theorem render_injective {v w : Int} (h : render v = render w) : v = w := by
  have hlists := congrArg String.toList h
  rw [toList_render, toList_render] at hlists
  have hminus (n : Nat) (ds : List Char) : Nat.toDigits 10 n ≠ '-' :: ds := by
    intro hn
    have hdigit := (canonical_toDigits n).isDigit '-' (by simp [hn])
    exact absurd hdigit (by decide)
  have habs (hdigits : Nat.toDigits 10 v.natAbs = Nat.toDigits 10 w.natAbs) :
      v.natAbs = w.natAbs := by
    rw [← value_toDigits v.natAbs, hdigits, value_toDigits]
  by_cases hv : v < 0 <;> by_cases hw : w < 0
  · rw [if_pos hv, if_pos hw] at hlists
    have := habs (List.cons.inj hlists).2
    omega
  · rw [if_pos hv, if_neg hw] at hlists
    exact absurd hlists.symm (hminus _ _)
  · rw [if_neg hv, if_pos hw] at hlists
    exact absurd hlists (hminus _ _)
  · rw [if_neg hv, if_neg hw] at hlists
    have := habs hlists
    omega

/-- The digits from the first that is no zero on; of zeros alone one is left. -/
def withoutLeadingZeros (ds : List Char) : List Char :=
  match ds.dropWhile (· = '0') with
  | [] => ['0']
  | d :: rest => d :: rest

theorem value_withoutLeadingZeros (ds : List Char) : value (withoutLeadingZeros ds) = value ds := by
  have hzeros : value (ds.takeWhile (· = '0')) = 0 := by
    have hall : ds.takeWhile (· = '0') = List.replicate (ds.takeWhile (· = '0')).length '0' := by
      apply List.eq_replicate_of_mem
      intro d hd
      simpa using List.mem_takeWhile_imp hd
    rw [hall, value_replicate_zero]
  have hsplit : value ds = value (ds.dropWhile (· = '0')) := by
    conv_lhs => rw [← List.takeWhile_append_dropWhile (p := (· = '0')) (l := ds)]
    rw [value_append, hzeros, Nat.zero_mul, Nat.zero_add]
  rw [hsplit, withoutLeadingZeros]
  cases ds.dropWhile (· = '0') with
  | nil => rw [value_singleton, value_nil]; rfl
  | cons d rest => rfl

theorem canonical_withoutLeadingZeros {ds : List Char} (h : ∀ d ∈ ds, d.isDigit = true) :
    Canonical (withoutLeadingZeros ds) := by
  have hhead := List.head?_dropWhile_not (· = '0') ds
  have hdigits : ∀ d ∈ ds.dropWhile (· = '0'), d.isDigit = true :=
    fun d hd => h d (List.dropWhile_subset _ hd)
  unfold withoutLeadingZeros
  cases hrest : ds.dropWhile (· = '0') with
  | nil => exact canonical_toDigits 0
  | cons d rest =>
    rw [hrest] at hhead hdigits
    have hd : d ≠ '0' := by simpa using hhead
    exact ⟨List.cons_ne_nil d rest, hdigits, fun hzero => absurd (Option.some.inj hzero) hd⟩

/-- An integer is written as its sign, where it is negative, and the one numeral without leading
zeros that is read as its magnitude. Digits that are read and written come back without the zeros in
front of them. -/
theorem render_canonical :
    (∀ v : Int, ∃ ds, (render v).toList = (if v < 0 then '-' :: ds else ds) ∧ ds ≠ [] ∧
      (∀ d ∈ ds, d.isDigit = true) ∧ (v ≠ 0 → ds.head? ≠ some '0') ∧ (v = 0 → ds = ['0']) ∧
      value ds = v.natAbs) ∧
    ∀ ds : List Char, ds ≠ [] → (∀ d ∈ ds, d.isDigit = true) →
      (render (value ds)).toList = withoutLeadingZeros ds := by
  constructor
  · intro v
    refine ⟨Nat.toDigits 10 v.natAbs, toList_render v, Nat.toDigits_ne_nil,
      (canonical_toDigits _).isDigit, ?_, ?_, value_toDigits _⟩
    · intro hv
      exact head?_toDigits (Int.natAbs_ne_zero.mpr hv)
    · rintro rfl
      exact Nat.toDigits_zero 10
  · intro ds _ hdigits
    have hnonneg : ¬ ((value ds : Int) < 0) := by omega
    rw [toList_render, if_neg hnonneg, Int.natAbs_natCast, ← value_withoutLeadingZeros]
    exact (canonical_withoutLeadingZeros hdigits).toDigits_value

/-- The least magnitude that is written in two chunks, zero, and digits with zeros in front. -/
theorem render_canonical_power :
    (∃ ds, (render (-(10 : Int) ^ chunkLength)).toList = '-' :: ds ∧ ds ≠ [] ∧
      ds.head? ≠ some '0' ∧ value ds = 10 ^ chunkLength) ∧
    (render 0).toList = ['0'] ∧ (render (value ['0', '0', '7', '0'])).toList = ['7', '0'] := by
  refine ⟨?_, ?_, render_canonical.2 _ (by decide) (List.all_eq_true.mp (by decide))⟩
  · have hpos : (0 : Int) < 10 ^ chunkLength := Int.pow_pos (by decide)
    have hneg : -(10 : Int) ^ chunkLength < 0 := by omega
    obtain ⟨ds, hds, hne, -, hlead, -, hvalue⟩ := render_canonical.1 (-(10 : Int) ^ chunkLength)
    rw [if_pos hneg] at hds
    have habs (n : Nat) : (-(10 : Int) ^ n).natAbs = 10 ^ n := by
      rw [Int.natAbs_neg, Int.natAbs_pow]
      rfl
    rw [habs] at hvalue
    exact ⟨ds, hds, hne, hlead (Int.ne_of_lt hneg), hvalue⟩
  · obtain ⟨ds, hds, -, -, -, hzero, -⟩ := render_canonical.1 0
    rw [hds, hzero rfl]
    rfl

end Abacus.Decimal
