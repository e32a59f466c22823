/-! Decimal numerals of any length, and number literals. Digits are read and written five hundred at
a time, so that long arithmetic happens once a chunk and not once a digit. -/
namespace Abacus.Decimal

def chunkLength : Nat := 500

def powerOfTen (length : Nat) : Nat := Nat.pow 10 length

theorem one_lt_powerOfTen {length : Nat} (h : length ≠ 0) : 1 < powerOfTen length :=
  Nat.one_lt_pow h (by decide)

def chunkBase : Nat := powerOfTen chunkLength

theorem one_lt_chunkBase : 1 < chunkBase := one_lt_powerOfTen (by decide)

theorem chunkBase_pos : 0 < chunkBase := Nat.lt_trans Nat.zero_lt_one one_lt_chunkBase

/-- The digits cut into chunks; only the last may be shorter than the others. -/
def chunks (digits : List Char) : List (List Char) :=
  if digits = [] then [] else digits.take chunkLength :: chunks (digits.drop chunkLength)
termination_by digits.length
decreasing_by
  have := List.length_pos_iff.mpr ‹digits ≠ []›
  rw [List.length_drop, chunkLength]
  omega

def valueOfChunk (digits : List Char) : Nat := Nat.ofDigitChars 10 digits 0

/-- The number written by `digits`, the most significant first; no digits write zero. -/
def value (digits : List Char) : Nat :=
  (chunks digits).foldl (fun n chunk => n * powerOfTen chunk.length + valueOfChunk chunk) 0

/-- The number cut into parts below `chunkBase`, the most significant first. -/
def limbs (n : Nat) : List Nat :=
  if n < chunkBase then [n] else limbs (n / chunkBase) ++ [n % chunkBase]
termination_by n
decreasing_by
  have := one_lt_chunkBase
  exact Nat.div_lt_self (by omega) this

/-- A limb below another one, which fills its chunk with leading zeros. -/
def inner (limb : Nat) : List Char := (Nat.toDigits 10 limb).leftpad chunkLength '0'

def numeralOfLimbs : List Nat → List Char
  | [] => []
  | top :: rest => Nat.toDigits 10 top ++ rest.flatMap inner

def numeral (n : Nat) : List Char := numeralOfLimbs (limbs n)

def render (v : Int) : String :=
  String.ofList (if v < 0 then '-' :: numeral v.natAbs else numeral v.natAbs)

theorem flatten_chunks (digits : List Char) : (chunks digits).flatten = digits := by
  fun_induction chunks digits with
  | case1 => rfl
  | case2 digits _ ih => rw [List.flatten_cons, ih, List.take_append_drop]

theorem mem_of_mem_chunk {digits chunk : List Char} (h : chunk ∈ chunks digits) {d : Char}
    (hd : d ∈ chunk) : d ∈ digits := by
  rw [← flatten_chunks digits]
  exact List.mem_flatten_of_mem h hd

theorem chunk_bounds {digits chunk : List Char} (h : chunk ∈ chunks digits) :
    chunk ≠ [] ∧ chunk.length ≤ chunkLength := by
  fun_induction chunks digits with
  | case1 => simp at h
  | case2 digits ne ih =>
    rcases List.mem_cons.mp h with rfl | h
    · exact ⟨by simp [ne, chunkLength], List.length_take_le ..⟩
    · exact ih h

theorem limb_lt {n limb : Nat} (h : limb ∈ limbs n) : limb < chunkBase := by
  fun_induction limbs n with
  | case1 n lt => simp_all
  | case2 n ge ih =>
    rcases List.mem_append.mp h with h | h
    · exact ih h
    · rw [List.mem_singleton.mp h]
      exact Nat.mod_lt _ chunkBase_pos

end Abacus.Decimal

namespace Abacus.Literal

inductive Defect where
  | noDigits
  | severalSigns
  deriving DecidableEq

def Defect.reason : Defect → String
  | noDigits => "A sign must be followed by the digits of a number."
  | severalSigns => "A number may carry at most one leading sign."

def isSign (c : Char) : Bool := c = '+' || c = '-'

def signs (lexeme : List Char) : List Char := lexeme.takeWhile isSign

def digits (lexeme : List Char) : List Char := lexeme.dropWhile isSign

def signed (signs : List Char) (magnitude : Nat) : Int :=
  if signs = ['-'] then -magnitude else magnitude

/-- The value of a run of signs followed by digits. A lack of digits outranks a sign too many. -/
def read (lexeme : List Char) : Except Defect Int :=
  if digits lexeme = [] then .error .noDigits
  else if 1 < (signs lexeme).length then .error .severalSigns
  else .ok (signed (signs lexeme) (Decimal.value (digits lexeme)))

theorem signs_append_digits (lexeme : List Char) : signs lexeme ++ digits lexeme = lexeme :=
  List.takeWhile_append_dropWhile

end Abacus.Literal
