import Abacus.Proofs.Numerals

/-! # Conversions under a limit

A conversion between digits and a number may be refused where it takes too many digits at once. Here
digits are read and numbers written by loops that keep a record of the conversions they ask for and
break off at the first that is refused. They ask for no more than a chunk at a time, so as long as
that is not refused nothing is, and they end as if there were no limit.
-/
namespace Abacus.Decimal

/-- What is asked for at once: to read digits, or to write a number. -/
inductive Conversion where
  | reading (digits : List Char)
  | writing (number : Int)
  deriving DecidableEq

/-- Whether a conversion takes no more digits than `limit`. Zeros in front count, a sign does not.
-/
def Conversion.Admitted (limit : Nat) : Conversion → Prop
  | reading digits => digits ≠ [] ∧ (∀ d ∈ digits, d.isDigit = true) ∧ digits.length ≤ limit
  | writing number => (Nat.toDigits 10 number.natAbs).length ≤ limit

instance (limit : Nat) : DecidablePred (Conversion.Admitted limit)
  | .reading _ => inferInstanceAs (Decidable (_ ∧ _ ∧ _))
  | .writing _ => inferInstanceAs (Decidable (_ ≤ _))

/-- The state is the record of the conversions so far, and the failure a refused one. -/
abbrev Limited := StateT (List Conversion) (Except Conversion)

namespace Limited

variable (limit : Nat)

def convert (c : Conversion) : Limited Unit := fun record =>
  if c.Admitted limit then .ok ((), record ++ [c]) else .error c

def read (digits : List Char) : Limited Nat := do
  convert limit (.reading digits)
  return valueOfChunk digits

def write (number : Int) : Limited (List Char) := do
  convert limit (.writing number)
  let digits := Nat.toDigits 10 number.natAbs
  return if number < 0 then '-' :: digits else digits

def chunkAt (digits : List Char) (start : Nat) : List Char := (digits.drop start).take chunkLength

/-- Reads the digits from `start` on; `n` is the value of those before. -/
def valueFrom (digits : List Char) (start n : Nat) : Limited Nat :=
  if start < digits.length then do
    let part ← read limit (chunkAt digits start)
    valueFrom digits (start + chunkLength) (n * powerOfTen (chunkAt digits start).length + part)
  else return n
termination_by digits.length - start
decreasing_by
  rw [chunkLength]
  omega

def value (digits : List Char) : Limited Nat := valueFrom limit digits 0 0

/-- Puts the parts of a numeral behind `parts`, the least significant first. -/
def partsAfter (parts : List (List Char)) (number : Int) : Limited (List (List Char)) :=
  if chunkBase ≤ number then do
    let part ← write limit (number % chunkBase)
    partsAfter (parts ++ [part.leftpad chunkLength '0']) (number / chunkBase)
  else return parts ++ [← write limit number]
termination_by number.toNat
decreasing_by
  have hbase := one_lt_chunkBase
  have hpos : 0 < number := by omega
  exact (Int.toNat_lt_toNat hpos).mpr (Int.ediv_lt_self_of_pos_of_ne_one hpos (by omega))

def render (number : Int) : Limited String := do
  if number < 0 then return "-" ++ (← render (-number))
  else return String.ofList (← partsAfter limit [] number).reverse.flatten
termination_by (-number).toNat
decreasing_by omega

variable {limit} {record : List Conversion}

theorem run_bind_of_ok {α β : Type} {x : Limited α} {f : α → Limited β} {a : α}
    {record' : List Conversion} (h : x.run record = .ok (a, record')) :
    (x >>= f).run record = (f a).run record' := by
  rw [StateT.run_bind, h]
  rfl

theorem run_convert {c : Conversion} (h : c.Admitted limit) :
    (convert limit c).run record = .ok ((), record ++ [c]) := if_pos h

theorem run_read {digits : List Char} (h : (Conversion.reading digits).Admitted limit) :
    (read limit digits).run record = .ok (valueOfChunk digits, record ++ [.reading digits]) := by
  rw [read, run_bind_of_ok (run_convert h)]
  rfl

theorem chunks_drop {digits : List Char} {start : Nat} (h : start < digits.length) :
    chunks (digits.drop start) =
      chunkAt digits start :: chunks (digits.drop (start + chunkLength)) := by
  have hne : digits.drop start ≠ [] := by simpa using h
  rw [chunks, if_neg hne, List.drop_drop, chunkAt]

theorem chunks_drop_of_le {digits : List Char} {start : Nat} (h : digits.length ≤ start) :
    chunks (digits.drop start) = [] := by
  rw [List.drop_eq_nil_of_le h, chunks]
  rfl

/-- Wherever the loop has come to, it still reads the chunks of the digits from there on. -/
theorem run_valueFrom {digits : List Char} {start : Nat}
    (h : ∀ chunk ∈ chunks (digits.drop start), (Conversion.reading chunk).Admitted limit)
    (n : Nat) :
    (valueFrom limit digits start n).run record =
      .ok ((chunks (digits.drop start)).foldl
          (fun n chunk => n * powerOfTen chunk.length + valueOfChunk chunk) n,
        record ++ (chunks (digits.drop start)).map .reading) := by
  fun_induction valueFrom limit digits start n generalizing record with
  | case1 start n hlt ih =>
    rw [chunks_drop hlt] at h ⊢
    obtain ⟨hchunk, hrest⟩ := List.forall_mem_cons.mp h
    rw [run_bind_of_ok (run_read hchunk), ih _ hrest, List.append_assoc]
    rfl
  | case2 start n hge =>
    rw [chunks_drop_of_le (Nat.not_lt.mp hge), List.map_nil, List.append_nil]
    rfl

theorem admitted_reading {digits chunk : List Char} (hlimit : chunkLength ≤ limit)
    (h : ∀ d ∈ digits, d.isDigit = true) (hchunk : chunk ∈ chunks digits) :
    (Conversion.reading chunk).Admitted limit := by
  obtain ⟨hne, hlength⟩ := chunk_bounds hchunk
  exact ⟨hne, fun d hd => h d (mem_of_mem_chunk hchunk hd), Nat.le_trans hlength hlimit⟩

theorem run_value {digits : List Char} (hlimit : chunkLength ≤ limit)
    (h : ∀ d ∈ digits, d.isDigit = true) : (value limit digits).run record =
      .ok (Decimal.value digits, record ++ (chunks digits).map .reading) := by
  have hadmitted : ∀ chunk ∈ chunks (digits.drop 0), (Conversion.reading chunk).Admitted limit :=
    fun _ hchunk => admitted_reading hlimit h hchunk
  exact run_valueFrom hadmitted 0

theorem run_write {n : Nat} (h : (Conversion.writing n).Admitted limit) :
    (write limit n).run record = .ok (Nat.toDigits 10 n, record ++ [.writing n]) := by
  have hnonneg : ¬ (n : Int) < 0 := by omega
  rw [write, run_bind_of_ok (run_convert h)]
  simp only [hnonneg]
  rfl

theorem admitted_writing {limb : Nat} (hlimit : chunkLength ≤ limit) (h : limb < chunkBase) :
    (Conversion.writing limb).Admitted limit :=
  Nat.le_trans (length_toDigits_le_chunkLength_iff.mpr h) hlimit

theorem run_partsAfter_of_lt {n : Nat} (hn : n < chunkBase)
    (h : (Conversion.writing n).Admitted limit) (parts : List (List Char)) :
    (partsAfter limit parts n).run record =
      .ok (parts ++ [Nat.toDigits 10 n], record ++ [.writing n]) := by
  rw [partsAfter, if_neg (by omega), run_bind_of_ok (run_write h)]
  rfl

theorem run_partsAfter_of_le {n : Nat} (hn : chunkBase ≤ n)
    (h : (Conversion.writing (n % chunkBase : Nat)).Admitted limit) (parts : List (List Char)) :
    (partsAfter limit parts n).run record =
      (partsAfter limit (parts ++ [inner (n % chunkBase)]) (n / chunkBase : Nat)).run
        (record ++ [.writing (n % chunkBase : Nat)]) := by
  rw [partsAfter, if_pos (by omega), ← Int.natCast_emod, ← Int.natCast_ediv,
    run_bind_of_ok (run_write h), ← inner]

/-- The limbs are written from the lowest up, and all but the highest fill their chunks. -/
theorem run_partsAfter {n top : Nat} {rest : List Nat} (hn : limbs n = top :: rest)
    (h : ∀ limb ∈ limbs n, (Conversion.writing limb).Admitted limit) (parts : List (List Char)) :
    (partsAfter limit parts n).run record =
      .ok (parts ++ (rest.reverse.map inner ++ [Nat.toDigits 10 top]),
        record ++ (limbs n).reverse.map fun limb : Nat => .writing limb) := by
  induction n using limbs.induct generalizing top rest parts record with
  | case1 n hlt =>
    rw [limbs_of_lt hlt] at hn h ⊢
    obtain ⟨rfl, rfl⟩ := List.cons.inj hn
    exact run_partsAfter_of_lt hlt (h n (List.mem_singleton_self n)) parts
  | case2 n hge ih =>
    rw [Nat.not_lt] at hge
    obtain ⟨top', rest', hhigh⟩ := List.exists_cons_of_ne_nil (limbs_ne_nil (n / chunkBase))
    rw [limbs_of_le hge] at hn h ⊢
    rw [hhigh, List.cons_append] at hn
    obtain ⟨rfl, rfl⟩ := List.cons.inj hn
    obtain ⟨hrest, hlow⟩ := List.forall_mem_append.mp h
    rw [run_partsAfter_of_le hge (hlow _ (List.mem_singleton_self _)), ih hhigh hrest,
      List.reverse_concat, List.reverse_concat, List.append_assoc, List.append_assoc]
    rfl

theorem run_render_natCast (hlimit : chunkLength ≤ limit) (n : Nat) : (render limit n).run record =
    .ok (Decimal.render n, record ++ (limbs n).reverse.map fun limb : Nat => .writing limb) := by
  have hnonneg : ¬ (n : Int) < 0 := by omega
  have hadmitted : ∀ limb ∈ limbs n, (Conversion.writing limb).Admitted limit :=
    fun limb hlimb => admitted_writing hlimit (limb_lt hlimb)
  obtain ⟨top, rest, hlimbs⟩ := List.exists_cons_of_ne_nil (limbs_ne_nil n)
  have hdigits : ([] ++ (rest.reverse.map inner ++ [Nat.toDigits 10 top])).reverse.flatten =
      numeral n := by
    rw [numeral, hlimbs, numeralOfLimbs]
    simp [List.flatMap]
  rw [render, if_neg hnonneg, run_bind_of_ok (run_partsAfter hlimbs hadmitted []), hdigits,
    Decimal.render, if_neg hnonneg]
  rfl

theorem run_render (hlimit : chunkLength ≤ limit) (v : Int) : (render limit v).run record =
    .ok (Decimal.render v,
      record ++ (limbs v.natAbs).reverse.map fun limb : Nat => .writing limb) := by
  by_cases hneg : v < 0
  · have hopposite : -v = (v.natAbs : Int) := by omega
    rw [render, if_pos hneg, hopposite, run_bind_of_ok (run_render_natCast hlimit v.natAbs),
      render_of_neg hneg]
    rfl
  · have hself : v = (v.natAbs : Int) := by omega
    rw [hself]
    exact run_render_natCast hlimit v.natAbs

end Limited

/-- Under every limit that admits five hundred digits the loops read and write what is read and
written without a limit, and no conversion is refused. Digits are converted in chunks that are
neither empty nor longer than that, and a number, whatever its sign, limb by limb from the lowest
up; each limb but the highest fills its part of the numeral exactly. -/
theorem no_conversion_refused {limit : Nat} (hlimit : 500 ≤ limit) :
    (∀ digits : List Char, (∀ d ∈ digits, d.isDigit = true) →
      (Limited.value limit digits).run [] = .ok (value digits, (chunks digits).map .reading) ∧
      ∀ chunk ∈ chunks digits, chunk ≠ [] ∧ chunk.length ≤ 500) ∧
    ∀ v : Int,
      (Limited.render limit v).run [] =
        .ok (render v, (limbs v.natAbs).reverse.map fun limb : Nat => .writing limb) ∧
      (∀ limb ∈ limbs v.natAbs, limb < 10 ^ 500) ∧
      ∃ top rest, limbs v.natAbs = top :: rest ∧
        (Limited.partsAfter limit [] v.natAbs).run [] =
          .ok (rest.reverse.map inner ++ [Nat.toDigits 10 top],
            (limbs v.natAbs).reverse.map fun limb : Nat => .writing limb) ∧
        ∀ limb ∈ rest, (inner limb).length = 500 := by
  have hchunk : chunkLength ≤ limit := hlimit
  constructor
  · intro digits hdigits
    exact ⟨Limited.run_value hchunk hdigits, fun chunk hmem => chunk_bounds hmem⟩
  · intro v
    have hlt : ∀ limb ∈ limbs v.natAbs, limb < chunkBase := fun limb hmem => limb_lt hmem
    have hbase : chunkBase = 10 ^ 500 := by rw [chunkBase_eq, chunkLength]
    have hpow : ∀ limb ∈ limbs v.natAbs, limb < 10 ^ 500 :=
      fun limb hmem => Nat.lt_of_lt_of_eq (hlt limb hmem) hbase
    obtain ⟨top, rest, hlimbs⟩ := List.exists_cons_of_ne_nil (limbs_ne_nil v.natAbs)
    have hadmitted : ∀ limb ∈ limbs v.natAbs, (Conversion.writing limb).Admitted limit :=
      fun limb hmem => Limited.admitted_writing hchunk (hlt limb hmem)
    refine ⟨Limited.run_render hchunk v, hpow, top, rest, hlimbs,
      Limited.run_partsAfter hlimbs hadmitted [], fun limb hmem => ?_⟩
    rw [hlimbs] at hlt
    exact length_inner (hlt limb (List.mem_cons_of_mem top hmem))

/-- The least limit that admits a chunk, and a digit and a unit more than it admits at once. -/
theorem no_conversion_refused_at_chunk :
    let digits := List.replicate 500 '0' ++ ['5']
    500 ≤ 500 ∧ (∀ d ∈ digits, d.isDigit = true) ∧ ¬ (Conversion.reading digits).Admitted 500 ∧
      (Limited.value 500 digits).run [] =
        .ok (value digits, [.reading (List.replicate 500 '0'), .reading ['5']]) ∧
      ¬ (Conversion.writing (-(chunkBase : Int))).Admitted 500 ∧
      (Limited.render 500 (-(chunkBase : Int))).run [] =
        .ok (render (-(chunkBase : Int)), [.writing 0, .writing 1]) := by
  intro digits
  have hdigits : ∀ d ∈ digits, d.isDigit = true := by
    rw [List.forall_mem_append, List.forall_mem_singleton]
    refine ⟨fun d hd => ?_, rfl⟩
    rw [List.eq_of_mem_replicate hd]
    rfl
  have hchunks : chunks digits = [List.replicate 500 '0', ['5']] := by
    have hne : digits ≠ [] := List.append_ne_nil_of_right_ne_nil _ (List.cons_ne_nil _ _)
    have hlength : (List.replicate 500 '0').length = chunkLength := List.length_replicate
    have hlast : chunks ['5'] = [['5']] := by decide +kernel
    rw [chunks, if_neg hne, List.take_left' hlength, List.drop_left' hlength, hlast]
  have hlimbs : limbs (-(chunkBase : Int)).natAbs = [1, 0] := by
    rw [Int.natAbs_neg, Int.natAbs_natCast, limbs_of_le (Nat.le_refl _), Nat.mod_self,
      Nat.div_self chunkBase_pos, limbs_of_lt one_lt_chunkBase]
    rfl
  obtain ⟨hread, hwritten⟩ := no_conversion_refused (Nat.le_refl 500)
  have hvalue := (hread digits hdigits).1
  have hrender := (hwritten (-(chunkBase : Int))).1
  rw [hchunks] at hvalue
  rw [hlimbs] at hrender
  refine ⟨Nat.le_refl 500, hdigits, ?_, hvalue, ?_, hrender⟩
  · rintro ⟨-, -, hlength⟩
    rw [List.length_append, List.length_replicate] at hlength
    exact absurd hlength (by decide)
  · intro hlength
    have hlt := length_toDigits_le_chunkLength_iff.mp hlength
    rw [Int.natAbs_neg, Int.natAbs_natCast] at hlt
    exact Nat.lt_irrefl _ hlt

end Abacus.Decimal
