import Abacus.Proofs.Structure

/-! # What the two phases keep account of

The translation loses no number and no operator, and it ends as the parentheses tell it to. So the
height of the stack after the program is known from the tokens alone, and whatever has a value has
one operand more than operators, between parentheses that match.
-/
namespace Abacus

def operands (ts : List Token) : Nat := ts.countP (·.kind = .number)

def operators (ts : List Token) : Nat := ts.countP (·.kind.operator?.isSome)

theorem operands_snoc (ts : List Token) (t : Token) :
    operands (ts ++ [t]) = operands ts + if t.kind = .number then 1 else 0 := by
  simp [operands, List.countP_append, List.countP_cons]

theorem operators_snoc (ts : List Token) (t : Token) :
    operators (ts ++ [t]) = operators ts + if t.kind.operator?.isSome then 1 else 0 := by
  simp [operators, List.countP_append, List.countP_cons]

namespace Instruction

def isPush : Instruction → Bool
  | push _ => true
  | reduce _ => false

def isReduce : Instruction → Bool
  | push _ => false
  | reduce _ => true

end Instruction

/-- What becomes of a token: a number is pushed and an operator is carried out. -/
def Token.instruction? (t : Token) : Option Instruction :=
  match t.kind with
  | .number => some (.push t)
  | .operator op => some (.reduce ⟨op, t⟩)
  | .leftParen | .rightParen => none

theorem countP_isPush_instructions (ts : List Token) :
    (ts.filterMap Token.instruction?).countP Instruction.isPush = operands ts := by
  rw [List.countP_filterMap, operands]
  congr 1
  funext t
  rw [Token.instruction?]
  cases t.kind <;> rfl

theorem countP_isReduce_instructions (ts : List Token) :
    (ts.filterMap Token.instruction?).countP Instruction.isReduce = operators ts := by
  rw [List.countP_filterMap, operators]
  congr 1
  funext t
  rw [Token.instruction?]
  cases t.kind <;> rfl

namespace Waiting

def operators : List Waiting → List Pending
  | [] => []
  | operator p :: stack => p :: operators stack
  | opening _ :: stack => operators stack

def openings : List Waiting → List Token
  | [] => []
  | operator _ :: stack => openings stack
  | opening t :: stack => t :: openings stack

end Waiting

theorem Instruction.length_perform {i : Instruction} {values values' : List Int}
    (h : i.perform values = .ok values') :
    values'.length + [i].countP isReduce = values.length + [i].countP isPush := by
  obtain ⟨t, rfl, rfl⟩ | ⟨q, right, left, rest, v, rfl, rfl, -, rfl⟩ := perform_eq_ok_iff.mp h
  · rfl
  · rfl

theorem length_execute {values values' : List Int} {is : List Instruction}
    (h : execute values is = .ok values') :
    values'.length + is.countP Instruction.isReduce =
      values.length + is.countP Instruction.isPush := by
  induction is generalizing values with
  | nil =>
    cases h
    rfl
  | cons i is ih =>
    obtain ⟨vs, hi, hvs⟩ := bind_eq_ok_iff.mp h
    have hstep := Instruction.length_perform hi
    have hrest := ih hvs
    rw [← List.singleton_append, List.countP_append, List.countP_append]
    omega

theorem openings_unwind (due : Operator → Bool) (stack : List Waiting) :
    Waiting.openings (unwind due stack).2 = Waiting.openings stack := by
  induction stack with
  | nil => rfl
  | cons w stack ih =>
    cases w with
    | opening t => rfl
    | operator p =>
      rw [unwind]
      by_cases hp : due p.operator = true
      · rw [if_pos hp]
        exact ih
      · rw [if_neg hp]

theorem operators_unwind (due : Operator → Bool) (stack : List Waiting) :
    (unwind due stack).1 ++ Waiting.operators (unwind due stack).2 = Waiting.operators stack := by
  induction stack with
  | nil => rfl
  | cons w stack ih =>
    cases w with
    | opening t => rfl
    | operator p =>
      rw [unwind]
      by_cases hp : due p.operator = true
      · rw [if_pos hp]
        exact congrArg (p :: ·) ih
      · rw [if_neg hp]
        rfl

theorem unwind_always_cases (stack : List Waiting) :
    (unwind Operator.always stack).2 = [] ∨
      ∃ t outer, (unwind Operator.always stack).2 = .opening t :: outer := by
  induction stack with
  | nil => exact .inl rfl
  | cons w stack ih =>
    cases w with
    | opening t => exact .inr ⟨t, stack, rfl⟩
    | operator p => exact ih

/-- How a program ends where its parentheses are nested so. -/
def Ending.ofNesting (last : Option Location) : Except Token (List Token) → Ending
  | .error t => unmatchedClosing t.location
  | .ok [] => singleValue last
  | .ok (t :: _) => unclosedOpening t.location

theorem Ending.settle_ofNesting_eq_ok_iff {last : Option Location}
    {nesting : Except Token (List Token)} {values : List Int} {v : Int} :
    (Ending.ofNesting last nesting).settle values = .ok v ↔ nesting = .ok [] ∧ values = [v] := by
  rcases nesting with t | _ | ⟨t, opens⟩
  · simp [ofNesting, settle]
  · rcases values with _ | ⟨u, _ | ⟨w, rest⟩⟩ <;> simp [ofNesting, settle]
  · simp [ofNesting, settle]

theorem Ending.settle_ofNesting_eq_error {last : Option Location}
    {nesting : Except Token (List Token)} {values : List Int} {f : Fault}
    (h : (Ending.ofNesting last nesting).settle values = .error f) :
    (∃ t, nesting = .error t ∧ f = .unmatchedClosing t.location) ∨
      (∃ t outer, nesting = .ok (t :: outer) ∧ f = .unclosedOpening t.location) ∨
        nesting = .ok [] ∧ values.length ≠ 1 ∧ f = .leftoverOperands values.length last := by
  rcases nesting with t | _ | ⟨t, outer⟩
  · cases h
    exact .inl ⟨t, rfl, rfl⟩
  · rcases values with _ | ⟨v, _ | ⟨u, rest⟩⟩ <;> cases h <;> simp
  · cases h
    exact .inr (.inl ⟨t, outer, rfl, rfl⟩)

namespace Postfix

/-- How a program ends depends on the parentheses alone. -/
theorem translate_ending (last : Option Location) (stack : List Waiting) (ts : List Token) :
    (translate last stack ts).ending =
      .ofNesting last (ts.foldlM nest (Waiting.openings stack)) := by
  induction ts generalizing stack with
  | nil =>
    rw [translate, ← openings_unwind Operator.always stack]
    rcases unwind_always_cases stack with hu | ⟨t, outer, hu⟩ <;> simp only [hu] <;> rfl
  | cons t ts ih =>
    rw [translate, List.foldlM_cons, nest.eq_def]
    cases t.kind with
    | number => exact ih stack
    | leftParen => exact ih (.opening t :: stack)
    | operator op =>
      rw [← openings_unwind op.yieldsTo stack]
      exact ih (.operator ⟨op, t⟩ :: (unwind op.yieldsTo stack).2)
    | rightParen =>
      rw [← openings_unwind Operator.always stack]
      rcases unwind_always_cases stack with hu | ⟨opening, outer, hu⟩
      · simp only [hu]
        rfl
      · simp only [hu]
        exact ih outer

/-- Where all parentheses match, no instruction is lost and none is made up: the operators that wait
already are carried out, and every token becomes its instruction. -/
theorem instructions_translate_perm {last : Option Location} {stack : List Waiting}
    {ts : List Token} (h : ts.foldlM nest (Waiting.openings stack) = .ok []) :
    (translate last stack ts).instructions.Perm
      ((Waiting.operators stack).map .reduce ++ ts.filterMap Token.instruction?) := by
  induction ts generalizing stack with
  | nil =>
    have hops := operators_unwind Operator.always stack
    rw [← openings_unwind Operator.always stack] at h
    rcases unwind_always_cases stack with hu | ⟨t, outer, hu⟩
    · rw [hu, Waiting.operators, List.append_nil] at hops
      rw [translate, ← hops]
      exact .of_eq (List.append_nil _).symm
    · rw [hu] at h
      cases h
  | cons t ts ih =>
    rw [List.foldlM_cons, nest.eq_def] at h
    rw [translate, List.filterMap_cons, Token.instruction?]
    cases hk : t.kind with
    | number =>
      rw [hk] at h
      exact ((ih h).cons _).trans List.perm_middle.symm
    | leftParen =>
      rw [hk] at h
      exact @ih (.opening t :: stack) h
    | operator op =>
      rw [hk, ← openings_unwind op.yieldsTo stack] at h
      have hrest := @ih (.operator ⟨op, t⟩ :: (unwind op.yieldsTo stack).2) h
      rw [← operators_unwind op.yieldsTo stack, List.map_append, List.append_assoc]
      exact (hrest.trans List.perm_middle.symm).append_left _
    | rightParen =>
      rw [hk, ← openings_unwind Operator.always stack] at h
      have hops := operators_unwind Operator.always stack
      rcases unwind_always_cases stack with hu | ⟨opening, outer, hu⟩
      · rw [hu] at h
        cases h
      · rw [hu] at h hops
        rw [← hops, List.map_append, List.append_assoc]
        simp only [hu]
        exact (@ih outer h).append_left _

theorem instructions_ofTokens_perm {ts : List Token} (h : Balanced ts) :
    (ofTokens ts).instructions.Perm (ts.filterMap Token.instruction?) :=
  @instructions_translate_perm (ts.getLast?.bind (·.location)) [] ts h

theorem ofTokens_ending (ts : List Token) :
    (ofTokens ts).ending = .ofNesting (ts.getLast?.bind (·.location)) (ts.foldlM nest []) :=
  translate_ending _ [] ts

/-- So many numbers are pushed and so many operators are carried out. -/
structure Performs (p : Postfix) (pushes reductions : Nat) : Prop where
  countP_isPush : p.instructions.countP Instruction.isPush = pushes
  countP_isReduce : p.instructions.countP Instruction.isReduce = reductions

theorem performs_ofTokens {ts : List Token} (h : Balanced ts) :
    (ofTokens ts).Performs (operands ts) (operators ts) where
  countP_isPush := by
    rw [(instructions_ofTokens_perm h).countP_eq, countP_isPush_instructions]
  countP_isReduce := by
    rw [(instructions_ofTokens_perm h).countP_eq, countP_isReduce_instructions]

/-- What a program leaves is what its numbers and operators leave. -/
theorem length_execute_ofTokens {ts : List Token} (h : Balanced ts) {values : List Int}
    (hexecute : execute [] (ofTokens ts).instructions = .ok values) :
    values.length + operators ts = operands ts := by
  have hperforms := performs_ofTokens h
  have hlength := length_execute hexecute
  rw [hperforms.countP_isPush, hperforms.countP_isReduce, List.length_nil] at hlength
  omega

end Postfix

/-- A value comes out only where the parentheses match, and it is all that is left. -/
theorem execute_of_evaluate {ts : List Token} {v : Int} (h : evaluate ts = .ok v) :
    Balanced ts ∧ execute [] (Postfix.ofTokens ts).instructions = .ok [v] := by
  rw [evaluate_eq_ofTokens] at h
  obtain ⟨values, hrun, hsettle⟩ := bind_eq_ok_iff.mp h
  rw [Postfix.ofTokens_ending, Ending.settle_ofNesting_eq_ok_iff] at hsettle
  obtain ⟨hbalanced, rfl⟩ := hsettle
  exact ⟨hbalanced, hrun⟩

/-- Where a value comes out there is one operand more than operators. -/
theorem balanced_of_evaluate {ts : List Token} {v : Int} (h : evaluate ts = .ok v) :
    Balanced ts ∧ operands ts = operators ts + 1 := by
  obtain ⟨hbalanced, hrun⟩ := execute_of_evaluate h
  have hlength := Postfix.length_execute_ofTokens hbalanced hrun
  rw [List.length_singleton] at hlength
  exact ⟨hbalanced, by omega⟩

end Abacus
