import Abacus.Proofs.Accounting

/-! # What the kinds of tokens decide

The first phase looks at the kinds of tokens alone. So tokens of the same kinds are translated into
programs that push and reduce at the same points and end alike, and the stacks of the two are always
of one height. Hence they lack operands at the same point; nothing but a division by zero can part
them.
-/
namespace Abacus

def Waiting.operator? : Waiting → Option Operator
  | operator p => some p.operator
  | opening _ => none

/-- The cause of the fault in which a program ends whatever its values are. -/
def Ending.cause? : Ending → Option Cause
  | unmatchedClosing _ => some .unmatchedClosing
  | unclosedOpening _ => some .unclosedOpening
  | singleValue _ => none

theorem length_unwind (due : Operator → Bool) (stack : List Waiting) :
    (unwind due stack).1.length =
      ((stack.map Waiting.operator?).takeWhile (·.any due)).length := by
  induction stack with
  | nil => rfl
  | cons w stack ih =>
    cases w with
    | opening t => rfl
    | operator p => cases hp : due p.operator <;> simp [unwind, Waiting.operator?, hp, ih]

theorem map_operator?_unwind (due : Operator → Bool) (stack : List Waiting) :
    (unwind due stack).2.map Waiting.operator? =
      (stack.map Waiting.operator?).dropWhile (·.any due) := by
  induction stack with
  | nil => rfl
  | cons w stack ih =>
    cases w with
    | opening t => rfl
    | operator p => cases hp : due p.operator <;> simp [unwind, Waiting.operator?, hp, ih]

namespace Postfix

/-- Two programs push and reduce at the same points and end alike. -/
structure SameForm (p q : Postfix) : Prop where
  isPush : p.instructions.map Instruction.isPush = q.instructions.map Instruction.isPush
  ending : p.ending.cause? = q.ending.cause?

variable {p q : Postfix}

theorem SameForm.prepend (h : p.SameForm q) {is js : List Instruction}
    (hi : is.map Instruction.isPush = js.map Instruction.isPush) :
    (p.prepend is).SameForm (q.prepend js) where
  isPush := by simp only [Postfix.prepend, List.map_append, hi, h.isPush]
  ending := h.ending

theorem map_isPush_reduce (ps : List Pending) :
    (ps.map Instruction.reduce).map Instruction.isPush = List.replicate ps.length false := by
  rw [List.map_map]
  exact List.map_const'

section
variable {stack stack' : List Waiting}
  (h : stack.map Waiting.operator? = stack'.map Waiting.operator?)
include h

theorem isPush_unwind_congr (due : Operator → Bool) :
    ((unwind due stack).1.map Instruction.reduce).map Instruction.isPush =
      ((unwind due stack').1.map Instruction.reduce).map Instruction.isPush := by
  rw [map_isPush_reduce, map_isPush_reduce, length_unwind, length_unwind, h]

theorem operator?_unwind_congr (due : Operator → Bool) :
    (unwind due stack).2.map Waiting.operator? = (unwind due stack').2.map Waiting.operator? := by
  rw [map_operator?_unwind, map_operator?_unwind, h]

theorem unwind_always_congr :
    ((unwind Operator.always stack).2 = [] ∧ (unwind Operator.always stack').2 = []) ∨
      ∃ t t' outer outer', (unwind Operator.always stack).2 = .opening t :: outer ∧
        (unwind Operator.always stack').2 = .opening t' :: outer' ∧
        outer.map Waiting.operator? = outer'.map Waiting.operator? := by
  have hrest := operator?_unwind_congr h Operator.always
  rcases unwind_always_cases stack with hu | ⟨t, outer, hu⟩ <;>
    rcases unwind_always_cases stack' with hu' | ⟨t', outer', hu'⟩ <;>
      rw [hu, hu'] at hrest
  · exact .inl ⟨hu, hu'⟩
  · cases hrest
  · cases hrest
  · exact .inr ⟨t, t', outer, outer', hu, hu', (List.cons.inj hrest).2⟩

end

/-- The first phase turns tokens of the same kinds into programs of the same form. -/
theorem translate_sameForm (last last' : Option Location) {stack stack' : List Waiting}
    (hstack : stack.map Waiting.operator? = stack'.map Waiting.operator?) {ts us : List Token}
    (h : ts.map (·.kind) = us.map (·.kind)) :
    (translate last stack ts).SameForm (translate last' stack' us) := by
  induction ts generalizing stack stack' us with
  | nil =>
    obtain rfl : us = [] := by simpa using h.symm
    rw [translate, translate]
    refine ⟨isPush_unwind_congr hstack _, ?_⟩
    rcases unwind_always_congr hstack with ⟨hu, hu'⟩ | ⟨t, t', outer, outer', hu, hu', -⟩
    · simp only [hu, hu', Ending.cause?]
    · simp only [hu, hu', Ending.cause?]
  | cons t ts ih =>
    cases us with
    | nil => cases h
    | cons u us =>
      obtain ⟨hkind, hrest⟩ : t.kind = u.kind ∧ _ := List.cons.inj h
      rw [translate, translate, ← hkind]
      cases t.kind with
      | number => exact (ih hstack hrest).prepend rfl
      | operator op =>
        refine (ih ?_ hrest).prepend (isPush_unwind_congr hstack _)
        exact congrArg (some op :: ·) (operator?_unwind_congr hstack _)
      | leftParen =>
        refine ih ?_ hrest
        exact congrArg (none :: ·) hstack
      | rightParen =>
        have hdue := isPush_unwind_congr hstack Operator.always
        rcases unwind_always_congr hstack with ⟨hu, hu'⟩ | ⟨o, o', outer, outer', hu, hu', houter⟩
        · simp only [hu, hu']
          exact ⟨hdue, rfl⟩
        · simp only [hu, hu']
          exact (ih houter hrest).prepend hdue

end Postfix

namespace Instruction

/-- The height of a stack after an instruction, which may find too few values. -/
def height (n : Nat) (isPush : Bool) : Except Cause Nat :=
  if isPush then .ok (n + 1) else if n < 2 then .error .missingOperand else .ok (n - 1)

/-- Whether an instruction can be carried out depends on the height of the stack, division by zero
apart. -/
theorem height_perform {i : Instruction} {values : List Int}
    (h : ∀ l, i.perform values ≠ .error (.divisionByZero l)) :
    height values.length i.isPush =
      ((i.perform values).map List.length).mapError Fault.cause := by
  cases i with
  | push t => rfl
  | reduce p =>
    rcases values with _ | ⟨right, _ | ⟨left, rest⟩⟩
    · rfl
    · rfl
    · have hne := h p.token.location
      rw [perform] at hne ⊢
      cases hv : p.operator.compute? left right with
      | none => exact absurd (by rw [hv]) hne
      | some v => rfl

end Instruction

theorem execute_height {is : List Instruction} {values : List Int}
    (h : ∀ l, execute values is ≠ .error (.divisionByZero l)) :
    (is.map Instruction.isPush).foldlM Instruction.height values.length =
      ((execute values is).map List.length).mapError Fault.cause := by
  induction is generalizing values with
  | nil => rfl
  | cons i is ih =>
    have hcons : execute values (i :: is) = i.perform values >>= fun vs => execute vs is := rfl
    have hi : ∀ l, i.perform values ≠ .error (.divisionByZero l) := by
      intro l hl
      exact h l (by rw [hcons, hl]; rfl)
    rw [List.map_cons, List.foldlM_cons, Instruction.height_perform hi, hcons]
    cases hvs : i.perform values with
    | error f => rfl
    | ok vs => exact ih fun l hl => h l (by rw [hcons, hvs]; exact hl)

def Fault.SameCause (f g : Fault) : Prop := f.cause = g.cause

theorem Ending.settle_sameForm {e d : Ending} (h : e.cause? = d.cause?) {values values' : List Int}
    (hlength : values.length = values'.length) :
    EndAlike Fault.SameCause (fun _ _ => True) (e.settle values) (d.settle values') := by
  cases e <;> cases d <;> cases h
  · exact .error rfl
  · exact .error rfl
  · rcases values with _ | ⟨v, _ | ⟨w, vs⟩⟩ <;> rcases values' with _ | ⟨v', _ | ⟨w', vs'⟩⟩ <;>
      simp at hlength
    · exact .error rfl
    · exact .ok trivial
    · exact .error rfl

/-- Programs of one form have values, or faults of one cause, unless one of them divides by zero. -/
theorem Postfix.SameForm.evaluate {p q : Postfix} (h : p.SameForm q)
    (hp : ∀ l, p.evaluate ≠ .error (.divisionByZero l))
    (hq : ∀ l, q.evaluate ≠ .error (.divisionByZero l)) :
    EndAlike Fault.SameCause (fun _ _ => True) p.evaluate q.evaluate := by
  have hheight (r : Postfix) (hr : ∀ l, r.evaluate ≠ .error (.divisionByZero l)) :=
    @execute_height r.instructions [] fun l hl => hr l (bind_eq_error_iff.mpr (.inl hl))
  have heq := hheight p hp
  rw [h.isPush, hheight q hq] at heq
  rw [Postfix.evaluate, Postfix.evaluate, run, run]
  cases hx : execute [] p.instructions <;> cases hy : execute [] q.instructions <;>
    rw [hx, hy] at heq
  · exact .error (Except.error.inj heq).symm
  · cases heq
  · cases heq
  · exact Ending.settle_sameForm h.ending (Except.ok.inj heq).symm

/-- Tokens of the same kinds have values, or faults of one cause, unless a divisor among them is
zero. -/
theorem evaluate_sameKinds {ts us : List Token} (h : ts.map (·.kind) = us.map (·.kind))
    (hts : ∀ l, evaluate ts ≠ .error (.divisionByZero l))
    (hus : ∀ l, evaluate us ≠ .error (.divisionByZero l)) :
    EndAlike Fault.SameCause (fun _ _ => True) (evaluate ts) (evaluate us) := by
  rw [evaluate_eq_ofTokens] at hts hus ⊢
  rw [evaluate_eq_ofTokens us]
  exact (Postfix.translate_sameForm _ _ rfl h).evaluate hts hus

end Abacus
