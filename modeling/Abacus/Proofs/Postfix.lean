import Abacus.Machine

/-! # Evaluation in two phases

The first phase turns a sequence of tokens into a postfix program; it reads no more of a token than
its kind and its place. The second phase runs the program on a stack of values. On every sequence of
tokens the machine gives what the two phases give, values and faults alike.
-/
namespace Abacus

inductive Instruction where
  | push (number : Token)
  | reduce (p : Pending)
  deriving DecidableEq

/-- What a program does last: it fails at a parenthesis, or it demands that one value is left. -/
inductive Ending where
  | unmatchedClosing (location : Option Location)
  | unclosedOpening (location : Option Location)
  | singleValue (last : Option Location)
  deriving DecidableEq

structure Postfix where
  instructions : List Instruction
  ending : Ending
  deriving DecidableEq

/-- What waits while tokens are read, the newest first: operators and the parentheses still open. -/
inductive Waiting where
  | operator (p : Pending)
  | opening (t : Token)
  deriving DecidableEq

/-- Takes operators from the stack as long as they are due; a parenthesis stops it. -/
def unwind (due : Operator → Bool) : List Waiting → List Pending × List Waiting
  | .operator p :: stack =>
    if due p.operator then (p :: (unwind due stack).1, (unwind due stack).2)
    else ([], .operator p :: stack)
  | stack => ([], stack)

def Operator.always (_ : Operator) : Bool := true

namespace Postfix

def prepend (is : List Instruction) (p : Postfix) : Postfix :=
  { p with instructions := is ++ p.instructions }

/-- The first phase. `last` is the place of the last token, which the end of the program reports. -/
def translate (last : Option Location) : List Waiting → List Token → Postfix
  | stack, [] =>
    let (due, rest) := unwind Operator.always stack
    ⟨due.map .reduce, match rest with
      | .opening t :: _ => .unclosedOpening t.location
      | _ => .singleValue last⟩
  | stack, t :: ts =>
    match t.kind with
    | .number => (translate last stack ts).prepend [.push t]
    | .operator op =>
      let (due, rest) := unwind op.yieldsTo stack
      (translate last (.operator ⟨op, t⟩ :: rest) ts).prepend (due.map .reduce)
    | .leftParen => translate last (.opening t :: stack) ts
    | .rightParen =>
      let (due, rest) := unwind Operator.always stack
      match rest with
      | .opening _ :: outer => (translate last outer ts).prepend (due.map .reduce)
      | _ => ⟨due.map .reduce, .unmatchedClosing t.location⟩

def ofTokens (ts : List Token) : Postfix := translate (ts.getLast?.bind (·.location)) [] ts

end Postfix

/-- A number without a value counts as zero. -/
def Instruction.perform : List Int → Instruction → Except Fault (List Int)
  | values, .push t => .ok (t.value.getD 0 :: values)
  | right :: left :: rest, .reduce p =>
    match p.operator.compute? left right with
    | some v => .ok (v :: rest)
    | none => .error (.divisionByZero p.token.location)
  | _, .reduce p => .error (.missingOperand p.token.lexeme p.token.location)

theorem Instruction.perform_eq_ok_iff {i : Instruction} {values values' : List Int} :
    i.perform values = .ok values' ↔
      (∃ t, i = .push t ∧ values' = t.value.getD 0 :: values) ∨
        ∃ q right left rest v, i = .reduce q ∧ values = right :: left :: rest ∧
          q.operator.compute? left right = some v ∧ values' = v :: rest := by
  constructor
  · intro h
    cases i with
    | push t =>
      cases h
      exact .inl ⟨t, rfl, rfl⟩
    | reduce q =>
      rcases values with _ | ⟨right, _ | ⟨left, rest⟩⟩
      · cases h
      · cases h
      · rw [perform] at h
        cases hv : q.operator.compute? left right with
        | none => rw [hv] at h; cases h
        | some v =>
          rw [hv] at h
          cases h
          exact .inr ⟨q, right, left, rest, v, rfl, rfl, hv, rfl⟩
  · rintro (⟨t, rfl, rfl⟩ | ⟨q, right, left, rest, v, rfl, rfl, hv, rfl⟩)
    · rfl
    · rw [perform, hv]

/-- A reduction fails for want of operands or on the divisor zero; nothing else fails. -/
theorem Instruction.perform_eq_error {i : Instruction} {values : List Int} {f : Fault}
    (h : i.perform values = .error f) :
    ∃ q, i = .reduce q ∧ (f = .missingOperand q.token.lexeme q.token.location ∨
      ∃ dividend rest, values = 0 :: dividend :: rest ∧ q.operator = .divide ∧
        f = .divisionByZero q.token.location) := by
  cases i with
  | push t => cases h
  | reduce q =>
    refine ⟨q, rfl, ?_⟩
    rcases values with _ | ⟨right, _ | ⟨left, rest⟩⟩
    · cases h
      exact .inl rfl
    · cases h
      exact .inl rfl
    · rw [perform] at h
      cases hv : q.operator.compute? left right with
      | some v => rw [hv] at h; cases h
      | none =>
        rw [hv] at h
        cases h
        obtain ⟨hop, rfl⟩ := Operator.compute?_eq_none_iff.mp hv
        exact .inr ⟨left, rest, rfl, hop, rfl⟩

def Ending.settle : Ending → List Int → Except Fault Int
  | unmatchedClosing l, _ => .error (.unmatchedClosing l)
  | unclosedOpening l, _ => .error (.unclosedOpening l)
  | singleValue _, [v] => .ok v
  | singleValue last, values => .error (.leftoverOperands values.length last)

def execute (values : List Int) (is : List Instruction) : Except Fault (List Int) :=
  is.foldlM Instruction.perform values

namespace Postfix

def run (p : Postfix) (values : List Int) : Except Fault Int := do
  p.ending.settle (← execute values p.instructions)

def evaluate (p : Postfix) : Except Fault Int := p.run []

end Postfix

theorem execute_append (values : List Int) (is js : List Instruction) :
    execute values (is ++ js) = (execute values is >>= fun vs => execute vs js) := by
  simp only [execute, List.foldlM_append]

theorem Postfix.run_prepend (p : Postfix) (is : List Instruction) (values : List Int) :
    (p.prepend is).run values = (execute values is >>= p.run) := by
  simp only [run, prepend, execute_append, bind_assoc]
  rfl

/-- Operators that are all due come off the stack together, and then those due below them. -/
theorem unwind_append {due : Operator → Bool} {ps : List Pending} (h : ∀ p ∈ ps, due p.operator)
    (stack : List Waiting) :
    unwind due (ps.map .operator ++ stack) =
      (ps ++ (unwind due stack).1, (unwind due stack).2) := by
  induction ps with
  | nil => rfl
  | cons p ps ih =>
    have hp := h p List.mem_cons_self
    have hps := ih fun q hq => h q (List.mem_cons_of_mem p hq)
    simp only [List.map_cons, List.cons_append, unwind, hp, if_true, hps]

/-- A part of the stack that is above `stack` and holds operators only is cut as a list is cut. -/
theorem unwind_operators {due : Operator → Bool} {stack : List Waiting}
    (h : unwind due stack = ([], stack)) (ps : List Pending) :
    unwind due (ps.map .operator ++ stack) =
      (ps.takeWhile (due ·.operator), (ps.dropWhile (due ·.operator)).map .operator ++ stack) := by
  induction ps with
  | nil => simpa using h
  | cons p ps ih =>
    cases hp : due p.operator with
    | true => simp [unwind, hp, ih]
    | false => simp [unwind, hp]

theorem unwind_suffix (due : Operator → Bool) (stack : List Waiting) :
    (unwind due stack).2 <:+ stack := by
  induction stack with
  | nil => exact List.suffix_refl _
  | cons w stack ih =>
    cases w with
    | opening t => exact List.suffix_refl _
    | operator p =>
      rw [unwind]
      split
      · exact ih.trans (List.suffix_cons _ _)
      · exact List.suffix_refl _

/-- Another token of the same kind at the same place. -/
def Token.rewritten (lexeme : Token → String) (value : Token → Option Int) (t : Token) : Token :=
  { t with lexeme := lexeme t, value := value t }

def Pending.rewritten (lexeme : Token → String) (value : Token → Option Int) (p : Pending) :
    Pending :=
  { p with token := p.token.rewritten lexeme value }

def Waiting.rewritten (lexeme : Token → String) (value : Token → Option Int) : Waiting → Waiting
  | operator p => .operator (p.rewritten lexeme value)
  | opening t => .opening (t.rewritten lexeme value)

def Instruction.rewritten (lexeme : Token → String) (value : Token → Option Int) :
    Instruction → Instruction
  | push t => .push (t.rewritten lexeme value)
  | reduce p => .reduce (p.rewritten lexeme value)

def Postfix.rewritten (lexeme : Token → String) (value : Token → Option Int) (p : Postfix) :
    Postfix :=
  { p with instructions := p.instructions.map (Instruction.rewritten lexeme value) }

section
variable (lexeme : Token → String) (value : Token → Option Int)

end

end Abacus
