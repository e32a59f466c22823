import Abacus.Proofs.Blame

/-! # Evaluation never breaks down

The machine cannot take an operand that is not there, or carry out a parenthesis: its types do not
allow it. Two bare stacks of values and of tokens do allow it. There every operation that demands
something breaks down where it does not get it, and still an evaluation on bare stacks ends as that
of the machine does, on every sequence of tokens.
-/
namespace Abacus

inductive Breakdown where
  | emptyStack
  | notOperator (kind : Token.Kind)
  | zeroDivisor
  | numberWithoutValue
  deriving DecidableEq

/-- Why an evaluation has no value: because of its tokens or because of itself. -/
inductive Failure where
  | fault (f : Fault)
  | breakdown (b : Breakdown)
  deriving DecidableEq

/-- The newest items come first; the parentheses that are open lie among the operators. -/
structure Stacks where
  values : List Int := []
  operators : List Token := []

namespace Stacks

def pop {α : Type} : List α → Except Failure (α × List α)
  | [] => .error (.breakdown .emptyStack)
  | x :: xs => .ok (x, xs)

def divide (dividend divisor : Int) : Except Failure Int :=
  if divisor = 0 then .error (.breakdown .zeroDivisor) else .ok (quotient dividend divisor)

def apply (kind : Token.Kind) (left right : Int) (location : Option Location) :
    Except Failure Int :=
  match kind with
  | .operator .plus => .ok (left + right)
  | .operator .minus => .ok (left - right)
  | .operator .times => .ok (left * right)
  | .operator .divide =>
    if right = 0 then .error (.fault (.divisionByZero location)) else divide left right
  | kind => .error (.breakdown (.notOperator kind))

def reduce (values : List Int) (op : Token) : Except Failure (List Int) :=
  if values.length < 2 then .error (.fault (.missingOperand op.lexeme op.location))
  else do
    let (right, values) ← pop values
    let (left, values) ← pop values
    return (← apply op.kind left right op.location) :: values

theorem pop_eq_ok_iff {α : Type} {xs ys : List α} {x : α} :
    pop xs = .ok (x, ys) ↔ xs = x :: ys := by
  cases xs <;> simp [pop]

def carryOut (due : Token → Bool) (s : Stacks) : Except Failure Stacks :=
  if s.operators.head?.any due then
    match _h : pop s.operators with
    | .error e => .error e
    | .ok (op, operators) => do carryOut due ⟨← reduce s.values op, operators⟩
  else .ok s
termination_by s.operators.length
decreasing_by
  rw [pop_eq_ok_iff.mp ‹pop s.operators = _›]
  exact Nat.lt_succ_self _

def isOpening (t : Token) : Bool := t.kind = .leftParen

def await (s : Stacks) (token : Token) : Except Failure Stacks := do
  let s ← s.carryOut fun waiting => !isOpening waiting &&
    token.kind.precedence.level ≤ waiting.kind.precedence.level
  return { s with operators := token :: s.operators }

def closeGroup (s : Stacks) (closing : Token) : Except Failure Stacks := do
  let s ← s.carryOut (!isOpening ·)
  if s.operators.isEmpty then .error (.fault (.unmatchedClosing closing.location))
  else return { s with operators := (← pop s.operators).2 }

/-- Demands that a number has a value. -/
def step (s : Stacks) (t : Token) : Except Failure Stacks :=
  match t.kind with
  | .number =>
    match t.value with
    | none => .error (.breakdown .numberWithoutValue)
    | some v => .ok { s with values := v :: s.values }
  | .operator _ => s.await t
  | .leftParen => .ok { s with operators := t :: s.operators }
  | .rightParen => s.closeGroup t

def finish (s : Stacks) (last : Option Location) : Except Failure Int := do
  let s ← s.carryOut (!isOpening ·)
  if !s.operators.isEmpty then
    .error (.fault (.unclosedOpening (← pop s.operators).1.location))
  else if s.values.length ≠ 1 then .error (.fault (.leftoverOperands s.values.length last))
  else return (← pop s.values).1

def evaluate (ts : List Token) : Except Failure Int := do
  (← ts.foldlM step {}).finish (ts.getLast?.bind (·.location))

def calculate (c : Calculator) (expression : Option String) : Except Failure Int := do
  evaluate (← (c.tokenize expression).answer.mapError .fault)

end Stacks

def Waiting.token : Waiting → Token
  | operator p => p.token
  | opening t => t

/-- What waits as an operator is one, and what waits as a parenthesis is an opening one. -/
def Waiting.Sound : Waiting → Prop
  | operator p => p.token.kind = .operator p.operator
  | opening t => t.kind = .leftParen

namespace Stacks

theorem apply_operator (op : Operator) (left right : Int) (l : Option Location) :
    apply (.operator op) left right l = (op.apply left right l).mapError .fault := by
  cases op with
  | plus | minus | times => rfl
  | divide =>
    by_cases hzero : right = 0
    · simp [apply, Operator.apply, Operator.compute?, hzero, Except.mapError]
    · simp [apply, divide, Operator.apply, Operator.compute?, hzero, Except.mapError]

theorem reduce_token {p : Pending} (hp : p.token.kind = .operator p.operator) (values : List Int) :
    reduce values p.token = (Instruction.perform values (.reduce p)).mapError .fault := by
  rcases values with _ | ⟨right, _ | ⟨left, rest⟩⟩
  · rfl
  · rfl
  · have hlong : ¬ (right :: left :: rest).length < 2 := by simp
    have hreduce : reduce (right :: left :: rest) p.token =
        (apply p.token.kind left right p.token.location >>= fun v => .ok (v :: rest)) := by
      rw [reduce, if_neg hlong]
      rfl
    rw [hreduce, hp, apply_operator, Operator.apply, Instruction.perform]
    cases p.operator.compute? left right <;> rfl

theorem carryOut_nil (due : Token → Bool) (values : List Int) :
    carryOut due ⟨values, []⟩ = .ok ⟨values, []⟩ := by
  rw [carryOut]
  rfl

theorem carryOut_of_due {due : Token → Bool} {op : Token} (h : due op = true) (values : List Int)
    (operators : List Token) : carryOut due ⟨values, op :: operators⟩ =
      reduce values op >>= fun values => carryOut due ⟨values, operators⟩ := by
  rw [carryOut]
  simp [h, pop]

theorem carryOut_of_not_due {due : Token → Bool} {op : Token} (h : due op = false)
    (values : List Int) (operators : List Token) :
    carryOut due ⟨values, op :: operators⟩ = .ok ⟨values, op :: operators⟩ := by
  rw [carryOut]
  simp [h]

/-- The loop carries out what the first phase takes from the stack, and leaves what it leaves. -/
theorem carryOut_map_token {due : Token → Bool} {f : Operator → Bool}
    (hoperator : ∀ t op, t.kind = .operator op → due t = f op)
    (hopening : ∀ t, t.kind = .leftParen → due t = false) {stack : List Waiting}
    (h : ∀ w ∈ stack, w.Sound) (values : List Int) :
    carryOut due ⟨values, stack.map Waiting.token⟩ =
      (execute values ((unwind f stack).1.map .reduce)).mapError .fault >>= fun values =>
        .ok ⟨values, (unwind f stack).2.map Waiting.token⟩ := by
  induction stack generalizing values with
  | nil => exact carryOut_nil due values
  | cons w stack ih =>
    obtain ⟨hw, hstack⟩ := List.forall_mem_cons.mp h
    cases w with
    | opening t => exact carryOut_of_not_due (hopening t hw) _ _
    | operator p =>
      have hdue : due p.token = f p.operator := hoperator p.token p.operator hw
      rw [unwind]
      cases hf : f p.operator with
      | false => exact carryOut_of_not_due (hdue.trans hf) _ _
      | true =>
        change carryOut due ⟨values, p.token :: stack.map Waiting.token⟩ = _
        rw [if_pos rfl, carryOut_of_due (hdue.trans hf), reduce_token hw]
        have hsplit : execute values (.reduce p :: (unwind f stack).1.map .reduce) =
            Instruction.perform values (.reduce p) >>= fun values =>
              execute values ((unwind f stack).1.map .reduce) := rfl
        rw [List.map_cons, hsplit, mapError_bind, bind_assoc]
        congr 1
        funext values
        exact ih hstack values

theorem carryOut_group {stack : List Waiting} (h : ∀ w ∈ stack, w.Sound) (values : List Int) :
    carryOut (!isOpening ·) ⟨values, stack.map Waiting.token⟩ =
      (execute values ((unwind Operator.always stack).1.map .reduce)).mapError .fault >>=
        fun values => .ok ⟨values, (unwind Operator.always stack).2.map Waiting.token⟩ :=
  carryOut_map_token (fun t op hop => by simp [isOpening, hop, Operator.always])
    (fun t ht => by simp [isOpening, ht]) h values

theorem carryOut_await {stack : List Waiting} (h : ∀ w ∈ stack, w.Sound) {t : Token}
    {op : Operator} (ht : t.kind = .operator op) (values : List Int) :
    carryOut (fun w => !isOpening w && t.kind.precedence.level ≤ w.kind.precedence.level)
        ⟨values, stack.map Waiting.token⟩ =
      (execute values ((unwind op.yieldsTo stack).1.map .reduce)).mapError .fault >>=
        fun values => .ok ⟨values, (unwind op.yieldsTo stack).2.map Waiting.token⟩ :=
  carryOut_map_token
    (fun t op hop => by simp [isOpening, hop, ht, Token.Kind.precedence, Operator.yieldsTo])
    (fun t ht => by simp [isOpening, ht]) h values

theorem finish_eq {stack : List Waiting} (h : ∀ w ∈ stack, w.Sound) (last : Option Location)
    (values : List Int) : finish ⟨values, stack.map Waiting.token⟩ last =
      ((Postfix.translate last stack []).run values).mapError .fault := by
  rw [finish, carryOut_group h, Postfix.translate, Postfix.run, mapError_bind, bind_assoc]
  congr 1
  funext values
  rcases unwind_always_cases stack with hu | ⟨t, outer, hu⟩
  · simp only [hu]
    rcases values with _ | ⟨v, _ | ⟨u, rest⟩⟩
    · rfl
    · rfl
    · simp [Ending.settle, bind, Except.bind, Except.mapError]
  · simp only [hu]
    rfl

/-- From any state on, the bare stacks do what the program of the remaining tokens does. -/
theorem rest_eq {stack : List Waiting} (h : ∀ w ∈ stack, w.Sound) (last : Option Location)
    {ts : List Token} (hts : ∀ t ∈ ts, t.kind = .number → t.value.isSome = true)
    (values : List Int) :
    (ts.foldlM step ⟨values, stack.map Waiting.token⟩ >>= (finish · last)) =
      ((Postfix.translate last stack ts).run values).mapError .fault := by
  induction ts generalizing stack values with
  | nil => exact finish_eq h last values
  | cons t ts ih =>
    obtain ⟨ht, hrest⟩ := List.forall_mem_cons.mp hts
    have sound {f : Operator → Bool} : ∀ w ∈ (unwind f stack).2, w.Sound :=
      fun w hw => h w ((unwind_suffix f stack).mem hw)
    rw [List.foldlM_cons, bind_assoc, step, Postfix.translate]
    cases hk : t.kind with
    | number =>
      obtain ⟨v, hv⟩ := Option.isSome_iff_exists.mp (ht hk)
      have hpush : execute values [.push t] = .ok (v :: values) := by
        rw [execute, List.foldlM_cons, Instruction.perform, hv]
        rfl
      rw [hv, Postfix.run_prepend, hpush]
      exact ih h hrest (v :: values)
    | leftParen =>
      have hopening : ∀ w ∈ Waiting.opening t :: stack, w.Sound :=
        List.forall_mem_cons.mpr ⟨hk, h⟩
      exact ih hopening hrest values
    | operator op =>
      rw [await, carryOut_await h hk]
      simp only [Postfix.run_prepend, mapError_bind, bind_assoc]
      congr 1
      funext values
      have hoperator : ∀ w ∈ Waiting.operator ⟨op, t⟩ :: (unwind op.yieldsTo stack).2, w.Sound :=
        List.forall_mem_cons.mpr ⟨hk, sound⟩
      exact ih hoperator hrest values
    | rightParen =>
      rw [closeGroup, carryOut_group h]
      rcases unwind_always_cases stack with hu | ⟨opening, outer, hu⟩
      · simp only [hu, Postfix.run, mapError_bind, bind_assoc]
        rfl
      · have houter : ∀ w ∈ outer, w.Sound := by
          intro w hw
          refine sound (f := Operator.always) w ?_
          rw [hu]
          exact List.mem_cons_of_mem _ hw
        simp only [hu, Postfix.run_prepend, mapError_bind, bind_assoc]
        congr 1
        funext values
        exact ih houter hrest values

theorem evaluate_eq {ts : List Token}
    (h : ∀ t ∈ ts, t.kind = .number → t.value.isSome = true) :
    evaluate ts = (Abacus.evaluate ts).mapError .fault := by
  rw [evaluate_eq_ofTokens]
  have hnone : ∀ w ∈ ([] : List Waiting), w.Sound := by simp
  exact rest_eq hnone _ h []

end Stacks

/-- Chunk by chunk the digits can be converted: no chunk is empty, too long, or holds anything
else. -/
def Decimal.Convertible (digits : List Char) : Prop :=
  digits ≠ [] ∧ ∀ chunk ∈ chunks digits,
    chunk ≠ [] ∧ chunk.length ≤ chunkLength ∧ ∀ d ∈ chunk, d.isDigit = true

theorem IsNumeral.convertible {lexeme : List Char} (h : IsNumeral lexeme) :
    Decimal.Convertible (Literal.digits lexeme) := by
  obtain ⟨-, hne, hdigits⟩ := h.cut
  refine ⟨hne, fun chunk hchunk => ?_⟩
  obtain ⟨hsome, hlength⟩ := Decimal.chunk_bounds hchunk
  exact ⟨hsome, hlength, fun d hd => hdigits d (Decimal.mem_of_mem_chunk hchunk hd)⟩

theorem convertible_of_mem_tokensRead {filename source : String} {t : Token}
    (ht : t ∈ Scan.tokensRead filename source) (hk : t.kind = .number) :
    Decimal.Convertible (Literal.digits t.lexeme.toList) := by
  obtain ⟨before, after, -, hreads⟩ := Scan.exists_reads_tokensRead filename source
  exact (hreads.isNumeral ht hk).convertible

theorem value_isSome_of_tokenize {filename source : String} {ts : List Token}
    (h : tokenize filename source = .ok ts) :
    ∀ t ∈ ts, t.kind = .number → t.value.isSome = true := by
  intro t ht hk
  rw [(tokenize_eq_ok_iff.mp h).value_eq t ht, if_pos hk]
  rfl

theorem Stacks.calculate_eq (c : Calculator) (expression : Option String) :
    Stacks.calculate c expression = (c.calculate expression).answer.mapError .fault := by
  cases expression with
  | none => rfl
  | some source =>
    by_cases hblank : Text.isBlankText source = true
    · rw [Calculator.answer_calculate_of_isBlankText hblank, calculate, Calculator.tokenize]
      simp only [hblank]
      rfl
    · rw [c.answer_calculate (mt ofText_eq_nil_iff.mp hblank), calculate, Calculator.tokenize,
        mapError_bind]
      simp only [hblank]
      cases hts : tokenize c.filename source with
      | error f => rfl
      | ok ts => exact Stacks.evaluate_eq (value_isSome_of_tokenize hts)

theorem Fault.ArisesIn.cause_mem {ts : List Token} {f : Fault} (h : f.ArisesIn ts) :
    f.cause ∈ [.unmatchedClosing, .unclosedOpening, .missingOperand, .leftoverOperands,
      .divisionByZero] := by
  cases f with
  | invalidCharacter | misplacedOperator | invalidNumber | emptyExpression => cases h
  | unmatchedClosing | unclosedOpening | missingOperand | leftoverOperands | divisionByZero =>
    simp [cause]

/-- Whatever the tokens are, an evaluation on bare stacks never breaks down: it ends as that of the
machine does, with a value or with a fault of form from C004 to C007 or a division by zero. Nor does
a calculation, whether there is a text or not; and all digits that it converts can be converted. -/
theorem evaluation_never_breaks_down :
    (∀ ts : List Token, (∀ t ∈ ts, t.kind = .number → t.value.isSome = true) →
      Stacks.evaluate ts = (evaluate ts).mapError .fault ∧
      ∀ f, evaluate ts = .error f →
        (f.cause.isArithmetic = false ∧ f.cause.code ∈ ["C004", "C005", "C006", "C007"]) ∨
        (f.cause.isArithmetic = true ∧ f.cause.code = "C009")) ∧
    ∀ (c : Calculator) (expression : Option String),
      Stacks.calculate c expression = (c.calculate expression).answer.mapError .fault ∧
      (∀ f, (c.calculate expression).answer = .error f →
        (f.cause.isArithmetic = false ∧ f.cause.code ∈
          ["C001", "C002", "C003", "C004", "C005", "C006", "C007", "C008"]) ∨
        (f.cause.isArithmetic = true ∧ f.cause.code = "C009")) ∧
      ∀ source ∈ expression, ∀ t ∈ Scan.tokensRead c.filename source, t.kind = .number →
        Decimal.Convertible (Literal.digits t.lexeme.toList) := by
  constructor
  · intro ts hts
    refine ⟨Stacks.evaluate_eq hts, fun f hf => ?_⟩
    have hcause := (arisesIn_of_evaluate hf).cause_mem
    revert hcause
    cases f.cause <;> decide
  · intro c expression
    refine ⟨Stacks.calculate_eq c expression, fun f _ => ?_, fun source _ t ht hk =>
      convertible_of_mem_tokensRead ht hk⟩
    cases f.cause <;> decide

/-- A division and a parenthesis that lack everything they need. -/
theorem evaluation_never_breaks_down_division :
    let ts : List Token := [⟨.number, "1", some 1, none⟩, ⟨.operator .divide, "/", none, none⟩,
      ⟨.rightParen, ")", none, none⟩]
    (∀ t ∈ ts, t.kind = .number → t.value.isSome = true) ∧
      Stacks.evaluate ts = (evaluate ts).mapError .fault ∧
      evaluate ts = .error (.missingOperand "/" none) := by
  intro ts
  have hvalues : ∀ t ∈ ts, t.kind = .number → t.value.isSome = true := by decide
  exact ⟨hvalues, (evaluation_never_breaks_down.1 ts hvalues).1, by decide +kernel⟩

end Abacus
