import Abacus.Console.Command
import Abacus.Proofs.Meaning

/-! # One expression in both modes

A session and a one-shot run find the same answer and show the same tokens before it. They differ in
what they make of the answer: the session fills its template or shows a fault as a text, and the
one-shot run puts the bare value on the standard output or that same text on the standard error.
-/
namespace Abacus

namespace Text

/-- How a piece is written in a template: a brace that is text is written twice. -/
def Piece.write : Piece → List Char
  | literal c => if c = '{' ∨ c = '}' then [c, c] else [c]
  | result => ['{', 'r', 'e', 's', 'u', 'l', 't', '}']

/-- The template that is written with the pieces `ps`. -/
def template (ps : List Piece) : String := String.ofList (ps.flatMap Piece.write)

end Text

namespace Console

namespace Emission

def errors (stamp : String) (es : List Emission) : String := stderr stamp (visible false es)

theorem errors_append (stamp : String) (es fs : List Emission) :
    errors stamp (es ++ fs) = errors stamp es ++ errors stamp fs := by
  simp [errors, visible, stderr, String.join_append]

@[simp] theorem stdout_nil : stdout [] = "" := rfl

@[simp] theorem errors_nil (stamp : String) : errors stamp [] = "" := rfl

@[simp] theorem stdout_cons (e : Emission) (es : List Emission) :
    stdout (e :: es) = e.stdoutText ++ stdout es := by
  simp [stdout, String.join_cons]

theorem errors_cons_out (stamp text : String) (es : List Emission) :
    errors stamp (out text :: es) = errors stamp es := by
  simp [errors, visible, stderr, String.join_cons, isLog, stderrText]

theorem errors_cons_err (stamp text : String) (es : List Emission) :
    errors stamp (err text :: es) = text ++ errors stamp es := by
  simp [errors, visible, stderr, String.join_cons, isLog, stderrText]

theorem errors_map_log (stamp : String) (events : List Event) :
    errors stamp (events.map log) = "" := by
  induction events with
  | nil => rfl
  | cons e events ih => exact ih

end Emission

section
variable (s : Settings) (c : Calculator) (expression : String)

/-- A fault that is found when the tokens are shown is found again by the calculation. -/
theorem Answer.outcome_ofExpression :
    (Answer.ofExpression s c expression).outcome = (c.calculate (some expression)).answer := by
  unfold Answer.ofExpression
  cases s.showTokens with
  | false => rfl
  | true =>
    cases hlexed : (c.tokenize (some expression)).answer with
    | ok ts => simp [hlexed, Answer.ofTraced]
    | error f =>
      simp only [hlexed, if_true]
      rw [Calculator.calculate, Traced.answer_reportFault, Traced.andThen, hlexed]

theorem Answer.errors_ofExpression (stamp : String) :
    Emission.errors stamp (Answer.ofExpression s c expression).emissions = "" := by
  unfold Answer.ofExpression
  cases s.showTokens with
  | false => exact Emission.errors_map_log stamp _
  | true =>
    cases hlexed : (c.tokenize (some expression)).answer with
    | ok ts =>
      simp only [hlexed, if_true, Answer.ofTraced, Emission.errors_append, Emission.line,
        Emission.errors_cons_out, Emission.errors_map_log]
      rfl
    | error f => simp [hlexed, Emission.errors_map_log]

end

theorem stdout_faultEmissions (s : Settings) (f : Fault) :
    Emission.stdout (faultEmissions s f) = "" := by
  cases hv : s.verbose <;> simp [faultEmissions, hv, Emission.stdoutText]

theorem errors_faultEmissions (s : Settings) (f : Fault) (stamp : String) :
    Emission.errors stamp (faultEmissions s f) = s.faultText f ++ "\n" := by
  cases hv : s.verbose <;>
    simp [faultEmissions, Settings.faultText, hv, Emission.errors_cons_err, String.append_assoc]

/-- What is seen of a run that has ended, where no log is kept. -/
structure Seen where
  status : Nat
  output : String
  errors : String
  deriving DecidableEq

def Report.seen (stamp : String) (r : Report) : Seen :=
  ⟨r.status, Emission.stdout r.emissions, Emission.errors stamp r.emissions⟩

theorem seen_oneShot (s : Settings) (expression stamp : String) :
    (oneShot s expression).seen stamp =
      let written := Emission.stdout (Answer.ofExpression s oneShotCalculator expression).emissions
      match (oneShotCalculator.calculate (some expression)).answer with
      | .ok v => ⟨0, written ++ Decimal.render v ++ "\n", ""⟩
      | .error f => ⟨1, written, s.faultText f ++ "\n"⟩ := by
  have herrors := Answer.errors_ofExpression s oneShotCalculator expression stamp
  rw [← Answer.outcome_ofExpression s oneShotCalculator expression, oneShot]
  cases (Answer.ofExpression s oneShotCalculator expression).outcome with
  | ok v =>
    simp [Report.seen, Emission.stdout_append, Emission.errors_append, herrors, Emission.line,
      Emission.stdoutText, Emission.errors_cons_out, String.append_assoc]
  | error f =>
    simp [Report.seen, Emission.stdout_append, Emission.errors_append, herrors,
      stdout_faultEmissions, errors_faultEmissions]

end Console

end Abacus
