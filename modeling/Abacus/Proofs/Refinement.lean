import Abacus.Proofs.Postfix
import Abacus.Proofs.Runs

/-! # The machine refines the two phases

The machine keeps its waiting operators group by group and carries them out while it reads. Laid out
on one stack, what waits in it is what waits in the first phase, and its values are those of the
second phase at the same point; so both meet the same fault first, or reach the same value.
-/
namespace Abacus

namespace Machine

theorem evaluate_eq_outcome (ts : List Token) : evaluate ts = Prod.fst <$> outcome (run ts) := by
  unfold evaluate outcome
  cases run ts <;> rfl

/-- What waits outside the innermost group; a parenthesis lies on top of it. -/
def waitingOutside (groups : List Group) : List Waiting :=
  groups.flatMap fun g => .opening g.opening :: g.outer.map .operator

/-- The waiting operators of all groups on one stack, with the parentheses between them. -/
def waiting (m : Machine) : List Waiting := m.pending.map .operator ++ waitingOutside m.groups

theorem unwind_waitingOutside (due : Operator → Bool) (groups : List Group) :
    unwind due (waitingOutside groups) = ([], waitingOutside groups) := by
  cases groups <;> rfl

theorem unwind_waiting (m : Machine) (due : Operator → Bool) :
    unwind due m.waiting = (m.pending.takeWhile (due ·.operator),
      (m.pending.dropWhile (due ·.operator)).map .operator ++ waitingOutside m.groups) :=
  unwind_operators (unwind_waitingOutside due m.groups) m.pending

theorem unwind_always (m : Machine) :
    unwind Operator.always m.waiting = (m.pending, waitingOutside m.groups) := by
  rw [waiting, unwind_append (fun _ _ => rfl), unwind_waitingOutside, List.append_nil]

def carriedOut (m : Machine) (ps : List Pending) (values : List Int) : Machine :=
  { m with values, reduced := m.reduced ++ (ps.map (·.token)).toArray }

theorem outcome_reduce (m : Machine) (p : Pending) :
    outcome (m.reduce p) = m.carriedOut [p] <$> execute m.values [.reduce p] := by
  unfold reduce execute
  rcases m.values with _ | ⟨right, _ | ⟨left, rest⟩⟩
  · rfl
  · rfl
  · simp only [Operator.apply, List.foldlM_cons, List.foldlM_nil, Instruction.perform]
    cases p.operator.compute? left right <;> rfl

theorem outcome_reduceAll (m : Machine) (ps : List Pending) :
    outcome (m.reduceAll ps) = m.carriedOut ps <$> execute m.values (ps.map .reduce) := by
  induction ps generalizing m with
  | nil => simp [reduceAll, execute, carriedOut]; rfl
  | cons p ps ih =>
    have hsplit : execute m.values ((p :: ps).map .reduce) =
        execute m.values [.reduce p] >>= fun vs => execute vs (ps.map .reduce) :=
      execute_append m.values [.reduce p] _
    have hstep : m.reduceAll (p :: ps) = m.reduce p >>= fun m => m.reduceAll ps := rfl
    rw [hstep, hsplit, outcome_bind, outcome_reduce]
    cases execute m.values [.reduce p] with
    | error f => rfl
    | ok vs =>
      have hjoin : (m.carriedOut [p] vs).carriedOut ps = m.carriedOut (p :: ps) := by
        funext us
        simp [carriedOut]
      change outcome ((m.carriedOut [p] vs).reduceAll ps) = _
      rw [ih, hjoin]
      rfl

theorem outcome_await (m : Machine) (op : Operator) (t : Token) :
    outcome (m.await op t) =
      (fun values => { m.carriedOut (m.pending.takeWhile (op.yieldsTo ·.operator)) values with
        pending := ⟨op, t⟩ :: m.pending.dropWhile (op.yieldsTo ·.operator) }) <$>
      execute m.values ((m.pending.takeWhile (op.yieldsTo ·.operator)).map .reduce) := by
  simp only [await, outcome_bind, outcome_reduceAll]
  cases execute m.values _ <;> rfl

theorem outcome_closeGroup (m : Machine) (closing : Token) :
    outcome (m.closeGroup closing) = execute m.values (m.pending.map .reduce) >>= fun values =>
      match m.groups with
      | [] => .error (.unmatchedClosing closing.location)
      | g :: groups => .ok { m.carriedOut m.pending values with pending := g.outer, groups } := by
  simp only [closeGroup, outcome_bind, outcome_reduceAll]
  cases execute m.values _ with
  | error f => rfl
  | ok values =>
    rcases m with ⟨_, _, _ | ⟨g, groups⟩, _⟩ <;> rfl

theorem outcome_finish (m : Machine) (last : Option Location) :
    Prod.fst <$> outcome (m.finish last) = (Postfix.translate last m.waiting []).run m.values := by
  simp only [finish, outcome_bind, outcome_reduceAll, Postfix.translate, unwind_always, Postfix.run]
  cases execute m.values _ with
  | error f => rfl
  | ok values =>
    rcases m with ⟨_, _, _ | ⟨g, groups⟩, _⟩
    · rcases values with _ | ⟨v, _ | ⟨u, rest⟩⟩ <;> rfl
    · rfl

/-- From any state on, the machine does what the program of the remaining tokens does. -/
theorem outcome_rest (m : Machine) (last : Option Location) (ts : List Token) :
    Prod.fst <$> outcome (ts.foldlM step m >>= (finish · last)) =
      (Postfix.translate last m.waiting ts).run m.values := by
  induction ts generalizing m with
  | nil => exact outcome_finish m last
  | cons t ts ih =>
    have hcons : ((t :: ts).foldlM step m >>= (finish · last)) =
        step m t >>= fun m => ts.foldlM step m >>= (finish · last) := by
      simp only [List.foldlM_cons, bind_assoc]
    rw [hcons, outcome_bind, Postfix.translate, step]
    cases t.kind with
    | number =>
      rw [Postfix.run_prepend]
      exact ih (m.push (t.value.getD 0))
    | operator op =>
      simp only [outcome_await, unwind_waiting, Postfix.run_prepend]
      cases execute m.values _ with
      | error f => rfl
      | ok values => exact ih _
    | leftParen => exact ih (m.openGroup t)
    | rightParen =>
      simp only [outcome_closeGroup, unwind_always]
      cases m.groups with
      | nil =>
        cases he : execute m.values (m.pending.map .reduce) with
        | error f => simp [waitingOutside, Postfix.run, he]; rfl
        | ok values => simp [waitingOutside, Postfix.run, he]; rfl
      | cons g groups =>
        simp only [waitingOutside, List.flatMap_cons, List.cons_append, Postfix.run_prepend]
        cases execute m.values _ with
        | error f => rfl
        | ok values => exact ih _

end Machine

theorem evaluate_eq_ofTokens (ts : List Token) : evaluate ts = (Postfix.ofTokens ts).evaluate := by
  rw [Machine.evaluate_eq_outcome]
  exact Machine.outcome_rest {} _ ts

end Abacus
