import Abacus.Proofs.Accounting

/-! # What the machine does with a balanced part

Where the parentheses of a part match, the machine never looks at what it had before: it carries out
the program of the part on the values that it finds, records the operators in the order of the
program, and comes back to the operators and groups that waited before. A group is such a part, and
so is a whole sequence that has a value.
-/
namespace Abacus

def Instruction.carried? : Instruction → Option Token
  | push _ => none
  | reduce p => some p.token

namespace Postfix

/-- The operators of a program in the order in which they are carried out. -/
def carried (p : Postfix) : List Token := p.instructions.filterMap Instruction.carried?

theorem carried_prepend_reduce (p : Postfix) (ps : List Pending) :
    (p.prepend (ps.map .reduce)).carried = ps.map (·.token) ++ p.carried := by
  rw [carried, prepend, List.filterMap_append, List.filterMap_map]
  change ps.filterMap (some ∘ Pending.token) ++ _ = _
  rw [List.filterMap_eq_map]
  rfl

theorem length_carried (p : Postfix) :
    p.carried.length = p.instructions.countP Instruction.isReduce := by
  rw [carried, List.length_filterMap_eq_countP]
  congr 1
  funext i
  cases i <;> rfl

end Postfix

namespace Machine

def drain (m : Machine) : Except (Halt Machine) Machine := do
  let m ← m.reduceAll m.pending
  .ok { m with pending := [] }

def inside (m : Machine) (base : List Group) : Machine := { m with groups := m.groups ++ base }

@[simp] theorem inside_values (m : Machine) (base : List Group) :
    (m.inside base).values = m.values := rfl

@[simp] theorem inside_pending (m : Machine) (base : List Group) :
    (m.inside base).pending = m.pending := rfl

@[simp] theorem inside_groups (m : Machine) (base : List Group) :
    (m.inside base).groups = m.groups ++ base := rfl

/-- Carries out a whole program, behind which nothing waits but `base`. -/
def carryOut (m : Machine) (base : List Group) (p : Postfix) : Except Fault Machine :=
  (fun values => ⟨values, [], base, m.reduced ++ p.carried.toArray⟩) <$>
    execute m.values p.instructions

theorem carryOut_nil (m : Machine) (base : List Group) (ending : Ending) :
    m.carryOut base ⟨[], ending⟩ = .ok { m with pending := [], groups := base } := by
  simp [carryOut, Postfix.carried, execute, pure, Except.pure]

theorem carryOut_prepend_reduce (m : Machine) (base : List Group) (p : Postfix)
    (ps : List Pending) :
    m.carryOut base (p.prepend (ps.map .reduce)) =
      execute m.values (ps.map .reduce) >>= fun vs => (m.carriedOut ps vs).carryOut base p := by
  have hinstructions : (p.prepend (ps.map .reduce)).instructions =
      ps.map .reduce ++ p.instructions := rfl
  rw [carryOut, Postfix.carried_prepend_reduce, hinstructions, execute_append]
  cases execute m.values (ps.map .reduce) with
  | error f => rfl
  | ok vs =>
    change _ <$> execute vs p.instructions = _ <$> execute vs p.instructions
    simp [carriedOut]

theorem outcome_drain (m : Machine) :
    outcome m.drain = (fun values => { m.carriedOut m.pending values with pending := [] }) <$>
      execute m.values (m.pending.map .reduce) := by
  simp only [drain, outcome_bind, outcome_reduceAll]
  cases execute m.values _ <;> rfl

theorem outcome_closeGroup_eq_drain (m : Machine) (closing : Token) :
    outcome (m.closeGroup closing) = outcome m.drain >>= fun n =>
      match n.groups with
      | [] => .error (.unmatchedClosing closing.location)
      | g :: groups => .ok { n with pending := g.outer, groups } := by
  rw [outcome_closeGroup, outcome_drain]
  cases execute m.values _ with
  | error f => rfl
  | ok values => rcases m with ⟨_, _, _ | ⟨g, groups⟩, _⟩ <;> rfl

/-- A run ends well when its operators are carried out and leave one value and no group. -/
theorem drain_of_finish {m n : Machine} {last : Option Location} {v : Int}
    (h : m.finish last = .ok (v, n)) :
    m.drain = .ok { n with pending := [] } ∧ n.values = [v] ∧ n.groups = [] := by
  obtain ⟨u, hu, hsettle⟩ := bind_eq_ok_iff.mp h
  rw [drain, hu]
  split at hsettle
  · cases hsettle
  · rename_i hgroups hvalues
    cases hsettle
    exact ⟨rfl, hvalues, hgroups⟩
  · cases hsettle

/-- Until all parentheses match that are open in `m`, nothing outside them counts. -/
theorem outcome_inside_drain (m : Machine) (base : List Group) (last : Option Location)
    {ts : List Token} (h : ts.foldlM nest (m.groups.map (·.opening)) = .ok []) :
    outcome (ts.foldlM step (m.inside base) >>= drain) =
      m.carryOut base (Postfix.translate last m.waiting ts) := by
  induction ts generalizing m with
  | nil =>
    have hgroups : m.groups = [] := by simpa [pure, Except.pure] using h
    have hprogram : Postfix.translate last m.waiting [] =
        (Postfix.mk [] (.singleValue last)).prepend (m.pending.map .reduce) := by
      rw [Postfix.translate]
      simp [unwind_always, hgroups, waitingOutside, Postfix.prepend]
    change outcome (m.inside base).drain = _
    rw [outcome_drain, hprogram, carryOut_prepend_reduce]
    simp only [carryOut_nil, inside, hgroups, List.nil_append]
    rfl
  | cons t ts ih =>
    obtain ⟨opens, ht, hts⟩ := bind_eq_ok_iff.mp h
    rw [List.foldlM_cons, bind_assoc, outcome_bind, Postfix.translate, step]
    unfold nest at ht
    cases hk : t.kind with
    | number =>
      rw [hk] at ht
      cases ht
      exact ih (m.push (t.value.getD 0)) hts
    | leftParen =>
      rw [hk] at ht
      cases ht
      exact ih (m.openGroup t) hts
    | operator op =>
      rw [hk] at ht
      cases ht
      simp only [outcome_await, unwind_waiting, carryOut_prepend_reduce, inside_values,
        inside_pending]
      cases execute m.values _ with
      | error f => rfl
      | ok values =>
        exact ih { m.carriedOut (m.pending.takeWhile (op.yieldsTo ·.operator)) values with
          pending := ⟨op, t⟩ :: m.pending.dropWhile (op.yieldsTo ·.operator) } hts
    | rightParen =>
      rcases m with ⟨values, pending, _ | ⟨g, groups⟩, reduced⟩
      · rw [hk] at ht
        cases ht
      · rw [hk] at ht
        cases ht
        simp only [outcome_closeGroup, unwind_always, waitingOutside, List.flatMap_cons,
          List.cons_append, carryOut_prepend_reduce, inside_values, inside_pending, inside_groups]
        cases execute values _ with
        | error f => rfl
        | ok values =>
          exact ih ⟨values, g.outer, groups, reduced ++ (pending.map (·.token)).toArray⟩ hts

/-- A group whose parentheses match comes back to what waited before it, with the values that its
program leaves. -/
theorem outcome_group {inner : List Token} {opening closing : Token}
    (ho : opening.kind = .leftParen) (hc : closing.kind = .rightParen) (h : Balanced inner)
    (m : Machine) :
    outcome ((opening :: inner ++ [closing]).foldlM step m) =
      (fun values => { m with
        values, reduced := m.reduced ++ (Postfix.ofTokens inner).carried.toArray }) <$>
        execute m.values (Postfix.ofTokens inner).instructions := by
  let own : Machine := { m with pending := [], groups := [] }
  let base : List Group := ⟨opening, m.pending⟩ :: m.groups
  have hopen : m.step opening = .ok (own.inside base) := by
    rw [step, ho]
    rfl
  have hclose (n : Machine) : [closing].foldlM step n = n.closeGroup closing := by
    rw [List.foldlM_cons, step, hc]
    exact bind_pure _
  have hinner : outcome (inner.foldlM step (own.inside base) >>= drain) =
      own.carryOut base (Postfix.ofTokens inner) :=
    own.outcome_inside_drain base _ h
  rw [outcome_bind] at hinner
  rw [List.foldlM_append, List.foldlM_cons, hopen, outcome_bind]
  simp only [hclose, outcome_closeGroup_eq_drain]
  rw [← bind_assoc]
  change (outcome (inner.foldlM step (own.inside base)) >>= _) >>= _ = _
  rw [hinner, carryOut]
  change (_ <$> execute m.values _) >>= _ = _
  cases execute m.values (Postfix.ofTokens inner).instructions <;> rfl

/-- What a run records is what its program carries out. -/
theorem reduced_of_run {ts : List Token} {v : Int} {m : Machine} (h : run ts = .ok (v, m))
    (hts : Balanced ts) : m.reduced.toList = (Postfix.ofTokens ts).carried := by
  obtain ⟨n, hsteps, hfinish⟩ := bind_eq_ok_iff.mp h
  obtain ⟨hdrain, -, -⟩ := drain_of_finish hfinish
  have hrun : outcome (ts.foldlM step {} >>= drain) =
      ({} : Machine).carryOut [] (Postfix.ofTokens ts) :=
    ({} : Machine).outcome_inside_drain [] _ hts
  rw [hsteps] at hrun
  change outcome n.drain = _ at hrun
  rw [hdrain, carryOut] at hrun
  cases hvalues : execute ({} : Machine).values (Postfix.ofTokens ts).instructions with
  | error f => rw [hvalues] at hrun; cases hrun
  | ok values =>
    rw [hvalues] at hrun
    have hreduced : m.reduced = #[] ++ (Postfix.ofTokens ts).carried.toArray :=
      congrArg reduced (Except.ok.inj hrun)
    rw [hreduced, Array.empty_append, List.toList_toArray]

end Machine
end Abacus
