import Abacus.Proofs.Draining

/-! # Groups and what lies below them

A group that has a value on its own has it everywhere: it leaves the values below it alone, and in
its place a number will do. A group that lacks an operand on its own takes one from below, if there
is one, because operands are not kept apart by groups; nothing else goes beyond a group.
-/
namespace Abacus

theorem Instruction.perform_append {i : Instruction} {values values' : List Int}
    (h : i.perform values = .ok values') (below : List Int) :
    i.perform (values ++ below) = .ok (values' ++ below) := by
  apply perform_eq_ok_iff.mpr
  obtain ⟨t, rfl, rfl⟩ | ⟨q, right, left, rest, v, rfl, rfl, hv, rfl⟩ := perform_eq_ok_iff.mp h
  · exact .inl ⟨t, rfl, rfl⟩
  · exact .inr ⟨q, right, left, rest ++ below, v, rfl, rfl, hv, rfl⟩

theorem execute_append_values {is : List Instruction} {values values' : List Int}
    (h : execute values is = .ok values') (below : List Int) :
    execute (values ++ below) is = .ok (values' ++ below) := by
  induction is generalizing values with
  | nil =>
    cases h
    rfl
  | cons i is ih =>
    obtain ⟨vs, hi, hvs⟩ := bind_eq_ok_iff.mp h
    exact bind_eq_ok_iff.mpr ⟨_, Instruction.perform_append hi below, ih hvs⟩

/-- On its own an instruction lacks operands, or it does the same without the values below. -/
theorem Instruction.perform_append_cases {i : Instruction} {own below values : List Int}
    (h : i.perform (own ++ below) = .ok values) :
    (∃ own', i.perform own = .ok own' ∧ values = own' ++ below) ∨
      ∃ f, i.perform own = .error f ∧ f.cause = .missingOperand := by
  cases hown : i.perform own with
  | ok own' =>
    rw [perform_append hown] at h
    cases h
    exact .inl ⟨own', rfl, rfl⟩
  | error f =>
    obtain ⟨q, rfl, rfl | ⟨dividend, rest, rfl, hop, rfl⟩⟩ := perform_eq_error hown
    · exact .inr ⟨_, rfl, rfl⟩
    · rw [List.cons_append, List.cons_append, perform,
        Operator.compute?_eq_none_iff.mpr ⟨hop, rfl⟩] at h
      cases h

theorem execute_append_cases {is : List Instruction} {own below values : List Int}
    (h : execute (own ++ below) is = .ok values) :
    (∃ own', execute own is = .ok own' ∧ values = own' ++ below) ∨
      ∃ f, execute own is = .error f ∧ f.cause = .missingOperand := by
  induction is generalizing own with
  | nil =>
    cases h
    exact .inl ⟨own, rfl, rfl⟩
  | cons i is ih =>
    obtain ⟨vs, hi, hvs⟩ := bind_eq_ok_iff.mp h
    rcases Instruction.perform_append_cases hi with ⟨own', hown, rfl⟩ | ⟨f, hf, hcause⟩
    · rcases ih hvs with ⟨own'', hrest, rfl⟩ | ⟨f, hf, hcause⟩
      · exact .inl ⟨own'', bind_eq_ok_iff.mpr ⟨own', hown, hrest⟩, rfl⟩
      · exact .inr ⟨f, bind_eq_error_iff.mpr (.inr ⟨own', hown, hf⟩), hcause⟩
    · exact .inr ⟨f, bind_eq_error_iff.mpr (.inl hf), hcause⟩

theorem Instruction.lacks_operand_iff {i : Instruction} {values : List Int} :
    (∃ f, i.perform values = .error f ∧ f.cause = .missingOperand) ↔
      ∃ q, i = .reduce q ∧ values.length < 2 := by
  cases i with
  | push t => simp [perform]
  | reduce p =>
    rcases values with _ | ⟨right, _ | ⟨left, rest⟩⟩
    · simp [perform, Fault.cause]
    · simp [perform, Fault.cause]
    · rw [perform]
      cases p.operator.compute? left right <;> simp [Fault.cause]

namespace Postfix

/-- The program carries an operator out where fewer than two values lie above `values`, and so on a
value that was there before. -/
def DrawsOn (p : Postfix) (values : List Int) : Prop :=
  ∃ before q after reached, p.instructions = before ++ .reduce q :: after ∧
    execute values before = .ok reached ∧ reached.length < values.length + 2

/-- A program that succeeds draws on the values below it exactly if it lacks operands without
them. -/
theorem drawsOn_iff {p : Postfix} {values values' : List Int}
    (h : execute values p.instructions = .ok values') :
    p.DrawsOn values ↔ ∃ f, execute [] p.instructions = .error f ∧ f.cause = .missingOperand := by
  constructor
  · rintro ⟨before, q, after, reached, hsplit, hbefore, hlength⟩
    rcases @execute_append_cases _ [] _ _ h with ⟨own, hown, -⟩ | hlacks
    · rw [hsplit, execute_append] at hown
      obtain ⟨vs, hvs, hrest⟩ := bind_eq_ok_iff.mp hown
      obtain ⟨ws, hws, -⟩ := bind_eq_ok_iff.mp hrest
      have hreached : reached = vs ++ values := by
        have hover := execute_append_values hvs values
        rw [List.nil_append, hbefore] at hover
        exact Except.ok.inj hover
      have hshort : vs.length < 2 := by
        rw [hreached, List.length_append] at hlength
        omega
      obtain ⟨f, hf, -⟩ := Instruction.lacks_operand_iff.mpr ⟨q, rfl, hshort⟩
      rw [hf] at hws
      cases hws
    · exact hlacks
  · rintro ⟨f, hf, hcause⟩
    obtain ⟨before, i, after, vs, hsplit, hbefore, hi⟩ := foldlM_eq_error_iff.mp hf
    obtain ⟨q, rfl, hshort⟩ := Instruction.lacks_operand_iff.mp ⟨f, hi, hcause⟩
    refine ⟨before, q, after, vs ++ values, hsplit, execute_append_values hbefore values, ?_⟩
    rw [List.length_append]
    omega

/-- At its end a program never lacks operands. -/
theorem evaluate_lacks_operand_iff {p : Postfix} :
    (∃ f, p.evaluate = .error f ∧ f.cause = .missingOperand) ↔
      ∃ f, execute [] p.instructions = .error f ∧ f.cause = .missingOperand := by
  constructor
  · rintro ⟨f, hf, hcause⟩
    rcases bind_eq_error_iff.mp hf with hexecute | ⟨values, -, hsettle⟩
    · exact ⟨f, hexecute, hcause⟩
    · cases hending : p.ending with
      | unmatchedClosing l | unclosedOpening l =>
        rw [hending] at hsettle
        cases hsettle
        cases hcause
      | singleValue last =>
        rw [hending] at hsettle
        rcases values with _ | ⟨v, _ | ⟨u, rest⟩⟩ <;> cases hsettle <;> cases hcause
  · rintro ⟨f, hf, hcause⟩
    exact ⟨f, bind_eq_error_iff.mpr (.inl hf), hcause⟩

end Postfix

/-- Whatever the machine has read before a group, it comes back from it to the operators and groups
that waited there. The group takes an operand from before it exactly if it lacks one when it is
evaluated on its own; otherwise all values from before are left below those of the group. -/
theorem group_isolated_unless_lacking {inner : List Token} {opening closing : Token}
    (ho : opening.kind = .leftParen) (hc : closing.kind = .rightParen) (h : Balanced inner)
    {m n : Machine} (hrun : (opening :: inner ++ [closing]).foldlM Machine.step m = .ok n) :
    n.pending = m.pending ∧ n.groups = m.groups ∧
      execute m.values (Postfix.ofTokens inner).instructions = .ok n.values ∧
      ((Postfix.ofTokens inner).DrawsOn m.values ↔
        ∃ f, evaluate inner = .error f ∧ f.cause = .missingOperand) ∧
      (¬ (Postfix.ofTokens inner).DrawsOn m.values → m.values <:+ n.values) := by
  have hgroup := Machine.outcome_group ho hc h m
  rw [hrun] at hgroup
  cases hexecute : execute m.values (Postfix.ofTokens inner).instructions with
  | error f => rw [hexecute] at hgroup; cases hgroup
  | ok values =>
    rw [hexecute] at hgroup
    cases hgroup
    refine ⟨rfl, rfl, rfl, ?_, fun hdraws => ?_⟩
    · rw [Postfix.drawsOn_iff hexecute, evaluate_eq_ofTokens, Postfix.evaluate_lacks_operand_iff]
    · rw [Postfix.drawsOn_iff hexecute] at hdraws
      rcases @execute_append_cases _ [] _ _ hexecute with ⟨own, -, hvalues⟩ | hlacks
      · exact ⟨own, hvalues.symm⟩
      · exact absurd hlacks hdraws

theorem group_isolated_unless_lacking_difference :
    let times : Token := ⟨.operator .times, "*", none, some (.ofOffset "<expression>" 1)⟩
    let opening : Token := ⟨.leftParen, "(", none, some (.ofOffset "<expression>" 2)⟩
    let inner : List Token := [⟨.number, "7", some 7, some (.ofOffset "<expression>" 3)⟩,
      ⟨.operator .minus, "-", none, some (.ofOffset "<expression>" 4)⟩,
      ⟨.number, "3", some 3, some (.ofOffset "<expression>" 5)⟩]
    let closing : Token := ⟨.rightParen, ")", none, some (.ofOffset "<expression>" 6)⟩
    let m : Machine := { values := [2], pending := [⟨.times, times⟩] }
    ∃ n, (opening :: inner ++ [closing]).foldlM Machine.step m = .ok n ∧
      n.values = [4, 2] ∧ n.pending = m.pending ∧
      ¬ (∃ f, evaluate inner = .error f ∧ f.cause = .missingOperand) ∧
      ¬ (Postfix.ofTokens inner).DrawsOn m.values := by
  intro times opening inner closing m
  have hvalue : evaluate inner = .ok 4 := by decide +kernel
  have halone : ¬ ∃ f, evaluate inner = .error f ∧ f.cause = .missingOperand := by
    rintro ⟨f, hf, -⟩
    rw [hvalue] at hf
    cases hf
  obtain ⟨hpending, -, -, hdraws, -⟩ :=
    @group_isolated_unless_lacking inner opening closing rfl rfl (by decide) m _ rfl
  exact ⟨_, rfl, rfl, hpending, halone, mt hdraws.mp halone⟩

/-- The subtraction in the group lacks an operand and takes the one before the group. -/
theorem group_takes_value_from_before :
    ∃ pre opening inner closing m n,
      tokenize "<expression>" "5(3-)" = .ok (pre ++ opening :: inner ++ [closing]) ∧
      opening.kind = .leftParen ∧ closing.kind = .rightParen ∧ Balanced inner ∧
      pre.foldlM Machine.step {} = .ok m ∧
      (opening :: inner ++ [closing]).foldlM Machine.step m = .ok n ∧
      m.values = [5] ∧ n.values = [2] ∧ ¬ m.values <:+ n.values := by
  refine ⟨[⟨.number, "5", some 5, some (.ofOffset "<expression>" 0)⟩],
    ⟨.leftParen, "(", none, some (.ofOffset "<expression>" 1)⟩,
    [⟨.number, "3", some 3, some (.ofOffset "<expression>" 2)⟩,
      ⟨.operator .minus, "-", none, some (.ofOffset "<expression>" 3)⟩],
    ⟨.rightParen, ")", none, some (.ofOffset "<expression>" 4)⟩, _, _, by decide +kernel, rfl, rfl,
    by decide, rfl, rfl, rfl, rfl, by decide⟩

theorem evaluate_append (pre rest : List Token) :
    evaluate (pre ++ rest) = outcome (pre.foldlM Machine.step {}) >>= fun m =>
      (Postfix.translate ((pre ++ rest).getLast?.bind (·.location)) m.waiting rest).run
        m.values := by
  rw [Machine.evaluate_eq_outcome, Machine.run, List.foldlM_append, bind_assoc, outcome_bind,
    map_bind]
  simp only [Machine.outcome_rest]

theorem outcome_group_of_value {group : List Token} {opening closing : Token} {v : Int}
    (ho : opening.kind = .leftParen) (hc : closing.kind = .rightParen) (h : evaluate group = .ok v)
    (m : Machine) :
    outcome ((opening :: group ++ [closing]).foldlM Machine.step m) = .ok { m with
      values := v :: m.values
      reduced := m.reduced ++ (Postfix.ofTokens group).carried.toArray } := by
  obtain ⟨hbalanced, hexecute⟩ := execute_of_evaluate h
  have hbelow : execute m.values (Postfix.ofTokens group).instructions = .ok (v :: m.values) :=
    execute_append_values hexecute m.values
  rw [Machine.outcome_group ho hc hbalanced, hbelow]
  rfl

/-- Where no more tokens come, the place of the last one is told if values are left over, and is
used for nothing else. -/
theorem Postfix.run_translate_nil (k l : Option Location) (stack : List Waiting)
    (values : List Int) :
    EndAlike (fun f g => f = g ∨
        ∃ count, f = .leftoverOperands count k ∧ g = .leftoverOperands count l) Eq
      ((translate k stack []).run values) ((translate l stack []).run values) := by
  rw [translate, translate, run, run]
  cases execute values _ with
  | error f => exact .error (.inl rfl)
  | ok values =>
    rcases unwind_always_cases stack with hu | ⟨t, outer, hu⟩
    · simp only [hu]
      rcases values with _ | ⟨v, _ | ⟨u, rest⟩⟩
      · exact .error (.inr ⟨_, rfl, rfl⟩)
      · exact .ok rfl
      · exact .error (.inr ⟨_, rfl, rfl⟩)
    · simp only [hu]
      exact .error (.inl rfl)

/-- A group that has a value can be replaced by a number of that value among any tokens. Only where
the group comes last, a fault that counts the values left over is found at another token. -/
theorem evaluate_group_as_number {pre group post : List Token} {opening closing number : Token}
    {v : Int} (ho : opening.kind = .leftParen) (hc : closing.kind = .rightParen)
    (hn : number.kind = .number) (hv : number.value = some v) (h : evaluate group = .ok v) :
    EndAlike (fun f g => f = g ∨ post = [] ∧ ∃ count,
        f = .leftoverOperands count closing.location ∧
          g = .leftoverOperands count number.location) Eq
      (evaluate (pre ++ opening :: group ++ closing :: post))
      (evaluate (pre ++ number :: post)) := by
  have hgroup := outcome_group_of_value ho hc h
  have hnumber (m : Machine) : outcome ([number].foldlM Machine.step m) = .ok (m.push v) := by
    rw [List.foldlM_cons, Machine.step, hn, hv]
    rfl
  rw [List.append_cons _ closing, List.append_assoc pre, List.append_cons pre, evaluate_append,
    evaluate_append, List.foldlM_append, List.foldlM_append, outcome_bind, outcome_bind]
  cases outcome (pre.foldlM Machine.step {}) with
  | error f => exact .error (.inl rfl)
  | ok m =>
    change EndAlike _ _ ((outcome ((opening :: group ++ [closing]).foldlM Machine.step m)) >>= _)
      (outcome ([number].foldlM Machine.step m) >>= _)
    rw [hgroup, hnumber]
    change EndAlike _ _ ((Postfix.translate _ m.waiting post).run (v :: m.values))
      ((Postfix.translate _ m.waiting post).run (v :: m.values))
    cases post with
    | nil =>
      have hend : (pre ++ (opening :: group ++ [closing]) ++ []).getLast? = some closing := by
        rw [List.append_nil, ← List.append_assoc, List.getLast?_concat]
      rw [hend, List.append_nil, List.getLast?_concat]
      refine (Postfix.run_translate_nil _ _ m.waiting (v :: m.values)).mono ?_ fun _ _ => id
      exact fun f g hfg => hfg.imp_right fun hcount => ⟨rfl, hcount⟩
    | cons t ts =>
      have hend (us : List Token) : (us ++ t :: ts).getLast? = (t :: ts).getLast? :=
        List.getLast?_append_of_ne_nil us (List.cons_ne_nil t ts)
      rw [hend, hend]
      exact .refl (fun f => .inl rfl) (fun _ => rfl) _

/-- Two values are left over, and the last token is another one. -/
theorem evaluate_group_as_number_last :
    let seven : Token := ⟨.number, "7", some 7, some (.ofOffset "<expression>" 0)⟩
    let opening : Token := ⟨.leftParen, "(", none, some (.ofOffset "<expression>" 1)⟩
    let group : List Token := [⟨.number, "5", some 5, some (.ofOffset "<expression>" 2)⟩,
      ⟨.operator .minus, "-", none, some (.ofOffset "<expression>" 3)⟩,
      ⟨.number, "2", some 2, some (.ofOffset "<expression>" 4)⟩]
    let closing : Token := ⟨.rightParen, ")", none, some (.ofOffset "<expression>" 5)⟩
    let three : Token := ⟨.number, "3", some 3, some (.ofOffset "<expression>" 1)⟩
    evaluate group = .ok 3 ∧
      evaluate ([seven] ++ opening :: group ++ [closing]) =
        .error (.leftoverOperands 2 closing.location) ∧
      EndAlike (fun f g => f = g ∨ [] = ([] : List Token) ∧ ∃ count,
          f = .leftoverOperands count closing.location ∧
            g = .leftoverOperands count three.location) Eq
        (evaluate ([seven] ++ opening :: group ++ [closing])) (evaluate ([seven] ++ [three])) := by
  intro seven opening group closing three
  have hvalue : evaluate group = .ok 3 := by decide +kernel
  exact ⟨hvalue, by decide +kernel, evaluate_group_as_number rfl rfl rfl rfl hvalue⟩

end Abacus
