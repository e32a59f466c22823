import Abacus.Proofs.Draining

/-! # The balance of an evaluation

What is left at the end can be counted from the tokens: every number adds a value and every operator
takes one away. So an evaluation that comes to its end has carried out each operator, and it is left
with one value more for each number and one less for each operator.
-/
namespace Abacus

def openings (ts : List Token) : Nat := ts.countP (·.kind = .leftParen)

def closings (ts : List Token) : Nat := ts.countP (·.kind = .rightParen)

theorem openings_append (ts us : List Token) : openings (ts ++ us) = openings ts + openings us :=
  List.countP_append

theorem closings_append (ts us : List Token) : closings (ts ++ us) = closings ts + closings us :=
  List.countP_append

/-- There are as many closing parentheses as opening ones, and up to no point are there more. -/
structure CountsMatch (ts : List Token) : Prop where
  closings_le : ∀ us vs, ts = us ++ vs → closings us ≤ openings us
  closings_eq : closings ts = openings ts

theorem length_nest {opens opens' : List Token} {t : Token} (h : nest opens t = .ok opens') :
    opens'.length + closings [t] = opens.length + openings [t] := by
  rcases nest_eq_ok_iff.mp h with ⟨ho, hc, rfl⟩ | ⟨ho, rfl⟩ | ⟨hc, o, rfl⟩
  · simp [closings, openings, ho, hc]
  · simp [closings, openings, ho]
  · simp [closings, openings, hc]

theorem length_foldlM_nest {ts opens opens' : List Token} (h : ts.foldlM nest opens = .ok opens') :
    opens'.length + closings ts = opens.length + openings ts := by
  induction ts generalizing opens with
  | nil =>
    cases h
    rfl
  | cons t ts ih =>
    obtain ⟨inner, ht, hts⟩ := bind_eq_ok_iff.mp h
    have hstep := length_nest ht
    have hrest := ih hts
    rw [← List.singleton_append, openings_append, closings_append]
    omega

/-- Parentheses match exactly if their counts do. -/
theorem balanced_iff_countsMatch {ts : List Token} : Balanced ts ↔ CountsMatch ts := by
  constructor
  · intro h
    refine ⟨fun us vs hts => ?_, ?_⟩
    · rw [Balanced, hts, List.foldlM_append] at h
      obtain ⟨opens, hus, -⟩ := bind_eq_ok_iff.mp h
      have hlength := length_foldlM_nest hus
      simp only [List.length_nil] at hlength
      omega
    · have hlength := length_foldlM_nest h
      simpa using hlength
  · intro h
    cases hnest : ts.foldlM nest [] with
    | ok opens =>
      have hlength := length_foldlM_nest hnest
      have htotal := h.closings_eq
      have hopens : opens = [] := by
        apply List.eq_nil_of_length_eq_zero
        simp only [List.length_nil] at hlength
        omega
      rw [Balanced, hnest, hopens]
    | error t =>
      obtain ⟨before, u, after, opens, rfl, hbefore, hu⟩ := foldlM_eq_error_iff.mp hnest
      obtain ⟨rfl, hkind, -⟩ := nest_eq_error_iff.mp hu
      have hlength := length_foldlM_nest hbefore
      have hle := h.closings_le (before ++ [u]) after (List.append_cons before u after)
      rw [closings_append, openings_append] at hle
      simp [closings, openings, hkind] at hle hlength
      omega

theorem Instruction.ne_nil_of_perform {i : Instruction} {values values' : List Int}
    (h : i.perform values = .ok values') : values' ≠ [] := by
  obtain ⟨t, -, rfl⟩ | ⟨q, right, left, rest, v, -, -, -, rfl⟩ := perform_eq_ok_iff.mp h
  · exact List.cons_ne_nil _ _
  · exact List.cons_ne_nil _ _

theorem eq_nil_of_execute {is : List Instruction} {values : List Int}
    (h : execute values is = .ok []) : values = [] ∧ is = [] := by
  induction is generalizing values with
  | nil =>
    cases h
    exact ⟨rfl, rfl⟩
  | cons i is ih =>
    obtain ⟨vs, hi, hvs⟩ := bind_eq_ok_iff.mp h
    exact absurd (ih hvs).1 (Instruction.ne_nil_of_perform hi)

theorem exists_execute_of_leftover {ts : List Token} {count : Int} {l : Option Location}
    (h : evaluate ts = .error (.leftoverOperands count l)) :
    Balanced ts ∧ ∃ values, execute [] (Postfix.ofTokens ts).instructions = .ok values ∧
      values.length ≠ 1 ∧ count = values.length := by
  rw [evaluate_eq_ofTokens] at h
  rcases bind_eq_error_iff.mp h with hexecute | ⟨values, hexecute, hsettle⟩
  · obtain ⟨_, i, _, _, -, -, hi⟩ := foldlM_eq_error_iff.mp hexecute
    obtain ⟨q, -, hf | ⟨_, _, -, -, hf⟩⟩ := Instruction.perform_eq_error hi <;> cases hf
  · rw [Postfix.ofTokens_ending] at hsettle
    rcases Ending.settle_ofNesting_eq_error hsettle with
      ⟨_, -, hf⟩ | ⟨_, _, -, hf⟩ | ⟨hbalanced, hlength, hf⟩ <;> cases hf
    exact ⟨hbalanced, values, hexecute, hlength, rfl⟩

/-- Nothing is left over only of nothing. -/
theorem counts_eq_zero_of_execute {ts : List Token} (h : Balanced ts)
    (hexecute : execute [] (Postfix.ofTokens ts).instructions = .ok []) :
    operands ts = 0 ∧ operators ts = 0 := by
  have hperforms := Postfix.performs_ofTokens h
  have hnone := (eq_nil_of_execute hexecute).2
  rw [← hperforms.countP_isPush, ← hperforms.countP_isReduce, hnone]
  exact ⟨rfl, rfl⟩

theorem evaluate_eq_ok_iff {ts : List Token} {v : Int} :
    evaluate ts = .ok v ↔ ∃ m, Machine.run ts = .ok (v, m) := by
  unfold evaluate
  cases Machine.run ts with
  | error e => simp
  | ok x =>
    obtain ⟨u, m⟩ := x
    simp

/-- An evaluation with a value has one number more than operators and has carried out each of these;
one with values left over counts and shows what the numbers and operators leave, which is never a
single value, and nothing only where there is neither number nor operator. In both cases the
parentheses match. -/
theorem evaluation_balance (ts : List Token) :
    (∀ v, evaluate ts = .ok v → operands ts = operators ts + 1 ∧ CountsMatch ts ∧
      ∃ m, Machine.run ts = .ok (v, m) ∧ m.reduced.size = operators ts) ∧
    ∀ count l, evaluate ts = .error (.leftoverOperands count l) → CountsMatch ts ∧
      count = (operands ts : Int) - operators ts ∧ count ≠ 1 ∧
      (count = 0 ↔ operands ts = 0 ∧ operators ts = 0) ∧
      (Fault.leftoverOperands count l).message =
        if operands ts = 0 ∧ operators ts = 0 then "Expression has no value"
        else "Expression reduces to " ++ Decimal.render ((operands ts : Int) - operators ts) ++
          " values instead of one" := by
  constructor
  · intro v h
    obtain ⟨hbalanced, hcount⟩ := balanced_of_evaluate h
    obtain ⟨m, hrun⟩ := evaluate_eq_ok_iff.mp h
    refine ⟨hcount, balanced_iff_countsMatch.mp hbalanced, m, hrun, ?_⟩
    rw [← Array.length_toList, Machine.reduced_of_run hrun hbalanced, Postfix.length_carried]
    exact (Postfix.performs_ofTokens hbalanced).countP_isReduce
  · intro count l h
    obtain ⟨hbalanced, values, hexecute, hone, rfl⟩ := exists_execute_of_leftover h
    have hlength := Postfix.length_execute_ofTokens hbalanced hexecute
    have hcount : (values.length : Int) = (operands ts : Int) - operators ts := by omega
    have hzero : (values.length : Int) = 0 ↔ operands ts = 0 ∧ operators ts = 0 := by
      constructor
      · intro hnone
        apply counts_eq_zero_of_execute hbalanced
        obtain rfl : values = [] := List.eq_nil_of_length_eq_zero (by omega)
        exact hexecute
      · omega
    refine ⟨balanced_iff_countsMatch.mp hbalanced, hcount, by omega, hzero, ?_⟩
    rw [← hcount]
    exact if_congr hzero rfl rfl

/-- One sequence with a value, and one that two values are left over of. -/
theorem evaluation_balance_groups :
    let four : Token := ⟨.number, "4", some 4, none⟩
    let one : Token := ⟨.number, "1", some 1, none⟩
    let minus : Token := ⟨.operator .minus, "-", none, none⟩
    let opening : Token := ⟨.leftParen, "(", none, none⟩
    let closing : Token := ⟨.rightParen, ")", none, none⟩
    let joined : List Token := [opening, four, minus, one, closing, minus, one]
    let apart : List Token := [opening, four, closing, opening, four, minus, one, closing]
    (evaluate joined = .ok 2 ∧ CountsMatch joined ∧
      ∃ m, Machine.run joined = .ok (2, m) ∧ m.reduced.size = 2) ∧
    evaluate apart = .error (.leftoverOperands 2 none) ∧ CountsMatch apart ∧
      (operands apart : Int) - operators apart = 2 ∧
      (Fault.leftoverOperands 2 none).message =
        "Expression reduces to 2 values instead of one" := by
  intro four one minus opening closing joined apart
  have hjoined : evaluate joined = .ok 2 := by decide +kernel
  have hapart : evaluate apart = .error (.leftoverOperands 2 none) := by decide +kernel
  obtain ⟨-, hmatch, hrun⟩ := (evaluation_balance joined).1 2 hjoined
  obtain ⟨hmatch', hcount, -, -, hmessage⟩ := (evaluation_balance apart).2 2 none hapart
  have hshown : "Expression reduces to " ++ Decimal.render 2 ++ " values instead of one" =
      "Expression reduces to 2 values instead of one" := by decide +kernel
  rw [← hcount] at hmessage
  exact ⟨⟨hjoined, hmatch, hrun⟩, hapart, hmatch', hcount.symm, hmessage.trans hshown⟩

end Abacus
