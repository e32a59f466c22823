import Abacus.Proofs.Accounting

/-! # The parenthesis that a fault names

Nested matching is told here by a grammar, without a stack. A parenthesis without a partner is one
that no nested part joins to a parenthesis of the other kind. The stack of open parentheses fails at
the first closing one without a partner, and in the end the last opening one lies on top of it.
-/
namespace Abacus

/-- The parentheses match in the usual nested sense. -/
inductive Nested : List Token → Prop where
  | nil : Nested []
  | other {t : Token} {ts : List Token} (ho : t.kind ≠ .leftParen) (hc : t.kind ≠ .rightParen)
      (h : Nested ts) : Nested (t :: ts)
  | group {opening closing : Token} {inner ts : List Token} (ho : opening.kind = .leftParen)
      (hc : closing.kind = .rightParen) (hi : Nested inner) (h : Nested ts) :
      Nested (opening :: inner ++ closing :: ts)

/-- Some parenthesis in `before` is the partner of a closing one that comes next. -/
def HasOpening (before : List Token) : Prop :=
  ∃ outside opening inner, before = outside ++ opening :: inner ∧ opening.kind = .leftParen ∧
    Nested inner

/-- Some parenthesis in `after` is the partner of an opening one just before. -/
def HasClosing (after : List Token) : Prop :=
  ∃ inner closing outside, after = inner ++ closing :: outside ∧ closing.kind = .rightParen ∧
    Nested inner

/-- `t` is a closing parenthesis of `ts` without a partner; it stands behind `before`. -/
def Unopened (ts before : List Token) (t : Token) : Prop :=
  ∃ after, ts = before ++ t :: after ∧ t.kind = .rightParen ∧ ¬ HasOpening before

/-- `t` is an opening parenthesis of `ts` without a partner; it stands behind `before`. -/
def Unclosed (ts before : List Token) (t : Token) : Prop :=
  ∃ after, ts = before ++ t :: after ∧ t.kind = .leftParen ∧ ¬ HasClosing after

variable {ts opens outer : List Token} {o t : Token}

theorem Nested.foldlM_nest (h : Nested ts) (opens : List Token) :
    ts.foldlM nest opens = .ok opens := by
  induction h generalizing opens with
  | nil => rfl
  | @other t ts ho hc _ ih =>
    have hother : nest opens t = .ok opens := nest_eq_ok_iff.mpr (.inl ⟨ho, hc, rfl⟩)
    exact bind_eq_ok_iff.mpr ⟨opens, hother, ih opens⟩
  | @group opening closing inner ts ho hc _ _ ihi ih =>
    have hopen : nest opens opening = .ok (opening :: opens) :=
      nest_eq_ok_iff.mpr (.inr (.inl ⟨ho, rfl⟩))
    have hclose : nest (opening :: opens) closing = .ok opens :=
      nest_eq_ok_iff.mpr (.inr (.inr ⟨hc, opening, rfl⟩))
    rw [List.foldlM_append]
    refine bind_eq_ok_iff.mpr ⟨opening :: opens, ?_, bind_eq_ok_iff.mpr ⟨opens, hclose, ih opens⟩⟩
    exact bind_eq_ok_iff.mpr ⟨opening :: opens, hopen, ihi (opening :: opens)⟩

theorem nest_append_cases {own mid : List Token} (h : nest (own ++ o :: outer) t = .ok mid) :
    (∃ own', mid = own' ++ o :: outer ∧ nest own t = .ok own') ∨
      own = [] ∧ t.kind = .rightParen ∧ mid = outer := by
  rcases nest_eq_ok_iff.mp h with ⟨ho, hc, rfl⟩ | ⟨ho, rfl⟩ | ⟨hc, p, hp⟩
  · exact .inl ⟨own, rfl, nest_eq_ok_iff.mpr (.inl ⟨ho, hc, rfl⟩)⟩
  · exact .inl ⟨t :: own, rfl, nest_eq_ok_iff.mpr (.inr (.inl ⟨ho, rfl⟩))⟩
  · cases own with
    | nil => exact .inr ⟨rfl, hc, (List.cons.inj hp).2.symm⟩
    | cons q own =>
      exact .inl ⟨own, (List.cons.inj hp).2.symm, nest_eq_ok_iff.mpr (.inr (.inr ⟨hc, q, rfl⟩))⟩

theorem exists_closing_of_foldlM_nest {own : List Token}
    (h : ts.foldlM nest (own ++ o :: outer) = .ok []) :
    ∃ inner closing rest, ts = inner ++ closing :: rest ∧ closing.kind = .rightParen ∧
      inner.foldlM nest own = .ok [] ∧ rest.foldlM nest outer = .ok [] := by
  induction ts generalizing own with
  | nil => simp [pure, Except.pure] at h
  | cons t ts ih =>
    obtain ⟨mid, ht, hts⟩ := bind_eq_ok_iff.mp h
    rcases nest_append_cases ht with ⟨own', rfl, hown⟩ | ⟨rfl, hc, rfl⟩
    · obtain ⟨inner, closing, rest, rfl, hc, hinner, hrest⟩ := ih hts
      exact ⟨t :: inner, closing, rest, rfl, hc, bind_eq_ok_iff.mpr ⟨own', hown, hinner⟩, hrest⟩
    · exact ⟨[], t, ts, rfl, hc, rfl, hts⟩

theorem nest_eq_append_cases {own mid : List Token} (h : nest mid t = .ok (own ++ o :: outer)) :
    (∃ own', mid = own' ++ o :: outer ∧ nest own' t = .ok own) ∨
      own = [] ∧ t.kind = .leftParen ∧ t = o ∧ mid = outer := by
  rcases nest_eq_ok_iff.mp h with ⟨ho, hc, rfl⟩ | ⟨ho, hp⟩ | ⟨hc, p, rfl⟩
  · exact .inl ⟨own, rfl, nest_eq_ok_iff.mpr (.inl ⟨ho, hc, rfl⟩)⟩
  · cases own with
    | nil =>
      obtain ⟨rfl, rfl⟩ := List.cons.inj hp
      exact .inr ⟨rfl, ho, rfl, rfl⟩
    | cons q own =>
      obtain ⟨rfl, rfl⟩ := List.cons.inj hp
      exact .inl ⟨own, rfl, nest_eq_ok_iff.mpr (.inr (.inl ⟨ho, rfl⟩))⟩
  · exact .inl ⟨p :: own, rfl, nest_eq_ok_iff.mpr (.inr (.inr ⟨hc, p, rfl⟩))⟩

theorem exists_opening_of_foldlM_nest {own : List Token}
    (h : ts.foldlM nest [] = .ok (own ++ o :: outer)) :
    ∃ outside inner, ts = outside ++ o :: inner ∧ o.kind = .leftParen ∧
      outside.foldlM nest [] = .ok outer ∧ inner.foldlM nest [] = .ok own := by
  induction ts using List.reverseRecOn generalizing own with
  | nil => simp [pure, Except.pure] at h
  | append_singleton ts t ih =>
    obtain ⟨mid, hts, ht⟩ := foldlM_nest_snoc.mp h
    rcases nest_eq_append_cases ht with ⟨own', rfl, hown⟩ | ⟨rfl, ho, rfl, rfl⟩
    · obtain ⟨outside, inner, rfl, ho, houtside, hinner⟩ := ih hts
      have hsnoc : (inner ++ [t]).foldlM nest [] = .ok own :=
        foldlM_nest_snoc.mpr ⟨own', hinner, hown⟩
      exact ⟨outside, inner ++ [t], by simp, ho, houtside, hsnoc⟩
    · exact ⟨ts, [], rfl, ho, hts, rfl⟩

/-- Matching by a stack is nested matching. -/
theorem nested_iff_balanced : Nested ts ↔ Balanced ts := by
  constructor
  · intro h
    exact h.foldlM_nest []
  · intro h
    induction hn : ts.length using Nat.strong_induction_on generalizing ts with
    | _ n ih =>
      cases ts with
      | nil => exact .nil
      | cons t ts =>
        obtain ⟨mid, ht, hts⟩ := bind_eq_ok_iff.mp h
        rcases nest_eq_ok_iff.mp ht with ⟨ho, hc, rfl⟩ | ⟨ho, rfl⟩ | ⟨-, _, hp⟩
        · exact .other ho hc (ih _ (by simp [← hn]) hts rfl)
        · obtain ⟨inner, closing, rest, rfl, hc, hinner, hrest⟩ :=
            @exists_closing_of_foldlM_nest _ _ _ [] hts
          simp only [List.length_cons, List.length_append] at hn
          exact .group ho hc (ih _ (by omega) hinner rfl) (ih _ (by omega) hrest rfl)
        · cases hp

instance (ts : List Token) : Decidable (Nested ts) := decidable_of_iff _ nested_iff_balanced.symm

/-- A closing parenthesis has a partner exactly where some parenthesis is open. -/
theorem hasOpening_iff (h : ts.foldlM nest [] = .ok opens) : HasOpening ts ↔ opens ≠ [] := by
  constructor
  · rintro ⟨outside, opening, inner, rfl, ho, hinner⟩ rfl
    rw [List.foldlM_append] at h
    obtain ⟨outer, houtside, hopening⟩ := bind_eq_ok_iff.mp h
    obtain ⟨mid, ht, hend⟩ := bind_eq_ok_iff.mp hopening
    rw [hinner.foldlM_nest] at hend
    cases hend
    rcases nest_eq_ok_iff.mp ht with ⟨hno, -, -⟩ | ⟨-, hnil⟩ | ⟨hc, -⟩
    · exact hno ho
    · cases hnil
    · rw [ho] at hc
      cases hc
  · intro hne
    obtain ⟨o, outer, rfl⟩ := List.exists_cons_of_ne_nil hne
    obtain ⟨outside, inner, rfl, ho, -, hinner⟩ := @exists_opening_of_foldlM_nest _ _ _ [] h
    exact ⟨outside, o, inner, rfl, ho, nested_iff_balanced.mpr hinner⟩

theorem Nested.not_hasClosing (h : Nested ts) : ¬ HasClosing ts := by
  rintro ⟨inner, closing, outside, rfl, hc, hinner⟩
  have hrun := h.foldlM_nest []
  have hfails : nest [] closing = .error closing := nest_eq_error_iff.mpr ⟨rfl, hc, rfl⟩
  rw [List.foldlM_append] at hrun
  obtain ⟨_, hmid, hrest⟩ := bind_eq_ok_iff.mp hrun
  rw [hinner.foldlM_nest] at hmid
  cases hmid
  obtain ⟨_, hclosing, -⟩ := bind_eq_ok_iff.mp hrest
  rw [hfails] at hclosing
  cases hclosing

theorem not_unopened_of_foldlM_nest (h : ts.foldlM nest [] = .ok opens) (before : List Token) :
    ¬ Unopened ts before t := by
  rintro ⟨after, rfl, hc, hopening⟩
  rw [List.foldlM_append] at h
  obtain ⟨outer, hbefore, hrest⟩ := bind_eq_ok_iff.mp h
  obtain ⟨_, ht, -⟩ := bind_eq_ok_iff.mp hrest
  rw [hasOpening_iff hbefore, not_not] at hopening
  have hfails := nest_eq_error_iff.mpr ⟨hopening, hc, rfl⟩
  rw [hfails] at ht
  cases ht

theorem Nested.not_unclosed (h : Nested ts) (before : List Token) : ¬ Unclosed ts before t := by
  rintro ⟨after, rfl, ho, hclosing⟩
  have hrun := h.foldlM_nest []
  rw [List.foldlM_append] at hrun
  obtain ⟨outer, -, hrest⟩ := bind_eq_ok_iff.mp hrun
  obtain ⟨_, ht, hafter⟩ := bind_eq_ok_iff.mp hrest
  rw [nest_eq_ok_iff.mpr (.inr (.inl ⟨ho, rfl⟩))] at ht
  cases ht
  obtain ⟨inner, closing, rest, rfl, hc, hinner, -⟩ :=
    @exists_closing_of_foldlM_nest _ _ _ [] hafter
  exact hclosing ⟨inner, closing, rest, rfl, hc, nested_iff_balanced.mpr hinner⟩

/-- All faults of an evaluation: an operator fails, the stack of open parentheses fails, one of them
is left open, or all match and the values are not one. -/
theorem evaluate_error_cases {f : Fault} (h : evaluate ts = .error f) :
    (f.cause = .missingOperand ∨ f.cause = .divisionByZero) ∨
      (∃ t, ts.foldlM nest [] = .error t ∧ f = .unmatchedClosing t.location) ∨
      (∃ t outer, ts.foldlM nest [] = .ok (t :: outer) ∧ f = .unclosedOpening t.location) ∨
        Balanced ts ∧ f.cause = .leftoverOperands := by
  rw [evaluate_eq_ofTokens] at h
  rcases bind_eq_error_iff.mp h with hexecute | ⟨values, -, hsettle⟩
  · obtain ⟨_, _, _, _, -, -, hi⟩ := foldlM_eq_error_iff.mp hexecute
    obtain ⟨q, -, rfl | ⟨_, _, -, -, rfl⟩⟩ := Instruction.perform_eq_error hi
    · exact .inl (.inl rfl)
    · exact .inl (.inr rfl)
  · rw [Postfix.ofTokens_ending] at hsettle
    refine .inr ?_
    rcases Ending.settle_ofNesting_eq_error hsettle with hclosing | hopening | ⟨hbalanced, -, rfl⟩
    · exact .inl hclosing
    · exact .inr (.inl hopening)
    · exact .inr (.inr ⟨hbalanced, rfl⟩)

/-- The stack fails at the first closing parenthesis without a partner. -/
theorem unopened_of_foldlM_nest_eq_error (h : ts.foldlM nest [] = .error t) :
    ∃ before, Unopened ts before t ∧ ∀ us u, Unopened ts us u → before.length ≤ us.length := by
  obtain ⟨before, u, after, opens, rfl, hbefore, ht⟩ := foldlM_eq_error_iff.mp h
  obtain ⟨rfl, hc, rfl⟩ := nest_eq_error_iff.mp ht
  refine ⟨before, ⟨after, rfl, hc, ?_⟩, ?_⟩
  · rw [hasOpening_iff hbefore, not_not]
  · rintro us u ⟨rest, hsplit, hu, hopening⟩
    rcases append_cons_cases hsplit with ⟨mid, rfl, -⟩ | ⟨rfl, -, -⟩ | ⟨mid, rfl, -⟩
    · exact absurd ⟨mid, rfl, hu, hopening⟩ (not_unopened_of_foldlM_nest hbefore us)
    · exact le_rfl
    · simp

/-- The parenthesis that lies on top of the stack in the end is the last opening one without a
partner. -/
theorem unclosed_of_foldlM_nest (h : ts.foldlM nest [] = .ok (t :: outer)) :
    ∃ before, Unclosed ts before t ∧ ∀ us u, Unclosed ts us u → us.length ≤ before.length := by
  obtain ⟨before, inner, rfl, ho, -, hinner⟩ := @exists_opening_of_foldlM_nest _ _ _ [] h
  have hnested := nested_iff_balanced.mpr hinner
  refine ⟨before, ⟨inner, rfl, ho, hnested.not_hasClosing⟩, ?_⟩
  rintro us u ⟨rest, hsplit, hu, hclosing⟩
  rcases append_cons_cases hsplit with ⟨mid, rfl, -⟩ | ⟨rfl, -, -⟩ | ⟨mid, rfl, rfl⟩
  · simp
  · exact le_rfl
  · exact absurd ⟨rest, rfl, hu, hclosing⟩ (hnested.not_unclosed mid)

/-- An unmatched closing parenthesis is blamed at the first one without a partner. An opening one is
blamed only where all closing ones have partners, and then it is the last one without. Parentheses
that do not match are always a fault: one of the two, unless an operator fails before. -/
theorem evaluate_blames_unmatched (ts : List Token) :
    (∀ l, evaluate ts = .error (.unmatchedClosing l) → ∃ before t, Unopened ts before t ∧
      (∀ us u, Unopened ts us u → before.length ≤ us.length) ∧ t.location = l) ∧
    (∀ l, evaluate ts = .error (.unclosedOpening l) → (∀ us u, ¬ Unopened ts us u) ∧
      ∃ before t, Unclosed ts before t ∧
        (∀ us u, Unclosed ts us u → us.length ≤ before.length) ∧ t.location = l) ∧
    (¬ Nested ts → ∃ f, evaluate ts = .error f ∧
      f.cause.code ∈ ["C004", "C005", "C006", "C009"]) := by
  refine ⟨fun l h => ?_, fun l h => ?_, fun h => ?_⟩
  · rcases evaluate_error_cases h with (hf | hf) | ⟨t, ht, hf⟩ | ⟨t, outer, -, hf⟩ | ⟨-, hf⟩ <;>
      cases hf
    obtain ⟨before, hunopened, hfirst⟩ := unopened_of_foldlM_nest_eq_error ht
    exact ⟨before, t, hunopened, hfirst, rfl⟩
  · rcases evaluate_error_cases h with (hf | hf) | ⟨t, -, hf⟩ | ⟨t, outer, ht, hf⟩ | ⟨-, hf⟩ <;>
      cases hf
    obtain ⟨before, hunclosed, hlast⟩ := unclosed_of_foldlM_nest ht
    exact ⟨fun us u => not_unopened_of_foldlM_nest ht us, before, t, hunclosed, hlast, rfl⟩
  · rw [nested_iff_balanced] at h
    cases hts : evaluate ts with
    | ok v => exact absurd (balanced_of_evaluate hts).1 h
    | error f =>
      refine ⟨f, rfl, ?_⟩
      rcases evaluate_error_cases hts with
        (hf | hf) | ⟨t, -, rfl⟩ | ⟨t, outer, -, rfl⟩ | ⟨hbalanced, -⟩
      · simp [hf, Cause.code]
      · simp [hf, Cause.code]
      · simp [Fault.cause, Cause.code]
      · simp [Fault.cause, Cause.code]
      · exact absurd hbalanced h

/-- The second of three closing parentheses, the second of three opening ones, and a division by zero
before a closing one. -/
theorem evaluate_blames_unmatched_second :
    let number (offset : Nat) (v : Int) : Token :=
      ⟨.number, Decimal.render v, some v, some (.ofOffset "<expression>" offset)⟩
    let opening (offset : Nat) : Token := .ofGlyph "<expression>" .leftParen ⟨'(', offset⟩
    let closing (offset : Nat) : Token := .ofGlyph "<expression>" .rightParen ⟨')', offset⟩
    let slash : Token := .ofGlyph "<expression>" (.operator .divide) ⟨'/', 1⟩
    let unopened : List Token := [opening 0, number 1 1, closing 2, closing 3, closing 4]
    let unclosed : List Token := [opening 0, opening 1, opening 2, number 3 1, closing 4]
    let divided : List Token := [number 0 1, slash, number 2 0, closing 3]
    (evaluate unopened = .error (.unmatchedClosing (closing 3).location) ∧
      ∃ before t, Unopened unopened before t ∧
        (∀ us u, Unopened unopened us u → before.length ≤ us.length) ∧
          t.location = (closing 3).location) ∧
    (evaluate unclosed = .error (.unclosedOpening (opening 1).location) ∧
      (∀ us u, ¬ Unopened unclosed us u) ∧ ∃ before t, Unclosed unclosed before t ∧
        (∀ us u, Unclosed unclosed us u → us.length ≤ before.length) ∧
          t.location = (opening 1).location) ∧
    ¬ Nested divided ∧ ∃ f, evaluate divided = .error f ∧
      f.cause.code ∈ ["C004", "C005", "C006", "C009"] := by
  intro number opening closing slash unopened unclosed divided
  have hunopened : evaluate unopened = .error (.unmatchedClosing (closing 3).location) := by
    decide +kernel
  have hunclosed : evaluate unclosed = .error (.unclosedOpening (opening 1).location) := by
    decide +kernel
  have hdivided : ¬ Nested divided := by decide +kernel
  exact ⟨⟨hunopened, (evaluate_blames_unmatched unopened).1 _ hunopened⟩,
    ⟨hunclosed, (evaluate_blames_unmatched unclosed).2.1 _ hunclosed⟩,
    hdivided, (evaluate_blames_unmatched divided).2.2 hdivided⟩

end Abacus
