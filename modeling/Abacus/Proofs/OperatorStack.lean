import Abacus.Proofs.Breakdown
import Abacus.Proofs.Parentheses

/-! # The shape of the stack of operators

A step only changes the top of the stack on which operators and open parentheses wait. An operator
comes to lie on a parenthesis or on an operator that binds less tightly, because all others above
the last parenthesis were due. As there are two levels, at most two operators wait in a group, and
the open groups bound the height of the stack. Its parentheses are those that have no partner yet.
-/
namespace Abacus

theorem hasClosing_iff_exists_lt {after : List Token} :
    HasClosing after ↔ ∃ i < after.length,
      after[i]?.any (·.kind = .rightParen) = true ∧ Nested (after.take i) := by
  constructor
  · rintro ⟨inner, closing, outside, rfl, hc, hinner⟩
    refine ⟨inner.length, by simp, ?_, ?_⟩
    · simpa using hc
    · simpa using hinner
  · rintro ⟨i, hi, hc, hinner⟩
    rw [List.getElem?_eq_getElem hi] at hc
    exact ⟨after.take i, after[i], after.drop (i + 1), by simp, by simpa using hc, hinner⟩

instance (after : List Token) : Decidable (HasClosing after) :=
  decidable_of_iff _ hasClosing_iff_exists_lt.symm

/-- The opening parentheses of a sequence that have no partner in it, in their order. -/
def unclosed : List Token → List Token
  | [] => []
  | t :: ts => if t.kind = .leftParen ∧ ¬ HasClosing ts then t :: unclosed ts else unclosed ts

theorem unclosed_eq_nil {ts : List Token} (h : ∀ before t, ¬ Unclosed ts before t) :
    unclosed ts = [] := by
  induction ts with
  | nil => rfl
  | cons t ts ih =>
    have hhead : ¬ (t.kind = .leftParen ∧ ¬ HasClosing ts) := fun ht => h [] t ⟨ts, rfl, ht⟩
    rw [unclosed, if_neg hhead]
    apply ih
    rintro before u ⟨after, rfl, hu⟩
    exact h (t :: before) u ⟨after, rfl, hu⟩

section
variable {o : Token} {inner : List Token} (ho : o.kind = .leftParen) (hinner : Nested inner)
include ho hinner

theorem hasClosing_append_iff {rest : List Token} :
    HasClosing (rest ++ o :: inner) ↔ HasClosing rest := by
  constructor
  · rintro ⟨nested, closing, outside, hsplit, hc, hnested⟩
    rcases append_cons_cases hsplit with ⟨mid, rfl, -⟩ | ⟨-, rfl, -⟩ | ⟨mid, rfl, rfl⟩
    · exact ⟨nested, closing, mid, rfl, hc, hnested⟩
    · rw [ho] at hc
      cases hc
    · have hpartner : HasClosing mid := by
        by_contra hnone
        exact hnested.not_unclosed rest ⟨mid, rfl, ho, hnone⟩
      obtain ⟨first, partner, second, rfl, hp, hfirst⟩ := hpartner
      exact absurd ⟨first, partner, second ++ closing :: outside, by simp, hp, hfirst⟩
        hinner.not_hasClosing
  · rintro ⟨nested, closing, outside, rfl, hc, hnested⟩
    exact ⟨nested, closing, outside ++ o :: inner, by simp, hc, hnested⟩

theorem unclosed_append (before : List Token) :
    unclosed (before ++ o :: inner) = unclosed before ++ [o] := by
  induction before with
  | nil =>
    have hnone : unclosed inner = [] := unclosed_eq_nil fun before _ => hinner.not_unclosed before
    simp [unclosed, ho, hinner.not_hasClosing, hnone]
  | cons t before ih =>
    simp only [List.cons_append, unclosed, hasClosing_append_iff ho hinner, ih]
    split <;> rfl

end

/-- The parentheses that are open in the end are those without a partner. -/
theorem unclosed_eq_reverse {ts opens : List Token} (h : ts.foldlM nest [] = .ok opens) :
    unclosed ts = opens.reverse := by
  induction opens generalizing ts with
  | nil =>
    have hnested : Nested ts := nested_iff_balanced.mpr h
    exact unclosed_eq_nil fun before _ => hnested.not_unclosed before
  | cons o outer ih =>
    obtain ⟨before, inner, rfl, ho, hbefore, hinner⟩ := @exists_opening_of_foldlM_nest _ _ _ [] h
    rw [unclosed_append ho (nested_iff_balanced.mpr hinner), ih hbefore, List.reverse_cons]

theorem not_due_of_unwind {due : Operator → Bool} {stack rest : List Waiting} {p : Pending}
    (h : (unwind due stack).2 = .operator p :: rest) : due p.operator = false := by
  induction stack with
  | nil => cases h
  | cons w stack ih =>
    cases w with
    | opening t => cases h
    | operator q =>
      rw [unwind] at h
      by_cases hq : due q.operator = true
      · rw [if_pos hq] at h
        exact ih h
      · rw [if_neg hq] at h
        cases h
        exact Bool.eq_false_iff.mpr hq

namespace Machine

variable {m n : Machine} {t : Token}

theorem exists_carriedOut_of_reduceAll {ps : List Pending} (h : m.reduceAll ps = .ok n) :
    ∃ values, n = m.carriedOut ps values := by
  have houtcome := outcome_reduceAll m ps
  rw [h] at houtcome
  cases hvalues : execute m.values (ps.map .reduce) with
  | error f => rw [hvalues] at houtcome; cases houtcome
  | ok values =>
    rw [hvalues] at houtcome
    exact ⟨values, Except.ok.inj houtcome⟩

/-- All that a step does to what waits, where it does not fail. -/
theorem waiting_cases (h : m.step t = .ok n) :
    (t.kind = .number ∧ n.waiting = m.waiting) ∨
      (∃ op, t.kind = .operator op ∧
        n.waiting = .operator ⟨op, t⟩ :: (unwind op.yieldsTo m.waiting).2) ∨
      (t.kind = .leftParen ∧ n.waiting = .opening t :: m.waiting) ∨
      t.kind = .rightParen ∧ ∃ o,
        (unwind Operator.always m.waiting).2 = .opening o :: n.waiting := by
  rw [step] at h
  cases hk : t.kind with
  | number =>
    rw [hk] at h
    cases h
    exact .inl ⟨rfl, rfl⟩
  | operator op =>
    rw [hk] at h
    obtain ⟨u, hu, hn⟩ := bind_eq_ok_iff.mp h
    obtain ⟨values, rfl⟩ := exists_carriedOut_of_reduceAll hu
    cases hn
    refine .inr (.inl ⟨op, rfl, ?_⟩)
    rw [unwind_waiting]
    rfl
  | leftParen =>
    rw [hk] at h
    cases h
    exact .inr (.inr (.inl ⟨rfl, rfl⟩))
  | rightParen =>
    rw [hk] at h
    obtain ⟨u, hu, hn⟩ := bind_eq_ok_iff.mp h
    obtain ⟨values, rfl⟩ := exists_carriedOut_of_reduceAll hu
    refine .inr (.inr (.inr ⟨rfl, ?_⟩))
    rw [unwind_always]
    rcases m with ⟨_, _, _ | ⟨g, groups⟩, _⟩
    · cases hn
    · cases hn
      exact ⟨g.opening, rfl⟩

/-- The machine laid out on bare stacks. -/
def bare (m : Machine) : Stacks := ⟨m.values, m.waiting.map Waiting.token⟩

/-- On bare stacks a step does what it does in the machine. -/
theorem bare_step (h : ∀ w ∈ m.waiting, w.Sound)
    (ht : t.kind = .number → t.value.isSome = true) :
    m.bare.step t = bare <$> (outcome (m.step t)).mapError .fault := by
  rw [Stacks.step, step]
  cases hk : t.kind with
  | number =>
    obtain ⟨v, hv⟩ := Option.isSome_iff_exists.mp (ht hk)
    rw [hv]
    rfl
  | operator op =>
    have hcarry := Stacks.carryOut_await h hk m.values
    rw [unwind_waiting] at hcarry
    dsimp only
    rw [Stacks.await, bare, hcarry, outcome_await]
    cases execute m.values _ <;> rfl
  | leftParen => rfl
  | rightParen =>
    have hcarry := Stacks.carryOut_group h m.values
    rw [unwind_always] at hcarry
    dsimp only
    rw [Stacks.closeGroup, bare, hcarry, outcome_closeGroup]
    cases execute m.values _ with
    | error f => rfl
    | ok values =>
      rcases m with ⟨_, _, _ | ⟨g, groups⟩, _⟩ <;> rfl

theorem nest_openings_of_step (h : m.step t = .ok n) :
    nest (Waiting.openings m.waiting) t = .ok (Waiting.openings n.waiting) := by
  rw [nest_eq_ok_iff]
  rcases waiting_cases h with ⟨hk, hn⟩ | ⟨op, hk, hn⟩ | ⟨hk, hn⟩ | ⟨hk, o, hn⟩
  · rw [hn, hk]
    exact .inl ⟨by simp, by simp, rfl⟩
  · rw [hn, hk]
    exact .inl ⟨by simp, by simp, openings_unwind op.yieldsTo m.waiting⟩
  · rw [hn]
    exact .inr (.inl ⟨hk, rfl⟩)
  · have hopenings := openings_unwind Operator.always m.waiting
    rw [hn] at hopenings
    exact .inr (.inr ⟨hk, o, hopenings.symm⟩)

end Machine

namespace Waiting

def level : Waiting → Nat
  | operator p => p.operator.precedence.level
  | opening _ => 0

def topLevel : List Waiting → Nat
  | [] => 0
  | w :: _ => w.level

/-- A stack on which every operator binds more tightly than what it lies on. The tokens are those of
operators and of opening parentheses. -/
inductive Layered : List Waiting → Prop where
  | nil : Layered []
  | opening {t : Token} {stack : List Waiting} (ht : t.kind = .leftParen) (h : Layered stack) :
      Layered (opening t :: stack)
  | operator {p : Pending} {stack : List Waiting} (hp : p.token.kind = .operator p.operator)
      (hlevel : topLevel stack < p.operator.precedence.level) (h : Layered stack) :
      Layered (operator p :: stack)

end Waiting

theorem Operator.level_pos (op : Operator) : 0 < op.precedence.level := by
  cases op <;> decide

theorem Operator.level_le_two (op : Operator) : op.precedence.level ≤ 2 := by
  cases op <;> decide

namespace Waiting.Layered

variable {stack above below : List Waiting}

theorem of_append_right (h : Layered (above ++ below)) : Layered below := by
  induction above with
  | nil => exact h
  | cons w above ih =>
    cases h with
    | opening _ h | operator _ _ h => exact ih h

theorem of_append_left (h : Layered (above ++ below)) : Layered above := by
  induction above with
  | nil => exact .nil
  | cons w above ih =>
    cases h with
    | opening ht h => exact .opening ht (ih h)
    | operator hp hlevel h =>
      refine .operator hp (lt_of_le_of_lt ?_ hlevel) (ih h)
      cases above with
      | nil => exact Nat.zero_le _
      | cons v above => exact le_rfl

theorem of_infix (h : Layered stack) {part : List Waiting} (hpart : part <:+: stack) :
    Layered part := by
  obtain ⟨above, below, rfl⟩ := hpart
  exact h.of_append_left.of_append_right

theorem await (h : Layered stack) {op : Operator} {t : Token} (ht : t.kind = .operator op) :
    Layered (.operator ⟨op, t⟩ :: (unwind op.yieldsTo stack).2) := by
  refine .operator ht ?_ (h.of_infix (unwind_suffix op.yieldsTo stack).isInfix)
  cases hrest : (unwind op.yieldsTo stack).2 with
  | nil => exact op.level_pos
  | cons w rest =>
    cases w with
    | opening o => exact op.level_pos
    | operator p =>
      have hyields := not_due_of_unwind hrest
      rw [Operator.yieldsTo, decide_eq_false_iff_not, not_le] at hyields
      exact hyields

theorem topLevel_le_two (h : Layered stack) : topLevel stack ≤ 2 := by
  cases h with
  | nil | opening => exact Nat.zero_le 2
  | operator => exact Operator.level_le_two _

/-- A parenthesis takes one place and makes room for two operators, and operators take of that room
what their levels rise by. -/
theorem length_le_topLevel (h : Layered stack) :
    stack.length ≤ 3 * (openings stack).length + topLevel stack := by
  induction h with
  | nil => exact Nat.zero_le _
  | opening ht h ih =>
    have htop := h.topLevel_le_two
    simp only [openings, topLevel, level, List.length_cons]
    omega
  | operator hp hlevel h ih =>
    simp only [openings, topLevel, level, List.length_cons]
    omega

theorem length_le (h : Layered stack) : stack.length ≤ 3 * (openings stack).length + 2 :=
  h.length_le_topLevel.trans (Nat.add_le_add_left h.topLevel_le_two _)

theorem sound (h : Layered stack) : ∀ w ∈ stack, w.Sound := by
  induction h with
  | nil => simp
  | opening ht _ ih => exact List.forall_mem_cons.mpr ⟨ht, ih⟩
  | operator hp _ _ ih => exact List.forall_mem_cons.mpr ⟨hp, ih⟩

theorem kind_token (h : Layered stack) {w : Waiting} (hw : w ∈ stack) :
    w.token.kind = .leftParen ∨ ∃ op, w.token.kind = .operator op := by
  have hsound := h.sound w hw
  cases w with
  | opening t => exact .inl hsound
  | operator p => exact .inr ⟨p.operator, hsound⟩

theorem filter_token (h : Layered stack) :
    (stack.map token).filter (·.kind = .leftParen) = openings stack := by
  induction h with
  | nil => rfl
  | opening ht _ ih => simp [openings, token, ht, ih]
  | operator hp _ _ ih => simp [openings, token, hp, ih]

theorem pairwise_token (h : Layered stack) (hops : ∀ w ∈ stack, w.token.kind ≠ .leftParen) :
    (stack.map token).Pairwise fun upper lower =>
      lower.kind.precedence.level < upper.kind.precedence.level := by
  rw [← List.isChain_iff_pairwise]
  induction h with
  | nil => exact List.isChain_nil
  | opening ht => exact absurd ht (hops _ List.mem_cons_self)
  | @operator p stack hp hlevel h ih =>
    rw [List.forall_mem_cons] at hops
    rw [List.map_cons, List.isChain_cons]
    refine ⟨?_, ih hops.2⟩
    cases h with
    | nil => simp
    | opening ht => exact absurd ht (hops.2 _ List.mem_cons_self)
    | operator hq =>
      simpa [token, hp, hq, Token.Kind.precedence, topLevel, level] using hlevel

end Waiting.Layered

namespace Machine

variable {m n : Machine} {ts : List Token} {t : Token}

theorem layered_step (h : m.step t = .ok n) (hm : Waiting.Layered m.waiting) :
    Waiting.Layered n.waiting := by
  rcases waiting_cases h with ⟨-, hn⟩ | ⟨op, hk, hn⟩ | ⟨hk, hn⟩ | ⟨-, o, hn⟩
  · rw [hn]
    exact hm
  · rw [hn]
    exact hm.await hk
  · rw [hn]
    exact .opening hk hm
  · have hrest := unwind_suffix Operator.always m.waiting
    rw [hn] at hrest
    exact hm.of_infix ((List.suffix_cons _ _).trans hrest).isInfix

/-- What waits after a run is layered, and its parentheses are those that the tokens leave open. -/
theorem layered_run (h : ts.foldlM step {} = .ok m) :
    Waiting.Layered m.waiting ∧ ts.foldlM nest [] = .ok (Waiting.openings m.waiting) := by
  have hstep (t : Token) (_ : t ∈ ts) (m n : Machine) (opens : List Token)
      (hm : Waiting.Layered m.waiting ∧ opens = Waiting.openings m.waiting)
      (hn : m.step t = .ok n) :
      ∃ inner, nest opens t = .ok inner ∧
        Waiting.Layered n.waiting ∧ inner = Waiting.openings n.waiting := by
    obtain ⟨hlayered, rfl⟩ := hm
    exact ⟨_, nest_openings_of_step hn, layered_step hn hlayered, rfl⟩
  have hstart : Waiting.Layered (waiting {}) ∧ [] = Waiting.openings (waiting {}) := ⟨.nil, rfl⟩
  obtain ⟨_, hnest, hlayered, rfl⟩ := exists_follow_foldlM hstep hstart h
  exact ⟨hlayered, hnest⟩

/-- A run of the machine is a run on bare stacks. -/
theorem bare_run (h : ts.foldlM step {} = .ok m)
    (hts : ∀ t ∈ ts, t.kind = .number → t.value.isSome = true) :
    ts.foldlM Stacks.step {} = .ok m.bare := by
  have hstep (t : Token) (ht : t ∈ ts) (m n : Machine) (s : Stacks)
      (hm : Waiting.Layered m.waiting ∧ s = m.bare) (hn : m.step t = .ok n) :
      ∃ u, s.step t = .ok u ∧ Waiting.Layered n.waiting ∧ u = n.bare := by
    obtain ⟨hlayered, rfl⟩ := hm
    refine ⟨n.bare, ?_, layered_step hn hlayered, rfl⟩
    rw [bare_step hlayered.sound (hts t ht), hn]
    rfl
  have hstart : Waiting.Layered (waiting {}) ∧ ({} : Stacks) = bare {} := ⟨.nil, rfl⟩
  obtain ⟨_, hbare, -, rfl⟩ := exists_follow_foldlM hstep hstart h
  exact hbare

/-- The bare stack of operators: the tokens of the operators and of the open parentheses that wait,
the oldest first. -/
def stack (m : Machine) : List Token := m.bare.operators.reverse

/-- Whatever has been read without a fault, only operators and opening parentheses wait. The
parentheses are those without a partner so far. Between two of them, and outside all of them, the
operators bind more and more tightly from the oldest to the newest, so that no more than two wait
there, and the whole stack is bounded by the number of open groups. -/
theorem stack_shape (h : ts.foldlM step {} = .ok m) :
    (∀ t ∈ m.stack, t.kind = .leftParen ∨ ∃ op, t.kind = .operator op) ∧
      m.stack.filter (·.kind = .leftParen) = unclosed ts ∧
      (∀ part, part <:+: m.stack → (∀ t ∈ part, t.kind ≠ .leftParen) →
        part.length ≤ 2 ∧ part.Pairwise fun lower upper =>
          lower.kind.precedence.level < upper.kind.precedence.level) ∧
      m.stack.length ≤ 3 * (unclosed ts).length + 2 := by
  obtain ⟨hlayered, hnest⟩ := layered_run h
  have hunclosed : unclosed ts = (Waiting.openings m.waiting).reverse := unclosed_eq_reverse hnest
  refine ⟨fun t ht => ?_, ?_, fun part hpart hops => ?_, ?_⟩
  · obtain ⟨w, hw, rfl⟩ := List.mem_map.mp (List.mem_reverse.mp ht)
    exact hlayered.kind_token hw
  · rw [stack, bare, List.filter_reverse, hlayered.filter_token, hunclosed]
  · have hreverse : part.reverse <:+: m.waiting.map Waiting.token := by
      rwa [← List.reverse_infix, List.reverse_reverse]
    obtain ⟨ws, hws, htokens⟩ := List.infix_map_iff.mp hreverse
    have hpart : Waiting.Layered ws := hlayered.of_infix hws
    have hops' : ∀ w ∈ ws, w.token.kind ≠ .leftParen := by
      intro w hw
      apply hops
      rw [← List.mem_reverse, htokens]
      exact List.mem_map_of_mem hw
    constructor
    · have hlength := hpart.length_le
      have hopenings : Waiting.openings ws = [] := by
        rw [← hpart.filter_token, List.filter_eq_nil_iff]
        simpa using hops'
      rw [hopenings] at hlength
      rwa [← List.length_reverse, htokens, List.length_map]
    · rw [← List.pairwise_reverse, htokens]
      exact hpart.pairwise_token hops'
  · rw [hunclosed, List.length_reverse, stack, bare, List.length_reverse, List.length_map]
    exact hlayered.length_le

/-- Two operators wait outside the open parentheses, none between them and two inside. -/
theorem stack_shape_open :
    let number (offset : Nat) : Token := ⟨.number, "7", some 7, some (.ofOffset "" offset)⟩
    let plus (offset : Nat) : Token := .ofGlyph "" (.operator .plus) ⟨'+', offset⟩
    let times (offset : Nat) : Token := .ofGlyph "" (.operator .times) ⟨'*', offset⟩
    let opening (offset : Nat) : Token := .ofGlyph "" .leftParen ⟨'(', offset⟩
    let closing : Token := .ofGlyph "" .rightParen ⟨')', 2⟩
    let ts : List Token := [opening 0, number 1, closing, plus 3, number 4, times 5, opening 6,
      opening 7, number 8, times 9, number 10, plus 11, number 12, times 13]
    ∃ m : Machine, ts.foldlM step {} = .ok m ∧
      m.stack = [plus 3, times 5, opening 6, opening 7, plus 11, times 13] ∧
      m.stack.filter (·.kind = .leftParen) = [opening 6, opening 7] ∧
      unclosed ts = [opening 6, opening 7] ∧ m.stack.length ≤ 3 * 2 + 2 := by
  intro number plus times opening closing ts
  let m : Machine := Halt.reached (ts.foldlM step {})
  have hrun : ts.foldlM step {} = .ok m := rfl
  have hunclosed : unclosed ts = [opening 6, opening 7] := by decide +kernel
  obtain ⟨-, hfilter, -, hlength⟩ := stack_shape hrun
  rw [hunclosed] at hfilter hlength
  exact ⟨m, hrun, by decide +kernel, hfilter, hunclosed, hlength⟩

end Machine
end Abacus
