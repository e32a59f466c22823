import Abacus.Proofs.Meaning
import Mathlib.Data.List.Chain
import Mathlib.Data.List.Induction

/-! # The structure of a sequence of tokens

Two machines with little memory check a sequence: one keeps the parentheses that are open, and one
knows whether an operand must come next. The texts whose tokens pass both are the expressions.
-/
namespace Abacus

def Token.Kind.startsOperand : Token.Kind → Bool
  | number | leftParen => true
  | operator _ | rightParen => false

/-- The parentheses that are open after a token, the newest first; a closing one that matches none
of them is a failure. -/
def nest (opens : List Token) (t : Token) : Except Token (List Token) :=
  match t.kind with
  | .number | .operator _ => .ok opens
  | .leftParen => .ok (t :: opens)
  | .rightParen =>
    match opens with
    | [] => .error t
    | _ :: outer => .ok outer

def Balanced (ts : List Token) : Prop := ts.foldlM nest [] = .ok []

/-- Whether an operand must come after a token; the token itself begins one where one must come, and
nowhere else. -/
def expect (awaits : Bool) (t : Token) : Option Bool :=
  if t.kind.startsOperand = awaits then some !t.kind.endsOperand else none

def Alternates (ts : List Token) : Prop := ts.foldlM expect true = some false

/-- No operand comes directly after another. -/
def Separated (ts : List Token) : Prop :=
  ts.IsChain fun t u => t.kind.endsOperand = true → u.kind.startsOperand = false

instance (ts : List Token) : Decidable (Balanced ts) :=
  inferInstanceAs (Decidable (ts.foldlM nest [] = .ok []))

instance (ts : List Token) : Decidable (Alternates ts) :=
  inferInstanceAs (Decidable (ts.foldlM expect true = some false))

theorem nest_eq_ok_iff {opens opens' : List Token} {t : Token} :
    nest opens t = .ok opens' ↔
      (t.kind ≠ .leftParen ∧ t.kind ≠ .rightParen ∧ opens' = opens) ∨
        (t.kind = .leftParen ∧ opens' = t :: opens) ∨
          t.kind = .rightParen ∧ ∃ o, opens = o :: opens' := by
  unfold nest
  cases hk : t.kind with
  | number | operator op | leftParen => simp [eq_comm]
  | rightParen => cases opens <;> simp

theorem nest_eq_error_iff {opens : List Token} {t u : Token} :
    nest opens t = .error u ↔ opens = [] ∧ t.kind = .rightParen ∧ u = t := by
  unfold nest
  cases hk : t.kind with
  | number | operator op | leftParen => simp
  | rightParen => cases opens <;> simp [eq_comm]

theorem foldlM_nest_snoc {ts : List Token} {t : Token} {opens : List Token} :
    (ts ++ [t]).foldlM nest [] = .ok opens ↔
      ∃ outer, ts.foldlM nest [] = .ok outer ∧ nest outer t = .ok opens := by
  simp only [List.foldlM_append, List.foldlM_cons, List.foldlM_nil, bind_pure, bind_eq_ok_iff]

theorem foldlM_expect_snoc {ts : List Token} {t : Token} {b : Bool} :
    (ts ++ [t]).foldlM expect true = some b ↔
      ts.foldlM expect true = some t.kind.startsOperand ∧ b = !t.kind.endsOperand := by
  cases hts : ts.foldlM expect true with
  | none => simp [List.foldlM_append, hts]
  | some awaits =>
    by_cases ha : t.kind.startsOperand = awaits <;>
      simp_all [List.foldlM_append, expect, eq_comm]

theorem awaitsOperand_of_foldlM_expect {ts : List Token} {b : Bool}
    (h : ts.foldlM expect true = some b) : awaitsOperand ts = b := by
  induction ts using List.reverseRecOn with
  | nil => exact Option.some.inj h
  | append_singleton ts t _ =>
    rw [awaitsOperand_append, (foldlM_expect_snoc.mp h).2]

theorem separated_snoc {ts : List Token} {t : Token} :
    Separated (ts ++ [t]) ↔
      Separated ts ∧ (t.kind.startsOperand = true → awaitsOperand ts = true) := by
  rw [Separated, List.isChain_append]
  cases hl : ts.getLast? with
  | none => simp [Separated, awaitsOperand, hl]
  | some u =>
    cases hu : u.kind.endsOperand <;> cases ht : t.kind.startsOperand <;>
      simp [Separated, awaitsOperand, hl, hu, ht]

theorem separated_of_foldlM_expect {ts : List Token} {b : Bool}
    (h : ts.foldlM expect true = some b) : Separated ts := by
  induction ts using List.reverseRecOn generalizing b with
  | nil => exact List.isChain_nil
  | append_singleton ts t ih =>
    obtain ⟨hts, _⟩ := foldlM_expect_snoc.mp h
    refine separated_snoc.mpr ⟨ih hts, fun ht => ?_⟩
    rw [awaitsOperand_of_foldlM_expect hts, ht]

theorem Expression.nest_tokens (e : Expression) (filename : String) (opens : List Token) :
    (e.tokens filename).foldlM nest opens = .ok opens := by
  induction e generalizing opens with
  | literal => rfl
  | group opening inner closing ih =>
    rw [tokens, List.foldlM_append, List.foldlM_cons]
    change ((inner.tokens filename).foldlM nest (.ofGlyph filename .leftParen opening :: opens) >>=
      _) = _
    rw [ih]
    rfl
  | binary op mark left right ihl ihr =>
    rw [tokens, List.foldlM_append, ihl]
    exact ihr opens

theorem Expression.expect_tokens (e : Expression) (filename : String) :
    (e.tokens filename).foldlM expect true = some false := by
  induction e with
  | literal => rfl
  | group opening inner closing ih =>
    rw [tokens, foldlM_expect_snoc, List.foldlM_cons]
    exact ⟨ih, rfl⟩
  | binary op mark left right ihl ihr =>
    rw [tokens, List.foldlM_append, ihl]
    exact ihr

/-- What can stand before a factor in its group: nothing, or an expression and an operator. -/
inductive Leads : List Glyph → Prop where
  | nil : Leads []
  | operator {gs : List Glyph} {op : Operator} {mark : Glyph} (h : WellFormed gs)
      (hm : mark.char = op.symbol) : Leads (gs ++ [mark])

theorem Leads.wellFormed {gs hs : List Glyph} {e : Expression} (h : Leads gs)
    (hf : Derives .factor hs e) : WellFormed (gs ++ hs) := by
  cases h with
  | nil => exact .of_factor hf
  | operator hw hm =>
    rw [List.append_assoc]
    exact hw.snoc hm hf

/-- `Opens n gs`: the glyphs `gs` end where the innermost of `n` open groups begins. -/
inductive Opens : Nat → List Glyph → Prop where
  | nil : Opens 0 []
  | group {n : Nat} {gs ls : List Glyph} {g : Glyph} (h : Opens n gs) (hl : Leads ls)
      (hg : g.char = '(') : Opens (n + 1) (gs ++ ls ++ [g])

/-- `Begins n awaits gs`: an expression can begin with the glyphs `gs`, behind which `n` groups are
open and an operand must come or not. -/
def Begins (n : Nat) (awaits : Bool) (gs : List Glyph) : Prop :=
  ∃ os rest, gs = os ++ rest ∧ Opens n os ∧ if awaits then Leads rest else WellFormed rest

namespace Begins

variable {n : Nat} {gs hs : List Glyph} {g : Glyph}

theorem nil : Begins 0 true [] := ⟨[], [], rfl, .nil, .nil⟩

theorem factor {e : Expression} (h : Begins n true gs) (hf : Derives .factor hs e) :
    Begins n false (gs ++ hs) := by
  obtain ⟨os, ls, rfl, ho, hl⟩ := h
  exact ⟨os, ls ++ hs, List.append_assoc .., ho, Leads.wellFormed hl hf⟩

theorem operator {op : Operator} (h : Begins n false gs) (hg : g.char = op.symbol) :
    Begins n true (gs ++ [g]) := by
  obtain ⟨os, es, rfl, ho, he⟩ := h
  exact ⟨os, es ++ [g], List.append_assoc .., ho, Leads.operator he hg⟩

theorem openGroup (h : Begins n true gs) (hg : g.char = '(') : Begins (n + 1) true (gs ++ [g]) := by
  obtain ⟨os, ls, rfl, ho, hl⟩ := h
  exact ⟨_, [], (List.append_nil _).symm, .group ho hl hg, Leads.nil⟩

theorem closeGroup (h : Begins (n + 1) false gs) (hg : g.char = ')') :
    Begins n false (gs ++ [g]) := by
  obtain ⟨_, es, rfl, ho, e, he⟩ := h
  cases ho with
  | @group _ os ls opening ho hl hopen =>
    have hfactor : Begins n false ((os ++ ls) ++ (opening :: es ++ [g])) :=
      factor ⟨os, ls, rfl, ho, hl⟩ (.group hopen hg he)
    simpa using hfactor

theorem wellFormed (h : Begins 0 false gs) : WellFormed gs := by
  obtain ⟨_, es, rfl, ho, he⟩ := h
  cases ho
  exact he

end Begins

/-- What is read of a sequence that passes so far begins an expression. -/
theorem Reads.begins {filename : String} {gs : List Glyph} {ts : List Token}
    (h : Reads filename gs ts) {opens : List Token} {awaits : Bool}
    (hn : ts.foldlM nest [] = .ok opens) (ha : ts.foldlM expect true = some awaits) :
    Begins opens.length awaits gs := by
  induction h generalizing opens awaits with
  | nil =>
    cases hn
    cases ha
    exact .nil
  | literal h hl _ _ ih =>
    obtain ⟨outer, houter, ht⟩ := foldlM_nest_snoc.mp hn
    obtain ⟨hstart, rfl⟩ := foldlM_expect_snoc.mp ha
    cases ht
    exact (ih houter hstart).factor (.literal hl)
  | @mark gs ts g k h hk _ ih =>
    obtain ⟨outer, houter, ht⟩ := foldlM_nest_snoc.mp hn
    obtain ⟨hstart, rfl⟩ := foldlM_expect_snoc.mp ha
    have hb := ih houter hstart
    have hc := Glyph.kind?_eq_some_iff.mp hk
    cases k with
    | number => contradiction
    | operator op =>
      cases ht
      exact hb.operator (Option.some.inj hc).symm
    | leftParen =>
      cases ht
      exact hb.openGroup (Option.some.inj hc).symm
    | rightParen =>
      cases outer with
      | nil => contradiction
      | cons _ outer =>
        cases ht
        exact hb.closeGroup (Option.some.inj hc).symm

/-- A text that is tokenized is an expression exactly when its parentheses match and its operands
and operators alternate. -/
theorem wellFormed_iff {filename source : String} {ts : List Token}
    (h : tokenize filename source = .ok ts) :
    WellFormed (Glyph.ofText source) ↔ Balanced ts ∧ Alternates ts := by
  constructor
  · rintro ⟨e, he⟩
    have hts : Except.ok ts = Except.ok (e.tokens filename) := h.symm.trans he.tokenize
    cases hts
    exact ⟨e.nest_tokens filename [], e.expect_tokens filename⟩
  · rintro ⟨hn, ha⟩
    exact ((tokenize_eq_ok_iff.mp h).begins hn ha).wellFormed

/-- The grammar is decided by tokenizing a text and checking its tokens. -/
instance (source : String) : Decidable (WellFormed (Glyph.ofText source)) :=
  match h : tokenize "" source with
  | .ok _ => decidable_of_iff _ (wellFormed_iff h).symm
  | .error _ => .isFalse fun ⟨_, he⟩ => nomatch he.tokenize.symm.trans h

end Abacus
