import Abacus.Proofs.Carrying
import Abacus.Proofs.Draining

/-! # What the records of a calculation tell

A calculation reports the tokens it has found, then the operators in the order in which they are
carried out, and then how it ends. Where it ends with a value every operator of the text has been
reported, and the order is that in which the syntax tree has them behind their operands.
-/
namespace Abacus

/-- The operators of a tree, each behind those of its left and of its right operand. -/
def Expression.reductions (filename : String) : Expression → List Token
  | literal .. => []
  | group _ inner _ => inner.reductions filename
  | binary op mark left right =>
    left.reductions filename ++ right.reductions filename ++
      [.ofGlyph filename (.operator op) mark]

theorem Expression.filterMap_carried_postorder (filename : String) (e : Expression) :
    (e.postorder filename).filterMap Instruction.carried? = e.reductions filename := by
  induction e with
  | literal => rfl
  | group opening inner closing ih => exact ih
  | binary op mark left right ihl ihr =>
    rw [postorder, List.filterMap_append, List.filterMap_append, ihl, ihr]
    rfl

theorem filterMap_carried_instructions (ts : List Token) :
    (ts.filterMap Token.instruction?).filterMap Instruction.carried? =
      ts.filter (·.kind.operator?.isSome) := by
  rw [List.filterMap_filterMap, ← List.filterMap_eq_filter]
  congr 1
  funext t
  rw [Token.instruction?, Option.guard]
  cases t.kind <;> rfl

namespace Machine

variable {ts : List Token} {v : Int} {m : Machine}

theorem balanced_of_run (h : run ts = .ok (v, m)) : Balanced ts := by
  have hvalue : evaluate ts = .ok v := by rw [evaluate, h]
  exact (balanced_of_evaluate hvalue).1

/-- A run with a value carries out every operator once. -/
theorem reduced_perm_of_run (h : run ts = .ok (v, m)) :
    m.reduced.toList.Perm (ts.filter (·.kind.operator?.isSome)) := by
  have hbalanced := balanced_of_run h
  rw [reduced_of_run h hbalanced, Postfix.carried, ← filterMap_carried_instructions]
  exact (Postfix.instructions_ofTokens_perm hbalanced).filterMap _

theorem mem_of_mem_reduced {e : Halt Machine} (h : run ts = .error e) :
    ∀ t ∈ e.state.reduced.toList, t ∈ ts := by
  have hreduced := (holds_run (P := (· ∈ ts)) fun t ht => ht).reduced
  rwa [h] at hreduced

/-- A run through the tokens of an expression carries the operators out as its tree has them. -/
theorem reduced_of_run_tokens {filename : String} {gs : List Glyph} {e : Expression}
    (h : Derives .expression gs e) (hrun : run (e.tokens filename) = .ok (v, m)) :
    m.reduced.toList = e.reductions filename := by
  rw [reduced_of_run hrun (balanced_of_run hrun), Postfix.carried, h.ofTokens_tokens]
  exact e.filterMap_carried_postorder filename

end Machine

namespace Calculator

/-- There is an expression, it is not blank, and it can be tokenized. -/
structure Lexes (c : Calculator) (expression : Option String) (source : String)
    (ts : List Token) : Prop where
  given : expression = some source
  inked : Text.isBlankText source = false
  tokens : Abacus.tokenize c.filename source = .ok ts

def reductionRecord (t : Token) : String :=
  "Reduced " ++ Text.quoted t.lexeme ++ " at " ++ t.location.elim "None" fun l =>
    l.filename ++ ":" ++ Decimal.render l.line ++ ":" ++ Decimal.render l.column

/-- How the records read on the way to an answer. Only a text that can be tokenized opens them, and
what closes them has the number of its tokens again or the message of the fault. -/
inductive Tells (c : Calculator) (expression : Option String) :
    List String → Except Fault Int → Prop where
  | untokenized {f : Fault} (h : ∀ source ts, ¬ c.Lexes expression source ts) :
      Tells c expression
        ["Failed to calculate " ++ (expression.map Text.quoted).getD "None" ++ ": " ++ f.message]
        (.error f)
  | failed {source : String} {ts reduced : List Token} {f : Fault}
      (h : c.Lexes expression source ts) (hmem : ∀ t ∈ reduced, t ∈ ts) :
      Tells c expression
        (["Tokenized " ++ Text.quoted source ++ " into " ++ Decimal.render ts.length ++
            " tokens"] ++ reduced.map reductionRecord ++
          ["Failed to calculate " ++ Text.quoted source ++ ": " ++ f.message])
        (.error f)
  | evaluated {source : String} {ts reduced : List Token} {v : Int}
      (h : c.Lexes expression source ts)
      (hall : reduced.Perm (ts.filter (·.kind.operator?.isSome)))
      (horder : ∀ e, Derives .expression (Glyph.ofText source) e →
        reduced = e.reductions c.filename) :
      Tells c expression
        (["Tokenized " ++ Text.quoted source ++ " into " ++ Decimal.render ts.length ++
            " tokens"] ++ reduced.map reductionRecord ++
          ["Evaluated " ++ Decimal.render ts.length ++ " tokens"])
        (.ok v)

variable {c : Calculator} {expression : Option String} {source : String} {ts : List Token}

theorem tokenize_of_lexes (h : c.Lexes expression source ts) :
    c.tokenize expression = ⟨[.tokenized source ts.length], .ok ts⟩ := by
  obtain ⟨rfl, hinked, hts⟩ := h
  simp [tokenize, hinked, hts]

theorem tokenize_of_not_lexes (h : ∀ source ts, ¬ c.Lexes expression source ts) :
    ∃ f, c.tokenize expression = ⟨[], .error f⟩ := by
  cases expression with
  | none => exact ⟨_, rfl⟩
  | some source =>
    cases hblank : Text.isBlankText source with
    | true => exact ⟨_, by rw [tokenize, if_pos hblank]⟩
    | false =>
      cases hts : Abacus.tokenize c.filename source with
      | error f => exact ⟨f, by simp [tokenize, hblank, hts]⟩
      | ok ts => exact absurd ⟨rfl, hblank, hts⟩ (h source ts)

theorem map_text_reduced (reduced : List Token) :
    (reduced.map Event.reduced).map Event.text = reduced.map reductionRecord := by
  rw [List.map_map]
  apply List.map_congr_left
  intro t _
  change _ ++ Location.textOrNone t.location = _ ++ t.location.elim _ _
  cases t.location <;> rfl

theorem map_text_events (source : String) (count : Nat) (reduced : List Token) (last : Event) :
    ([Event.tokenized source count] ++ (reduced.map Event.reduced ++ [last])).map Event.text =
      ["Tokenized " ++ Text.quoted source ++ " into " ++ Decimal.render count ++ " tokens"] ++
        reduced.map reductionRecord ++ [last.text] := by
  rw [List.map_append, List.map_append, map_text_reduced, ← List.append_assoc]
  rfl

/-- The records tell what a calculation comes to, whatever that is. -/
theorem calculate_tells (c : Calculator) (expression : Option String) :
    c.Tells expression ((c.calculate expression).events.map Event.text)
      (c.calculate expression).answer := by
  by_cases h : ∃ source ts, c.Lexes expression source ts
  · obtain ⟨source, ts, h⟩ := h
    obtain rfl := h.given
    rw [calculate, tokenize_of_lexes h]
    cases hrun : Machine.run ts with
    | error e =>
      simp only [Traced.andThen, evaluate, hrun, Traced.reportFault]
      rw [List.append_assoc, map_text_events]
      exact .failed h (Machine.mem_of_mem_reduced hrun)
    | ok x =>
      obtain ⟨v, m⟩ := x
      simp only [Traced.andThen, evaluate, hrun, Traced.reportFault]
      rw [map_text_events]
      refine .evaluated h (Machine.reduced_perm_of_run hrun) fun e he => ?_
      obtain rfl : e.tokens c.filename = ts := Except.ok.inj (he.tokenize.symm.trans h.tokens)
      exact Machine.reduced_of_run_tokens he hrun
  · have hnone : ∀ source ts, ¬ c.Lexes expression source ts :=
      fun source ts hl => h ⟨source, ts, hl⟩
    obtain ⟨f, hf⟩ := tokenize_of_not_lexes hnone
    rw [calculate, hf]
    exact .untokenized hnone

/-- The difference in the group comes first, and the first operator of the text last. -/
example : (({} : Calculator).calculate (some "8-2*(1-3)")).events.map Event.text =
    ["Tokenized '8-2*(1-3)' into 9 tokens", "Reduced '-' at <expression>:1:7",
      "Reduced '*' at <expression>:1:4", "Reduced '-' at <expression>:1:2",
      "Evaluated 9 tokens"] := by
  decide +kernel

end Calculator
end Abacus
