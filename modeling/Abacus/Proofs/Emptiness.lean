import Abacus.Proofs.Balance
import Abacus.Proofs.Blame
import Abacus.Proofs.Parentheses
import Abacus.Proofs.Trimming

/-! # Texts without a value to find

Two kinds of text have nothing to work out. A blank one has no tokens at all, and that is a fault of
its own, found before anything is scanned. One of parentheses that match has tokens and no number
among them, and no other text ends without a value on the stack: once there is a value there always
is one, and an operator without a number fails.
-/
namespace Abacus

/-- Parentheses that match in the nested sense, and nothing else. -/
inductive MatchedParentheses : List Char → Prop where
  | nil : MatchedParentheses []
  | group {inner cs : List Char} (hi : MatchedParentheses inner) (h : MatchedParentheses cs) :
      MatchedParentheses ('(' :: inner ++ ')' :: cs)

theorem MatchedParentheses.eq_or_eq {cs : List Char} (h : MatchedParentheses cs) :
    ∀ c ∈ cs, c = '(' ∨ c = ')' := by
  induction h with
  | nil => simp
  | group _ _ ihi ih =>
    rw [List.forall_mem_append, List.forall_mem_cons, List.forall_mem_cons]
    exact ⟨⟨.inl rfl, ihi⟩, .inr rfl, ih⟩

def Token.Kind.IsParenthesis (k : Kind) : Prop := k = leftParen ∨ k = rightParen

namespace Token

theorem Kind.char?_injective {k k' : Kind} (h : k.char? = k'.char?) : k = k' := by
  have hall : ∀ a ∈ all, ∀ b ∈ all, a.char? = b.char? → a = b := by decide
  exact hall k (mem_all k) k' (mem_all k') h

theorem instruction?_eq_none {t : Token} (h : t.kind.IsParenthesis) : t.instruction? = none := by
  rw [instruction?]
  rcases h with h | h <;> rw [h]

end Token

section
variable {ts : List Token}

theorem isParenthesis_iff_counts :
    (∀ t ∈ ts, t.kind.IsParenthesis) ↔ operands ts = 0 ∧ operators ts = 0 := by
  rw [operands, operators, List.countP_eq_zero, List.countP_eq_zero, ← forall₂_and]
  refine forall₂_congr fun t _ => ?_
  rw [Token.Kind.IsParenthesis]
  cases t.kind <;> simp [Token.Kind.operator?]

/-- Nothing is left over exactly of parentheses that match. -/
theorem evaluate_leaves_nothing_iff :
    (∃ l, evaluate ts = .error (.leftoverOperands 0 l)) ↔
      Nested ts ∧ ∀ t ∈ ts, t.kind.IsParenthesis := by
  rw [nested_iff_balanced]
  constructor
  · rintro ⟨l, h⟩
    obtain ⟨hbalanced, values, hexecute, -, hcount⟩ := exists_execute_of_leftover h
    obtain rfl : values = [] := List.eq_nil_of_length_eq_zero (by omega)
    have hcounts := counts_eq_zero_of_execute hbalanced hexecute
    exact ⟨hbalanced, isParenthesis_iff_counts.mpr hcounts⟩
  · rintro ⟨hbalanced, hts⟩
    have hnone : (Postfix.ofTokens ts).instructions = [] := by
      have hperm := Postfix.instructions_ofTokens_perm hbalanced
      rw [List.filterMap_eq_nil_iff.mpr fun t ht => Token.instruction?_eq_none (hts t ht)] at hperm
      exact hperm.eq_nil
    refine ⟨ts.getLast?.bind (·.location), ?_⟩
    rw [evaluate_eq_ofTokens, Postfix.evaluate, Postfix.run, hnone, Postfix.ofTokens_ending,
      hbalanced]
    rfl

/-- Of parentheses alone, the tokens match exactly if their characters do. -/
theorem nested_iff_matchedParentheses {cs : List Char} (hts : ∀ t ∈ ts, t.kind.IsParenthesis)
    (hcs : cs.map some = ts.map (·.kind.char?)) : Nested ts ↔ MatchedParentheses cs := by
  constructor
  · intro h
    induction h generalizing cs with
    | nil =>
      obtain rfl : cs = [] := List.map_eq_nil_iff.mp hcs
      exact .nil
    | other ho hc _ _ => exact absurd (hts _ List.mem_cons_self) (not_or.mpr ⟨ho, hc⟩)
    | @group opening closing inner ts ho hc _ _ ihi ih =>
      rw [List.forall_mem_append, List.forall_mem_cons, List.forall_mem_cons] at hts
      rw [List.map_append, List.map_cons, List.map_cons, ho, hc] at hcs
      obtain ⟨front, back, rfl, hfront, hback⟩ := List.map_eq_append_iff.mp hcs
      obtain ⟨_, us, rfl, hopen, hus⟩ := List.map_eq_cons_iff.mp hfront
      obtain ⟨_, vs, rfl, hclose, hvs⟩ := List.map_eq_cons_iff.mp hback
      cases hopen
      cases hclose
      exact .group (ihi hts.1.2 hus) (ih hts.2.2 hvs)
  · intro h
    clear hts
    induction h generalizing ts with
    | nil =>
      obtain rfl : ts = [] := List.map_eq_nil_iff.mp hcs.symm
      exact .nil
    | @group inner cs _ _ ihi ih =>
      rw [List.map_append, List.map_cons, List.map_cons] at hcs
      obtain ⟨front, back, rfl, hfront, hback⟩ := List.map_eq_append_iff.mp hcs.symm
      obtain ⟨opening, us, rfl, hopen, hus⟩ := List.map_eq_cons_iff.mp hfront
      obtain ⟨closing, vs, rfl, hclose, hvs⟩ := List.map_eq_cons_iff.mp hback
      have hopening : opening.kind = .leftParen := Token.Kind.char?_injective hopen
      have hclosing : closing.kind = .rightParen := Token.Kind.char?_injective hclose
      exact .group hopening hclosing (ihi hus.symm) (ih hvs.symm)

end

section
variable {filename : String} {gs : List Glyph} {ts : List Token}

theorem Reads.map_char? (h : Reads filename gs ts) (hts : ∀ t ∈ ts, t.kind.IsParenthesis) :
    (gs.map Glyph.char).map some = ts.map (·.kind.char?) := by
  induction h with
  | nil => rfl
  | literal =>
    rw [List.forall_mem_append, List.forall_mem_singleton] at hts
    rcases hts.2 with hk | hk <;> cases hk
  | @mark gs ts g k _ hk _ ih =>
    rw [List.forall_mem_append] at hts
    rw [List.map_append, List.map_append, ih hts.1, List.map_append]
    exact congrArg (_ ++ [·]) (Glyph.kind?_eq_some_iff.mp hk).symm

theorem exists_reads_of_parentheses (filename : String)
    (h : ∀ g ∈ gs, g.char = '(' ∨ g.char = ')') :
    ∃ ts, Reads filename gs ts ∧ ∀ t ∈ ts, t.kind.IsParenthesis := by
  induction gs using List.reverseRecOn with
  | nil => exact ⟨[], .nil, by simp⟩
  | append_singleton gs g ih =>
    rw [List.forall_mem_append, List.forall_mem_singleton] at h
    obtain ⟨ts, hreads, hts⟩ := ih h.1
    obtain ⟨k, hk, hparen⟩ : ∃ k, g.role.kind? = some k ∧ k.IsParenthesis := by
      rcases h.2 with hc | hc
      · exact ⟨.leftParen, Glyph.kind?_eq_some_iff.mpr (congrArg some hc.symm), .inl rfl⟩
      · exact ⟨.rightParen, Glyph.kind?_eq_some_iff.mpr (congrArg some hc.symm), .inr rfl⟩
    refine ⟨_, hreads.mark hk ?_, ?_⟩
    · rintro op rfl
      rcases hparen with hk | hk <;> cases hk
    · rw [List.forall_mem_append, List.forall_mem_singleton]
      exact ⟨hts, hparen⟩

end

theorem tokenize_eq_nil_iff {filename source : String} :
    tokenize filename source = .ok [] ↔ Text.isBlankText source = true := by
  rw [tokenize_eq_ok_iff, ← ofText_eq_nil_iff]
  constructor
  · intro h
    by_contra hne
    exact h.ne_nil hne rfl
  · intro h
    rw [h]
    exact .nil

/-- A missing number is never told in the words for a missing operator. -/
theorem Fault.message_eq_no_value_iff {f : Fault} (hcause : f.cause = .leftoverOperands) :
    f.message = "Expression has no value" ↔ ∃ l, f = .leftoverOperands 0 l := by
  constructor
  · intro h
    cases f with
    | leftoverOperands count l =>
      by_cases hcount : count = 0
      · exact ⟨l, by rw [hcount]⟩
      · have hmessage : (leftoverOperands count l).message =
            "Expression reduces to " ++ Decimal.render count ++ " values instead of one" :=
          if_neg hcount
        have hfront : "Expression reduces to ".toList <+: "Expression has no value".toList := by
          rw [← h, hmessage, String.append_assoc, String.toList_append]
          exact List.prefix_append _ _
        exact absurd hfront (by decide)
    | _ => cases hcause
  · rintro ⟨l, rfl⟩
    rfl

namespace Calculator

variable {c : Calculator} {source : String}

theorem answer_tokenize_of_isBlankText (h : Text.isBlankText source = true) :
    (c.tokenize (some source)).answer = .error .emptyExpression := by
  rw [tokenize, if_pos h]

theorem answer_tokenize (h : ¬ Text.isBlankText source = true) :
    (c.tokenize (some source)).answer = Abacus.tokenize c.filename source := by
  rw [tokenize, if_neg h]
  cases Abacus.tokenize c.filename source <;> rfl

/-- Nothing is left over of a text exactly if its glyphs are parentheses that match. -/
theorem answer_calculate_leaves_nothing_iff :
    (∃ l, (c.calculate (some source)).answer = .error (.leftoverOperands 0 l)) ↔
      Text.ink source.toList ≠ [] ∧ MatchedParentheses (Text.ink source.toList) := by
  have hink : (Glyph.ofText source).map Glyph.char = Text.ink source.toList :=
    Glyph.map_char_ofText source
  rw [← hink, ne_eq, List.map_eq_nil_iff]
  by_cases hne : Glyph.ofText source = []
  · rw [answer_calculate_of_isBlankText (ofText_eq_nil_iff.mp hne)]
    simp [hne]
  · rw [c.answer_calculate hne, and_iff_right hne]
    constructor
    · rintro ⟨l, h⟩
      rcases bind_eq_error_iff.mp h with hscan | ⟨ts, hts, hevaluate⟩
      · cases (rejects_of_tokenize hscan).isLexical
      · obtain ⟨hnested, hparens⟩ := evaluate_leaves_nothing_iff.mp ⟨l, hevaluate⟩
        have hchars := (tokenize_eq_ok_iff.mp hts).map_char? hparens
        exact (nested_iff_matchedParentheses hparens hchars).mp hnested
    · intro h
      have hchars : ∀ g ∈ Glyph.ofText source, g.char = '(' ∨ g.char = ')' :=
        List.forall_mem_map.mp h.eq_or_eq
      obtain ⟨ts, hreads, hparens⟩ := exists_reads_of_parentheses c.filename hchars
      have hnested := (nested_iff_matchedParentheses hparens (hreads.map_char? hparens)).mpr h
      obtain ⟨l, hl⟩ := evaluate_leaves_nothing_iff.mpr ⟨hnested, hparens⟩
      exact ⟨l, bind_eq_error_iff.mpr (.inr ⟨ts, tokenize_eq_ok_iff.mpr hreads, hl⟩)⟩

/-- A blank text is told apart by its code: it is the only one without tokens, and every other text
has the tokens or the fault of its scan. The message that an expression has no value belongs to the
texts of parentheses that match. -/
theorem blank_and_valueless_told_apart (c : Calculator) (source : String) :
    ((∃ f, (c.tokenize (some source)).answer = .error f ∧ f.cause.code = "C008") ↔
      Text.isBlankText source = true) ∧
    (∀ filename, Abacus.tokenize filename source = .ok [] ↔ Text.isBlankText source = true) ∧
    (Text.trim source = "" ↔ Text.isBlankText source = true) ∧
    (Text.isBlankText source = true ∨
      (c.tokenize (some source)).answer = Abacus.tokenize c.filename source) ∧
    ((∃ f, (c.calculate (some source)).answer = .error f ∧ f.cause.code = "C007" ∧
        f.message = "Expression has no value") ↔
      Text.ink source.toList ≠ [] ∧ MatchedParentheses (Text.ink source.toList)) := by
  refine ⟨⟨?_, fun h => ?_⟩, fun filename => tokenize_eq_nil_iff, ?_, ?_, ?_⟩
  · rintro ⟨f, hf, hcode⟩
    by_contra hblank
    rw [answer_tokenize hblank] at hf
    have hlexical := (rejects_of_tokenize hf).isLexical
    have hcause : f.cause = .emptyExpression := Cause.code_injective hcode
    rw [hcause] at hlexical
    cases hlexical
  · exact ⟨.emptyExpression, answer_tokenize_of_isBlankText h, rfl⟩
  · rw [Text.trim_eq_empty_iff, Text.isBlankText, List.all_eq_true]
  · exact or_iff_not_imp_left.mpr answer_tokenize
  · rw [← answer_calculate_leaves_nothing_iff]
    constructor
    · rintro ⟨f, hf, hcode, hmessage⟩
      have hcause : f.cause = .leftoverOperands := Cause.code_injective hcode
      obtain ⟨l, rfl⟩ := (Fault.message_eq_no_value_iff hcause).mp hmessage
      exact ⟨l, hf⟩
    · rintro ⟨l, hl⟩
      exact ⟨_, hl, rfl, rfl⟩

end Calculator
end Abacus
