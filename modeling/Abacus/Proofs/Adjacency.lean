import Abacus.Proofs.Places
import Abacus.Proofs.Rejection

/-! # Which texts can be tokenized

The scan decides late: it meets a sign without digits only where the literal ends. Still it is the
neighbours of each character, blanks aside, that tell whether a text can be tokenized: an operator
that is no sign needs an operand before it, and a sign where an operand must come needs a digit
behind it.
-/
namespace Abacus

namespace Text

/-- What the neighbours of a character must be like. -/
structure Fits (before : List Char) (c : Char) (after : List Char) : Prop where
  known : c.isDigit = true ∨ c = '+' ∨ c = '-' ∨ c = '*' ∨ c = '/' ∨ c = '(' ∨ c = ')'
  operator : c = '*' ∨ c = '/' → ∃ b ∈ before.getLast?, ¬ LeadsOperand b
  sign : c = '+' ∨ c = '-' → (∀ b ∈ before.getLast?, LeadsOperand b) →
    ∃ d ∈ after.head?, d.isDigit = true

def Fitting (cs : List Char) : Prop :=
  ∀ before c after, cs = before ++ c :: after → Fits before c after

variable {before after cs ds : List Char} {c : Char}

theorem fits_of_isDigit (h : c.isDigit = true) : Fits before c after where
  known := .inl h
  operator := by rintro (rfl | rfl) <;> exact absurd h (by decide)
  sign := by rintro (rfl | rfl) <;> exact absurd h (by decide)

theorem Fits.append (h : Fits before c after) (ds : List Char) : Fits before c (after ++ ds) where
  known := h.known
  operator := h.operator
  sign := by
    intro hc hb
    obtain ⟨d, hd, hdigit⟩ := h.sign hc hb
    exact ⟨d, List.mem_head?_append_of_mem_head? hd, hdigit⟩

theorem Fitting.append (h : Fitting cs)
    (hds : ∀ before c after, ds = before ++ c :: after → Fits (cs ++ before) c after) :
    Fitting (cs ++ ds) := by
  intro before c after hsplit
  rcases List.append_eq_append_iff.mp hsplit with ⟨mid, rfl, hmid⟩ | ⟨mid, rfl, hmid⟩
  · exact hds mid c after hmid
  · cases mid with
    | nil => simpa using hds [] c after hmid.symm
    | cons b mid =>
      obtain ⟨rfl, rfl⟩ := List.cons.inj hmid
      exact (h before c mid rfl).append ds

end Text

theorem not_leadsOperand_of_isDigit {c : Char} (h : c.isDigit = true) : ¬ LeadsOperand c := by
  rintro (rfl | ⟨op, rfl⟩)
  · exact absurd h (by decide)
  · cases op <;> exact absurd h (by decide)

theorem not_leadsOperand_rightParen : ¬ LeadsOperand ')' := by
  rintro (h | ⟨op, h⟩)
  · exact absurd h (by decide)
  · cases op <;> exact absurd h (by decide)

/-- What is read up to a place where no operand must come ends with a character that ends one. -/
theorem Reads.not_leadsOperand {filename : String} {gs : List Glyph} {ts : List Token}
    (h : Reads filename gs ts) (ha : awaitsOperand ts = false) :
    ∃ b ∈ gs.getLast?, ¬ LeadsOperand b.char := by
  cases h with
  | nil => cases ha
  | @literal gs ts sign digits _ hl =>
    have hlast : (gs ++ (sign.toList ++ digits)).getLast? = digits.getLast? := by
      rw [← List.append_assoc]
      exact List.getLast?_append_of_ne_nil _ hl.digits_ne_nil
    have hmem := List.getLast_mem hl.digits_ne_nil
    refine ⟨digits.getLast hl.digits_ne_nil, ?_, not_leadsOperand_of_isDigit (hl.isDigit _ hmem)⟩
    rw [hlast]
    exact List.getLast?_eq_some_getLast hl.digits_ne_nil
  | @mark gs ts g k _ hk _ =>
    rw [awaitsOperand_append] at ha
    have hc := Glyph.kind?_eq_some_iff.mp hk
    refine ⟨g, by simp, ?_⟩
    cases k with
    | number => cases hc
    | operator | leftParen => cases ha
    | rightParen =>
      rw [← Option.some.inj hc]
      exact not_leadsOperand_rightParen

section
variable {filename : String} {gs : List Glyph} {ts : List Token} {before after : List Char}
  {c : Char}

theorem IsLiteral.fits {sign : Option Glyph} {digits : List Glyph} (h : IsLiteral sign digits)
    {cs : List Char} (hsplit : (sign.toList ++ digits).map (·.char) = before ++ c :: after) :
    Text.Fits (cs ++ before) c after := by
  have hdigits : ∀ d ∈ digits.map (·.char), d.isDigit = true := by simpa using h.isDigit
  cases sign with
  | none =>
    have hc : c ∈ digits.map (·.char) := by
      simp only [Option.toList_none, List.nil_append] at hsplit
      simp [hsplit]
    exact Text.fits_of_isDigit (hdigits c hc)
  | some g =>
    simp only [Option.toList_some, List.singleton_append, List.map_cons] at hsplit
    cases before with
    | cons b before =>
      have hc : c ∈ digits.map (·.char) := by simp [(List.cons.inj hsplit).2]
      exact Text.fits_of_isDigit (hdigits c hc)
    | nil =>
      obtain ⟨rfl, rfl⟩ := List.cons.inj hsplit
      have hsign := h.sign_char g rfl
      refine ⟨by tauto, ?_, fun _ _ => ?_⟩
      · rcases hsign with hg | hg <;> simp [hg]
      · cases digits with
        | nil => exact absurd rfl h.digits_ne_nil
        | cons d digits => exact ⟨d.char, rfl, h.isDigit d List.mem_cons_self⟩

theorem Reads.fits_mark (h : Reads filename gs ts) {g : Glyph} {k : Token.Kind}
    (hk : g.role.kind? = some k) (he : ∀ op, k = .operator op → awaitsOperand ts = false) :
    Text.Fits (gs.map (·.char)) g.char after := by
  have hc := Glyph.kind?_eq_some_iff.mp hk
  have hbefore (op : Operator) (hop : k = .operator op) :
      ∃ b ∈ (gs.map (·.char)).getLast?, ¬ LeadsOperand b := by
    obtain ⟨b, hb, hlead⟩ := h.not_leadsOperand (he op hop)
    exact ⟨b.char, by rw [List.getLast?_map, Option.mem_def.mp hb]; rfl, hlead⟩
  cases k with
  | number => cases hc
  | leftParen | rightParen =>
    rw [← Option.some.inj hc]
    exact ⟨by simp, by simp, by simp⟩
  | operator op =>
    obtain ⟨b, hb, hlead⟩ := hbefore op rfl
    rw [← Option.some.inj hc]
    refine ⟨by cases op <;> simp [Operator.symbol], fun _ => ⟨b, hb, hlead⟩, fun _ hleads => ?_⟩
    exact absurd (hleads b hb) hlead

theorem Reads.fitting (h : Reads filename gs ts) : Text.Fitting (gs.map (·.char)) := by
  induction h with
  | nil => simp [Text.Fitting]
  | literal h hl hs hn ih =>
    rw [List.map_append]
    exact ih.append fun before c after hsplit => hl.fits hsplit
  | @mark gs ts g k h hk he ih =>
    rw [List.map_append]
    refine ih.append fun before c after hsplit => ?_
    obtain ⟨rfl, hnil⟩ : before = [] ∧ g.char :: [] = c :: after := by
      cases before with
      | nil => exact ⟨rfl, hsplit⟩
      | cons b before => simp at hsplit
    obtain ⟨rfl, rfl⟩ := List.cons.inj hnil
    rw [List.append_nil]
    exact h.fits_mark hk he

/-- Where a text is rejected, some character does not fit: the one that is foreign, the operator
that lacks an operand, or the first sign of the literal. -/
theorem Rejects.not_fitting {f : Fault} (h : Rejects filename gs f) :
    ¬ Text.Fitting (gs.map (·.char)) := by
  intro hfit
  cases h with
  | @character before after g hr =>
    have hknown := (hfit (before.map (·.char)) g.char (after.map (·.char)) (by simp)).known
    rcases hknown with hd | hc | hc | hc | hc | hc | hc
    · rw [Glyph.role_eq_digit_iff.mpr hd] at hr
      cases hr
    all_goals
      rw [Glyph.role, hc] at hr
      exact absurd hr (by decide)
  | @operator before after g op hm hop hb =>
    have hchar : g.char = '*' ∨ g.char = '/' := by
      cases op with
      | plus | minus => cases hop
      | times => exact .inl hm
      | divide => exact .inr hm
    obtain ⟨b, hlast, hlead⟩ :=
      (hfit (before.map (·.char)) g.char (after.map (·.char)) (by simp)).operator hchar
    rw [List.getLast?_map] at hlast
    obtain ⟨d, hd, rfl⟩ := Option.map_eq_some_iff.mp hlast
    exact hlead (hb d hd)
  | @literal before signs digits after ts g reason h ha hs hd hbad hg hend =>
    cases signs with
    | nil =>
      rcases hbad with rfl | hlong
      · cases hg
      · cases hlong
    | cons g signs =>
      have hbefore : ∀ b ∈ (before.map (·.char)).getLast?, LeadsOperand b := by
        simpa [List.getLast?_map] using h.leadsOperand ha
      obtain ⟨d, hnext, hdigit⟩ := (hfit (before.map (·.char)) g.char
        ((signs ++ digits ++ after).map (·.char)) (by simp)).sign (hs g List.mem_cons_self) hbefore
      cases signs with
      | cons e signs =>
        obtain rfl : e.char = d := by simpa using hnext
        rcases hs e (by simp) with he | he <;> rw [he] at hdigit <;> exact absurd hdigit (by decide)
      | nil =>
        obtain rfl : digits = [] := by simpa using hbad
        simp only [List.append_nil, List.nil_append, List.head?_map] at hnext
        obtain ⟨b, hb, rfl⟩ := Option.map_eq_some_iff.mp hnext
        rw [(hend b hb).1] at hdigit
        cases hdigit

end

theorem Cause.code_of_isLexical {c : Cause} (h : c.isLexical = true) :
    c.isArithmetic = false ∧ c.code ∈ ["C001", "C002", "C003"] := by
  revert h
  cases c <;> decide

/-- A text can be tokenized exactly when each of its characters, blanks aside, fits between its
neighbours; otherwise one of the three faults that a scan can find is raised. -/
theorem tokenize_iff_fitting (filename source : String) :
    ((∃ ts, tokenize filename source = .ok ts) ↔ Text.Fitting (Text.ink source.toList)) ∧
    ((∃ f, tokenize filename source = .error f ∧ f.cause.isArithmetic = false ∧
        f.cause.code ∈ ["C001", "C002", "C003"]) ↔ ¬ Text.Fitting (Text.ink source.toList)) := by
  have hink : (Glyph.ofText source).map (·.char) = Text.ink source.toList :=
    Glyph.map_char_ofText source
  cases hts : tokenize filename source with
  | ok ts =>
    have hfit := (tokenize_eq_ok_iff.mp hts).fitting
    rw [hink] at hfit
    simp [hfit]
  | error f =>
    have hrejects := rejects_of_tokenize hts
    have hfit := hrejects.not_fitting
    rw [hink] at hfit
    have hcause := Cause.code_of_isLexical hrejects.isLexical
    simpa [hfit] using hcause

end Abacus
