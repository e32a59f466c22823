import Abacus.Proofs.Accounting
import Abacus.Proofs.Rejection
import Abacus.Proofs.Spelling

/-! # What a fault points at

A fault of a calculation knows its place in the text, and the character there is the one to blame: a
fault of the scan points at the glyph that cannot be read, and one of the evaluation at the token
that cannot be carried out or matched.
-/
namespace Abacus

/-- The token that a fault of an evaluation has its place from. -/
def Fault.ArisesIn (ts : List Token) : Fault → Prop
  | unmatchedClosing l => ∃ t ∈ ts, t.kind = .rightParen ∧ t.location = l
  | unclosedOpening l => ∃ t ∈ ts, t.kind = .leftParen ∧ t.location = l
  | missingOperand lexeme l =>
    ∃ t ∈ ts, (∃ op, t.kind = .operator op) ∧ t.lexeme = lexeme ∧ t.location = l
  | divisionByZero l => ∃ t ∈ ts, t.kind = .operator .divide ∧ t.location = l
  | leftoverOperands _ l => l = ts.getLast?.bind (·.location)
  | invalidCharacter .. | misplacedOperator .. | invalidNumber .. | emptyExpression => False

theorem mem_of_nest_eq_ok {opens opens' : List Token} {t : Token} (h : nest opens t = .ok opens') :
    ∀ o ∈ opens', o ∈ opens ∨ o = t ∧ t.kind = .leftParen := by
  rcases nest_eq_ok_iff.mp h with ⟨-, -, rfl⟩ | ⟨hopening, rfl⟩ | ⟨-, p, rfl⟩
  · exact fun o ho => .inl ho
  · exact fun o ho => (List.mem_cons.mp ho).symm.imp_right fun ho => ⟨ho, hopening⟩
  · exact fun o ho => .inl (List.mem_cons_of_mem p ho)

theorem mem_of_foldlM_nest {ts opens opens' : List Token} (h : ts.foldlM nest opens = .ok opens') :
    ∀ o ∈ opens', o ∈ opens ∨ o ∈ ts ∧ o.kind = .leftParen := by
  induction ts generalizing opens with
  | nil =>
    cases h
    exact fun o ho => .inl ho
  | cons t ts ih =>
    obtain ⟨inner, ht, hts⟩ := bind_eq_ok_iff.mp h
    intro o ho
    rcases ih hts o ho with hinner | ⟨hmem, hkind⟩
    · rcases mem_of_nest_eq_ok ht o hinner with houter | ⟨rfl, hkind⟩
      · exact .inl houter
      · exact .inr ⟨List.mem_cons_self, hkind⟩
    · exact .inr ⟨List.mem_cons_of_mem _ hmem, hkind⟩

namespace Postfix

theorem mem_operators_of_reduce {f : Operator → Bool} {stack : List Waiting} {q : Pending}
    (h : .reduce q ∈ (unwind f stack).1.map Instruction.reduce) : q ∈ Waiting.operators stack := by
  obtain ⟨p, hp, hpq⟩ := List.mem_map.mp h
  cases hpq
  rw [← operators_unwind f stack]
  exact List.mem_append_left _ hp

theorem mem_operators_of_unwind {f : Operator → Bool} {stack : List Waiting} {q : Pending}
    (h : q ∈ Waiting.operators (unwind f stack).2) : q ∈ Waiting.operators stack := by
  rw [← operators_unwind f stack]
  exact List.mem_append_right _ h

/-- What a program carries out was waiting already or is an operator of the tokens. -/
theorem mem_translate {last : Option Location} {stack : List Waiting} {ts : List Token}
    {q : Pending} (h : .reduce q ∈ (translate last stack ts).instructions) :
    q ∈ Waiting.operators stack ∨ q.token ∈ ts ∧ q.token.kind = .operator q.operator := by
  have later {us : List Token} {t : Token}
      (hq : q.token ∈ us ∧ q.token.kind = .operator q.operator) :
      q.token ∈ t :: us ∧ q.token.kind = .operator q.operator :=
    ⟨List.mem_cons_of_mem t hq.1, hq.2⟩
  induction ts generalizing stack with
  | nil => exact .inl (mem_operators_of_reduce h)
  | cons t ts ih =>
    rw [translate] at h
    cases hk : t.kind with
    | number =>
      rw [hk] at h
      have hin : .reduce q ∈ (translate last stack ts).instructions := by
        simpa [prepend] using h
      exact (ih hin).imp_right later
    | leftParen =>
      rw [hk] at h
      exact (ih h).imp_right later
    | operator op =>
      rw [hk] at h
      rcases List.mem_append.mp h with h | h
      · exact .inl (mem_operators_of_reduce h)
      · rcases ih h with hw | hq
        · rcases List.mem_cons.mp hw with rfl | hw
          · exact .inr ⟨List.mem_cons_self, hk⟩
          · exact .inl (mem_operators_of_unwind hw)
        · exact .inr (later hq)
    | rightParen =>
      rw [hk] at h
      rcases unwind_always_cases stack with hu | ⟨opening, outer, hu⟩
      · simp only [hu] at h
        exact .inl (mem_operators_of_reduce h)
      · simp only [hu] at h
        rcases List.mem_append.mp h with h | h
        · exact .inl (mem_operators_of_reduce h)
        · rcases ih h with hw | hq
          · have houter : q ∈ Waiting.operators (unwind Operator.always stack).2 := by rwa [hu]
            exact .inl (mem_operators_of_unwind houter)
          · exact .inr (later hq)

end Postfix

theorem Ending.arisesIn_of_settle {ts : List Token} {values : List Int} {f : Fault}
    (h : (Postfix.ofTokens ts).ending.settle values = .error f) : f.ArisesIn ts := by
  rw [Postfix.ofTokens_ending] at h
  rcases settle_ofNesting_eq_error h with ⟨t, hnest, rfl⟩ | ⟨t, outer, hnest, rfl⟩ | ⟨-, -, rfl⟩
  · obtain ⟨before, u, after, opens, rfl, -, hu⟩ := foldlM_eq_error_iff.mp hnest
    obtain ⟨-, hkind, rfl⟩ := nest_eq_error_iff.mp hu
    exact ⟨t, by simp, hkind, rfl⟩
  · rcases mem_of_foldlM_nest hnest t List.mem_cons_self with hnil | ⟨ht, hkind⟩
    · cases hnil
    · exact ⟨t, ht, hkind, rfl⟩
  · rfl

theorem arisesIn_of_evaluate {ts : List Token} {f : Fault} (h : evaluate ts = .error f) :
    f.ArisesIn ts := by
  rw [evaluate_eq_ofTokens] at h
  rcases bind_eq_error_iff.mp h with hexecute | ⟨values, -, hsettle⟩
  · obtain ⟨before, i, after, values, hsplit, -, hi⟩ := foldlM_eq_error_iff.mp hexecute
    obtain ⟨q, rfl, hf⟩ := Instruction.perform_eq_error hi
    have hq : .reduce q ∈ (Postfix.ofTokens ts).instructions := by simp [hsplit]
    rcases Postfix.mem_translate hq with hnil | ⟨ht, hkind⟩
    · cases hnil
    · rcases hf with rfl | ⟨_, _, -, hdivide, rfl⟩
      · exact ⟨q.token, ht, ⟨_, hkind⟩, rfl, rfl⟩
      · exact ⟨q.token, ht, hdivide ▸ hkind, rfl⟩
  · exact Ending.arisesIn_of_settle hsettle

def Literal.front (cs : List Char) : List Char := signs cs ++ (digits cs).takeWhile Char.isDigit

/-- What a fault says of the character `c` that it points at, `offset` characters behind the start
of the text. -/
def Fault.Blames (filename : String) (cs : List Char) (offset : Nat) (c : Char) : Fault → Prop
  | invalidCharacter text _ => text = c.toString ∧ Text.isBlank c = false ∧ c.isDigit = false ∧
    ¬ LeadsOperand c ∧ c ≠ ')'
  | misplacedOperator lexeme _ => lexeme = c.toString ∧ (c = '*' ∨ c = '/') ∧
    ∀ b ∈ (Text.ink (cs.take offset)).getLast?, LeadsOperand b
  | invalidNumber lexeme _ _ => (c = '+' ∨ c = '-') ∧
    lexeme.toList = Literal.front (Text.ink (cs.drop offset)) ∧ ¬ IsNumeral lexeme.toList ∧
    ∃ ts, tokenize filename (String.ofList (cs.take offset)) = .ok ts ∧ awaitsOperand ts = true
  | unmatchedClosing _ => c = ')'
  | unclosedOpening _ => c = '('
  | missingOperand lexeme _ => lexeme = c.toString ∧ ∃ op : Operator, c = op.symbol
  | leftoverOperands _ _ => ∃ ts t, tokenize filename (String.ofList cs) = .ok ts ∧
    ts.getLast? = some t ∧ t.location = some (.ofOffset filename offset) ∧
    t.lexeme.toList.head? = some c
  | emptyExpression => False
  | divisionByZero _ => c = '/'

/-- The fault has a place in the text, and the character there is to blame for it. -/
def Fault.PointsAtCulprit (filename source : String) (f : Fault) : Prop :=
  ∃ (offset : Nat) (c : Char), source.toList[offset]? = some c ∧
    f.location = some ⟨filename, 1, offset + 1, offset⟩ ∧ f.Blames filename source.toList offset c

theorem Literal.front_append {ss ds rest : List Char} (hs : ∀ c ∈ ss, isSign c = true)
    (hd : ∀ c ∈ ds, c.isDigit = true)
    (hrest : ∀ c ∈ rest.head?, c.isDigit = false ∧ (ds = [] → isSign c = false)) :
    front (ss ++ ds ++ rest) = ss ++ ds := by
  have hsign : ∀ c ∈ (ds ++ rest).head?, isSign c = false := by
    cases ds with
    | nil => exact fun c hc => (hrest c hc).2 rfl
    | cons d ds =>
      intro c hc
      obtain rfl : d = c := by simpa using hc
      exact isSign_eq_false (hd d List.mem_cons_self)
  have hend : rest.takeWhile Char.isDigit = [] := by
    cases rest with
    | nil => rfl
    | cons c rest => simp [(hrest c rfl).1]
  obtain ⟨hsigns, hdigits⟩ := cut_append hs hsign
  rw [front, List.append_assoc, hsigns, hdigits, List.takeWhile_append_of_pos hd, hend,
    List.append_nil]

theorem IsNumeral.exists_read {cs : List Char} (h : IsNumeral cs) :
    ∃ v, Literal.read cs = .ok v := by
  obtain ⟨hsigns, hdigits, -⟩ := h.cut
  rw [Literal.read, if_neg hdigits, if_neg (Nat.not_lt.mpr hsigns)]
  exact ⟨_, rfl⟩

theorem Glyph.not_leadsOperand_of_foreign {g : Glyph} (h : g.role = .foreign) :
    g.char.isDigit = false ∧ ¬ LeadsOperand g.char ∧ g.char ≠ ')' := by
  have hkind (k : Token.Kind) : k.char? ≠ some g.char := by
    intro hk
    rw [← kind?_eq_some_iff, h] at hk
    cases hk
  refine ⟨isDigit_eq_false (by simp [h]), ?_, fun hc => hkind .rightParen (congrArg some hc.symm)⟩
  · rintro (hc | ⟨op, hc⟩)
    · exact hkind .leftParen (congrArg some hc.symm)
    · exact hkind (.operator op) (congrArg some hc.symm)

theorem not_isNumeral_append {ss ds : List Char} (hs : ∀ c ∈ ss, Literal.isSign c = true)
    (hd : ∀ c ∈ ds, c.isDigit = true) (hbad : ds = [] ∨ 1 < ss.length) :
    ¬ IsNumeral (ss ++ ds) := by
  intro h
  obtain ⟨v, hv⟩ := h.exists_read
  rw [Literal.read_append hs hd] at hv
  by_cases hnone : ds = []
  · rw [if_pos hnone] at hv
    cases hv
  · rw [if_neg hnone, if_pos (hbad.resolve_left hnone)] at hv
    cases hv

section
variable {signs digits after : List Glyph}

theorem Literal.front_map_char (hs : ∀ g ∈ signs, g.char = '+' ∨ g.char = '-')
    (hd : ∀ g ∈ digits, g.char.isDigit = true)
    (hend : ∀ g ∈ after.head?, g.char.isDigit = false ∧
      (digits = [] → g.char ≠ '+' ∧ g.char ≠ '-')) :
    front ((signs ++ digits ++ after).map Glyph.char) = (signs ++ digits).map Glyph.char := by
  have hdigits : ∀ c ∈ digits.map Glyph.char, c.isDigit = true := by simpa using hd
  have hafter : ∀ c ∈ (after.map Glyph.char).head?, c.isDigit = false ∧
      (digits.map Glyph.char = [] → isSign c = false) := by
    intro c hc
    rw [List.head?_map] at hc
    obtain ⟨g, hg, rfl⟩ := Option.map_eq_some_iff.mp hc
    refine ⟨(hend g hg).1, fun hnone => ?_⟩
    have hsign := (hend g hg).2 (List.map_eq_nil_iff.mp hnone)
    simp [isSign, hsign]
  rw [List.map_append, List.map_append, front_append (isSign_of_mem_map hs) hdigits hafter]

theorem not_isNumeral_map_char (hs : ∀ g ∈ signs, g.char = '+' ∨ g.char = '-')
    (hd : ∀ g ∈ digits, g.char.isDigit = true) (hbad : digits = [] ∨ 1 < signs.length) :
    ¬ IsNumeral ((signs ++ digits).map Glyph.char) := by
  have hdigits : ∀ c ∈ digits.map Glyph.char, c.isDigit = true := by simpa using hd
  rw [List.map_append]
  refine not_isNumeral_append (Literal.isSign_of_mem_map hs) hdigits ?_
  simpa using hbad

end

/-- The literal that is rejected is the longest run of signs and digits from its place on. -/
theorem Rejects.pointsAtCulprit {filename source : String} {f : Fault}
    (h : Rejects filename (Glyph.ofText source) f) : f.PointsAtCulprit filename source := by
  generalize hgs : Glyph.ofText source = gs at h
  cases h with
  | @character before after g hr =>
    obtain ⟨hat, hblank, -, -⟩ := Glyph.ofText_cut hgs
    exact ⟨g.offset, g.char, hat, rfl, rfl, hblank, Glyph.not_leadsOperand_of_foreign hr⟩
  | @operator before after g op hm hop hb =>
    obtain ⟨hat, -, hbefore, -⟩ := Glyph.ofText_cut hgs
    refine ⟨g.offset, g.char, hat, rfl, rfl, ?_, ?_⟩
    · cases op with
      | plus | minus => cases hop
      | times => exact .inl hm
      | divide => exact .inr hm
    · rw [← Glyph.map_char_ofText_ofList, hbefore, List.getLast?_map]
      intro b hlast
      obtain ⟨d, hd, rfl⟩ := Option.map_eq_some_iff.mp hlast
      exact hb d hd
  | @literal before signs digits after ts g reason hreads hawaits hs hd hbad hg hend =>
    obtain ⟨rest, hliteral⟩ := List.head?_eq_some_iff.mp hg
    rw [hliteral, List.append_assoc, List.cons_append] at hgs
    obtain ⟨hat, -, hbefore, hdrop⟩ := Glyph.ofText_cut hgs
    rw [← List.cons_append, ← hliteral] at hdrop
    refine ⟨g.offset, g.char, hat, rfl, ?_, ?_, ?_, ts, ?_, hawaits⟩
    · cases signs with
      | cons d signs =>
        obtain rfl : d = g := Option.some.inj hg
        exact hs d List.mem_cons_self
      | nil =>
        rcases hbad with rfl | hlong
        · cases hg
        · cases hlong
    · rw [String.toList_ofList, hdrop, Literal.front_map_char hs hd hend]
    · rw [String.toList_ofList]
      exact not_isNumeral_map_char hs hd hbad
    · rw [tokenize_eq_ok_iff, hbefore]
      exact hreads

theorem Fault.ArisesIn.pointsAtCulprit {filename source : String} {ts : List Token} {f : Fault}
    (hts : tokenize filename source = .ok ts) (hne : ts ≠ []) (h : f.ArisesIn ts) :
    f.PointsAtCulprit filename source := by
  have place {t : Token} (ht : t ∈ ts) : ∃ offset c, source.toList[offset]? = some c ∧
      t.location = some (.ofOffset filename offset) ∧ t.lexeme.toList.head? = some c ∧
      ∀ d, t.kind.char? = some d → c = d ∧ t.lexeme = d.toString := by
    obtain ⟨g, hg, hplace⟩ := (tokenize_eq_ok_iff.mp hts).exists_glyph ht
    exact ⟨g.offset, g.char, (Glyph.getElem?_of_mem_ofText hg).1, hplace⟩
  cases f with
  | unmatchedClosing l | unclosedOpening l =>
    obtain ⟨t, ht, hkind, rfl⟩ := h
    obtain ⟨offset, c, hat, hlocation, -, hc⟩ := place ht
    exact ⟨offset, c, hat, hlocation, (hc _ (by rw [hkind]; rfl)).1⟩
  | missingOperand lexeme l =>
    obtain ⟨t, ht, ⟨op, hkind⟩, rfl, rfl⟩ := h
    obtain ⟨offset, c, hat, hlocation, -, hc⟩ := place ht
    obtain ⟨rfl, hlexeme⟩ := hc op.symbol (by rw [hkind]; rfl)
    exact ⟨offset, _, hat, hlocation, hlexeme, op, rfl⟩
  | divisionByZero l =>
    obtain ⟨t, ht, hkind, rfl⟩ := h
    obtain ⟨offset, c, hat, hlocation, -, hc⟩ := place ht
    exact ⟨offset, c, hat, hlocation, (hc '/' (by rw [hkind]; rfl)).1⟩
  | leftoverOperands count l =>
    obtain rfl : l = ts.getLast?.bind (·.location) := h
    cases hlast : ts.getLast? with
    | none => exact absurd (List.getLast?_eq_none_iff.mp hlast) hne
    | some t =>
      obtain ⟨offset, c, hat, hlocation, hlexeme, -⟩ := place (List.mem_of_getLast? hlast)
      have htext : tokenize filename (String.ofList source.toList) = .ok ts := by
        rw [String.ofList_toList, hts]
      exact ⟨offset, c, hat, hlocation, ts, t, htext, hlast, hlocation, hlexeme⟩
  | invalidCharacter | misplacedOperator | invalidNumber | emptyExpression => cases h

theorem Reads.ne_nil {filename : String} {gs : List Glyph} {ts : List Token}
    (h : Reads filename gs ts) (hne : gs ≠ []) : ts ≠ [] := by
  cases h with
  | nil => contradiction
  | literal | mark => simp

namespace Calculator

variable {c : Calculator} {source : String}

theorem answer_calculate_of_isBlankText (h : Text.isBlankText source = true) :
    (c.calculate (some source)).answer = .error .emptyExpression := by
  rw [calculate, Traced.answer_reportFault, tokenize]
  simp only [h]
  rfl

/-- Every fault of a text that is not blank has a place in it. -/
theorem pointsAtCulprit_of_answer {f : Fault} (hne : Glyph.ofText source ≠ [])
    (h : (c.calculate (some source)).answer = .error f) : f.PointsAtCulprit c.filename source := by
  rw [c.answer_calculate hne] at h
  rcases bind_eq_error_iff.mp h with hscan | ⟨ts, hts, hevaluate⟩
  · exact (rejects_of_tokenize hscan).pointsAtCulprit
  · have hts' := (tokenize_eq_ok_iff.mp hts).ne_nil hne
    exact (arisesIn_of_evaluate hevaluate).pointsAtCulprit hts hts'

theorem answer_eq_emptyExpression_iff :
    (c.calculate (some source)).answer = .error .emptyExpression ↔
      Text.isBlankText source = true := by
  refine ⟨fun h => ?_, answer_calculate_of_isBlankText⟩
  by_contra hblank
  obtain ⟨_, _, _, _, hblames⟩ := pointsAtCulprit_of_answer (mt ofText_eq_nil_iff.mp hblank) h
  exact hblames

end Calculator

/-- A fault of a calculation has no place where the text is blank; otherwise it points at a
character of the text, and that one is to blame. -/
theorem calculate_points_at_culprit (c : Calculator) {source : String} {f : Fault}
    (h : (c.calculate (some source)).answer = .error f) :
    (f = .emptyExpression ∧ f.location = none) ∨ f.PointsAtCulprit c.filename source := by
  by_cases hblank : Glyph.ofText source = []
  · rw [Calculator.answer_calculate_of_isBlankText (ofText_eq_nil_iff.mp hblank)] at h
    cases h
    exact .inl ⟨rfl, rfl⟩
  · exact .inr (Calculator.pointsAtCulprit_of_answer hblank h)

/-- The rejected literal begins at its first sign and goes on over a blank. -/
theorem calculate_points_at_culprit_literal :
    ∃ f, (({} : Calculator).calculate (some "1 - (- -2)")).answer = .error f ∧
      f.cause = .invalidNumber ∧ f.location = some (.ofOffset "<expression>" 5) ∧
      f.PointsAtCulprit "<expression>" "1 - (- -2)" := by
  have hfault : (({} : Calculator).calculate (some "1 - (- -2)")).answer = .error (.invalidNumber
      "--2" (some (.ofOffset "<expression>" 5)) "A number may carry at most one leading sign.") := by
    decide +kernel
  refine ⟨_, hfault, rfl, rfl, ?_⟩
  rcases calculate_points_at_culprit {} hfault with ⟨hempty, -⟩ | hplace
  · cases hempty
  · exact hplace

end Abacus
