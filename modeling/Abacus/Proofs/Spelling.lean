import Abacus.Proofs.Places
import Mathlib.Data.List.Induction
import Mathlib.Data.List.TakeWhile

/-! # How texts are spelled by their tokens

Kinds and lexemes alone tell which sequences of tokens a scan can end with: every token is spelled
as its kind demands, and next to each other stand only tokens that a scan keeps apart. Every such
sequence comes back from the text that its lexemes make up.
-/
namespace Abacus

/-- One sign at most, and then one digit or more. -/
def IsNumeral (lexeme : List Char) : Prop :=
  ∃ sign digits, lexeme = sign ++ digits ∧ (sign = [] ∨ sign = ['+'] ∨ sign = ['-']) ∧
    digits ≠ [] ∧ ∀ d ∈ digits, d.isDigit = true

def numeralValue : List Char → Int
  | '-' :: digits => -(Nat.ofDigitChars 10 digits 0)
  | '+' :: digits => Nat.ofDigitChars 10 digits 0
  | digits => Nat.ofDigitChars 10 digits 0

theorem IsNumeral.cut {cs : List Char} (h : IsNumeral cs) :
    (Literal.signs cs).length ≤ 1 ∧ Literal.digits cs ≠ [] ∧
      ∀ d ∈ Literal.digits cs, d.isDigit = true := by
  obtain ⟨sign, digits, rfl, hsign, hne, hdigits⟩ := h
  have hsigns : (∀ c ∈ sign, Literal.isSign c = true) ∧ sign.length ≤ 1 := by
    rcases hsign with rfl | rfl | rfl <;> simp [Literal.isSign]
  obtain ⟨hcutSigns, hcutDigits⟩ := Literal.cut_append hsigns.1 fun c hc =>
    Literal.isSign_eq_false (hdigits c (List.mem_of_head? hc))
  rw [hcutSigns, hcutDigits]
  exact ⟨hsigns.2, hne, hdigits⟩

/-- What is seen of a token without its value and its place. -/
structure Spelling where
  kind : Token.Kind
  lexeme : String
  deriving DecidableEq

namespace Spelling

/-- A number is spelled by a numeral, and every other token is a character by itself. -/
def Proper (p : Spelling) : Prop :=
  match p.kind.char? with
  | some c => p.lexeme = c.toString
  | none => IsNumeral p.lexeme.toList

/-- What may stand behind `last`, or at the start of a sequence where there is none. -/
structure MayFollow (last : Option Spelling) (p : Spelling) : Prop where
  operator : ∀ op, p.kind = .operator op → ∃ o ∈ last, o.kind.endsOperand = true
  number : p.kind = .number → ∀ o ∈ last, o.kind ≠ .number
  sign : p.kind = .number → (∃ c ∈ p.lexeme.toList.head?, c = '+' ∨ c = '-') →
    ∀ o ∈ last, o.kind.endsOperand = false

end Spelling

structure Lexical (ps : List Spelling) : Prop where
  proper : ∀ p ∈ ps, p.Proper
  mayFollow : ∀ before p after, ps = before ++ p :: after → p.MayFollow before.getLast?

theorem lexical_snoc {ps : List Spelling} {p : Spelling} :
    Lexical (ps ++ [p]) ↔ Lexical ps ∧ p.Proper ∧ p.MayFollow ps.getLast? := by
  constructor
  · intro h
    refine ⟨⟨fun q hq => h.proper q (List.mem_append_left _ hq), fun before q after hps => ?_⟩,
      h.proper p (by simp), h.mayFollow ps p [] rfl⟩
    exact h.mayFollow before q (after ++ [p]) (by simp [hps])
  · rintro ⟨hps, hproper, hfollow⟩
    refine ⟨?_, fun before q after hsplit => ?_⟩
    · intro q hq
      rcases List.mem_append.mp hq with hq | hq
      · exact hps.proper q hq
      · rwa [List.mem_singleton.mp hq]
    · induction after using List.reverseRecOn with
      | nil =>
        obtain ⟨rfl, hp⟩ := List.append_inj' hsplit rfl
        cases hp
        exact hfollow
      | append_singleton after r _ =>
        rw [← List.cons_append, ← List.append_assoc] at hsplit
        obtain ⟨rfl, -⟩ := List.append_inj' hsplit rfl
        exact hps.mayFollow before q after rfl

namespace Token

def spelling (t : Token) : Spelling := ⟨t.kind, t.lexeme⟩

end Token

section
variable {ts : List Token}

theorem awaitsOperand_eq_true_iff : awaitsOperand ts = true ↔
    ∀ o ∈ (ts.map Token.spelling).getLast?, o.kind.endsOperand = false := by
  rw [awaitsOperand, List.getLast?_map]
  cases ts.getLast? <;> simp [Token.spelling]

theorem awaitsOperand_eq_false_iff : awaitsOperand ts = false ↔
    ∃ o ∈ (ts.map Token.spelling).getLast?, o.kind.endsOperand = true := by
  rw [awaitsOperand, List.getLast?_map]
  cases ts.getLast? <;> simp [Token.spelling]

theorem endsInNumber_eq_false_iff : endsInNumber ts = false ↔
    ∀ o ∈ (ts.map Token.spelling).getLast?, o.kind ≠ .number := by
  rw [endsInNumber, List.getLast?_map]
  cases ts.getLast? <;> simp [Token.spelling]

end

section
variable {sign : Option Glyph} {digits : List Glyph}

theorem IsLiteral.isNumeral (h : IsLiteral sign digits) :
    IsNumeral ((sign.toList ++ digits).map (·.char)) := by
  refine ⟨sign.toList.map (·.char), digits.map (·.char), List.map_append, ?_, ?_, ?_⟩
  · cases hs : sign with
    | none => exact .inl rfl
    | some g => rcases h.sign_char g hs with hc | hc <;> simp [hc]
  · simpa using h.digits_ne_nil
  · simpa using h.isDigit

theorem IsLiteral.sign_ne_none (h : IsLiteral sign digits)
    (hc : ∃ c ∈ ((sign.toList ++ digits).map (·.char)).head?, c = '+' ∨ c = '-') :
    sign ≠ none := by
  rintro rfl
  obtain ⟨c, hc, hsign⟩ := hc
  have hmem : c ∈ digits.map (·.char) := List.mem_of_head? hc
  obtain ⟨d, hd, rfl⟩ := List.mem_map.mp hmem
  have hdigit := h.isDigit d hd
  rcases hsign with hc | hc <;> rw [hc] at hdigit <;> exact absurd hdigit (by decide)

theorem exists_isLiteral {gs : List Glyph} (h : IsNumeral (gs.map (·.char))) :
    ∃ (sign : Option Glyph) (digits : List Glyph), gs = sign.toList ++ digits ∧
      IsLiteral sign digits := by
  obtain ⟨scs, dcs, hsplit, hsign, hne, hdigits⟩ := h
  obtain ⟨ss, ds, rfl, rfl, rfl⟩ := List.map_eq_append_iff.mp hsplit
  have hds : ds ≠ [] := by simpa using hne
  have hdigit : ∀ g ∈ ds, g.char.isDigit = true := by simpa using hdigits
  rcases ss with _ | ⟨g, _ | ⟨_, _⟩⟩
  · exact ⟨none, ds, rfl, by simp, hds, hdigit⟩
  · exact ⟨some g, ds, rfl, by simpa using hsign, hds, hdigit⟩
  · simp at hsign

theorem numeralValue_of_isDigit {cs : List Char} (h : ∀ c ∈ cs, c.isDigit = true) :
    numeralValue cs = Nat.ofDigitChars 10 cs 0 := by
  unfold numeralValue
  split
  · exact absurd (h '-' List.mem_cons_self) (by decide)
  · exact absurd (h '+' List.mem_cons_self) (by decide)
  · rfl

theorem IsLiteral.numeralValue_eq (h : IsLiteral sign digits) :
    numeralValue ((sign.toList ++ digits).map (·.char)) = literalValue sign digits := by
  cases sign with
  | none =>
    have hdigits : ∀ c ∈ digits.map (·.char), c.isDigit = true := by simpa using h.isDigit
    exact numeralValue_of_isDigit hdigits
  | some g => rcases h.sign_char g rfl with hc | hc <;> simp [literalValue, numeralValue, hc]

end

variable {filename : String} {gs : List Glyph} {ts : List Token}

theorem Reads.lexical (h : Reads filename gs ts) : Lexical (ts.map Token.spelling) := by
  induction h with
  | nil => exact ⟨by simp, by simp⟩
  | @literal gs ts sign digits _ hl hs hn ih =>
    rw [List.map_append, List.map_singleton, lexical_snoc]
    refine ⟨ih, ?_, ?_, ?_, ?_⟩
    · simpa [Token.ofLiteral, Token.spelling, Spelling.Proper, Token.Kind.char?] using hl.isNumeral
    · intro op hop
      cases hop
    · exact fun _ => endsInNumber_eq_false_iff.mp hn
    · intro _ hc
      refine awaitsOperand_eq_true_iff.mp (hs (hl.sign_ne_none ?_))
      simpa [Token.ofLiteral, Token.spelling] using hc
  | @mark gs ts g k _ hk he ih =>
    have hnumber := Glyph.kind?_ne_number hk
    rw [List.map_append, List.map_singleton, lexical_snoc]
    refine ⟨ih, ?_, ?_, ?_, ?_⟩
    · simp [Token.ofGlyph, Token.spelling, Spelling.Proper, Glyph.kind?_eq_some_iff.mp hk]
    · exact fun op hop => awaitsOperand_eq_false_iff.mp (he op hop)
    · exact fun hk => absurd hk hnumber
    · exact fun hk => absurd hk hnumber

theorem Reads.isNumeral (h : Reads filename gs ts) {t : Token} (ht : t ∈ ts)
    (hk : t.kind = .number) : IsNumeral t.lexeme.toList := by
  have hproper := h.lexical.proper t.spelling (List.mem_map_of_mem ht)
  rw [Spelling.Proper, Token.spelling, hk] at hproper
  exact hproper

theorem Reads.value_eq (h : Reads filename gs ts) : ∀ t ∈ ts,
    t.value = if t.kind = .number then some (numeralValue t.lexeme.toList) else none := by
  induction h with
  | nil => simp
  | literal _ hl _ _ ih =>
    rw [List.forall_mem_append, List.forall_mem_singleton]
    refine ⟨ih, ?_⟩
    rw [Token.ofLiteral, String.toList_ofList, hl.numeralValue_eq]
    rfl
  | mark _ hk _ ih =>
    rw [List.forall_mem_append, List.forall_mem_singleton]
    refine ⟨ih, ?_⟩
    rw [Token.ofGlyph, if_neg (Glyph.kind?_ne_number hk)]

/-- The glyphs that a lexical sequence is spelled with are read as that sequence. -/
theorem Lexical.exists_reads {ps : List Spelling} (h : Lexical ps)
    (hgs : gs.map (·.char) = ps.flatMap (·.lexeme.toList)) :
    ∃ ts, Reads filename gs ts ∧ ts.map Token.spelling = ps := by
  induction ps using List.reverseRecOn generalizing gs with
  | nil =>
    obtain rfl : gs = [] := by simpa using hgs
    exact ⟨[], .nil, rfl⟩
  | append_singleton ps p ih =>
    obtain ⟨hps, hproper, hfollow⟩ := lexical_snoc.mp h
    rw [List.flatMap_append, List.flatMap_singleton] at hgs
    obtain ⟨before, last, rfl, hbefore, hlast⟩ := List.map_eq_append_iff.mp hgs
    obtain ⟨ts, hreads, rfl⟩ := ih hps hbefore
    obtain ⟨k, lexeme⟩ := p
    cases hc : k.char? with
    | none =>
      have hk : k = .number := by cases k <;> first | rfl | cases hc
      subst hk
      have hnumeral : IsNumeral (last.map (·.char)) := by rw [hlast]; exact hproper
      obtain ⟨sign, digits, rfl, hl⟩ := exists_isLiteral hnumeral
      have hsign : sign ≠ none → awaitsOperand ts = true := by
        intro hs
        obtain ⟨g, rfl⟩ := Option.ne_none_iff_exists'.mp hs
        refine awaitsOperand_eq_true_iff.mpr (hfollow.sign rfl ⟨g.char, ?_, hl.sign_char g rfl⟩)
        simp [← hlast]
      have hnumber := endsInNumber_eq_false_iff.mpr (hfollow.number rfl)
      refine ⟨_, hreads.literal hl hsign hnumber, ?_⟩
      rw [List.map_append, List.map_singleton, Token.ofLiteral, Token.spelling, hlast,
        String.ofList_toList]
    | some c =>
      have hlexeme : lexeme = c.toString := by simpa [Spelling.Proper, hc] using hproper
      obtain ⟨g, rfl, hg⟩ : ∃ g, last = [g] ∧ g.char = c := by
        simpa [hlexeme, List.map_eq_singleton_iff] using hlast
      have hkind : g.role.kind? = some k := Glyph.kind?_eq_some_iff.mpr (by rw [hc, hg])
      refine ⟨_, hreads.mark hkind fun op hop => ?_, ?_⟩
      · exact awaitsOperand_eq_false_iff.mpr (hfollow.operator op hop)
      · rw [List.map_append, List.map_singleton, Token.ofGlyph, Token.spelling, hg, hlexeme]

theorem Text.isBlank_of_isDigit {c : Char} (h : c.isDigit = true) : isBlank c = false := by
  have bounds : 48 ≤ c.toNat ∧ c.toNat ≤ 57 := by
    simpa [Char.isDigit, UInt32.le_iff_toNat_le] using h
  exact isBlank_eq_false (by omega) (by omega)

theorem Text.isBlank_of_isSign {c : Char} (h : Literal.isSign c = true) : isBlank c = false := by
  have hc : c = '+' ∨ c = '-' := by simpa [Literal.isSign] using h
  rcases hc with rfl | rfl <;> decide

theorem Token.Kind.isBlank_of_char? {k : Kind} {c : Char} (h : k.char? = some c) :
    Text.isBlank c = false := by
  cases k with
  | number => cases h
  | operator op =>
    obtain rfl := Option.some.inj h
    cases op <;> decide
  | leftParen | rightParen =>
    obtain rfl := Option.some.inj h
    decide

theorem Spelling.Proper.isBlank_eq_false {p : Spelling} (h : p.Proper) :
    ∀ c ∈ p.lexeme.toList, Text.isBlank c = false := by
  cases hk : p.kind.char? with
  | none =>
    have hnumeral : IsNumeral p.lexeme.toList := by simpa [Proper, hk] using h
    rw [← Literal.signs_append_digits p.lexeme.toList, List.forall_mem_append]
    exact ⟨fun c hc => Text.isBlank_of_isSign (List.mem_takeWhile_imp hc),
      fun c hc => Text.isBlank_of_isDigit (hnumeral.cut.2.2 c hc)⟩
  | some d =>
    have hlexeme : p.lexeme = d.toString := by simpa [Proper, hk] using h
    intro c hc
    obtain rfl : c = d := by simpa [hlexeme] using hc
    exact Token.Kind.isBlank_of_char? hk

theorem Lexical.map_char_ofText {ps : List Spelling} (h : Lexical ps) :
    (Glyph.ofText (String.join (ps.map (·.lexeme)))).map (·.char) =
      ps.flatMap (·.lexeme.toList) := by
  rw [Glyph.map_char_ofText, String.toList_join, List.flatMap_map, List.filter_eq_self]
  intro c hc
  obtain ⟨p, hp, hc⟩ := List.mem_flatMap.mp hc
  simp [(h.proper p hp).isBlank_eq_false c hc]

/-- Tokens are always lexical, and the lexemes of a lexical sequence make up a text from which the
sequence comes back, with the value of its numeral in every number. -/
theorem tokenize_spells_lexical (filename : String) :
    (∀ source ts, tokenize filename source = .ok ts → Lexical (ts.map Token.spelling)) ∧
    ∀ ps, Lexical ps → ∃ ts, tokenize filename (String.join (ps.map (·.lexeme))) = .ok ts ∧
      ts.map Token.spelling = ps ∧ ∀ t ∈ ts,
        t.value = if t.kind = .number then some (numeralValue t.lexeme.toList) else none := by
  constructor
  · intro source ts h
    exact (tokenize_eq_ok_iff.mp h).lexical
  · intro ps h
    obtain ⟨ts, hreads, hspelling⟩ := h.exists_reads h.map_char_ofText
    exact ⟨ts, tokenize_eq_ok_iff.mpr hreads, hspelling, hreads.value_eq⟩

/-- Signs and leading zeros come back as they were written. -/
theorem tokenize_spells_lexical_product :
    Lexical [⟨.number, "-2"⟩, ⟨.operator .times, "*"⟩, ⟨.leftParen, "("⟩, ⟨.number, "+07"⟩,
        ⟨.rightParen, ")"⟩] ∧
      ∃ ts, tokenize "<expression>" (String.join ["-2", "*", "(", "+07", ")"]) = .ok ts ∧
        ts.map Token.spelling = [⟨.number, "-2"⟩, ⟨.operator .times, "*"⟩, ⟨.leftParen, "("⟩,
          ⟨.number, "+07"⟩, ⟨.rightParen, ")"⟩] ∧ ∀ t ∈ ts,
          t.value = if t.kind = .number then some (numeralValue t.lexeme.toList) else none := by
  have htokens : tokenize "<expression>" "-2*(+07)" = .ok
      [⟨.number, "-2", some (-2), some (.ofOffset "<expression>" 0)⟩,
        ⟨.operator .times, "*", none, some (.ofOffset "<expression>" 2)⟩,
        ⟨.leftParen, "(", none, some (.ofOffset "<expression>" 3)⟩,
        ⟨.number, "+07", some 7, some (.ofOffset "<expression>" 4)⟩,
        ⟨.rightParen, ")", none, some (.ofOffset "<expression>" 7)⟩] := by
    decide +kernel
  have hlexical := (tokenize_spells_lexical "<expression>").1 _ _ htokens
  exact ⟨hlexical, (tokenize_spells_lexical "<expression>").2 _ hlexical⟩

end Abacus
