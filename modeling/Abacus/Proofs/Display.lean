import Abacus.Proofs.LineBreaks
import Abacus.Proofs.Rejection
import Abacus.Proofs.Spelling

/-! # How numbers are shown

A number is shown by its lexeme, with the numeral of its value beside it where the two differ. They
differ by a plus sign, by zeros in front and by the sign of a zero, and by nothing else: without
these an integer has only one numeral, the one that is written. It is read as the number again.
-/
namespace Abacus

/-- No plus sign, no zero in front of other digits and no sign before zero. -/
structure IsCanonical (cs : List Char) : Prop where
  isNumeral : IsNumeral cs
  no_plus : '+' ∉ cs
  lead : (Literal.digits cs).head? = some '0' → Literal.digits cs = ['0']
  no_negative_zero : '-' ∈ cs → numeralValue cs ≠ 0

section
variable {cs ds : List Char}

theorem Literal.digits_sign_append {sign : List Char} (hs : ∀ c ∈ sign, isSign c = true)
    (hd : ∀ d ∈ ds, d.isDigit = true) : digits (sign ++ ds) = ds :=
  (cut_append hs fun c hc => isSign_eq_false (hd c (List.mem_of_head? hc))).2

theorem Literal.digits_eq_self (hd : ∀ d ∈ ds, d.isDigit = true) : digits ds = ds :=
  digits_sign_append (List.forall_mem_nil _) hd

theorem Literal.digits_minus (hd : ∀ d ∈ ds, d.isDigit = true) : digits ('-' :: ds) = ds :=
  digits_sign_append (List.forall_mem_singleton.mpr rfl) hd

theorem numeralValue_digits (hd : ∀ d ∈ ds, d.isDigit = true) :
    numeralValue ds = Decimal.value ds := by
  rw [numeralValue_of_isDigit hd, Decimal.value_eq_ofDigitChars]

theorem numeralValue_minus : numeralValue ('-' :: ds) = -(Decimal.value ds : Int) := by
  rw [Decimal.value_eq_ofDigitChars]
  rfl

theorem not_mem_of_isDigit (hd : ∀ d ∈ ds, d.isDigit = true) : '+' ∉ ds ∧ '-' ∉ ds :=
  ⟨fun h => absurd (hd _ h) (by decide), fun h => absurd (hd _ h) (by decide)⟩

/-- Only a minus sign may stand before the digits, and not before zero. -/
theorem isCanonical_iff : IsCanonical cs ↔
    Decimal.Canonical cs ∨ ∃ ds, cs = '-' :: ds ∧ Decimal.Canonical ds ∧ Decimal.value ds ≠ 0 := by
  constructor
  · rintro ⟨⟨sign, ds, rfl, rfl | rfl | rfl, hne, hdigits⟩, hplus, hlead, hzero⟩
    · rw [List.nil_append] at hlead ⊢
      rw [Literal.digits_eq_self hdigits] at hlead
      exact .inl ⟨hne, hdigits, hlead⟩
    · exact absurd List.mem_cons_self hplus
    · rw [List.singleton_append] at hlead hzero ⊢
      rw [Literal.digits_minus hdigits] at hlead
      have hvalue := hzero List.mem_cons_self
      rw [numeralValue_minus, neg_ne_zero, Int.natCast_ne_zero] at hvalue
      exact .inr ⟨ds, rfl, ⟨hne, hdigits, hlead⟩, hvalue⟩
  · rintro (h | ⟨ds, rfl, h, hvalue⟩)
    · obtain ⟨hplus, hminus⟩ := not_mem_of_isDigit h.isDigit
      refine ⟨⟨[], cs, rfl, .inl rfl, h.ne_nil, h.isDigit⟩, hplus, ?_, fun hmem => ?_⟩
      · rw [Literal.digits_eq_self h.isDigit]
        exact h.lead
      · exact absurd hmem hminus
    · obtain ⟨hplus, -⟩ := not_mem_of_isDigit h.isDigit
      refine ⟨⟨['-'], ds, rfl, .inr (.inr rfl), h.ne_nil, h.isDigit⟩, ?_, ?_, fun _ => ?_⟩
      · exact List.not_mem_cons_of_ne_of_not_mem (by decide) hplus
      · rw [Literal.digits_minus h.isDigit]
        exact h.lead
      · rwa [numeralValue_minus, neg_ne_zero, Int.natCast_ne_zero]

theorem isCanonical_render (v : Int) : IsCanonical (Decimal.render v).toList := by
  have hcanonical := Decimal.canonical_toDigits v.natAbs
  rw [isCanonical_iff, Decimal.toList_render]
  by_cases hv : v < 0
  · rw [if_pos hv]
    refine .inr ⟨_, rfl, hcanonical, ?_⟩
    rw [Decimal.value_toDigits]
    omega
  · rw [if_neg hv]
    exact .inl hcanonical

theorem numeralValue_render (v : Int) : numeralValue (Decimal.render v).toList = v := by
  have hdigits := (Decimal.canonical_toDigits v.natAbs).isDigit
  rw [Decimal.toList_render]
  by_cases hv : v < 0
  · rw [if_pos hv, numeralValue_minus, Decimal.value_toDigits]
    omega
  · rw [if_neg hv, numeralValue_digits hdigits, Decimal.value_toDigits]
    omega

theorem IsCanonical.toList_render (h : IsCanonical cs) :
    (Decimal.render (numeralValue cs)).toList = cs := by
  rw [Decimal.toList_render]
  rcases isCanonical_iff.mp h with h | ⟨ds, rfl, h, hvalue⟩
  · have hnonneg : ¬ ((Decimal.value cs : Int) < 0) := by omega
    rw [numeralValue_digits h.isDigit, if_neg hnonneg, Int.natAbs_natCast, h.toDigits_value]
  · have hneg : -(Decimal.value ds : Int) < 0 := by omega
    rw [numeralValue_minus, if_pos hneg, Int.natAbs_neg, Int.natAbs_natCast, h.toDigits_value]

/-- The canonical numeral of a value is the one that is written. -/
theorem isCanonical_iff_render {s : String} :
    IsCanonical s.toList ↔ Decimal.render (numeralValue s.toList) = s := by
  constructor
  · intro h
    exact String.toList_inj.mp h.toList_render
  · intro h
    rw [← h]
    exact isCanonical_render _

end

/-- A printable text without single quotes and backslashes is quoted as it stands. -/
theorem Text.quoted_eq {s : String}
    (h : ∀ c ∈ s.toList, isPrintable c = true ∧ c ≠ '\'' ∧ c ≠ '\\') :
    quoted s = "'" ++ s ++ "'" := by
  have hquote : enclosingQuote s.toList = '\'' := if_neg fun hmem => (h _ hmem.1).2.1 rfl
  have hself : s.toList.flatMap (escaped '\'') = s.toList := by
    rw [List.flatMap_congr fun c hc => escaped_eq_self (h c hc).1 (h c hc).2.1 (h c hc).2.2]
    exact List.flatMap_singleton' s.toList
  apply String.toList_inj.mp
  rw [quoted, hquote, String.toList_ofList, hself, String.toList_append, String.toList_append]
  rfl

theorem IsNumeral.quoted_eq {s : String} (h : IsNumeral s.toList) :
    Text.quoted s = "'" ++ s ++ "'" := by
  apply Text.quoted_eq
  obtain ⟨sign, digits, hs, hsign, -, hdigits⟩ := h
  rw [hs, List.forall_mem_append]
  constructor
  · rcases hsign with rfl | rfl | rfl
    · exact List.forall_mem_nil _
    · exact List.forall_mem_singleton.mpr (by decide)
    · exact List.forall_mem_singleton.mpr (by decide)
  · intro d hd
    have hdigit := hdigits d hd
    refine ⟨Text.isPrintable_of_isPlain d (Text.isPlain_of_isDigit hdigit), ?_, ?_⟩ <;>
      rintro rfl <;> exact absurd hdigit (by decide)

theorem Token.text_number {t : Token} {v : Int} (hk : t.kind = .number) (hv : t.value = some v)
    (hl : IsNumeral t.lexeme.toList) :
    t.text = if Decimal.render v = t.lexeme then "NUMBER('" ++ t.lexeme ++ "')"
      else "NUMBER('" ++ t.lexeme ++ "' -> " ++ Decimal.render v ++ ")" := by
  rw [text, hk, hv, hl.quoted_eq]
  apply String.toList_inj.mp
  by_cases h : Decimal.render v = t.lexeme
  · rw [if_pos h]
    simp [h, Kind.name]
  · rw [if_neg h]
    simp [h, Kind.name]

theorem Token.text_eq_lexeme_iff {t : Token} {v : Int} (hk : t.kind = .number)
    (hv : t.value = some v) (hl : IsNumeral t.lexeme.toList) :
    t.text = "NUMBER('" ++ t.lexeme ++ "')" ↔ Decimal.render v = t.lexeme := by
  rw [text_number hk hv hl]
  constructor
  · intro h
    by_contra hne
    rw [if_neg hne] at h
    have hlength := congrArg String.length h
    simp only [String.length_append] at hlength
    have : "' -> ".length = 5 := rfl
    have : "')".length = 2 := rfl
    omega
  · intro h
    rw [if_pos h]

theorem tokenize_numeral (filename : String) {s : String} (h : IsNumeral s.toList) :
    ∃ t, tokenize filename s = .ok [t] ∧ t.kind = .number ∧ t.lexeme = s ∧
      t.value = some (numeralValue s.toList) := by
  have hlexical : Lexical [⟨.number, s⟩] := by
    rw [← List.nil_append [_], lexical_snoc]
    refine ⟨⟨by simp, by simp⟩, h, ?_, ?_, ?_⟩
    · rintro op ⟨⟩
    · simp
    · simp
  have hglyphs := hlexical.map_char_ofText
  rw [List.map_singleton, String.join_cons, String.join_nil, String.append_empty] at hglyphs
  obtain ⟨ts, hreads, hspelling⟩ : ∃ ts, Reads filename (Glyph.ofText s) ts ∧ _ :=
    hlexical.exists_reads hglyphs
  obtain ⟨t, rfl, ht⟩ := List.map_eq_singleton_iff.mp hspelling
  obtain ⟨hk, hl⟩ := Spelling.mk.inj ht
  refine ⟨t, tokenize_eq_ok_iff.mpr hreads, hk, hl, ?_⟩
  rw [hreads.value_eq t (List.mem_singleton_self t), if_pos hk, hl]

/-- Numbers are shown by their lexeme alone where it is canonical, and with the canonical numeral of
their value beside it where it is not. This numeral alone is read as a number of that value, and
shown alone. -/
theorem shown_with_canonical_numeral {filename source : String} {t : Token}
    (ht : t ∈ Scan.tokensRead filename source) (hk : t.kind = .number) :
    ∃ v, t.value = some v ∧ v = numeralValue t.lexeme.toList ∧
      IsCanonical (Decimal.render v).toList ∧
      (t.text = "NUMBER('" ++ t.lexeme ++ "')" ↔ IsCanonical t.lexeme.toList) ∧
      (IsCanonical t.lexeme.toList ↔ t.lexeme = Decimal.render v) ∧
      (¬ IsCanonical t.lexeme.toList →
        t.text = "NUMBER('" ++ t.lexeme ++ "' -> " ++ Decimal.render v ++ ")") ∧
      ∀ name, ∃ u, tokenize name (Decimal.render v) = .ok [u] ∧ u.kind = .number ∧
        u.lexeme = Decimal.render v ∧ u.value = some v ∧
        u.text = "NUMBER('" ++ Decimal.render v ++ "')" := by
  obtain ⟨before, after, -, hreads⟩ := Scan.exists_reads_tokensRead filename source
  have hl := hreads.isNumeral ht hk
  have hv : t.value = some (numeralValue t.lexeme.toList) := by
    rw [hreads.value_eq t ht, if_pos hk]
  refine ⟨_, hv, rfl, isCanonical_render _, ?_, isCanonical_iff_render.trans eq_comm, ?_, ?_⟩
  · exact (Token.text_eq_lexeme_iff hk hv hl).trans isCanonical_iff_render.symm
  · intro h
    rw [Token.text_number hk hv hl, if_neg (mt isCanonical_iff_render.mpr h)]
  · intro name
    have hnumeral := (isCanonical_render (numeralValue t.lexeme.toList)).isNumeral
    obtain ⟨u, hu, hkind, hlexeme, hvalue⟩ := tokenize_numeral name hnumeral
    rw [numeralValue_render] at hvalue
    rw [← hlexeme] at hu hnumeral ⊢
    exact ⟨u, hu, hkind, rfl, hvalue,
      (Token.text_eq_lexeme_iff hkind hvalue hnumeral).mpr hlexeme.symm⟩

/-- The tokens before a fault are shown too, and a zero with a sign is not canonical. -/
theorem shown_with_canonical_numeral_negative_zero :
    (⟨.number, "-00", some 0, some (.ofOffset "<expression>" 0)⟩ : Token) ∈
        Scan.tokensRead "<expression>" "-00 / $" ∧
      (⟨.number, "-00", some 0, some (.ofOffset "<expression>" 0)⟩ : Token).text =
        "NUMBER('-00' -> 0)" ∧
      ∃ u, tokenize "<expression>" "0" = .ok [u] ∧ u.value = some 0 ∧ u.text = "NUMBER('0')" := by
  have hmem : (⟨.number, "-00", some 0, some (.ofOffset "<expression>" 0)⟩ : Token) ∈
      Scan.tokensRead "<expression>" "-00 / $" := by
    decide +kernel
  obtain ⟨v, hv, -, -, -, -, hshown, hread⟩ := shown_with_canonical_numeral hmem rfl
  obtain rfl : 0 = v := Option.some.inj hv
  have hzero : Decimal.render 0 = "0" := by decide +kernel
  rw [hzero] at hshown hread
  refine ⟨hmem, ?_, ?_⟩
  · refine hshown fun h => h.no_negative_zero ?_ ?_ <;> decide +kernel
  · obtain ⟨u, hu, -, -, hvalue, htext⟩ := hread "<expression>"
    exact ⟨u, hu, hvalue, htext⟩

end Abacus
