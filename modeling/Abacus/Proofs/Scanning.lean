import Abacus.Proofs.Reading
import Abacus.Proofs.Runs

/-! # A scan reads a text

A scan that has come as far as the glyphs `gs` has read all of them but a last literal, which it
holds as signs and digits. From this follows in both directions that it ends with the tokens `ts`
exactly where the glyphs of the text are read as `ts`.
-/
namespace Abacus

namespace Glyph

theorem role_eq_digit_iff {g : Glyph} : g.role = .digit ↔ g.char.isDigit = true := by
  rw [role, Role.ofChar]
  constructor
  · intro h
    split at h
    · assumption
    · split at h
      · contradiction
      · split at h
        · contradiction
        · split at h <;> contradiction
  · intro h
    rw [if_pos h]

theorem kind?_eq_some_iff {g : Glyph} {k : Token.Kind} :
    g.role.kind? = some k ↔ k.char? = some g.char := by
  rw [role, Role.ofChar]
  constructor
  · intro h
    split at h
    · contradiction
    · split at h
      · rename_i op hop
        obtain rfl : Token.Kind.operator op = k := Option.some.inj h
        exact congrArg some (Operator.ofChar?_eq_some_iff.mp hop).symm
      · split at h
        · rename_i hc
          obtain rfl : Token.Kind.leftParen = k := Option.some.inj h
          exact congrArg some hc.symm
        · split at h
          · rename_i hc
            obtain rfl : Token.Kind.rightParen = k := Option.some.inj h
            exact congrArg some hc.symm
          · contradiction
  · intro h
    cases k with
    | number => contradiction
    | leftParen | rightParen =>
      rw [← Option.some.inj h]
      rfl
    | operator op =>
      rw [← Option.some.inj h]
      cases op <;> rfl

theorem role_eq_operator_iff {g : Glyph} {op : Operator} :
    g.role = .operator op ↔ g.char = op.symbol := by
  have hkind : g.role = .operator op ↔ g.role.kind? = some (.operator op) := by
    cases g.role <;> simp [Role.kind?]
  rw [hkind, kind?_eq_some_iff, Token.Kind.char?, Option.some_inj, eq_comm]

theorem kind?_ne_number {g : Glyph} {k : Token.Kind} (h : g.role.kind? = some k) :
    k ≠ .number := by
  rintro rfl
  cases kind?_eq_some_iff.mp h

theorem isDigit_eq_false {g : Glyph} (h : g.role ≠ .digit) : g.char.isDigit = false := by
  rw [← Bool.not_eq_true, ← role_eq_digit_iff]
  exact h

end Glyph

theorem Literal.isSign_of_mem_map {signs : List Glyph}
    (h : ∀ g ∈ signs, g.char = '+' ∨ g.char = '-') :
    ∀ c ∈ signs.map (·.char), isSign c = true := by
  intro c hc
  obtain ⟨g, hg, rfl⟩ := List.mem_map.mp hc
  rcases h g hg with hc | hc <;> simp [isSign, hc]

namespace Scan

variable {filename : String}

theorem step_digit {s : Scan} {g : Glyph} (hg : g.char.isDigit = true) :
    s.step filename g = .ok (s.extend g false) := by
  simp only [step, Glyph.role_eq_digit_iff.mpr hg]

theorem step_sign {s : Scan} {g : Glyph} (hg : g.char = '+' ∨ g.char = '-')
    (he : s.expectsOperand = true) :
    s.step filename g = .ok (s.extend g true) := by
  rcases hg with hg | hg
  · have hr : g.role = .operator .plus := Glyph.role_eq_operator_iff.mpr hg
    simp [step, hr, he, Operator.isSign]
  · have hr : g.role = .operator .minus := Glyph.role_eq_operator_iff.mpr hg
    simp [step, hr, he, Operator.isSign]

theorem step_mark {s : Scan} {g : Glyph} {k : Token.Kind} (hk : g.role.kind? = some k)
    (he : ∀ op, k = .operator op → s.expectsOperand = false) :
    s.step filename g =
      (s.flush filename >>= fun s => .ok (s.emit filename g k !k.endsOperand)) := by
  unfold step
  cases hr : g.role with
  | digit | foreign => simp [hr, Glyph.Role.kind?] at hk
  | operator op =>
    obtain rfl : Token.Kind.operator op = k := by simpa [hr, Glyph.Role.kind?] using hk
    simp only [he op rfl]
    rfl
  | leftParen =>
    obtain rfl : Token.Kind.leftParen = k := by simpa [hr, Glyph.Role.kind?] using hk
    rfl
  | rightParen =>
    obtain rfl : Token.Kind.rightParen = k := by simpa [hr, Glyph.Role.kind?] using hk
    rfl

/-- All that a step can do: it extends the literal, it fails without looking at the literal, or its
glyph is a token by itself. -/
theorem step_forms (filename : String) (s : Scan) (g : Glyph) :
    (g.char.isDigit = true ∧ s.step filename g = .ok (s.extend g false)) ∨
    ((g.char = '+' ∨ g.char = '-') ∧ s.expectsOperand = true ∧
      s.step filename g = .ok (s.extend g true)) ∨
    (g.role = .foreign ∧ s.step filename g =
      .error ⟨.invalidCharacter g.char.toString (some (.ofOffset filename g.offset)), s⟩) ∨
    (∃ op : Operator, g.char = op.symbol ∧ op.isSign = false ∧ s.expectsOperand = true ∧
      s.step filename g =
        .error ⟨.misplacedOperator g.char.toString (some (.ofOffset filename g.offset)), s⟩) ∨
    ∃ k, g.role.kind? = some k ∧ ∀ op, k = .operator op → s.expectsOperand = false := by
  cases hr : g.role with
  | digit =>
    have hd := Glyph.role_eq_digit_iff.mp hr
    exact .inl ⟨hd, step_digit hd⟩
  | foreign => exact .inr (.inr (.inl ⟨rfl, by rw [step, hr]⟩))
  | leftParen | rightParen => exact .inr (.inr (.inr (.inr ⟨_, rfl, by simp⟩)))
  | operator op =>
    have hc := Glyph.role_eq_operator_iff.mp hr
    cases hs : s.expectsOperand with
    | false => exact .inr (.inr (.inr (.inr ⟨_, rfl, fun _ _ => rfl⟩)))
    | true =>
      cases op with
      | plus => exact .inr (.inl ⟨.inl hc, rfl, step_sign (.inl hc) hs⟩)
      | minus => exact .inr (.inl ⟨.inr hc, rfl, step_sign (.inr hc) hs⟩)
      | times | divide =>
        refine .inr (.inr (.inr (.inl ⟨_, hc, rfl, rfl, ?_⟩)))
        simp [step, hr, hs, Operator.isSign]

theorem step_cases {s s' : Scan} {g : Glyph} (h : s.step filename g = .ok s') :
    (g.char.isDigit = true ∧ s' = s.extend g false) ∨
    ((g.char = '+' ∨ g.char = '-') ∧ s.expectsOperand = true ∧ s' = s.extend g true) ∨
    ∃ k, g.role.kind? = some k ∧ (∀ op, k = .operator op → s.expectsOperand = false) ∧
      ∃ t, s.flush filename = .ok t ∧ s' = t.emit filename g k !k.endsOperand := by
  rcases step_forms filename s g with
    ⟨hg, hs⟩ | ⟨hg, he, hs⟩ | ⟨-, hs⟩ | ⟨-, -, -, -, hs⟩ | ⟨k, hk, he⟩
  · rw [hs] at h
    cases h
    exact .inl ⟨hg, rfl⟩
  · rw [hs] at h
    cases h
    exact .inr (.inl ⟨hg, he, rfl⟩)
  · rw [hs] at h
    cases h
  · rw [hs] at h
    cases h
  · rw [step_mark hk he] at h
    obtain ⟨t, hf, ht⟩ := bind_eq_ok_iff.mp h
    cases ht
    exact .inr (.inr ⟨k, hk, he, t, hf, rfl⟩)

/-- What a scan has done with the glyphs so far: it has read `before`, and it holds the literal that
`signs` and `digits` make up. -/
structure Tracks (filename : String) (before signs digits : List Glyph) (s : Scan) : Prop where
  reads : Reads filename before s.tokens.toList
  literal : s.literal.toList = (signs ++ digits).map (·.char)
  start : ∀ g ∈ (signs ++ digits).head?, s.start = g.offset
  sign_char : ∀ g ∈ signs, g.char = '+' ∨ g.char = '-'
  isDigit : ∀ g ∈ digits, g.char.isDigit = true
  signed : signs ≠ [] → awaitsOperand s.tokens.toList = true
  apart : endsInNumber s.tokens.toList = false
  expects : s.expectsOperand = (digits.isEmpty && awaitsOperand s.tokens.toList)

variable {before signs digits : List Glyph} {s t : Scan}

theorem tracks_start : Tracks filename [] [] [] {} where
  reads := .nil
  literal := rfl
  start := by simp
  sign_char := by simp
  isDigit := by simp
  signed := by simp
  apart := rfl
  expects := rfl

theorem Tracks.read_literal (h : Tracks filename before signs digits s) :
    Literal.read s.literal.toList = if digits = [] then .error .noDigits
      else if 1 < signs.length then .error .severalSigns
      else .ok (Literal.signed (signs.map (·.char))
        (Nat.ofDigitChars 10 (digits.map (·.char)) 0)) := by
  have hs := Literal.isSign_of_mem_map h.sign_char
  have hd : ∀ c ∈ digits.map (·.char), c.isDigit = true := by
    intro c hc
    obtain ⟨g, hg, rfl⟩ := List.mem_map.mp hc
    exact h.isDigit g hg
  rw [h.literal, List.map_append, Literal.read_append hs hd]
  simp only [List.map_eq_nil_iff, List.length_map]

theorem flush_of_isEmpty (h : s.literal = "") : s.flush filename = .ok s := by
  simp [flush, h]

theorem Tracks.flush_literal {sign : Option Glyph}
    (h : Tracks filename before sign.toList digits s) (hne : digits ≠ []) :
    s.flush filename = .ok { s with
      tokens := s.tokens.push (.ofLiteral filename sign digits), literal := "" } := by
  have hblank : s.literal ≠ "" := by
    intro hb
    have := h.literal
    simp [hb, hne] at this
  have hshort : ¬1 < sign.toList.length := by cases sign <;> simp
  have hvalue : Literal.signed (sign.toList.map (·.char))
      (Nat.ofDigitChars 10 (digits.map (·.char)) 0) = literalValue sign digits := by
    cases sign <;> simp [Literal.signed, literalValue]
  have hlexeme : s.literal = String.ofList ((sign.toList ++ digits).map (·.char)) := by
    rw [← h.literal, String.ofList_toList]
  have hplace : some (Location.ofOffset filename s.start) =
      (sign.toList ++ digits).head?.map (.ofOffset filename ·.offset) := by
    have hstart := h.start
    cases hg : (sign.toList ++ digits).head? with
    | none => simp [hne] at hg
    | some g => rw [hstart g hg]; rfl
  have hread := h.read_literal
  rw [if_neg hne, if_neg hshort, hvalue] at hread
  simp only [flush, String.isEmpty_iff, hblank, hread, if_false, Token.ofLiteral, ← hplace,
    ← hlexeme]

/-- All that the end of a literal can do where it does not fail. -/
theorem Tracks.flush_cases (h : Tracks filename before signs digits s)
    (hf : s.flush filename = .ok t) :
    (signs = [] ∧ digits = [] ∧ t = s) ∨
    ∃ sign : Option Glyph, signs = sign.toList ∧ IsLiteral sign digits ∧
      t = { s with tokens := s.tokens.push (.ofLiteral filename sign digits), literal := "" } := by
  by_cases hblank : s.literal = ""
  · have := h.literal
    rw [flush_of_isEmpty hblank] at hf
    cases hf
    refine .inl ?_
    simpa [hblank] using this
  · have hread := h.read_literal
    have hlexeme := hf
    simp only [flush, String.isEmpty_iff, hblank] at hlexeme
    by_cases hne : digits = []
    · rw [if_pos hne] at hread
      simp [hread] at hlexeme
    · by_cases hlong : 1 < signs.length
      · rw [if_neg hne, if_pos hlong] at hread
        simp [hread] at hlexeme
      · obtain ⟨sign, rfl⟩ : ∃ sign : Option Glyph, signs = sign.toList := by
          rcases signs with _ | ⟨g, _ | ⟨_, _⟩⟩
          · exact ⟨none, rfl⟩
          · exact ⟨some g, rfl⟩
          · simp at hlong
        rw [h.flush_literal hne] at hf
        cases hf
        have hsign : ∀ g ∈ sign, g.char = '+' ∨ g.char = '-' := by
          intro g hg
          exact h.sign_char g (Option.mem_toList.mpr hg)
        exact .inr ⟨sign, rfl, ⟨hsign, hne, h.isDigit⟩, rfl⟩

theorem Tracks.flush_reads (h : Tracks filename before signs digits s)
    (hf : s.flush filename = .ok t) :
    Reads filename (before ++ (signs ++ digits)) t.tokens.toList ∧ t.literal = "" ∧
      awaitsOperand t.tokens.toList = s.expectsOperand := by
  rcases h.flush_cases hf with ⟨rfl, rfl, rfl⟩ | ⟨sign, rfl, hl, rfl⟩
  · have hblank : t.literal = "" := by simpa using h.literal
    exact ⟨by simpa using h.reads, hblank, by simpa using h.expects.symm⟩
  · have hs : sign ≠ none → awaitsOperand s.tokens.toList = true := by
      intro hs
      apply h.signed
      simpa using hs
    refine ⟨?_, rfl, ?_⟩
    · simpa using h.reads.literal hl hs h.apart
    · rw [h.expects]
      simp [Token.ofLiteral, Token.Kind.endsOperand, hl.digits_ne_nil]

theorem Tracks.literal_extend (h : Tracks filename before signs digits s) (g : Glyph) (e : Bool) :
    (s.extend g e).literal.toList = (signs ++ digits ++ [g]).map (·.char) := by
  simp [extend, h.literal]

theorem Tracks.start_extend (h : Tracks filename before signs digits s) (g : Glyph) (e : Bool) :
    ∀ d ∈ (signs ++ digits ++ [g]).head?, (s.extend g e).start = d.offset := by
  intro d hd
  have hstart := h.start
  have hliteral := h.literal
  cases hc : signs ++ digits with
  | nil =>
    have hblank : s.literal = "" := by simpa [hc] using hliteral
    obtain rfl : g = d := by simpa [hc] using hd
    simp [extend, hblank]
  | cons c cs =>
    have hblank : s.literal ≠ "" := by
      intro hb
      simp [hb, hc] at hliteral
    obtain rfl : c = d := by simpa [hc] using hd
    simpa [extend, hblank] using hstart c (by rw [hc]; rfl)

theorem Tracks.digit (h : Tracks filename before signs digits s) {g : Glyph}
    (hg : g.char.isDigit = true) :
    Tracks filename before signs (digits ++ [g]) (s.extend g false) where
  reads := h.reads
  literal := by simpa using h.literal_extend g false
  start := by simpa using h.start_extend g false
  sign_char := h.sign_char
  isDigit := by
    intro d hd
    rcases List.mem_append.mp hd with hd | hd
    · exact h.isDigit d hd
    · rw [List.mem_singleton.mp hd]
      exact hg
  signed := h.signed
  apart := h.apart
  expects := by simp [extend]

theorem Tracks.sign (h : Tracks filename before signs digits s) {g : Glyph}
    (hg : g.char = '+' ∨ g.char = '-') (he : s.expectsOperand = true) :
    digits = [] ∧ Tracks filename before (signs ++ [g]) [] (s.extend g true) := by
  have hexpects := h.expects
  rw [he, eq_comm, Bool.and_eq_true, List.isEmpty_iff] at hexpects
  obtain ⟨rfl, hawaits⟩ := hexpects
  refine ⟨rfl, ?_⟩
  exact {
    reads := h.reads
    literal := by simpa using h.literal_extend g true
    start := by simpa using h.start_extend g true
    sign_char := by
      intro d hd
      rcases List.mem_append.mp hd with hd | hd
      · exact h.sign_char d hd
      · rw [List.mem_singleton.mp hd]
        exact hg
    isDigit := h.isDigit
    signed := fun _ => hawaits
    apart := h.apart
    expects := by simpa [extend] using hawaits.symm }

theorem Tracks.mark (h : Tracks filename before signs digits s) (hf : s.flush filename = .ok t)
    {g : Glyph} {k : Token.Kind} (hk : g.role.kind? = some k)
    (he : ∀ op, k = .operator op → s.expectsOperand = false) :
    Tracks filename (before ++ (signs ++ digits) ++ [g]) [] []
      (t.emit filename g k !k.endsOperand) := by
  obtain ⟨hreads, hblank, hawaits⟩ := h.flush_reads hf
  have hkind := Glyph.kind?_ne_number hk
  have htokens : (t.emit filename g k !k.endsOperand).tokens.toList =
      t.tokens.toList ++ [.ofGlyph filename k g] := by
    simp [emit, Token.ofGlyph]
  exact {
    reads := by
      rw [htokens]
      exact hreads.mark hk fun op hop => hawaits.trans (he op hop)
    literal := by simp [emit, hblank]
    start := by simp
    sign_char := by simp
    isDigit := by simp
    signed := by simp
    apart := by simp [htokens, Token.ofGlyph, hkind]
    expects := by simp [emit] }

theorem Tracks.step (h : Tracks filename before signs digits s) {g : Glyph}
    (hs : s.step filename g = .ok t) :
    ∃ before' signs' digits', Tracks filename before' signs' digits' t ∧
      before' ++ (signs' ++ digits') = before ++ (signs ++ digits) ++ [g] := by
  rcases step_cases hs with ⟨hg, rfl⟩ | ⟨hg, he, rfl⟩ | ⟨k, hk, he, u, hf, rfl⟩
  · exact ⟨_, _, _, h.digit hg, by simp⟩
  · obtain ⟨rfl, htracks⟩ := h.sign hg he
    exact ⟨_, _, _, htracks, by simp⟩
  · exact ⟨_, _, _, h.mark hf hk he, by simp⟩

theorem Tracks.foldlM {gs : List Glyph} (h : Tracks filename before signs digits s)
    (hs : gs.foldlM (Scan.step filename) s = .ok t) :
    ∃ before' signs' digits', Tracks filename before' signs' digits' t ∧
      before' ++ (signs' ++ digits') = before ++ (signs ++ digits) ++ gs := by
  induction gs generalizing before signs digits s with
  | nil =>
    cases hs
    exact ⟨_, _, _, h, by simp⟩
  | cons g gs ih =>
    rw [List.foldlM_cons] at hs
    cases hg : s.step filename g with
    | error e => rw [hg] at hs; cases hs
    | ok u =>
      rw [hg] at hs
      obtain ⟨_, _, _, hu, heq⟩ := h.step hg
      obtain ⟨_, _, _, ht, heq'⟩ := ih hu hs
      exact ⟨_, _, _, ht, by rw [heq', heq]; simp⟩

theorem Tracks.foldlM_digits (h : Tracks filename before signs digits s) {ds : List Glyph}
    (hd : ∀ g ∈ ds, g.char.isDigit = true) :
    ∃ t, ds.foldlM (Scan.step filename) s = .ok t ∧ t.tokens = s.tokens ∧
      Tracks filename before signs (digits ++ ds) t := by
  induction ds generalizing s digits with
  | nil => exact ⟨s, rfl, rfl, by simpa using h⟩
  | cons g ds ih =>
    have hg := hd g List.mem_cons_self
    obtain ⟨t, ht, htokens, htracks⟩ :=
      ih (h.digit hg) fun d hd' => hd d (List.mem_cons_of_mem g hd')
    refine ⟨t, ?_, htokens, by simpa using htracks⟩
    rw [List.foldlM_cons, step_digit hg]
    exact ht

theorem Tracks.foldlM_literal (h : Tracks filename before [] [] s) {sign : Option Glyph}
    {ds : List Glyph} (hl : IsLiteral sign ds)
    (hs : sign ≠ none → awaitsOperand s.tokens.toList = true) :
    ∃ t, (sign.toList ++ ds).foldlM (Scan.step filename) s = .ok t ∧ t.tokens = s.tokens ∧
      Tracks filename before sign.toList ds t := by
  cases sign with
  | none => exact h.foldlM_digits hl.isDigit
  | some g =>
    have hg := hl.sign_char g rfl
    have he : s.expectsOperand = true := by simpa [hs] using h.expects
    obtain ⟨t, ht, htokens, htracks⟩ := (h.sign hg he).2.foldlM_digits hl.isDigit
    refine ⟨t, ?_, htokens, htracks⟩
    rw [Option.toList_some, List.singleton_append, List.foldlM_cons, step_sign hg he]
    exact ht

/-- What can be read is scanned. -/
theorem exists_scan_of_reads {gs : List Glyph} {ts : List Token} (h : Reads filename gs ts) :
    ∃ s t before signs digits, gs.foldlM (Scan.step filename) {} = .ok s ∧
      Tracks filename before signs digits s ∧ s.flush filename = .ok t ∧
      t.tokens.toList = ts := by
  induction h with
  | nil => exact ⟨{}, {}, [], [], [], rfl, tracks_start, rfl, rfl⟩
  | literal h hl hs hn ih =>
    obtain ⟨s, t, _, _, _, hrun, htracks, hf, rfl⟩ := ih
    rcases htracks.flush_cases hf with ⟨rfl, rfl, rfl⟩ | ⟨_, _, _, rfl⟩
    · obtain ⟨u, hu, htokens, hutracks⟩ := htracks.foldlM_literal hl hs
      refine ⟨u, _, _, _, _, ?_, hutracks, hutracks.flush_literal hl.digits_ne_nil, ?_⟩
      · rw [List.foldlM_append, hrun]
        exact hu
      · simp [htokens]
    · simp [Token.ofLiteral] at hn
  | mark h hk he ih =>
    obtain ⟨s, t, _, _, _, hrun, htracks, hf, rfl⟩ := ih
    have hawaits := (htracks.flush_reads hf).2.2
    have he' := fun op hop => hawaits.symm.trans (he op hop)
    have hmark := htracks.mark hf hk he'
    refine ⟨_, _, _, _, _, ?_, hmark, flush_of_isEmpty (by simpa using hmark.literal), ?_⟩
    · rw [List.foldlM_append, hrun]
      simp [step_mark hk he', hf, bind, Except.bind, pure, Except.pure]
    · simp [emit, Token.ofGlyph]

/-- Wherever a scan comes, it has read all glyphs so far but a last literal, which it holds. -/
theorem exists_tracks {gs : List Glyph} (h : gs.foldlM (Scan.step filename) {} = .ok s) :
    ∃ before signs digits, Tracks filename before signs digits s ∧
      before ++ (signs ++ digits) = gs := by
  obtain ⟨_, _, _, htracks, heq⟩ := tracks_start.foldlM h
  exact ⟨_, _, _, htracks, by simpa using heq⟩

/-- A scan ends with the tokens that its glyphs are read as, and succeeds where there are such. -/
theorem read_eq_ok_iff {gs : List Glyph} {ts : List Token} :
    (∃ s, read filename {} gs = .ok s ∧ s.tokens.toList = ts) ↔ Reads filename gs ts := by
  constructor
  · rintro ⟨t, ht, rfl⟩
    obtain ⟨s, hs, hf⟩ := bind_eq_ok_iff.mp ht
    obtain ⟨_, _, _, htracks, rfl⟩ := exists_tracks hs
    exact (htracks.flush_reads hf).1
  · intro h
    obtain ⟨s, t, _, _, _, hs, _, hf, htokens⟩ := exists_scan_of_reads h
    exact ⟨t, bind_eq_ok_iff.mpr ⟨s, hs, hf⟩, htokens⟩

end Scan

/-- Tokens come from exactly the texts whose glyphs are read as them. -/
theorem tokenize_eq_ok_iff {filename source : String} {ts : List Token} :
    tokenize filename source = .ok ts ↔ Reads filename (Glyph.ofText source) ts := by
  rw [← Scan.read_eq_ok_iff, tokenize, Scan.ofText]
  cases Scan.read filename {} (Glyph.ofText source) <;> simp

end Abacus
