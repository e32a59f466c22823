import Abacus.Proofs.Scanning

/-! # Why a scan fails

The counterpart of reading. A text is rejected at a foreign character, at an operator that is no
sign where an operand must come, or at a literal that is no number; a scan that fails reports one of
the three.
-/
namespace Abacus

/-- An operand must come behind such a character. -/
def LeadsOperand (c : Char) : Prop := c = '(' ∨ ∃ op : Operator, c = op.symbol

/-- `Rejects filename gs f`: the glyphs `gs` cannot be read, for the reason that `f` tells. A
literal is rejected as a whole; it begins where the glyphs before it are read. -/
inductive Rejects (filename : String) : List Glyph → Fault → Prop where
  | character {before after : List Glyph} {g : Glyph} (hr : g.role = .foreign) :
      Rejects filename (before ++ g :: after)
        (.invalidCharacter g.char.toString (some (.ofOffset filename g.offset)))
  | operator {before after : List Glyph} {g : Glyph} {op : Operator} (hm : g.char = op.symbol)
      (hop : op.isSign = false) (hb : ∀ b ∈ before.getLast?, LeadsOperand b.char) :
      Rejects filename (before ++ g :: after)
        (.misplacedOperator g.char.toString (some (.ofOffset filename g.offset)))
  | literal {before signs digits after : List Glyph} {ts : List Token} {g : Glyph} {reason : String}
      (h : Reads filename before ts) (ha : awaitsOperand ts = true)
      (hs : ∀ g ∈ signs, g.char = '+' ∨ g.char = '-') (hd : ∀ g ∈ digits, g.char.isDigit = true)
      (hbad : digits = [] ∨ 1 < signs.length) (hg : (signs ++ digits).head? = some g)
      (hend : ∀ b ∈ after.head?, b.char.isDigit = false ∧
        (digits = [] → b.char ≠ '+' ∧ b.char ≠ '-')) :
      Rejects filename (before ++ (signs ++ digits) ++ after)
        (.invalidNumber (String.ofList ((signs ++ digits).map (·.char)))
          (some (.ofOffset filename g.offset)) reason)

/-- What is read up to a place where an operand must come ends with a character that demands it. -/
theorem Reads.leadsOperand {filename : String} {gs : List Glyph} {ts : List Token}
    (h : Reads filename gs ts) (ha : awaitsOperand ts = true) :
    ∀ b ∈ gs.getLast?, LeadsOperand b.char := by
  cases h with
  | nil => simp
  | literal => simp [Token.ofLiteral, Token.Kind.endsOperand] at ha
  | @mark gs ts g k _ hk _ =>
    have hc := Glyph.kind?_eq_some_iff.mp hk
    intro b hb
    obtain rfl : g = b := by simpa using hb
    cases k with
    | number => cases hc
    | operator op => exact .inr ⟨op, (Option.some.inj hc).symm⟩
    | leftParen => exact .inl (Option.some.inj hc).symm
    | rightParen => simp [Token.ofGlyph, Token.Kind.endsOperand] at ha

namespace Scan

variable {filename : String} {before signs digits : List Glyph} {s : Scan}

theorem flush_eq_error {e : Halt Scan} (h : s.flush filename = .error e) :
    ∃ defect, Literal.read s.literal.toList = .error defect ∧
      e = ⟨.invalidNumber s.literal (some (.ofOffset filename s.start)) defect.reason, s⟩ := by
  rw [flush] at h
  split at h
  · cases h
  · cases hread : Literal.read s.literal.toList with
    | ok v => rw [hread] at h; cases h
    | error defect =>
      rw [hread] at h
      cases h
      exact ⟨defect, rfl, rfl⟩

theorem Tracks.flush_error_cases (h : Tracks filename before signs digits s) {e : Halt Scan}
    (hf : s.flush filename = .error e) :
    (digits = [] ∨ 1 < signs.length) ∧ ∃ g reason, (signs ++ digits).head? = some g ∧
      e = ⟨.invalidNumber (String.ofList ((signs ++ digits).map (·.char)))
        (some (.ofOffset filename g.offset)) reason, s⟩ := by
  obtain ⟨defect, hread, rfl⟩ := flush_eq_error hf
  have hlexeme : s.literal = String.ofList ((signs ++ digits).map (·.char)) := by
    rw [← h.literal, String.ofList_toList]
  constructor
  · by_contra hgood
    rw [not_or] at hgood
    rw [h.read_literal, if_neg hgood.1, if_neg hgood.2] at hread
    cases hread
  · cases hfirst : (signs ++ digits).head? with
    | none =>
      rw [List.head?_eq_none_iff.mp hfirst] at hlexeme
      rw [flush_of_isEmpty hlexeme] at hf
      cases hf
    | some g => exact ⟨g, defect.reason, rfl, by rw [← hlexeme, h.start g hfirst]⟩

theorem step_error_cases {g : Glyph} {e : Halt Scan} (h : s.step filename g = .error e) :
    (g.role = .foreign ∧
      e = ⟨.invalidCharacter g.char.toString (some (.ofOffset filename g.offset)), s⟩) ∨
    (∃ op : Operator, g.char = op.symbol ∧ op.isSign = false ∧ s.expectsOperand = true ∧
      e = ⟨.misplacedOperator g.char.toString (some (.ofOffset filename g.offset)), s⟩) ∨
    ∃ k, g.role.kind? = some k ∧ (∀ op, k = .operator op → s.expectsOperand = false) ∧
      s.flush filename = .error e := by
  rcases step_forms filename s g with
    ⟨-, hs⟩ | ⟨-, -, hs⟩ | ⟨hr, hs⟩ | ⟨op, hm, hop, he, hs⟩ | ⟨k, hk, he⟩
  · rw [hs] at h
    cases h
  · rw [hs] at h
    cases h
  · rw [hs] at h
    cases h
    exact .inl ⟨hr, rfl⟩
  · rw [hs] at h
    cases h
    exact .inr (.inl ⟨op, hm, hop, he, rfl⟩)
  · rw [step_mark hk he] at h
    rcases bind_eq_error_iff.mp h with hf | ⟨t, _, ht⟩
    · exact .inr (.inr ⟨k, hk, he, hf⟩)
    · cases ht

theorem Tracks.leadsOperand (h : Tracks filename before signs digits s)
    (he : s.expectsOperand = true) :
    ∀ b ∈ (before ++ (signs ++ digits)).getLast?, LeadsOperand b.char := by
  have hexpects := h.expects
  rw [he, eq_comm, Bool.and_eq_true, List.isEmpty_iff] at hexpects
  obtain ⟨rfl, hawaits⟩ := hexpects
  intro b hb
  rw [List.append_nil, List.getLast?_append] at hb
  cases hlast : signs.getLast? with
  | none =>
    rw [hlast, Option.none_or] at hb
    exact h.reads.leadsOperand hawaits b hb
  | some g =>
    obtain rfl : g = b := by simpa [hlast] using hb
    rcases h.sign_char g (List.mem_of_getLast? hlast) with hc | hc
    · exact .inr ⟨.plus, hc⟩
    · exact .inr ⟨.minus, hc⟩

/-- A literal that cannot be ended is rejected, whatever ends it. -/
theorem Tracks.rejects_flush (h : Tracks filename before signs digits s) {e : Halt Scan}
    (hf : s.flush filename = .error e) (after : List Glyph)
    (hend : ∀ b ∈ after.head?, b.char.isDigit = false ∧
      (s.expectsOperand = true → b.char ≠ '+' ∧ b.char ≠ '-')) :
    Rejects filename (before ++ (signs ++ digits) ++ after) e.fault := by
  obtain ⟨hbad, g, reason, hg, rfl⟩ := h.flush_error_cases hf
  have hsigns : signs ≠ [] := by
    rintro rfl
    rcases hbad with rfl | hlong
    · cases hg
    · cases hlong
  have hawaits := h.signed hsigns
  refine .literal h.reads hawaits h.sign_char h.isDigit hbad hg fun b hb => ?_
  refine ⟨(hend b hb).1, fun hnone => (hend b hb).2 ?_⟩
  rw [h.expects, hnone, hawaits]
  rfl

theorem Tracks.rejects_step (h : Tracks filename before signs digits s) {g : Glyph} {e : Halt Scan}
    (hs : s.step filename g = .error e) (after : List Glyph) :
    Rejects filename (before ++ (signs ++ digits) ++ g :: after) e.fault := by
  rcases step_error_cases hs with ⟨hr, rfl⟩ | ⟨op, hm, hop, he, rfl⟩ | ⟨k, hk, hexpects, hf⟩
  · exact .character hr
  · exact .operator hm hop (h.leadsOperand he)
  · refine h.rejects_flush hf _ fun b hb => ?_
    obtain rfl : g = b := by simpa using hb
    have hc := Glyph.kind?_eq_some_iff.mp hk
    constructor
    · refine Glyph.isDigit_eq_false fun hr => ?_
      rw [hr] at hk
      cases hk
    · intro he
      cases k with
      | number => cases hc
      | operator op => rw [hexpects op rfl] at he; cases he
      | leftParen | rightParen => rw [← Option.some.inj hc]; decide

theorem state_of_step_error {g : Glyph} {e : Halt Scan} (h : s.step filename g = .error e) :
    e.state = s := by
  rcases step_error_cases h with ⟨-, rfl⟩ | ⟨-, -, -, -, rfl⟩ | ⟨-, -, -, hf⟩
  · rfl
  · rfl
  · obtain ⟨-, -, rfl⟩ := flush_eq_error hf
    rfl

/-- A scan fails at one of its steps or at its end, and leaves the state that it fails in. -/
theorem read_error_cases {gs : List Glyph} {e : Halt Scan} (h : s.read filename gs = .error e) :
    (∃ before g after, gs = before ++ g :: after ∧
        before.foldlM (step filename) s = .ok e.state ∧ e.state.step filename g = .error e) ∨
      gs.foldlM (step filename) s = .ok e.state ∧ e.state.flush filename = .error e := by
  rcases bind_eq_error_iff.mp h with hfold | ⟨t, hrun, hflush⟩
  · obtain ⟨before, g, after, t, hsplit, hrun, hstep⟩ := foldlM_eq_error_iff.mp hfold
    obtain rfl := state_of_step_error hstep
    exact .inl ⟨before, g, after, hsplit, hrun, hstep⟩
  · obtain ⟨_, _, rfl⟩ := flush_eq_error hflush
    exact .inr ⟨hrun, hflush⟩

theorem ofText_error_cases {source : String} {e : Halt Scan}
    (h : ofText filename source = .error e) : ∃ before signs digits,
      Tracks filename before signs digits e.state ∧
      ((∃ g after, Glyph.ofText source = before ++ (signs ++ digits) ++ g :: after ∧
          e.state.step filename g = .error e) ∨
        Glyph.ofText source = before ++ (signs ++ digits) ∧ e.state.flush filename = .error e) := by
  rcases read_error_cases h with ⟨gs, g, after, hsplit, hrun, hstep⟩ | ⟨hrun, hflush⟩
  · obtain ⟨_, _, _, htracks, rfl⟩ := exists_tracks hrun
    exact ⟨_, _, _, htracks, .inl ⟨g, after, hsplit, hstep⟩⟩
  · obtain ⟨_, _, _, htracks, heq⟩ := exists_tracks hrun
    exact ⟨_, _, _, htracks, .inr ⟨heq.symm, hflush⟩⟩

/-- Also before a fault, what a scan has read is read from the beginning of the text. -/
theorem exists_reads_tokensRead (filename source : String) :
    ∃ before after, Glyph.ofText source = before ++ after ∧
      Reads filename before (tokensRead filename source) := by
  rw [tokensRead]
  cases hs : ofText filename source with
  | ok s => exact ⟨_, [], (List.append_nil _).symm, read_eq_ok_iff.mp ⟨s, hs, rfl⟩⟩
  | error e =>
    obtain ⟨before, _, _, htracks, ⟨g, after, hsplit, -⟩ | ⟨hsplit, -⟩⟩ := ofText_error_cases hs
    · rw [List.append_assoc] at hsplit
      exact ⟨before, _, hsplit, htracks.reads⟩
    · exact ⟨before, _, hsplit, htracks.reads⟩

end Scan

/-- A fault of a scan is one of its glyphs. -/
theorem rejects_of_tokenize {filename source : String} {f : Fault}
    (h : tokenize filename source = .error f) : Rejects filename (Glyph.ofText source) f := by
  rw [tokenize] at h
  cases hs : Scan.ofText filename source with
  | ok s => rw [hs] at h; cases h
  | error e =>
    rw [hs] at h
    cases h
    obtain ⟨_, _, _, htracks, ⟨g, after, hsplit, hstep⟩ | ⟨hsplit, hflush⟩⟩ :=
      Scan.ofText_error_cases hs
    · rw [hsplit]
      exact htracks.rejects_step hstep after
    · have hend := htracks.rejects_flush hflush [] (by simp)
      rwa [List.append_nil, ← hsplit] at hend

def Cause.isLexical (c : Cause) : Bool :=
  c = invalidCharacter ∨ c = misplacedOperator ∨ c = invalidNumber

theorem Rejects.isLexical {filename : String} {gs : List Glyph} {f : Fault}
    (h : Rejects filename gs f) : f.cause.isLexical = true := by
  cases h <;> rfl

end Abacus
