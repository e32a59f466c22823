import Abacus.Proofs.Leftovers

/-! # Scanning with a look back

Whether an operand is expected can also be told from the mark that was read last. A scan that keeps
this mark, passes over the blanks as it meets them and gives a literal up before it is rejected ends
as the scan of the glyphs does: with the same tokens, or with the same fault behind the same tokens.
-/
namespace Abacus

/-- `mark` is the operator, sign or opening parenthesis that was read last. There is none behind a
digit or a closing parenthesis. -/
structure Lookback where
  tokens : Array Token := #[]
  literal : String := ""
  start : Nat := 0
  mark : Option Char := none

namespace Lookback

def atStart (s : Lookback) : Bool := s.tokens.isEmpty && s.literal.isEmpty

def extend (s : Lookback) (c : Char) (offset : Nat) (mark : Option Char) : Lookback :=
  { s with
    literal := s.literal.push c
    start := if s.literal.isEmpty then offset else s.start
    mark }

/-- Nothing is left of a literal that is rejected. -/
def flush (filename : String) (s : Lookback) : Except (Halt Lookback) Lookback :=
  if s.literal.isEmpty then .ok s
  else
    let location := some (Location.ofOffset filename s.start)
    let emptied := { s with literal := "" }
    match Literal.read s.literal.toList with
    | .error defect => .error ⟨.invalidNumber s.literal location defect.reason, emptied⟩
    | .ok value =>
      let number : Token := ⟨.number, s.literal, some value, location⟩
      .ok { emptied with tokens := s.tokens.push number }

def emit (filename : String) (s : Lookback) (c : Char) (offset : Nat) (kind : Token.Kind)
    (mark : Option Char) : Lookback :=
  let location := some (Location.ofOffset filename offset)
  { s with tokens := s.tokens.push ⟨kind, c.toString, none, location⟩, mark }

def step (filename : String) (s : Lookback) (p : Char × Nat) : Except (Halt Lookback) Lookback :=
  let (c, offset) := p
  let location := some (Location.ofOffset filename offset)
  if Text.isBlank c then .ok s
  else if c.isDigit then .ok (s.extend c offset none)
  else match Operator.ofChar? c with
    | some op =>
      if s.atStart || s.mark.isSome then
        if op.isSign then .ok (s.extend c offset (some c))
        else .error ⟨.misplacedOperator c.toString location, s⟩
      else do return (← s.flush filename).emit filename c offset (.operator op) (some c)
    | none =>
      if c = '(' then do return (← s.flush filename).emit filename c offset .leftParen (some c)
      else if c = ')' then do return (← s.flush filename).emit filename c offset .rightParen none
      else .error ⟨.invalidCharacter c.toString location, s⟩

def ofText (filename source : String) : Except (Halt Lookback) Lookback := do
  (← source.toList.zipIdx.foldlM (step filename) {}).flush filename

/-- A scan of glyphs and one with a look back have come equally far. -/
structure Matches (s : Scan) (t : Lookback) : Prop where
  tokens : s.tokens = t.tokens
  literal : s.literal = t.literal
  start : s.start = t.start
  expectsOperand : s.expectsOperand = (t.atStart || t.mark.isSome)

structure FailsAlike (e : Halt Scan) (d : Halt Lookback) : Prop where
  fault : e.fault = d.fault
  tokens : e.state.tokens = d.state.tokens
  literal : d.state.literal = if e.fault.cause = .invalidNumber then "" else e.state.literal

variable {filename : String} {s : Scan} {t : Lookback} {c : Char} {offset : Nat}

theorem Matches.failsAlike (h : Matches s t) {f : Fault} (hf : f.cause ≠ .invalidNumber) :
    FailsAlike ⟨f, s⟩ ⟨f, t⟩ :=
  ⟨rfl, h.tokens, by rw [if_neg hf, h.literal]⟩

theorem Matches.extend (h : Matches s t) (mark : Option Char) :
    Matches (s.extend ⟨c, offset⟩ mark.isSome) (t.extend c offset mark) where
  tokens := h.tokens
  literal := congrArg (·.push c) h.literal
  start := by rw [Scan.extend, Lookback.extend, h.literal, h.start]
  expectsOperand := by simp [Scan.extend, Lookback.extend, atStart]

theorem Matches.emit (h : Matches s t) (kind : Token.Kind) (mark : Option Char) :
    Matches (s.emit filename ⟨c, offset⟩ kind mark.isSome)
      (t.emit filename c offset kind mark) where
  tokens := by rw [Scan.emit, Lookback.emit, h.tokens]
  literal := h.literal
  start := h.start
  expectsOperand := by simp [Scan.emit, Lookback.emit, atStart]

theorem Matches.flush (h : Matches s t) :
    EndAlike FailsAlike Matches (s.flush filename) (t.flush filename) := by
  rw [Scan.flush, Lookback.flush, h.literal, h.start, h.tokens]
  cases hliteral : t.literal.isEmpty with
  | true => exact .ok h
  | false =>
    simp only [Bool.false_eq_true, if_false]
    cases Literal.read t.literal.toList with
    | error defect => exact .error ⟨rfl, h.tokens, rfl⟩
    | ok value =>
      refine .ok ⟨rfl, rfl, rfl, ?_⟩
      rw [h.expectsOperand]
      simp [atStart, hliteral]

theorem Matches.flush_emit (h : Matches s t) (kind : Token.Kind) (mark : Option Char) :
    EndAlike FailsAlike Matches
      (s.flush filename >>= fun s => pure (s.emit filename ⟨c, offset⟩ kind mark.isSome))
      (t.flush filename >>= fun t => pure (t.emit filename c offset kind mark)) :=
  h.flush.bind fun _ _ hnext => .ok (hnext.emit kind mark)

theorem Matches.step (h : Matches s t) (hblank : Text.isBlank c = false) :
    EndAlike FailsAlike Matches (s.step filename ⟨c, offset⟩) (t.step filename (c, offset)) := by
  simp only [Scan.step, Lookback.step, Glyph.role, Glyph.Role.ofChar, hblank, Bool.false_eq_true,
    if_false]
  cases hdigit : c.isDigit with
  | true => exact .ok (h.extend none)
  | false =>
    cases Operator.ofChar? c with
    | some op =>
      simp only [Bool.false_eq_true, if_false]
      rw [h.expectsOperand]
      cases t.atStart || t.mark.isSome with
      | false => exact h.flush_emit (.operator op) (some c)
      | true =>
        cases op.isSign with
        | true => exact .ok (h.extend (some c))
        | false => exact .error (h.failsAlike fun hf => by cases hf)
    | none =>
      by_cases hopening : c = '('
      · simp only [hopening]
        exact h.flush_emit .leftParen (some '(')
      · by_cases hclosing : c = ')'
        · simp only [hclosing]
          exact h.flush_emit .rightParen none
        · simp only [hopening, hclosing, if_false, Bool.false_eq_true]
          exact .error (h.failsAlike fun hf => by cases hf)

/-- Blanks are no glyphs to the one and no step to the other. -/
theorem Matches.foldlM (h : Matches s t) (ps : List (Char × Nat)) :
    EndAlike FailsAlike Matches ((ps.filterMap Glyph.ofIndexed).foldlM (Scan.step filename) s)
      (ps.foldlM (Lookback.step filename) t) := by
  induction ps generalizing s t with
  | nil => exact .ok h
  | cons p ps ih =>
    obtain ⟨c, offset⟩ := p
    rw [List.foldlM_cons]
    cases hblank : Text.isBlank c with
    | true =>
      rw [List.filterMap_cons_none (by rw [Glyph.ofIndexed, if_pos hblank])]
      have hstep : t.step filename (c, offset) = .ok t := by rw [Lookback.step, if_pos hblank]
      rw [hstep]
      exact ih h
    | false =>
      rw [List.filterMap_cons_some (by rw [Glyph.ofIndexed, hblank]; rfl), List.foldlM_cons]
      exact (h.step hblank).bind fun _ _ hnext => ih hnext

theorem ofText_alike (filename source : String) :
    EndAlike FailsAlike Matches (Scan.ofText filename source) (ofText filename source) := by
  have hstart : Matches {} {} := ⟨rfl, rfl, rfl, rfl⟩
  exact (hstart.foldlM source.toList.zipIdx).bind fun _ _ h => h.flush

end Lookback

/-- A lexer answers with the tokens or the fault of a scan with a look back, and keeps the tokens
that this scan has read. -/
theorem Lexer.run_eq_lookback (l : Lexer) :
    l.run.1 = outcome ((Lookback.ofText l.filename l.source).map (·.tokens.toList)) ∧
      l.run.2.tokens = (Halt.reached (Lookback.ofText l.filename l.source)).tokens.toList := by
  rw [l.run_eq_tokenize.1, l.run_eq_tokenize.2, tokenize, Scan.tokensRead]
  have halike := Lookback.ofText_alike l.filename l.source
  generalize Scan.ofText l.filename l.source = x at halike ⊢
  generalize Lookback.ofText l.filename l.source = y at halike ⊢
  cases halike with
  | ok h => exact ⟨congrArg (Except.ok ·.toList) h.tokens, congrArg (·.toList) h.tokens⟩
  | error h => exact ⟨congrArg Except.error h.fault, congrArg (·.toList) h.tokens⟩

end Abacus
