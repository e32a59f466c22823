import Abacus.Lexer
import Abacus.Proofs.Composition
import Abacus.Proofs.Coverage
import Abacus.Proofs.Rejection

/-! # What a run of a lexer leaves

A run that fails has read the text up to one of its characters, or up to its end. The tokens and the
literal that it leaves spell that part of the text. Nothing behind the character can change them, and
nothing of them is seen by the next run.
-/
namespace Abacus

theorem Glyph.exists_ofText_of_getElem? {source : String} {p : Nat} {c : Char}
    (hat : source.toList[p]? = some c) (hblank : Text.isBlank c = false) :
    ∃ after, ofText source = ofText (String.ofList (source.toList.take p)) ++ ⟨c, p⟩ :: after := by
  obtain ⟨hp, hc⟩ := List.getElem?_eq_some_iff.mp hat
  have hlength : (String.ofList (source.toList.take p)).length = p := by
    rw [String.length_ofList, List.length_take_of_le (Nat.le_of_lt hp)]
  have hcut : source = String.ofList (source.toList.take p) ++ c.toString ++
      String.ofList (source.toList.drop (p + 1)) := by
    apply String.toList_injective
    simp [← hc]
  have htext := ofText_append_char (String.ofList (source.toList.take p))
    (String.ofList (source.toList.drop (p + 1))) hblank
  rw [← hcut, hlength] at htext
  exact ⟨_, htext⟩

namespace Scan

/-- The scan comes through the text before the offset `p` and then fails: at the character that
stands there, or at the end of the text. -/
structure FailsAt (filename source : String) (p : Nat) (e : Halt Scan) : Prop where
  through : (Glyph.ofText (String.ofList (source.toList.take p))).foldlM (step filename) {} =
    .ok e.state
  failure : (∃ c, source.toList[p]? = some c ∧ Text.isBlank c = false ∧
      e.state.step filename ⟨c, p⟩ = .error e) ∨
    (p = source.length ∧ e.state.flush filename = .error e)

variable {filename source : String} {p : Nat} {s : Scan} {e : Halt Scan}

theorem exists_failsAt (h : ofText filename source = .error e) :
    ∃ p, FailsAt filename source p e := by
  rcases read_error_cases h with ⟨before, g, after, hsplit, hrun, hstep⟩ | ⟨hrun, hflush⟩
  · obtain ⟨hat, hblank, hbefore, -⟩ := Glyph.ofText_cut hsplit
    exact ⟨g.offset, by rwa [hbefore], .inl ⟨g.char, hat, hblank, hstep⟩⟩
  · have hwhole : String.ofList (source.toList.take source.length) = source := by
      rw [← String.length_toList, List.take_length, String.ofList_toList]
    exact ⟨source.length, by rwa [hwhole], .inr ⟨rfl, hflush⟩⟩

/-- Nothing behind a character at which a scan fails is looked at. -/
theorem ofText_eq_error_of_step {c : Char} (hat : source.toList[p]? = some c)
    (hblank : Text.isBlank c = false)
    (hrun : (Glyph.ofText (String.ofList (source.toList.take p))).foldlM (step filename) {} = .ok s)
    (hstep : s.step filename ⟨c, p⟩ = .error e) : ofText filename source = .error e := by
  obtain ⟨after, htext⟩ := Glyph.exists_ofText_of_getElem? hat hblank
  rw [ofText, htext, read_append, hrun]
  change read filename s (_ :: _) = _
  rw [read_cons, hstep]
  rfl

namespace FailsAt

/-- A step or the end of a literal fails at the place where the scan fails. -/
theorem fault_cases (h : FailsAt filename source p e) :
    (∃ c, source.toList[p]? = some c ∧ Text.isBlank c = false ∧
      e.state.step filename ⟨c, p⟩ = .error e ∧ e.fault.cause ≠ .invalidNumber ∧
        e.fault.location = some (.ofOffset filename p)) ∨
      e.state.flush filename = .error e := by
  rcases h.failure with ⟨c, hat, hblank, hstep⟩ | ⟨-, hflush⟩
  · rcases step_error_cases hstep with ⟨-, he⟩ | ⟨_, -, -, -, he⟩ | ⟨_, -, -, hflush⟩
    · exact .inl ⟨c, hat, hblank, hstep, by rw [he]; simp [Fault.cause], by rw [he]; rfl⟩
    · exact .inl ⟨c, hat, hblank, hstep, by rw [he]; simp [Fault.cause], by rw [he]; rfl⟩
    · exact .inr hflush
  · exact .inr hflush

theorem spells (h : FailsAt filename source p e) :
    String.join (e.state.tokens.toList.map (·.lexeme)) ++ e.state.literal =
      String.ofList (Text.ink (source.toList.take p)) := by
  obtain ⟨before, signs, digits, htracks, hglyphs⟩ := exists_tracks h.through
  obtain ⟨runs, rfl, hruns⟩ := htracks.reads.exists_runs
  apply String.toList_injective
  rw [String.toList_append, String.toList_join, List.flatMap_map, Glyph.Run.flatMap_lexeme hruns,
    htracks.literal, ← List.map_append, hglyphs, Glyph.map_char_ofText_ofList, String.toList_ofList]

/-- A literal that is rejected stands at its place in the text and reaches up to the failure. -/
theorem literal (h : FailsAt filename source p e) (hcause : e.fault.cause = .invalidNumber) :
    ∃ reason, ∃ q < p,
      e.fault = .invalidNumber e.state.literal (some (.ofOffset filename q)) reason ∧
      (∃ c, source.toList[q]? = some c ∧ e.state.literal.toList.head? = some c) ∧
      e.state.literal.toList = Text.ink ((source.toList.take p).drop q) := by
  obtain ⟨_, -, -, -, hne, -⟩ | hflush := h.fault_cases
  · exact absurd hcause hne
  obtain ⟨before, signs, digits, htracks, hglyphs⟩ := exists_tracks h.through
  obtain ⟨-, g, reason, hfirst, he⟩ := htracks.flush_error_cases hflush
  obtain ⟨rest, hliteral⟩ := List.head?_eq_some_iff.mp hfirst
  have hchars := htracks.literal
  rw [hliteral] at hglyphs hchars
  obtain ⟨hat, -, -, hink⟩ := Glyph.ofText_cut hglyphs.symm
  rw [String.toList_ofList] at hat hink
  rw [List.getElem?_take, Option.ite_none_right_eq_some] at hat
  obtain ⟨hq, hat⟩ := hat
  refine ⟨reason, g.offset, hq, ?_, ⟨g.char, hat, by rw [hchars]; rfl⟩, by rw [hchars, hink]⟩
  rw [he, ← htracks.literal, String.ofList_toList]

/-- Any other fault stands where the scan fails, and is found in every text that goes so far. -/
theorem shared (h : FailsAt filename source p e) (hcause : e.fault.cause ≠ .invalidNumber) :
    e.fault.location = some (.ofOffset filename p) ∧ p < source.length ∧
      ∀ other : String, other.toList.take (p + 1) = source.toList.take (p + 1) →
        ofText filename other = .error e := by
  obtain ⟨c, hat, hblank, hstep, -, hplace⟩ | hflush := h.fault_cases
  · refine ⟨hplace, ?_, fun other hother => ?_⟩
    · rw [← String.length_toList]
      exact (List.getElem?_eq_some_iff.mp hat).1
    · have htake : other.toList.take p = source.toList.take p := by
        simpa [List.take_take] using congrArg (List.take p) hother
      have hat' : other.toList[p]? = some c := by
        simpa [List.getElem?_take, hat] using congrArg (·[p]?) hother
      refine ofText_eq_error_of_step hat' hblank ?_ hstep
      rw [htake]
      exact h.through
  · obtain ⟨_, -, he⟩ := flush_eq_error hflush
    exact absurd (congrArg (·.fault.cause) he) hcause

end FailsAt
end Scan

namespace Lexer

/-- What a run leaves that fails at the offset `p`. -/
structure Leaves (l : Lexer) (f : Fault) (p : Nat) : Prop where
  fails : Scan.FailsAt l.filename l.source p ⟨f, l.run.2.scan⟩
  /-- The tokens and the literal spell the text before the failure. -/
  spells : String.join (l.run.2.tokens.map (·.lexeme)) ++ l.run.2.scan.literal =
    String.ofList (Text.ink (l.source.toList.take p))
  /-- The fault shows the literal and stands where the literal begins. -/
  literal : f.cause = .invalidNumber → ∃ reason, ∃ q < p,
    f = .invalidNumber l.run.2.scan.literal (some (.ofOffset l.filename q)) reason ∧
      (∃ c, l.source.toList[q]? = some c ∧ l.run.2.scan.literal.toList.head? = some c) ∧
      l.run.2.scan.literal.toList = Text.ink ((l.source.toList.take p).drop q)
  /-- Any other fault stands at the failure, and is found in every text that goes so far. -/
  shared : f.cause ≠ .invalidNumber → f.location = some (.ofOffset l.filename p) ∧
    p < l.source.length ∧ ∀ m : Lexer, m.filename = l.filename →
      m.source.toList.take (p + 1) = l.source.toList.take (p + 1) →
      m.run.1 = .error f ∧ m.run.2.tokens = l.run.2.tokens

theorem run_eq (l : Lexer) : l.run = match Scan.ofText l.filename l.source with
    | .ok s => (.ok s.tokens.toList, { l with scan := s })
    | .error h => (.error h.fault, { l with scan := h.state }) :=
  rfl

/-- A run answers as the text is tokenized, and leaves the tokens that its scan has read. -/
theorem run_eq_tokenize (l : Lexer) : l.run.1 = tokenize l.filename l.source ∧
    l.run.2.tokens = Scan.tokensRead l.filename l.source := by
  rw [run_eq, tokenize, Scan.tokensRead]
  cases Scan.ofText l.filename l.source <;> exact ⟨rfl, rfl⟩

/-- The next run sees nothing of what a run leaves. -/
theorem run_run (l : Lexer) : l.run.2.run = l.run := by
  rw [run_eq l]
  cases hs : Scan.ofText l.filename l.source <;> simp only [run_eq, hs]

theorem runs_eq_replicate (l : Lexer) (n : Nat) : l.runs n = List.replicate n l.run := by
  induction n generalizing l with
  | zero => rfl
  | succ n ih => rw [runs, ih, run_run, List.replicate_succ]

theorem run_of_ofText_eq_error {l : Lexer} {e : Halt Scan}
    (h : Scan.ofText l.filename l.source = .error e) :
    l.run = (.error e.fault, { l with scan := e.state }) := by
  rw [run_eq, h]

theorem ofText_eq_error_of_run {l : Lexer} {f : Fault} (h : l.run.1 = .error f) :
    Scan.ofText l.filename l.source = .error ⟨f, l.run.2.scan⟩ := by
  rw [run_eq] at h ⊢
  cases hs : Scan.ofText l.filename l.source with
  | ok s => rw [hs] at h; cases h
  | error e => rw [hs] at h; cases h; rfl

/-- Of every run that fails there is a place where it does, and what it leaves is determined there;
and however often a lexer has run, it runs as it did the first time. -/
theorem run_leaves (l : Lexer) :
    (∀ f, l.run.1 = .error f → ∃ p, l.Leaves f p) ∧
      ∀ n, l.runs n = List.replicate n l.run := by
  refine ⟨fun f hf => ?_, l.runs_eq_replicate⟩
  obtain ⟨p, hp⟩ := Scan.exists_failsAt (ofText_eq_error_of_run hf)
  refine ⟨p, hp, hp.spells, hp.literal, fun hcause => ?_⟩
  obtain ⟨hplace, hlt, hshared⟩ := hp.shared hcause
  refine ⟨hplace, hlt, fun m hname hsource => ?_⟩
  have hm := hshared m.source hsource
  rw [← hname] at hm
  rw [run_of_ofText_eq_error hm]
  exact ⟨rfl, rfl⟩

/-- The parenthesis ends a literal that is no number, in a lexer that holds the rest of another
scan. -/
theorem run_leaves_signs : ∃ l : Lexer, ∃ f, l.source = "12*(- +)4" ∧ l.run.1 = .error f ∧
    f.cause = .invalidNumber ∧ (∃ p, l.Leaves f p) ∧ l.runs 3 = List.replicate 3 l.run := by
  let l : Lexer :=
    { filename := "sheet"
      source := "12*(- +)4"
      scan := { literal := "7", expectsOperand := false } }
  have hfault : l.run.1 = .error (.invalidNumber "-+" (some (.ofOffset "sheet" 4))
      "A sign must be followed by the digits of a number.") := by
    decide +kernel
  exact ⟨l, _, rfl, hfault, rfl, l.run_leaves.1 _ hfault, l.run_leaves.2 3⟩

end Lexer
end Abacus
