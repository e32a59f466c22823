import Abacus.Proofs.Blame
import Abacus.Proofs.Carrying
import Abacus.Proofs.Composition
import Abacus.Proofs.Reports
import Abacus.Proofs.Trace

/-! # What is reported can be read line by line

An event is told on one line, and the text of a fault has the lines of its report and no other.
What a fault quotes of an expression is never blank, so no expression can end a line early, and two
faults with the same text tell the same.
-/
namespace Abacus

theorem Literal.isPlain_of_mem_front {cs : List Char} :
    ∀ c ∈ front cs, Text.isPlain c = true := by
  intro c hc
  rcases List.mem_append.mp hc with hsign | hdigit
  · have hc : c = '+' ∨ c = '-' := by simpa [isSign] using List.mem_takeWhile_imp hsign
    rcases hc with rfl | rfl <;> decide
  · exact Text.isPlain_of_isDigit (List.mem_takeWhile_imp hdigit)

namespace Fault

variable {filename : String} {f : Fault}

theorem characterHelp_ne_empty (s : String) : characterHelp s ≠ "" := by
  unfold characterHelp
  split <;> simp

theorem help_ne_empty (h : ∀ lexeme l reason, f = .invalidNumber lexeme l reason → reason ≠ "") :
    f.help ≠ "" := by
  unfold help
  cases f with
  | invalidCharacter s _ => exact characterHelp_ne_empty s
  | invalidNumber lexeme l reason => exact h lexeme l reason rfl
  | unclosedOpening => simp
  | leftoverOperands =>
    dsimp only
    split <;> simp
  | misplacedOperator | unmatchedClosing | missingOperand | emptyExpression | divisionByZero =>
    simp

/-- What a fault quotes is plain, a foreign character excepted. -/
theorem Blames.all_excerpts {p : Char → Bool} (hp : ∀ c, Text.isPlain c = true → p c = true)
    {cs : List Char} {offset : Nat} {c : Char} (h : f.Blames filename cs offset c)
    (hreason : ∀ lexeme l reason, f = .invalidNumber lexeme l reason →
      ∃ defect : Literal.Defect, reason = defect.reason)
    (hforeign : ∀ l, f = .invalidCharacter c.toString l → Text.isBlank c = false → p c = true) :
    ∀ s ∈ f.excerpts, s.toList.all p = true := by
  have hchar {d : Char} (hd : p d = true) : ∀ s ∈ [d.toString], s.toList.all p = true := by
    simpa using hd
  cases f with
  | invalidCharacter text l =>
    obtain ⟨rfl, hblank, -⟩ := h
    exact hchar (hforeign l rfl hblank)
  | misplacedOperator lexeme _ =>
    obtain ⟨rfl, rfl | rfl, -⟩ := h <;> exact hchar (hp _ (by decide))
  | missingOperand lexeme _ =>
    obtain ⟨rfl, op, rfl⟩ := h
    exact hchar (hp _ (by cases op <;> decide))
  | invalidNumber lexeme l reason =>
    obtain ⟨-, hlexeme, -⟩ := h
    obtain ⟨defect, rfl⟩ := hreason lexeme l reason rfl
    refine List.forall_mem_cons.mpr ⟨?_, List.forall_mem_singleton.mpr ?_⟩
    · rw [hlexeme, List.all_eq_true]
      exact fun d hd => hp d (Literal.isPlain_of_mem_front d hd)
    · cases defect <;> exact Text.all_of_plain hp (by decide +kernel)
  | unmatchedClosing | unclosedOpening | leftoverOperands | emptyExpression | divisionByZero =>
    exact fun s hs => nomatch hs

end Fault

theorem explained_of_tokenize {filename source : String} {f : Fault}
    (h : tokenize filename source = .error f) : f.Explained := by
  unfold tokenize at h
  cases hscan : Scan.ofText filename source with
  | ok s =>
    rw [hscan] at h
    cases h
  | error e =>
    rw [hscan] at h
    cases h
    exact Scan.explained_of_read hscan

namespace Calculator

variable {c : Calculator} {expression : Option String}

theorem exists_defect_of_answer {source lexeme reason : String} {l : Option Location}
    (hne : Glyph.ofText source ≠ [])
    (h : (c.calculate (some source)).answer = .error (.invalidNumber lexeme l reason)) :
    ∃ defect : Literal.Defect, reason = defect.reason := by
  rw [c.answer_calculate hne] at h
  rcases bind_eq_error_iff.mp h with hscan | ⟨ts, -, hevaluate⟩
  · obtain ⟨defect, -, hreason⟩ := explained_of_tokenize hscan
    exact ⟨defect, hreason⟩
  · exact (arisesIn_of_evaluate hevaluate).elim

/-- Only the empty expression has no place. Every other fault points at a character of the text, and
says what is wrong with a literal. -/
theorem blames_of_answer {f : Fault} (h : (c.calculate expression).answer = .error f) :
    f = .emptyExpression ∨ ∃ source offset ch, expression = some source ∧
      source.toList[offset]? = some ch ∧ f.location = some (.ofOffset c.filename offset) ∧
      f.Blames c.filename source.toList offset ch ∧
      ∀ lexeme l reason, f = .invalidNumber lexeme l reason →
        ∃ defect : Literal.Defect, reason = defect.reason := by
  cases expression with
  | none =>
    cases h
    exact .inl rfl
  | some source =>
    by_cases hblank : Glyph.ofText source = []
    · rw [answer_calculate_of_isBlankText (ofText_eq_nil_iff.mp hblank)] at h
      cases h
      exact .inl rfl
    · obtain ⟨offset, ch, hat, hplace, hblames⟩ := pointsAtCulprit_of_answer hblank h
      refine .inr ⟨source, offset, ch, rfl, hat, hplace, hblames, ?_⟩
      rintro lexeme l reason rfl
      exact exists_defect_of_answer hblank h

/-- Every fault of a calculation can be read line by line. -/
theorem legible_of_answer {f : Fault} (h : (c.calculate expression).answer = .error f) :
    f.Legible c.filename := by
  rcases blames_of_answer h with rfl | ⟨source, offset, ch, -, -, hplace, hblames, hreason⟩
  · exact ⟨.inl rfl, by simp [Fault.excerpts], Fault.help_ne_empty (by simp)⟩
  · refine ⟨.inr ⟨offset, hplace⟩, ?_, Fault.help_ne_empty ?_⟩
    · refine hblames.all_excerpts Text.breaksLine_of_isPlain hreason fun _ _ hblank => ?_
      rw [Text.breaksLine_of_not_isBlank hblank]
      rfl
    · intro lexeme l reason hf
      obtain ⟨defect, rfl⟩ := hreason lexeme l reason hf
      cases defect <;> decide

end Calculator

namespace Traced

variable {α β : Type} {x : Traced α} {e : Event}

theorem mem_events_andThen {next : α → Traced β} (h : e ∈ (x.andThen next).events) :
    e ∈ x.events ∨ ∃ a, x.answer = .ok a ∧ e ∈ (next a).events := by
  unfold andThen at h
  cases hx : x.answer with
  | error f =>
    rw [hx] at h
    exact .inl h
  | ok a =>
    rw [hx] at h
    rcases List.mem_append.mp h with h | h
    · exact .inl h
    · exact .inr ⟨a, rfl, h⟩

theorem mem_events_reportFault {report : Fault → Event} (h : e ∈ (x.reportFault report).events) :
    e ∈ x.events ∨ ∃ f, x.answer = .error f ∧ e = report f := by
  unfold reportFault at h
  cases hx : x.answer with
  | error f =>
    rw [hx] at h
    rcases List.mem_append.mp h with h | h
    · exact .inl h
    · exact .inr ⟨f, rfl, List.mem_singleton.mp h⟩
  | ok a =>
    rw [hx] at h
    exact .inl h

end Traced

theorem Event.isOneLine_text {e : Event}
    (hplace : ∀ t, e = .reduced t → Text.isOneLine (Location.textOrNone t.location) = true)
    (hmessage : ∀ expression message, e = .failed expression message →
      Text.isOneLine message = true) : Text.isOneLine e.text = true := by
  have hquoted (s : String) := Text.isOneLine_of_isPrintableText (Text.isPrintableText_quoted s)
  have hcount (n : Int) := Text.all_render Text.breaksLine_of_isPlain n
  unfold text
  cases e with
  | tokenized source count =>
    refine Text.all_between ?_ (hcount count) (Text.isOneLine_of_plain (by decide +kernel))
    exact Text.all_between (Text.isOneLine_of_plain (by decide +kernel)) (hquoted source)
      (Text.isOneLine_of_plain (by decide +kernel))
  | reduced t =>
    refine Text.all_append ?_ (hplace t rfl)
    exact Text.all_between (Text.isOneLine_of_plain (by decide +kernel)) (hquoted t.lexeme)
      (Text.isOneLine_of_plain (by decide +kernel))
  | evaluated count =>
    exact Text.all_between (Text.isOneLine_of_plain (by decide +kernel)) (hcount count)
      (Text.isOneLine_of_plain (by decide +kernel))
  | failed expression message =>
    have hexpression : Text.isOneLine ((expression.map Text.quoted).getD "None") = true := by
      cases expression with
      | none => exact Text.isOneLine_of_plain (by decide)
      | some source => exact hquoted source
    refine Text.all_append ?_ (hmessage expression message rfl)
    exact Text.all_between (Text.isOneLine_of_plain (by decide +kernel)) hexpression
      (Text.isOneLine_of_plain (by decide +kernel))
  | inputEnded => exact Text.isOneLine_of_plain (by decide +kernel)

namespace Calculator

variable {c : Calculator} {expression : Option String} {e : Event}

theorem mem_events_evaluate {ts : List Token} {P : Token → Prop} (hts : ∀ t ∈ ts, P t)
    (h : e ∈ (evaluate ts).events) : (∃ t, P t ∧ e = .reduced t) ∨ e = .evaluated ts.length := by
  have hreduced := (Machine.holds_run hts).reduced
  unfold evaluate at h
  cases hrun : Machine.run ts with
  | error halt =>
    rw [hrun] at h hreduced
    obtain ⟨t, ht, rfl⟩ := List.mem_map.mp h
    exact .inl ⟨t, hreduced t ht, rfl⟩
  | ok x =>
    rw [hrun] at h hreduced
    rcases List.mem_append.mp h with h | h
    · obtain ⟨t, ht, rfl⟩ := List.mem_map.mp h
      exact .inl ⟨t, hreduced t ht, rfl⟩
    · exact .inr (List.mem_singleton.mp h)

theorem tokenize_cases (c : Calculator) (expression : Option String) :
    (∃ f, c.tokenize expression = ⟨[], .error f⟩) ∨
      ∃ source ts, c.tokenize expression = ⟨[.tokenized source ts.length], .ok ts⟩ ∧
        ∀ t ∈ ts, ∃ offset, t.location = some (.ofOffset c.filename offset) := by
  by_cases h : ∃ source ts, c.Lexes expression source ts
  · obtain ⟨source, ts, h⟩ := h
    refine .inr ⟨source, ts, tokenize_of_lexes h, ?_⟩
    intro t ht
    obtain ⟨g, -, hlocation, -⟩ := (tokenize_eq_ok_iff.mp h.tokens).exists_glyph ht
    exact ⟨g.offset, hlocation⟩
  · exact .inl (tokenize_of_not_lexes fun source ts hl => h ⟨source, ts, hl⟩)

theorem isOneLine_of_mem_events (hname : Text.isOneLine c.filename = true)
    (h : e ∈ (c.calculate expression).events) : Text.isOneLine e.text = true := by
  rcases Traced.mem_events_reportFault h with h | ⟨f, hf, rfl⟩
  · rcases c.tokenize_cases expression with ⟨f, hnone⟩ | ⟨source, ts, hts, hplaces⟩
    · rw [hnone] at h
      cases h
    · rw [hts] at h
      rcases Traced.mem_events_andThen h with h | ⟨us, hus, h⟩
      · obtain rfl := List.mem_singleton.mp h
        exact Event.isOneLine_text (by simp) (by simp)
      · cases hus
        rcases mem_events_evaluate hplaces h with ⟨t, ⟨offset, hplace⟩, rfl⟩ | rfl
        · refine Event.isOneLine_text ?_ (by simp)
          rintro _ ⟨⟩
          rw [hplace]
          exact Location.all_text Text.breaksLine_of_isPlain hname
        · exact Event.isOneLine_text (by simp) (by simp)
  · have hanswer : (c.calculate expression).answer = .error f := by
      rw [calculate, Traced.answer_reportFault, hf]
    refine Event.isOneLine_text (by simp) ?_
    rintro _ _ ⟨⟩
    exact Fault.all_message Text.breaksLine_of_isPlain (legible_of_answer hanswer).excerpts

/-- Where the name of the expressions is on one line, so is every event, and the text of a fault has
the lines of its report and no others. Two faults with one text tell the same. -/
theorem reports_line_by_line (c : Calculator) (hname : Text.isOneLine c.filename = true) :
    (∀ expression, ∀ e ∈ (c.calculate expression).events, Text.isOneLine e.text = true) ∧
    (∀ expression f, (c.calculate expression).answer = .error f →
      f.diagnostic.text = Text.joinLines f.report ∧
        ∀ line ∈ f.report, Text.isOneLine line = true) ∧
    ∀ expression expression' f g, (c.calculate expression).answer = .error f →
      (c.calculate expression').answer = .error g → f.diagnostic.text = g.diagnostic.text →
      f.SameReport g := by
  refine ⟨fun expression e he => isOneLine_of_mem_events hname he, ?_, ?_⟩
  · intro expression f h
    have hf := legible_of_answer h
    exact ⟨Fault.text_diagnostic hf.help, hf.isOneLine_report hname⟩
  · intro expression expression' f g h h' htext
    have hf := legible_of_answer h
    have hg := legible_of_answer h'
    rw [Fault.text_diagnostic hf.help, Fault.text_diagnostic hg.help] at htext
    have hreport := Text.joinLines_injective (hf.isOneLine_report hname)
      (hg.isOneLine_report hname) htext
    exact hf.sameReport hg hreport

/-- The line feed of the expression is blank, and the bell behind it is quoted as it is. -/
theorem reports_line_by_line_bell :
    Text.isOneLine "sheet 1" = true ∧
      (∀ e ∈ (Calculator.calculate ⟨"sheet 1"⟩ (some "2*\n\u0007")).events,
        Text.isOneLine e.text = true) ∧
      ∃ f, (Calculator.calculate ⟨"sheet 1"⟩ (some "2*\n\u0007")).answer = .error f ∧
        f.message = "Invalid character: '\u0007'" ∧
        f.diagnostic.text = Text.joinLines f.report ∧
        ∀ line ∈ f.report, Text.isOneLine line = true := by
  have hname : Text.isOneLine "sheet 1" = true := by decide
  have hfault : (Calculator.calculate ⟨"sheet 1"⟩ (some "2*\n\u0007")).answer =
      .error (.invalidCharacter "\u0007" (some (.ofOffset "sheet 1" 3))) := by
    decide +kernel
  obtain ⟨hevents, hfaults, -⟩ := reports_line_by_line ⟨"sheet 1"⟩ hname
  exact ⟨hname, hevents _, _, hfault, rfl, hfaults _ _ hfault⟩

end Calculator
end Abacus
