import Abacus.Fault
import Abacus.Proofs.LineBreaks

/-! # What a fault is shown as

The text of a fault has a line for each thing that it tells. Around what is quoted and around the
place there are plain characters alone. Hence where the quoted parts are on one line, so is all that
is told, and the lines tell a fault apart from every fault that says anything else.
-/
namespace Abacus

theorem Location.all_text {p : Char → Bool} (hp : ∀ c, Text.isPlain c = true → p c = true)
    {l : Location} (h : l.filename.toList.all p = true) : l.text.toList.all p = true := by
  have hcolon : ":".toList.all p = true := Text.all_of_plain hp (by decide)
  have hline := Text.all_between (Text.all_append h hcolon) (Text.all_render hp l.line) hcolon
  exact Text.all_append hline (Text.all_render hp l.column)

theorem Location.text_ofOffset_injective {filename : String} {i j : Nat}
    (h : (ofOffset filename i).text = (ofOffset filename j).text) : i = j := by
  have hcolumn : Decimal.render (i + 1) = Decimal.render (j + 1) :=
    (String.append_right_inj _).mp h
  have := Decimal.render_injective hcolumn
  omega

namespace Fault

/-- The lines that a fault is shown as. -/
def report (f : Fault) : List String :=
  ("ERROR[" ++ f.cause.code ++ "]: " ++ f.message) ::
    (f.location.toList.map (fun l => "  --> " ++ l.text) ++ ("  help: " ++ f.help) ::
      f.suggestions.elim [] fun ss => "  suggestions:" :: ss.map ("    - " ++ ·))

/-- What a fault has from the expression, and the reason that is given with a literal. -/
def excerpts : Fault → List String
  | invalidCharacter text _ => [text]
  | misplacedOperator lexeme _ | missingOperand lexeme _ => [lexeme]
  | invalidNumber lexeme _ reason => [lexeme, reason]
  | unmatchedClosing _ | unclosedOpening _ | leftoverOperands .. | emptyExpression
  | divisionByZero _ => []

/-- Only the empty expression has no place, what is quoted stays on its line, and help is given. -/
structure Legible (filename : String) (f : Fault) : Prop where
  place : f = .emptyExpression ∨ ∃ offset, f.location = some (.ofOffset filename offset)
  excerpts : ∀ s ∈ f.excerpts, Text.isOneLine s = true
  help : f.help ≠ ""

theorem text_diagnostic {f : Fault} (h : f.help ≠ "") :
    f.diagnostic.text = Text.joinLines f.report := by
  have herror : Text.uppercase "error" = "ERROR" := by decide +kernel
  have hheading : f.diagnostic.heading = "ERROR[" ++ f.cause.code ++ "]: " ++ f.message := by
    simp only [Diagnostic.heading, diagnostic, herror]
    cases f <;> rfl
  have hlocation : f.diagnostic.locationLines =
      f.location.toList.map (fun l => "  --> " ++ l.text) := by
    unfold Diagnostic.locationLines diagnostic
    cases f.location <;> rfl
  have hhelp : f.diagnostic.helpLines = ["  help: " ++ f.help] := by
    unfold Diagnostic.helpLines diagnostic
    split
    · rename_i hnone
      cases hnone
    · rename_i hempty
      exact absurd (Option.some.inj hempty) h
    · rename_i help hhelp
      rw [Option.some.inj hhelp]
  have hsuggestions : f.diagnostic.suggestionLines =
      f.suggestions.elim [] fun ss => "  suggestions:" :: ss.map ("    - " ++ ·) := by
    cases f <;> rfl
  rw [Diagnostic.text, Diagnostic.lines, hheading, hlocation, hhelp, hsuggestions, report,
    List.append_assoc]
  rfl

section
variable {p : Char → Bool} (hp : ∀ c, Text.isPlain c = true → p c = true) {f : Fault}

include hp

theorem all_message (h : ∀ s ∈ f.excerpts, s.toList.all p = true) :
    f.message.toList.all p = true := by
  unfold message
  cases f with
  | invalidCharacter s _ | misplacedOperator s _ | invalidNumber s _ _ | missingOperand s _ =>
    exact Text.all_between (Text.all_of_plain hp (by decide +kernel)) (h s List.mem_cons_self)
      (Text.all_of_plain hp (by decide +kernel))
  | leftoverOperands count _ =>
    dsimp only
    split
    · exact Text.all_of_plain hp (by decide +kernel)
    · exact Text.all_between (Text.all_of_plain hp (by decide +kernel)) (Text.all_render hp count)
        (Text.all_of_plain hp (by decide +kernel))
  | unmatchedClosing | unclosedOpening | emptyExpression | divisionByZero =>
    exact Text.all_of_plain hp (by decide +kernel)

theorem all_codePointText (n : Nat) : (codePointText n).toList.all p = true := by
  have hdigits : (String.ofList ((Text.hexadecimal 4 n).map Char.toUpper)).toList.all p = true := by
    rw [String.toList_ofList, List.all_map, List.all_eq_true]
    intro c hc
    obtain ⟨k, hk, rfl⟩ := Text.exists_digitChar_of_mem_hexadecimal hc
    exact hp _ (Text.isPlain_digitChar k hk).2
  exact Text.all_append (Text.all_of_plain hp (by decide)) hdigits

theorem all_characterHelp {s : String} (h : s.toList.all p = true) :
    (characterHelp s).toList.all p = true := by
  unfold characterHelp
  split
  · exact Text.all_between (Text.all_of_plain hp (by decide +kernel)) (all_codePointText hp _)
      (Text.all_of_plain hp (by decide +kernel))
  · exact Text.all_between (Text.all_of_plain hp (by decide +kernel)) h
      (Text.all_of_plain hp (by decide +kernel))

theorem all_help (h : ∀ s ∈ f.excerpts, s.toList.all p = true)
    (hlocation : ∀ l ∈ f.location, l.text.toList.all p = true) : f.help.toList.all p = true := by
  have htext : (Location.textOrNone f.location).toList.all p = true := by
    cases hl : f.location with
    | none => exact Text.all_of_plain hp (by decide)
    | some l => exact hlocation l hl
  unfold help
  cases f with
  | invalidCharacter s _ => exact all_characterHelp hp (h s List.mem_cons_self)
  | invalidNumber _ _ reason => exact h reason (by simp [excerpts])
  | unclosedOpening _ =>
    exact Text.all_between (Text.all_of_plain hp (by decide +kernel)) htext
      (Text.all_of_plain hp (by decide +kernel))
  | leftoverOperands =>
    dsimp only
    split <;> exact Text.all_of_plain hp (by decide +kernel)
  | misplacedOperator | unmatchedClosing | missingOperand | emptyExpression | divisionByZero =>
    exact Text.all_of_plain hp (by decide +kernel)

theorem all_code (c : Cause) : c.code.toList.all p = true := by
  cases c <;> exact Text.all_of_plain hp (by decide)

theorem all_suggestions (f : Fault) :
    ∀ line ∈ f.suggestions.elim [] fun ss => "  suggestions:" :: ss.map ("    - " ++ ·),
      line.toList.all p = true := by
  have hplain : ∀ line ∈ f.suggestions.elim [] fun ss => "  suggestions:" :: ss.map ("    - " ++ ·),
      line.toList.all Text.isPlain = true := by
    cases f <;> rw [suggestions] <;> decide +kernel
  intro line hline
  exact List.all_eq_true.mpr fun c hc => hp c (List.all_eq_true.mp (hplain line hline) c hc)

/-- What is put around the excerpts and the place is plain. -/
theorem all_report (h : ∀ s ∈ f.excerpts, s.toList.all p = true)
    (hlocation : ∀ l ∈ f.location, l.text.toList.all p = true) :
    ∀ line ∈ f.report, line.toList.all p = true := by
  have hcode : ("ERROR[" ++ f.cause.code ++ "]: ").toList.all p = true :=
    Text.all_between (Text.all_of_plain hp (by decide)) (all_code hp f.cause)
      (Text.all_of_plain hp (by decide))
  have hplaces : ∀ line ∈ f.location.toList.map (fun l => "  --> " ++ l.text),
      line.toList.all p = true := by
    intro line hline
    obtain ⟨l, hl, rfl⟩ := List.mem_map.mp hline
    exact Text.all_append (Text.all_of_plain hp (by decide))
      (hlocation l (Option.mem_toList.mp hl))
  have hhelp : ("  help: " ++ f.help).toList.all p = true :=
    Text.all_append (Text.all_of_plain hp (by decide)) (all_help hp h hlocation)
  rw [report, List.forall_mem_cons, List.forall_mem_append, List.forall_mem_cons]
  exact ⟨Text.all_append hcode (all_message hp h), hplaces, hhelp, all_suggestions hp f⟩

theorem Legible.all_location {filename : String} (h : f.Legible filename)
    (hname : filename.toList.all p = true) : ∀ l ∈ f.location, l.text.toList.all p = true := by
  rcases h.place with rfl | ⟨offset, hplace⟩
  · exact fun l hl => nomatch hl
  · rw [hplace]
    rintro l ⟨⟩
    exact Location.all_text hp hname

end

theorem Legible.isOneLine_report {filename : String} {f : Fault} (h : f.Legible filename)
    (hname : Text.isOneLine filename = true) : ∀ line ∈ f.report, Text.isOneLine line = true :=
  all_report Text.breaksLine_of_isPlain h.excerpts
    (h.all_location Text.breaksLine_of_isPlain hname)

theorem code_length (f : Fault) : f.cause.code.length = 4 := by
  cases f <;> rw [cause] <;> rfl

structure SameReport (f g : Fault) : Prop where
  code : f.cause.code = g.cause.code
  message : f.message = g.message
  location : f.location = g.location
  help : f.help = g.help
  suggestions : f.suggestions = g.suggestions

theorem eq_emptyExpression_of_cause {f : Fault} (h : f.cause = .emptyExpression) :
    f = .emptyExpression := by
  cases f with
  | emptyExpression => rfl
  | _ => cases h

/-- The codes are of one length, so it is clear where the message begins. -/
theorem heading_injective {f g : Fault}
    (h : "ERROR[" ++ f.cause.code ++ "]: " ++ f.message =
      "ERROR[" ++ g.cause.code ++ "]: " ++ g.message) :
    f.cause.code = g.cause.code ∧ f.message = g.message := by
  rw [String.append_assoc, String.append_assoc, String.append_assoc, String.append_assoc,
    String.append_right_inj] at h
  have hlists := congrArg String.toList h
  rw [String.toList_append, String.toList_append (s := g.cause.code)] at hlists
  have hlength : f.cause.code.toList.length = g.cause.code.toList.length := by
    rw [String.length_toList, String.length_toList, code_length, code_length]
  obtain ⟨hcode, hrest⟩ := List.append_inj hlists hlength
  exact ⟨String.toList_injective hcode,
    (String.append_right_inj "]: ").mp (String.toList_injective hrest)⟩

theorem suggestionLines_injective {ss ts : Option (List String)}
    (h : ss.elim [] (fun ss => "  suggestions:" :: ss.map ("    - " ++ ·)) =
      ts.elim [] (fun ts => "  suggestions:" :: ts.map ("    - " ++ ·))) : ss = ts := by
  have hline : Function.Injective ("    - " ++ ·) := fun _ _ => (String.append_right_inj _).mp
  cases ss with
  | none =>
    cases ts with
    | none => rfl
    | some ts => cases h
  | some ss =>
    cases ts with
    | none => cases h
    | some ts => exact congrArg some (List.map_injective_iff.mpr hline (List.cons.inj h).2)

/-- The lines of a fault tell all of it that there is to tell. -/
theorem Legible.sameReport {filename : String} {f g : Fault} (hf : f.Legible filename)
    (hg : g.Legible filename) (h : f.report = g.report) : f.SameReport g := by
  obtain ⟨hheading, hrest⟩ := List.cons.inj h
  obtain ⟨hcode, hmessage⟩ := heading_injective hheading
  have hcause := Cause.code_injective hcode
  rcases hf.place with rfl | ⟨i, hi⟩
  · obtain rfl := eq_emptyExpression_of_cause hcause.symm
    exact ⟨rfl, rfl, rfl, rfl, rfl⟩
  · rcases hg.place with rfl | ⟨j, hj⟩
    · obtain rfl := eq_emptyExpression_of_cause hcause
      cases hi
    · rw [hi, hj] at hrest
      obtain ⟨hplace, hadvice⟩ := List.cons.inj hrest
      obtain ⟨hhelp, hsuggestions⟩ := List.cons.inj hadvice
      obtain rfl := Location.text_ofOffset_injective ((String.append_right_inj _).mp hplace)
      exact ⟨hcode, hmessage, hi.trans hj.symm, (String.append_right_inj _).mp hhelp,
        suggestionLines_injective hsuggestions⟩

end Fault

end Abacus
