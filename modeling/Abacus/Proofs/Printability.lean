import Abacus.Proofs.Legibility

/-! # Characters that cannot be shown

The text of a fault is made of printable characters and line feeds, with one exception. A foreign
character is quoted in the message as it is, even where it cannot be shown and the help names it by
its code point.
-/
namespace Abacus

theorem Text.mem_joinLines {ls : List String} {d : Char} :
    d ∈ (joinLines ls).toList ↔ ∃ l ∈ ls, d ∈ l.toList ∨ d = '\n' := by
  simp [joinLines, String.toList_join]

theorem Fault.help_of_unprintable {ch : Char} (h : Text.isPrintable ch = false)
    (l : Option Location) : (invalidCharacter ch.toString l).help =
      "Non-printable character (Unicode: " ++ codePointText ch.toNat ++ ") is not allowed." := by
  have htext : Text.isPrintableText ch.toString = false := by simpa [Text.isPrintableText] using h
  have hchar : ch.toString.toList = [ch] := by simp
  dsimp only [help, characterHelp]
  rw [htext, hchar]

namespace Calculator

variable {c : Calculator} {expression : Option String} {f : Fault}

/-- Of all that is shown, only a foreign character can fail a test that printable ones pass. -/
theorem text_passes {p : Char → Bool} (hp : ∀ d, Text.isPrintable d = true → p d = true)
    (hname : Text.isPrintableText c.filename = true)
    (h : (c.calculate expression).answer = .error f)
    (hforeign : ∀ ch l, f = .invalidCharacter ch.toString l → p ch = true) :
    ∀ d ∈ f.diagnostic.text.toList, p d = true ∨ d = '\n' := by
  have hf := legible_of_answer h
  have hplain (d : Char) (hd : Text.isPlain d = true) : p d = true :=
    hp d (Text.isPrintable_of_isPlain d hd)
  have hname' : c.filename.toList.all p = true :=
    List.all_eq_true.mpr fun d hd => hp d (List.all_eq_true.mp hname d hd)
  have hexcerpts : ∀ s ∈ f.excerpts, s.toList.all p = true := by
    rcases blames_of_answer h with rfl | ⟨source, offset, ch, -, -, -, hblames, hreason⟩
    · exact fun s hs => nomatch hs
    · exact hblames.all_excerpts hplain hreason fun l hl _ => hforeign ch l hl
  rw [Fault.text_diagnostic hf.help]
  intro d hd
  obtain ⟨line, hline, hd | rfl⟩ := Text.mem_joinLines.mp hd
  · have hpass := Fault.all_report hplain hexcerpts (hf.all_location hplain hname') line hline
    exact .inl (List.all_eq_true.mp hpass d hd)
  · exact .inr rfl

theorem foreign_of_answer {ch : Char} {l : Option Location}
    (h : (c.calculate expression).answer = .error (.invalidCharacter ch.toString l)) :
    Text.isBlank ch = false ∧ ∃ source offset, expression = some source ∧
      source.toList[offset]? = some ch ∧ l = some (.ofOffset c.filename offset) := by
  rcases blames_of_answer h with hf | ⟨source, offset, d, hsource, hat, hplace, hblames, -⟩
  · cases hf
  · obtain ⟨htext, hblank, -⟩ := hblames
    obtain rfl : ch = d := String.singleton_inj.mp htext
    exact ⟨hblank, source, offset, hsource, hat, hplace⟩

theorem mem_text_of_foreign {ch : Char} {l : Option Location}
    (h : (c.calculate expression).answer = .error (.invalidCharacter ch.toString l)) :
    ch ∈ (Fault.invalidCharacter ch.toString l).diagnostic.text.toList := by
  have hmessage : ch ∈ ("Invalid character: '" ++ ch.toString ++ "'").toList := by simp
  rw [Fault.text_diagnostic (legible_of_answer h).help, Text.mem_joinLines, Fault.report]
  refine ⟨_, List.mem_cons_self, .inl ?_⟩
  rw [String.toList_append]
  exact List.mem_append_right _ hmessage

/-- The text of a fault can be shown, line by line, exactly if no foreign character is at fault that
cannot be. Such a character is one of the expression, and the only one in the text that cannot be
shown; the help names it by its code point, and the message quotes it. -/
theorem shows_all_but_foreign (c : Calculator) (hname : Text.isPrintableText c.filename = true)
    (h : (c.calculate expression).answer = .error f) :
    ((∀ d ∈ f.diagnostic.text.toList, Text.isPrintable d = true ∨ d = '\n') ↔
      ∀ ch l, f = .invalidCharacter ch.toString l → Text.isPrintable ch = true) ∧
    ∀ ch l, f = .invalidCharacter ch.toString l →
      (∃ source offset, expression = some source ∧ source.toList[offset]? = some ch ∧
        l = some (.ofOffset c.filename offset)) ∧
      f.message = "Invalid character: '" ++ ch.toString ++ "'" ∧
      (∀ d ∈ f.diagnostic.text.toList, Text.isPrintable d = true ∨ d = '\n' ∨ d = ch) ∧
      (Text.isPrintable ch = false → f.help =
        "Non-printable character (Unicode: " ++ Fault.codePointText ch.toNat ++
          ") is not allowed.") := by
  refine ⟨⟨?_, ?_⟩, ?_⟩
  · rintro hshown ch l rfl
    obtain ⟨hblank, -⟩ := foreign_of_answer h
    rcases hshown ch (mem_text_of_foreign h) with hprintable | rfl
    · exact hprintable
    · exact absurd hblank (by decide)
  · exact text_passes (fun _ hd => hd) hname h
  · rintro ch l rfl
    have hself (d : Char) (k : Option Location)
        (hd : Fault.invalidCharacter ch.toString l = .invalidCharacter d.toString k) :
        (Text.isPrintable d || decide (d = ch)) = true := by
      obtain rfl : ch = d := String.singleton_inj.mp (Fault.invalidCharacter.inj hd).1
      simp
    have hshown := text_passes (p := fun d => Text.isPrintable d || decide (d = ch))
      (fun d hd => by rw [hd]; rfl) hname h hself
    refine ⟨(foreign_of_answer h).2, rfl, fun d hd => ?_,
      fun hch => Fault.help_of_unprintable hch l⟩
    rcases hshown d hd with hd | hd
    · rw [Bool.or_eq_true, decide_eq_true_eq] at hd
      exact hd.imp_right .inr
    · exact .inr (.inl hd)

/-- A letter is foreign but can be shown. -/
theorem shows_all_but_foreign_letter :
    Text.isPrintableText "sheet 1" = true ∧
      (Calculator.calculate ⟨"sheet 1"⟩ (some "2*\tλ")).answer =
        .error (.invalidCharacter "λ" (some (.ofOffset "sheet 1" 3))) ∧
      ∀ d ∈ (Fault.invalidCharacter "λ" (some (.ofOffset "sheet 1" 3))).diagnostic.text.toList,
        Text.isPrintable d = true ∨ d = '\n' := by
  have hname : Text.isPrintableText "sheet 1" = true := by decide +kernel
  have hfault : (Calculator.calculate ⟨"sheet 1"⟩ (some "2*\tλ")).answer =
      .error (.invalidCharacter "λ" (some (.ofOffset "sheet 1" 3))) := by
    decide +kernel
  refine ⟨hname, hfault, (shows_all_but_foreign ⟨"sheet 1"⟩ hname hfault).1.mpr ?_⟩
  intro ch l hf
  obtain ⟨htext, -⟩ := Fault.invalidCharacter.inj hf
  obtain rfl : 'λ' = ch := String.singleton_inj.mp htext
  decide +kernel

/-- The message quotes the bell that the help names by its code point. -/
theorem bell_in_message :
    Text.isPrintableText "<expression>" = true ∧
      (Calculator.calculate {} (some "1\u0007")).answer =
        .error (.invalidCharacter "\u0007" (some (.ofOffset "<expression>" 1))) ∧
      (Fault.invalidCharacter "\u0007" (some (.ofOffset "<expression>" 1))).help =
        "Non-printable character (Unicode: U+0007) is not allowed." ∧
      Text.isPrintable '\u0007' = false ∧ '\u0007' ≠ '\n' ∧
      '\u0007' ∈ (Fault.invalidCharacter "\u0007"
        (some (.ofOffset "<expression>" 1))).diagnostic.text.toList := by
  have hbell : "\u0007" = '\u0007'.toString := rfl
  have hfault : (Calculator.calculate {} (some "1\u0007")).answer =
      .error (.invalidCharacter '\u0007'.toString (some (.ofOffset "<expression>" 1))) := by
    decide +kernel
  have hmem := mem_text_of_foreign hfault
  rw [hbell]
  refine ⟨?_, hfault, ?_, ?_, ?_, hmem⟩ <;> decide +kernel

end Calculator
end Abacus
