import Abacus.Proofs.Conversation
import Abacus.Proofs.Overlaying
import Abacus.Proofs.Trimming

/-! # The word that ends a session

A chosen word is named in the instructions as it is, but a line is compared with it without the
white space around the line. So a word ends the session exactly if white space stands at neither end
of it. Any other word ends it nowhere: the session reads the whole input.
-/
namespace Abacus

namespace Console

theorem Settings.overlay_exitCommand {s : Settings} {o : Overrides} {w : String}
    (h : o.exitCommand = some w) (hne : w ≠ "") :
    (s.overlay o).banner = s.banner ∧ (s.overlay o).exitCommand = w ∧
      (s.overlay o).instructions = standardInstructions w := by
  rw [overlay_eq, Overrides.word?_eq_some_iff.mpr ⟨h, hne⟩]
  exact ⟨rfl, rfl, rfl⟩

namespace Session

variable {s : Session}

/-- Where no line ends the session, the whole input is answered, and then it ends as the input
does. -/
theorem run_of_stay {input : String}
    (h : ∀ line ∈ Text.lines input, Text.trim line ≠ s.settings.exitCommand)
    (inputEnd : InputEnd) :
    s.run inputEnd input =
      ⟨s.greeting ++ (Text.lines input).flatMap s.turn ++ s.prompt :: (farewell inputEnd).1,
        (farewell inputEnd).2, ""⟩ := by
  have hlines := converse_append h inputEnd []
  rw [List.append_nil] at hlines
  rw [run_eq_converse_after, hlines]
  simp [Transcript.after, converse]

theorem length_turn (line : String) : 1 < (s.turn line).length := by
  simp [turn]

theorem stay_of_not_unpadded (h : ¬ Text.Unpadded s.settings.exitCommand) (line : String) :
    Text.trim line ≠ s.settings.exitCommand := by
  intro hline
  rw [← hline] at h
  exact h (Text.unpadded_trim line)

section
variable {x : String} (hx : x = "" ∨ x.toList.getLast? = some '\n')
  (hstay : ∀ line ∈ Text.lines x, Text.trim line ≠ s.settings.exitCommand)
include hx hstay

/-- A line behind which the session goes on takes a turn, so more is put out than without it. -/
theorem run_ne_of_stay {y line : String} (hline : line ∈ Text.lines y)
    (hy : ∀ line ∈ Text.lines y, Text.trim line ≠ s.settings.exitCommand) (inputEnd : InputEnd)
    (status : Nat) (unread : String) : s.run inputEnd (x ++ y) ≠
      ⟨s.greeting ++ (Text.lines x).flatMap s.turn ++ [s.prompt], status, unread⟩ := by
  intro h
  have hall : ∀ line ∈ Text.lines (x ++ y), Text.trim line ≠ s.settings.exitCommand := by
    rw [Text.lines_append hx]
    exact List.forall_mem_append.mpr ⟨hstay, hy⟩
  obtain ⟨before, after, hsplit⟩ := List.append_of_mem hline
  have hturn := s.length_turn line
  rw [run_of_stay hall, Text.lines_append hx, hsplit] at h
  have hlength := congrArg (fun t : Transcript => t.emissions.length) h
  simp only [List.flatMap_append, List.flatMap_cons, List.length_append, List.length_cons,
    List.length_nil] at hlength
  omega

end

/-- The instructions name the word that is chosen, and the session ends at the first line that is
this word, whose turn it does not take, if white space stands at neither end of the word. Otherwise
no line ends it: every line is answered, and nothing is left unread. -/
theorem ends_at_word_iff (base : Settings) (c : Calculator) {o : Overrides} {w x : String}
    (ho : o.exitCommand = some w) (hne : w ≠ "") (hw : '\n' ∉ w.toList)
    (hx : x = "" ∨ x.toList.getLast? = some '\n')
    (hstay : ∀ line ∈ Text.lines x, Text.trim line ≠ w) (inputEnd : InputEnd) :
    let s : Session := ⟨base.overlay o, c⟩
    let shown := s.greeting ++ (Text.lines x).flatMap s.turn ++ [s.prompt]
    s.greeting = [.line base.banner,
      .line ("Type expressions to be calculated, or enter '" ++ w ++ "' to quit.\n")] ∧
    (∀ rest, s.run inputEnd (x ++ (w ++ "\n" ++ rest)) = ⟨shown, 0, rest⟩ ↔ Text.Unpadded w) ∧
    (s.run inputEnd (x ++ w) = ⟨shown, 0, ""⟩ ↔ Text.Unpadded w) ∧
    (¬ Text.Unpadded w → ∀ input, s.run inputEnd input =
      ⟨s.greeting ++ (Text.lines input).flatMap s.turn ++ s.prompt :: (farewell inputEnd).1,
        (farewell inputEnd).2, ""⟩) := by
  intro s shown
  obtain ⟨hbanner, hword, hinstructions⟩ := base.overlay_exitCommand ho hne
  have hs : s.settings.exitCommand = w := hword
  have hstay' : ∀ line ∈ Text.lines x, Text.trim line ≠ s.settings.exitCommand := by
    rwa [hs]
  have hnever (h : ¬ Text.Unpadded w) (line : String) :
      Text.trim line ≠ s.settings.exitCommand := stay_of_not_unpadded (hs ▸ h) line
  have hends {y line unread : String} (hline : line ∈ Text.lines y)
      (h : s.run inputEnd (x ++ y) = ⟨shown, 0, unread⟩) : Text.Unpadded w := by
    by_contra hpadded
    exact run_ne_of_stay hx hstay' hline (fun line _ => hnever hpadded line) _ _ _ h
  refine ⟨?_, fun rest => ⟨fun h => ?_, fun h => ?_⟩, ⟨fun h => ?_, fun h => ?_⟩, fun h input => ?_⟩
  · have hgreeting : s.greeting =
        [.line (base.overlay o).banner, .line (base.overlay o).instructions] := rfl
    rw [hgreeting, hbanner, hinstructions]
    rfl
  · have hline : w ++ "\n" ∈ Text.lines (w ++ "\n" ++ rest) := by
      rw [Text.lines_line hw]
      exact List.mem_cons_self
    exact hends hline h
  · rw [run_append_eq hx hstay', converse_lines_exit hw (h.trim_eq.trans hs.symm)]
    rfl
  · have hline : w ∈ Text.lines w := by
      rw [Text.lines_last hw hne]
      exact List.mem_cons_self
    exact hends hline h
  · rw [run_append_eq hx hstay', converse_lines_exit_last hw hne (h.trim_eq.trans hs.symm)]
    rfl
  · exact run_of_stay (fun line _ => hnever h line) inputEnd

/-- The word is an expression with blanks in it, and the line before it has the same value. -/
theorem ends_at_word_iff_product :
    let o : Overrides := { exitCommand := some "2 * 3" }
    let s : Session := ⟨({} : Settings).overlay o, {}⟩
    let x := "2*3\r\n"
    (o.exitCommand = some "2 * 3" ∧ "2 * 3" ≠ "" ∧ '\n' ∉ "2 * 3".toList ∧
      (x = "" ∨ x.toList.getLast? = some '\n') ∧
      (∀ line ∈ Text.lines x, Text.trim line ≠ "2 * 3") ∧ Text.Unpadded "2 * 3") ∧
    s.run .closed (x ++ ("2 * 3" ++ "\n" ++ "4")) =
      ⟨s.greeting ++ (Text.lines x).flatMap s.turn ++ [s.prompt], 0, "4"⟩ := by
  intro o s x
  have ho : o.exitCommand = some "2 * 3" := rfl
  have hne : "2 * 3" ≠ "" := by decide
  have hw : '\n' ∉ "2 * 3".toList := by decide
  have hx : x = "" ∨ x.toList.getLast? = some '\n' := by decide
  have hstay : ∀ line ∈ Text.lines x, Text.trim line ≠ "2 * 3" := by decide +kernel
  have hunpadded : Text.Unpadded "2 * 3" := by
    constructor <;> rintro c ⟨⟩ <;> decide
  obtain ⟨-, hends, -⟩ := ends_at_word_iff {} {} ho hne hw hx hstay .closed
  exact ⟨⟨ho, hne, hw, hx, hstay, hunpadded⟩, (hends "4").mpr hunpadded⟩

/-- The instructions name a word with blanks around it, but the line that is this word is worked out
as an expression, and so is the line behind it. -/
theorem padded_word_ends_nothing :
    let s : Session := { settings := ({} : Settings).overlay { exitCommand := some " q " } }
    let t := s.run .closed (" q " ++ "\n" ++ "1\n")
    s.settings.instructions = "Type expressions to be calculated, or enter ' q ' to quit.\n" ∧
      Text.lines (" q " ++ "\n" ++ "1\n") = [" q " ++ "\n", "1\n"] ∧ t.unread = "" ∧
      Emission.stdout t.emissions = Emission.stdout s.greeting ++ Emission.stdout [s.prompt] ++
        "Oops, there is a semantic error in the expression\n" ++ Emission.stdout [s.prompt] ++
          "Result = 1\n\n" ++ Emission.stdout [s.prompt] := by
  decide +kernel

end Session
end Console
end Abacus
