import Abacus.Console.Answer
import Mathlib.Logic.Function.Basic

/-! # Overrides over overrides

Overrides that are laid over settings one after the other are as good as one: each choice is the
later one where that is made, and else the earlier one. A word for leaving brings its instructions
with it, so instructions that name the word of the settings go on to name it.
-/
namespace Abacus.Console

namespace Overrides

/-- The word for leaving that is asked for; the empty word asks for none. -/
def word? (o : Overrides) : Option String := o.exitCommand.filter (· ≠ "")

/-- Each choice of `later` where it makes one, and else that of `earlier`. -/
def laidOver (later earlier : Overrides) : Overrides where
  exitCommand := if later.word?.isSome then later.exitCommand else earlier.exitCommand
  prompt := later.prompt.or earlier.prompt
  showTokens := later.showTokens || earlier.showTokens
  verbose := later.verbose || earlier.verbose

theorem word?_eq_some_iff {o : Overrides} {w : String} :
    o.word? = some w ↔ o.exitCommand = some w ∧ w ≠ "" := by
  simp [word?, Option.filter_eq_some_iff]

theorem word?_laidOver (later earlier : Overrides) :
    (later.laidOver earlier).word? = later.word?.or earlier.word? := by
  have hover : (later.laidOver earlier).word? =
      (if later.word?.isSome then later.exitCommand else earlier.exitCommand).filter (· ≠ "") := rfl
  rw [hover]
  cases h : later.word? with
  | none => rfl
  | some w => exact h

end Overrides

theorem standardInstructions_injective : Function.Injective standardInstructions := by
  intro v w h
  unfold standardInstructions at h
  exact (String.append_right_inj _).mp ((String.append_left_inj _).mp h)

namespace Settings

variable (s : Settings)

/-- What overrides make of each setting. -/
theorem overlay_eq (o : Overrides) : s.overlay o = { s with
    exitCommand := o.word?.getD s.exitCommand
    instructions := (o.word?.map standardInstructions).getD s.instructions
    prompt := o.prompt.getD s.prompt
    showTokens := s.showTokens || o.showTokens
    verbose := s.verbose || o.verbose } := by
  rw [overlay, Overrides.word?]
  cases o.exitCommand with
  | none => rfl
  | some w =>
    by_cases hw : w = ""
    · subst hw
      rfl
    · have hword : s.withExitCommand (some w) =
          { s with exitCommand := w, instructions := standardInstructions w } := by
        rw [withExitCommand]
        exact hw
      have hfilter : (some w).filter (· ≠ "") = some w := Option.filter_some_pos (by simpa using hw)
      rw [hword, hfilter]
      rfl

theorem overlay_overlay (a b : Overrides) : (s.overlay a).overlay b = s.overlay (b.laidOver a) := by
  have hflag (x y z : Bool) : (x || y || z) = (x || (z || y)) := by
    rw [Bool.or_assoc, Bool.or_comm y]
  simp only [overlay_eq, Overrides.word?_laidOver]
  simp only [Overrides.laidOver, Option.map_or, Option.getD_or, hflag]

/-- Overlaying twice is overlaying once. It keeps the banner, the template and the messages, and
flags that are on. The instructions are replaced along with the word for leaving or not at all, and
where they name the word of the settings, they do so after, and change only if the word does. -/
theorem overlay_composes :
    (∀ a b : Overrides, (s.overlay a).overlay b = s.overlay (b.laidOver a)) ∧
      ∀ o : Overrides,
        let t := s.overlay o
        (t.banner = s.banner ∧ t.resultTemplate = s.resultTemplate ∧
          t.arithmeticErrorMessage = s.arithmeticErrorMessage ∧
          t.semanticErrorMessage = s.semanticErrorMessage) ∧
        ((s.showTokens = true → t.showTokens = true) ∧ (s.verbose = true → t.verbose = true)) ∧
        (match o.word? with
          | none => t.exitCommand = s.exitCommand ∧ t.instructions = s.instructions
          | some w => t.exitCommand = w ∧ t.instructions = standardInstructions w) ∧
        (s.instructions = standardInstructions s.exitCommand →
          t.instructions = standardInstructions t.exitCommand ∧
            (t.instructions = s.instructions ↔ t.exitCommand = s.exitCommand)) := by
  refine ⟨s.overlay_overlay, fun o => ?_⟩
  rw [overlay_eq]
  refine ⟨⟨rfl, rfl, rfl, rfl⟩, ⟨fun h => ?_, fun h => ?_⟩, ?_, fun h => ?_⟩
  · rw [h, Bool.true_or]
  · rw [h, Bool.true_or]
  · cases o.word? <;> exact ⟨rfl, rfl⟩
  · have hstandard : (o.word?.map standardInstructions).getD s.instructions =
        standardInstructions (o.word?.getD s.exitCommand) := by
      rw [h]
      cases o.word? <;> rfl
    refine ⟨hstandard, ?_⟩
    dsimp only
    rw [hstandard, h]
    exact standardInstructions_injective.eq_iff

end Settings
end Abacus.Console
