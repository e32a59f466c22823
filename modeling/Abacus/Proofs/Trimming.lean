import Abacus.Text.Character
import Mathlib.Data.List.DropRight

/-! # Texts without the white space at their ends

What is left of a text has white space at neither end, and a text of that kind is left as it is.
Nothing is left where all of the text is white space.
-/
namespace Abacus.Text

/-- White space stands at neither end of the text. -/
structure Unpadded (s : String) : Prop where
  head : ∀ c ∈ s.toList.head?, isBlank c = false
  last : ∀ c ∈ s.toList.getLast?, isBlank c = false

theorem toList_trim (s : String) :
    (trim s).toList = (s.toList.dropWhile isBlank).rdropWhile isBlank := by
  rw [trim, String.toList_ofList, List.rdropWhile]

theorem unpadded_trim (s : String) : Unpadded (trim s) := by
  constructor
  · intro c hc
    obtain ⟨after, hafter⟩ := List.rdropWhile_prefix isBlank (s.toList.dropWhile isBlank)
    have hfirst : (s.toList.dropWhile isBlank).head? = some c := by
      rw [← hafter, List.head?_append, ← toList_trim, hc, Option.some_or]
    have hnot := List.head?_dropWhile_not isBlank s.toList
    rw [hfirst] at hnot
    exact hnot
  · intro c hc
    rw [toList_trim] at hc
    have hne : (s.toList.dropWhile isBlank).rdropWhile isBlank ≠ [] := by
      intro hnil
      rw [hnil] at hc
      cases hc
    have hnot := List.rdropWhile_last_not isBlank _ hne
    rw [List.getLast?_eq_some_getLast hne] at hc
    rw [← Option.some.inj hc]
    simpa using hnot

theorem Unpadded.trim_eq {s : String} (h : Unpadded s) : trim s = s := by
  have hfront : s.toList.dropWhile isBlank = s.toList := by
    cases hs : s.toList with
    | nil => rfl
    | cons c cs =>
      have hc : isBlank c = false := h.head c (by rw [hs]; rfl)
      rw [List.dropWhile_cons_of_neg (by simp [hc])]
  apply String.toList_injective
  rw [toList_trim, hfront, List.rdropWhile_eq_self_iff]
  intro hne
  rw [h.last _ (List.getLast?_eq_some_getLast hne)]
  decide

theorem trim_eq_empty_iff {s : String} : trim s = "" ↔ ∀ c ∈ s.toList, isBlank c = true := by
  have hfront : ∀ c ∈ s.toList.takeWhile isBlank, isBlank c = true :=
    fun c hc => List.mem_takeWhile_imp hc
  rw [← String.toList_eq_nil_iff, toList_trim, List.rdropWhile_eq_nil_iff]
  conv_rhs => rw [← List.takeWhile_append_dropWhile (p := isBlank) (l := s.toList)]
  rw [List.forall_mem_append, and_iff_right hfront]

end Abacus.Text
