import Abacus.Proofs.Blame
import Abacus.Proofs.Correspondence

/-! # Blanks mean nothing

A text and the same text without its blanks have the same glyphs at corresponding places. Hence they
are tokenized and calculated alike, with all places shifted by the blanks before them.
-/
namespace Abacus

namespace Text

def withoutBlanks (s : String) : String := String.ofList (ink s.toList)

/-- The character of a text at `j` corresponds to the one at `i` in the text without blanks: it is
none itself, and `i` of the characters before it are none. -/
structure Corresponds (s : String) (i j : Nat) : Prop where
  ink : ∃ c, s.toList[j]? = some c ∧ isBlank c = false
  rank : (Text.ink (s.toList.take j)).length = i

theorem ink_ink (cs : List Char) : ink (ink cs) = ink cs := by
  rw [ink, ink, List.filter_filter]
  simp

end Text

namespace Glyph

theorem ofText_of_ink {cs : List Char} (h : Text.ink cs = cs) :
    ofText (String.ofList cs) = cs.zipIdx.map fun p => ⟨p.1, p.2⟩ := by
  have hblank := List.filter_eq_self.mp h
  rw [ofText, String.toList_ofList, ← List.filterMap_eq_map]
  refine List.filterMap_congr fun p hp => ?_
  have hmem := hblank p.1 (List.fst_mem_of_mem_zipIdx hp)
  simp [ofIndexed] at hmem ⊢
  exact hmem

/-- The glyphs of a text are those of the text without blanks, at corresponding places. -/
theorem ofText_withoutBlanks_alike (source : String) :
    List.Forall₂ (Alike (Text.Corresponds source)) (ofText (Text.withoutBlanks source))
      (ofText source) := by
  have hchars : (ofText source).map char = Text.ink source.toList := map_char_ofText source
  have hplain : ofText (Text.withoutBlanks source) =
      ((ofText source).map char).zipIdx.map fun p => ⟨p.1, p.2⟩ := by
    rw [hchars, Text.withoutBlanks, ofText_of_ink (Text.ink_ink source.toList)]
  rw [hplain, List.forall₂_iff_get]
  refine ⟨by simp, fun i hi hi' => ?_⟩
  have hcut : ofText source =
      (ofText source).take i ++ (ofText source)[i] :: (ofText source).drop (i + 1) := by
    rw [List.getElem_cons_drop, List.take_append_drop]
  obtain ⟨hat, hblank, hbefore, -⟩ := ofText_cut hcut
  have hrank : (Text.ink (source.toList.take (ofText source)[i].offset)).length = i := by
    rw [← map_char_ofText_ofList, hbefore, List.length_map, List.length_take]
    omega
  exact ⟨by simp, ⟨_, hat, hblank⟩, by simpa using hrank⟩

end Glyph

abbrev Location.Corresponds (filename source : String) : Location → Location → Prop :=
  Related filename (Text.Corresponds source)

theorem isBlankText_withoutBlanks (source : String) :
    Text.isBlankText (Text.withoutBlanks source) = true ↔ Text.isBlankText source = true := by
  have hlength := (Glyph.ofText_withoutBlanks_alike source).length_eq
  rw [← ofText_eq_nil_iff, ← ofText_eq_nil_iff, ← List.length_eq_zero_iff, hlength,
    List.length_eq_zero_iff]

/-- Without its blanks a text has the same tokens or a fault of the same cause and message, and the
same value or such a fault, always at corresponding places. -/
theorem calculate_withoutBlanks (c : Calculator) (source : String) :
    EndAlike (Fault.Alike (Location.Corresponds c.filename source))
        (List.Forall₂ (Token.Alike (Location.Corresponds c.filename source)))
        (tokenize c.filename (Text.withoutBlanks source)) (tokenize c.filename source) ∧
      EndAlike (Fault.Alike (Location.Corresponds c.filename source)) Eq
        (c.calculate (some (Text.withoutBlanks source))).answer
        (c.calculate (some source)).answer ∧
      ((c.calculate (some (Text.withoutBlanks source))).answer = .error .emptyExpression ↔
        Text.isBlankText source = true) ∧
      ((c.calculate (some source)).answer = .error .emptyExpression ↔
        Text.isBlankText source = true) := by
  have hglyphs := Glyph.ofText_withoutBlanks_alike source
  have htokens := tokenize_alike c.filename hglyphs
  have hblank := isBlankText_withoutBlanks source
  refine ⟨htokens, ?_, Calculator.answer_eq_emptyExpression_iff.trans hblank,
    Calculator.answer_eq_emptyExpression_iff⟩
  by_cases hsource : Text.isBlankText source = true
  · rw [Calculator.answer_calculate_of_isBlankText hsource,
      Calculator.answer_calculate_of_isBlankText (hblank.mpr hsource)]
    exact .error ⟨rfl, rfl, .none⟩
  · rw [c.answer_calculate (mt ofText_eq_nil_iff.mp hsource),
      c.answer_calculate (mt ofText_eq_nil_iff.mp (mt hblank.mp hsource))]
    exact htokens.bind fun ts us h => evaluate_alike h

end Abacus
