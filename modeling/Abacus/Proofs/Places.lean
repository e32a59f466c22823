import Abacus.Proofs.Scanning

/-! # Where glyphs and tokens stand

A glyph cuts its text in two: the glyphs before it are those of the part before its offset, and the
glyphs behind it have the characters of the part behind. A token stands at the first of the glyphs
that it is read from.
-/
namespace Abacus

/-- The characters that are not blank. -/
def Text.ink (cs : List Char) : List Char := cs.filter (!isBlank ·)

namespace Glyph

private theorem filterMap_ofIndexed_split {cs : List Char} {n : Nat} {before after : List Glyph}
    {g : Glyph} (h : (cs.zipIdx n).filterMap ofIndexed = before ++ g :: after) :
    ∃ us vs, cs = us ++ g.char :: vs ∧ g.offset = n + us.length ∧ Text.isBlank g.char = false ∧
      (us.zipIdx n).filterMap ofIndexed = before ∧ Text.ink vs = after.map char := by
  induction cs generalizing n before with
  | nil => simp at h
  | cons c cs ih =>
    cases hc : Text.isBlank c with
    | true =>
      have hrest : (cs.zipIdx (n + 1)).filterMap ofIndexed = before ++ g :: after := by
        simpa [ofIndexed, hc] using h
      obtain ⟨us, vs, rfl, hoffset, hg, rfl, hafter⟩ := ih hrest
      exact ⟨c :: us, vs, rfl, by simp [hoffset]; omega, hg, by simp [ofIndexed, hc], hafter⟩
    | false =>
      have hcons : ⟨c, n⟩ :: (cs.zipIdx (n + 1)).filterMap ofIndexed = before ++ g :: after := by
        simpa [ofIndexed, hc] using h
      cases before with
      | nil =>
        obtain ⟨rfl, rfl⟩ := List.cons.inj hcons
        exact ⟨[], cs, rfl, rfl, hc, rfl, (map_char_filterMap cs (n + 1)).symm⟩
      | cons b before =>
        obtain ⟨rfl, hrest⟩ := List.cons.inj hcons
        obtain ⟨us, vs, rfl, hoffset, hg, rfl, hafter⟩ := ih hrest
        exact ⟨c :: us, vs, rfl, by simp [hoffset]; omega, hg, by simp [ofIndexed, hc], hafter⟩

theorem map_char_ofText_ofList (cs : List Char) :
    (ofText (String.ofList cs)).map char = Text.ink cs := by
  rw [map_char_ofText, String.toList_ofList, Text.ink]

/-- A glyph cuts its text at its offset. -/
theorem ofText_cut {source : String} {before after : List Glyph} {g : Glyph}
    (h : ofText source = before ++ g :: after) :
    source.toList[g.offset]? = some g.char ∧ Text.isBlank g.char = false ∧
      ofText (String.ofList (source.toList.take g.offset)) = before ∧
      Text.ink (source.toList.drop g.offset) = (g :: after).map char := by
  obtain ⟨us, vs, hcs, hoffset, hg, hbefore, hafter⟩ := filterMap_ofIndexed_split h
  rw [Nat.zero_add] at hoffset
  rw [hcs, hoffset, List.take_left, List.drop_left]
  refine ⟨by simp, hg, ?_, ?_⟩
  · rw [ofText, String.toList_ofList, hbefore]
  · simpa [Text.ink, hg] using hafter

end Glyph

theorem Reads.exists_glyph {filename : String} {gs : List Glyph} {ts : List Token}
    (h : Reads filename gs ts) {t : Token} (ht : t ∈ ts) :
    ∃ g ∈ gs, t.location = some (.ofOffset filename g.offset) ∧
      t.lexeme.toList.head? = some g.char ∧
      ∀ c, t.kind.char? = some c → g.char = c ∧ t.lexeme = c.toString := by
  induction h with
  | nil => simp at ht
  | @literal gs ts sign digits h hl _ _ ih =>
    rcases List.mem_append.mp ht with ht | ht
    · obtain ⟨g, hg, hplace⟩ := ih ht
      exact ⟨g, List.mem_append_left _ hg, hplace⟩
    · obtain rfl := List.mem_singleton.mp ht
      cases hfirst : (sign.toList ++ digits).head? with
      | none => simp [hl.digits_ne_nil] at hfirst
      | some g =>
        refine ⟨g, List.mem_append_right _ (List.mem_of_head? hfirst), ?_, ?_, ?_⟩
        · rw [Token.ofLiteral, hfirst]
          rfl
        · rw [Token.ofLiteral, String.toList_ofList, List.head?_map, hfirst]
          rfl
        · intro c hc
          cases hc
  | @mark gs ts g k h hk _ ih =>
    rcases List.mem_append.mp ht with ht | ht
    · obtain ⟨d, hd, hplace⟩ := ih ht
      exact ⟨d, List.mem_append_left _ hd, hplace⟩
    · obtain rfl := List.mem_singleton.mp ht
      refine ⟨g, by simp, rfl, by simp [Token.ofGlyph], fun c hc => ?_⟩
      obtain rfl : g.char = c := Option.some.inj ((Glyph.kind?_eq_some_iff.mp hk).symm.trans hc)
      exact ⟨rfl, rfl⟩

end Abacus
