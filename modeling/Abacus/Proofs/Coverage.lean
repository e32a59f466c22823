import Abacus.Proofs.Places

/-! # How tokens cover their text

The glyphs of a text fall into runs, one for each token. A run has a first glyph, where its token
stands, and its characters are the lexeme. As the runs make up all glyphs, in their order, no glyph
of the text is lost, used twice or moved.
-/
namespace Abacus

namespace Glyph

private theorem pairwise_snd_zipIdx (cs : List Char) (n : Nat) :
    (cs.zipIdx n).Pairwise fun p q => p.2 < q.2 := by
  apply List.pairwise_map.mp
  rw [List.zipIdx_map_snd]
  exact List.pairwise_lt_range'

theorem pairwise_offset_ofText (source : String) :
    (ofText source).Pairwise fun g h => g.offset < h.offset := by
  apply (pairwise_snd_zipIdx source.toList 0).filterMap
  intro p q hpq g hg h hh
  by_cases hp : Text.isBlank p.1 = true
  · simp [ofIndexed, hp] at hg
  · by_cases hq : Text.isBlank q.1 = true
    · simp [ofIndexed, hq] at hh
    · simp only [ofIndexed, hp, hq] at hg hh
      cases hg
      cases hh
      exact hpq

/-- Glyphs that are read as one token; there is always a first one. -/
structure Run where
  first : Glyph
  rest : List Glyph

namespace Run

def glyphs (r : Run) : List Glyph := r.first :: r.rest

theorem map_first_sublist (runs : List Run) :
    (runs.map first).Sublist (runs.flatMap glyphs) := by
  induction runs with
  | nil => exact List.Sublist.slnil
  | cons r runs ih =>
    rw [List.map_cons, List.flatMap_cons, glyphs, List.cons_append]
    apply List.Sublist.cons_cons
    exact ih.trans (List.sublist_append_right r.rest _)

/-- The token stands where the run begins, and the run spells it. -/
structure Spells (filename : String) (r : Run) (t : Token) : Prop where
  location : t.location = some (.ofOffset filename r.first.offset)
  lexeme : t.lexeme.toList = r.glyphs.map char

end Run
end Glyph

/-- What is read falls into runs, one for each token. -/
theorem Reads.exists_runs {filename : String} {gs : List Glyph} {ts : List Token}
    (h : Reads filename gs ts) :
    ∃ runs : List Glyph.Run, gs = runs.flatMap Glyph.Run.glyphs ∧
      List.Forall₂ (Glyph.Run.Spells filename) runs ts := by
  induction h with
  | nil => exact ⟨[], rfl, .nil⟩
  | @literal gs ts sign digits _ hl _ _ ih =>
    obtain ⟨runs, rfl, hruns⟩ := ih
    have hne : sign.toList ++ digits ≠ [] := by simp [hl.digits_ne_nil]
    obtain ⟨first, rest, hrun⟩ := List.exists_cons_of_ne_nil hne
    refine ⟨runs ++ [⟨first, rest⟩], ?_, List.rel_append hruns (.cons ⟨?_, ?_⟩ .nil)⟩
    · simp [Glyph.Run.glyphs, hrun]
    · rw [Token.ofLiteral, hrun]
      rfl
    · rw [Token.ofLiteral, hrun, String.toList_ofList]
      rfl
  | @mark gs ts g k _ _ _ ih =>
    obtain ⟨runs, rfl, hruns⟩ := ih
    refine ⟨runs ++ [⟨g, []⟩], ?_, List.rel_append hruns (.cons ⟨rfl, ?_⟩ .nil)⟩
    · simp [Glyph.Run.glyphs]
    · simp [Token.ofGlyph, Glyph.Run.glyphs]

/-- The token begins with the character of the text at `offset`, which is not blank, and as many
characters of the text from there on as the lexeme is long spell it, blanks left out. -/
structure Token.StandsAt (filename : String) (cs : List Char) (offset : Nat) (t : Token) :
    Prop where
  location : t.location = some ⟨filename, 1, offset + 1, offset⟩
  ink : ∃ c, cs[offset]? = some c ∧ Text.isBlank c = false
  lexeme : t.lexeme.toList = (Text.ink (cs.drop offset)).take t.lexeme.length

theorem Glyph.Run.Spells.standsAt {filename source : String} {before after : List Glyph}
    {r : Glyph.Run} {t : Token} (h : r.Spells filename t)
    (hcut : Glyph.ofText source = before ++ (r.glyphs ++ after)) :
    t.StandsAt filename source.toList r.first.offset := by
  obtain ⟨hat, hblank, -, hdrop⟩ := Glyph.ofText_cut hcut
  have hlength : t.lexeme.length = (r.glyphs.map char).length := by
    rw [← String.length_toList, h.lexeme]
  refine ⟨h.location, ⟨r.first.char, hat, hblank⟩, ?_⟩
  have hink : Text.ink (source.toList.drop r.first.offset) =
      r.glyphs.map char ++ after.map char := by
    rw [hdrop, ← List.map_append]
    rfl
  rw [hink, hlength, List.take_left, h.lexeme]

theorem Glyph.Run.forall₂_standsAt {filename source : String} {runs : List Glyph.Run}
    {ts : List Token} (h : List.Forall₂ (Glyph.Run.Spells filename) runs ts) (before : List Glyph)
    (hcut : Glyph.ofText source = before ++ runs.flatMap glyphs) :
    List.Forall₂ (Token.StandsAt filename source.toList) (runs.map (·.first.offset)) ts := by
  induction h generalizing before with
  | nil => exact .nil
  | @cons r t runs ts hrt _ ih =>
    rw [List.flatMap_cons] at hcut
    apply List.Forall₂.cons (hrt.standsAt hcut)
    apply ih (before ++ r.glyphs)
    rw [hcut, List.append_assoc]

theorem Glyph.Run.flatMap_lexeme {filename : String} {runs : List Glyph.Run} {ts : List Token}
    (h : List.Forall₂ (Glyph.Run.Spells filename) runs ts) :
    ts.flatMap (·.lexeme.toList) = (runs.flatMap glyphs).map char := by
  induction h with
  | nil => rfl
  | cons hrt _ ih => rw [List.flatMap_cons, List.flatMap_cons, List.map_append, hrt.lexeme, ih]

/-- The lexemes of the tokens make up the text without its blanks. The tokens stand at increasing
offsets of the text, and each is spelled by the text from its own offset on. -/
theorem tokenize_covers_text {filename source : String} {ts : List Token}
    (h : tokenize filename source = .ok ts) :
    String.join (ts.map (·.lexeme)) = String.ofList (Text.ink source.toList) ∧
      ∃ offsets : List Nat, offsets.Pairwise (· < ·) ∧
        List.Forall₂ (Token.StandsAt filename source.toList) offsets ts := by
  obtain ⟨runs, hcut, hruns⟩ := (tokenize_eq_ok_iff.mp h).exists_runs
  constructor
  · apply String.toList_injective
    rw [String.toList_join, String.toList_ofList, List.flatMap_map, Glyph.Run.flatMap_lexeme hruns,
      ← hcut, Glyph.map_char_ofText, Text.ink]
  · refine ⟨runs.map (·.first.offset), ?_, Glyph.Run.forall₂_standsAt hruns [] hcut⟩
    have hfirst : (runs.map Glyph.Run.first).Pairwise fun g h => g.offset < h.offset := by
      apply List.Pairwise.sublist (Glyph.Run.map_first_sublist runs)
      rw [← hcut]
      exact Glyph.pairwise_offset_ofText source
    rw [List.pairwise_map] at hfirst ⊢
    exact hfirst

/-- Blanks stand before the text, inside a literal and behind a sign. -/
theorem tokenize_covers_text_spread :
    ∃ ts, tokenize "sheet" " 1 2-( +\t3)" = .ok ts ∧
      ts.map (·.lexeme) = ["12", "-", "(", "+3", ")"] ∧
      String.join (ts.map (·.lexeme)) = String.ofList (Text.ink " 1 2-( +\t3)".toList) ∧
      ∃ offsets : List Nat, offsets.Pairwise (· < ·) ∧
        List.Forall₂ (Token.StandsAt "sheet" " 1 2-( +\t3)".toList) offsets ts := by
  have htokens : tokenize "sheet" " 1 2-( +\t3)" = .ok
      [⟨.number, "12", some 12, some (.ofOffset "sheet" 1)⟩,
        ⟨.operator .minus, "-", none, some (.ofOffset "sheet" 4)⟩,
        ⟨.leftParen, "(", none, some (.ofOffset "sheet" 5)⟩,
        ⟨.number, "+3", some 3, some (.ofOffset "sheet" 7)⟩,
        ⟨.rightParen, ")", none, some (.ofOffset "sheet" 10)⟩] := by
    decide +kernel
  exact ⟨_, htokens, rfl, tokenize_covers_text htokens⟩

end Abacus
