import Abacus.Proofs.Acceptance
import Abacus.Proofs.Correspondence

/-! # The name of a text

The name under which a text is calculated stands in places and is copied with them. So a text has
the same tokens under every name but for their places, and a value under one name is its value under
every other.
-/
namespace Abacus

def Token.under (filename : String) (t : Token) : Token :=
  { t with location := t.location.map fun l => { l with filename } }

theorem awaitsOperand_under (filename : String) (ts : List Token) :
    awaitsOperand (ts.map (.under filename)) = awaitsOperand ts := by
  rw [awaitsOperand, awaitsOperand, List.getLast?_map]
  cases ts.getLast? <;> rfl

theorem endsInNumber_under (filename : String) (ts : List Token) :
    endsInNumber (ts.map (.under filename)) = endsInNumber ts := by
  rw [endsInNumber, endsInNumber, List.getLast?_map]
  cases ts.getLast? <;> rfl

/-- Glyphs are read as the same tokens whatever the name is. -/
theorem Reads.under {filename : String} {gs : List Glyph} {ts : List Token}
    (h : Reads filename gs ts) (other : String) : Reads other gs (ts.map (.under other)) := by
  induction h with
  | nil => exact .nil
  | @literal gs ts sign digits _ hl hs hn ih =>
    have htoken : (Token.ofLiteral filename sign digits).under other =
        .ofLiteral other sign digits := by
      simp [Token.under, Token.ofLiteral, Option.map_map, Function.comp_def, Location.ofOffset]
    rw [List.map_append, List.map_singleton, htoken]
    rw [← awaitsOperand_under other] at hs
    rw [← endsInNumber_under other] at hn
    exact .literal ih hl hs hn
  | @mark gs ts g k _ hk he ih =>
    rw [← awaitsOperand_under other] at he
    rw [List.map_append]
    exact .mark ih hk he

theorem evaluate_under {ts : List Token} {v : Int} (h : evaluate ts = .ok v) (filename : String) :
    evaluate (ts.map (.under filename)) = .ok v := by
  have hplaces (l : Option Location) :
      Option.Rel (fun _ _ => True) l (l.map fun m => { m with filename }) := by
    cases l with
    | none => exact .none
    | some l => exact .some trivial
  have halike : List.Forall₂ (Token.Alike fun _ _ => True) ts (ts.map (.under filename)) := by
    rw [List.forall₂_map_right_iff, List.forall₂_same]
    exact fun t _ => ⟨rfl, rfl, rfl, hplaces t.location⟩
  have hvalue := evaluate_alike halike
  rw [h] at hvalue
  cases hrenamed : evaluate (ts.map (.under filename)) with
  | ok w =>
    rw [hrenamed] at hvalue
    cases hvalue with
    | ok hvw => rw [hvw]
  | error f =>
    rw [hrenamed] at hvalue
    cases hvalue

namespace Calculator

variable {source : String} {v : Int}

theorem answer_under {c : Calculator} (h : (c.calculate (some source)).answer = .ok v)
    (d : Calculator) : (d.calculate (some source)).answer = .ok v := by
  obtain ⟨ts, hts, hv⟩ := answer_calculate_eq_ok_iff.mp h
  have hts' := tokenize_eq_ok_iff.mpr ((tokenize_eq_ok_iff.mp hts).under d.filename)
  exact answer_calculate_eq_ok_iff.mpr ⟨_, hts', evaluate_under hv d.filename⟩

end Calculator
end Abacus
