import Abacus.Proofs.Blame
import Abacus.Proofs.Kinds

/-! # Structure does not depend on numbers

Other digits in the place of the digits of a text, more or fewer of them, change no kind of token
and no cause of a fault, except that a divisor may become zero. To the scan a run of digits is all
one: behind it there is a literal with digits, and no operand is expected.
-/
namespace Abacus

/-- `Renumbered cs ds`: in `ds` another run of digits stands for each run of digits in `cs`. -/
inductive Text.Renumbered : List Char → List Char → Prop where
  | nil : Renumbered [] []
  | char {cs ds : List Char} {c : Char} (hc : c.isDigit = false) (h : Renumbered cs ds) :
      Renumbered (c :: cs) (c :: ds)
  | run (xs ys : List Char) {cs ds : List Char} (hx : xs ≠ []) (hxs : ∀ x ∈ xs, x.isDigit = true)
      (hy : ys ≠ []) (hys : ∀ y ∈ ys, y.isDigit = true)
      (hcs : ∀ c ∈ cs.head?, c.isDigit = false) (h : Renumbered cs ds) :
      Renumbered (xs ++ cs) (ys ++ ds)

/-- The places of the glyphs do not matter. Runs of digits may touch where blanks were between
them. -/
inductive Glyph.Renumbered : List Glyph → List Glyph → Prop where
  | nil : Renumbered [] []
  | glyph {gs hs : List Glyph} {g h : Glyph} (hgh : g.char = h.char) (hg : g.char.isDigit = false)
      (hr : Renumbered gs hs) : Renumbered (g :: gs) (h :: hs)
  | run {xs ys gs hs : List Glyph} (hx : xs ≠ []) (hxs : ∀ x ∈ xs, x.char.isDigit = true)
      (hy : ys ≠ []) (hys : ∀ y ∈ ys, y.char.isDigit = true) (hr : Renumbered gs hs) :
      Renumbered (xs ++ gs) (ys ++ hs)

namespace Glyph

theorem filterMap_ofIndexed_digits {cs : List Char} (hne : cs ≠ [])
    (h : ∀ c ∈ cs, c.isDigit = true) (n : Nat) :
    (cs.zipIdx n).filterMap ofIndexed ≠ [] ∧
      ∀ g ∈ (cs.zipIdx n).filterMap ofIndexed, g.char.isDigit = true := by
  have hchars : ((cs.zipIdx n).filterMap ofIndexed).map char = cs := by
    rw [map_char_filterMap, List.filter_eq_self]
    intro c hc
    simp [Text.isBlank_of_isDigit (h c hc)]
  constructor
  · intro hnil
    rw [hnil] at hchars
    exact hne hchars.symm
  · intro g hg
    refine h g.char ?_
    rw [← hchars]
    exact List.mem_map_of_mem hg

theorem renumbered_filterMap {cs ds : List Char} (h : Text.Renumbered cs ds) (m n : Nat) :
    Renumbered ((cs.zipIdx m).filterMap ofIndexed) ((ds.zipIdx n).filterMap ofIndexed) := by
  induction h generalizing m n with
  | nil => exact .nil
  | @char cs ds c hc _ ih =>
    rw [List.zipIdx_cons, List.zipIdx_cons]
    cases hb : Text.isBlank c with
    | true => simpa [ofIndexed, hb] using ih (m + 1) (n + 1)
    | false =>
      have hcons := Renumbered.glyph (g := ⟨c, m⟩) (h := ⟨c, n⟩) rfl hc (ih (m + 1) (n + 1))
      simpa [ofIndexed, hb] using hcons
  | @run xs ys cs ds hx hxs hy hys _ _ ih =>
    obtain ⟨hgs, hgdigits⟩ := filterMap_ofIndexed_digits hx hxs m
    obtain ⟨hhs, hhdigits⟩ := filterMap_ofIndexed_digits hy hys n
    rw [List.zipIdx_append, List.zipIdx_append, List.filterMap_append, List.filterMap_append]
    exact .run hgs hgdigits hhs hhdigits (ih _ _)

end Glyph

namespace Literal

theorem cut_digit (cs : List Char) {d : Char} (hd : d.isDigit = true) :
    signs (cs ++ [d]) = signs cs ∧ digits (cs ++ [d]) = digits cs ++ [d] := by
  have hsplit : cs ++ [d] = signs cs ++ (digits cs ++ [d]) := by
    rw [← List.append_assoc, signs_append_digits]
  rw [hsplit]
  refine cut_append (fun c hc => List.mem_takeWhile_imp hc) fun c hc => ?_
  cases hrest : digits cs with
  | nil =>
    obtain rfl : d = c := by simpa [hrest] using hc
    exact isSign_eq_false hd
  | cons b rest =>
    have hhead := List.head?_dropWhile_not isSign cs
    obtain rfl : b = c := by simpa [hrest] using hc
    rw [← digits, hrest] at hhead
    simpa using hhead

theorem cut_sign {cs : List Char} (h : digits cs = []) {c : Char} (hc : isSign c = true) :
    signs (cs ++ [c]) = signs cs ++ [c] ∧ digits (cs ++ [c]) = [] := by
  have hsigns : signs cs = cs := by simpa [h] using signs_append_digits cs
  have hall : ∀ d ∈ cs ++ [c], isSign d = true := by
    rw [← hsigns, List.forall_mem_append, List.forall_mem_singleton]
    exact ⟨fun d hd => List.mem_takeWhile_imp hd, hc⟩
  have hnone : ∀ d ∈ ([] : List Char).head?, isSign d = false := by simp
  simpa [hsigns] using cut_append hall hnone

/-- Whether signs and digits are a number depends on the signs, and on whether there are digits. -/
theorem read_congr {cs ds : List Char} (hs : signs cs = signs ds)
    (hd : digits cs = [] ↔ digits ds = []) :
    EndAlike Eq (fun _ _ => True) (read cs) (read ds) := by
  unfold read
  simp only [hs, hd]
  by_cases hnone : digits ds = []
  · simp only [hnone, if_true]
    exact .error rfl
  · by_cases hmany : 1 < (signs ds).length
    · simp only [hnone, hmany, if_true, if_false]
      exact .error rfl
    · simp only [hnone, hmany, if_false]
      exact .ok trivial

end Literal

namespace Scan

/-- Two scans have come to the same point of texts that differ in their digits only. Where an
operand is expected, no digit has been read of the literal. -/
structure SameForm (s t : Scan) : Prop where
  kinds : s.tokens.toList.map (·.kind) = t.tokens.toList.map (·.kind)
  signs : Literal.signs s.literal.toList = Literal.signs t.literal.toList
  digits : Literal.digits s.literal.toList = [] ↔ Literal.digits t.literal.toList = []
  expectsOperand : s.expectsOperand = t.expectsOperand
  undigited : s.expectsOperand = true → Literal.digits s.literal.toList = []

variable {filename : String} {s t : Scan} {g h : Glyph}

theorem toList_literal_extend (s : Scan) (g : Glyph) (e : Bool) :
    (s.extend g e).literal.toList = s.literal.toList ++ [g.char] := by
  simp [extend]

/-- A run of digits, however long, only has the effect that the literal has digits. -/
theorem foldlM_digits {gs : List Glyph} (hne : gs ≠ []) (hd : ∀ g ∈ gs, g.char.isDigit = true) :
    ∃ t, gs.foldlM (step filename) s = .ok t ∧ t.tokens = s.tokens ∧
      Literal.signs t.literal.toList = Literal.signs s.literal.toList ∧
      Literal.digits t.literal.toList ≠ [] ∧ t.expectsOperand = false := by
  induction gs generalizing s with
  | nil => exact absurd rfl hne
  | cons g gs ih =>
    have hg := hd g List.mem_cons_self
    obtain ⟨hsigns, hdigits⟩ := Literal.cut_digit s.literal.toList hg
    rw [List.foldlM_cons, step_digit hg]
    by_cases hlast : gs = []
    · subst hlast
      refine ⟨s.extend g false, rfl, rfl, ?_, ?_, rfl⟩
      · rw [toList_literal_extend, hsigns]
      · rw [toList_literal_extend, hdigits]
        simp
    · obtain ⟨t, ht, htokens, htsigns, htdigits, hexpects⟩ :=
        ih (s := s.extend g false) hlast fun d hmem => hd d (List.mem_cons_of_mem g hmem)
      refine ⟨t, ht, htokens, ?_, htdigits, hexpects⟩
      rw [htsigns, toList_literal_extend, hsigns]

def SameHalt (e d : Halt Scan) : Prop := e.fault.SameCause d.fault

theorem SameForm.isEmpty (hst : s.SameForm t) : s.literal.isEmpty = t.literal.isEmpty := by
  have hblank (u : Scan) : u.literal.isEmpty = true ↔
      Literal.signs u.literal.toList = [] ∧ Literal.digits u.literal.toList = [] := by
    rw [String.isEmpty_iff, ← String.toList_eq_nil_iff, ← List.append_eq_nil_iff,
      Literal.signs_append_digits]
  rw [Bool.eq_iff_iff, hblank, hblank, hst.signs, hst.digits]

theorem SameForm.sign (hst : s.SameForm t) (hgh : g.char = h.char)
    (hg : Literal.isSign g.char = true) (he : s.expectsOperand = true) :
    (s.extend g true).SameForm (t.extend h true) := by
  have hs := hst.undigited he
  obtain ⟨hssigns, hsdigits⟩ := Literal.cut_sign hs hg
  obtain ⟨htsigns, htdigits⟩ := Literal.cut_sign (hst.digits.mp hs) (hgh ▸ hg)
  exact {
    kinds := hst.kinds
    signs := by
      rw [toList_literal_extend, toList_literal_extend, hssigns, htsigns, hst.signs, hgh]
    digits := by rw [toList_literal_extend, toList_literal_extend, hsdigits, htdigits]
    expectsOperand := rfl
    undigited := fun _ => by rw [toList_literal_extend, hsdigits] }

theorem SameForm.flush (hst : s.SameForm t) :
    EndAlike SameHalt (fun s t => s.SameForm t ∧ s.literal = "") (s.flush filename)
      (t.flush filename) := by
  unfold Scan.flush
  rw [← hst.isEmpty]
  cases hblank : s.literal.isEmpty with
  | true => exact .ok ⟨hst, String.isEmpty_iff.mp hblank⟩
  | false =>
    have hread := Literal.read_congr hst.signs hst.digits
    generalize Literal.read s.literal.toList = x at hread
    generalize Literal.read t.literal.toList = y at hread
    cases hread with
    | error => exact .error rfl
    | ok =>
      refine .ok ⟨⟨?_, rfl, .rfl, hst.expectsOperand, fun _ => rfl⟩, rfl⟩
      simp [hst.kinds]

theorem SameForm.emit (hst : s.SameForm t) (hs : s.literal = "") (k : Token.Kind) (e : Bool) :
    (s.emit filename g k e).SameForm (t.emit filename h k e) where
  kinds := by simpa [Scan.emit] using hst.kinds
  signs := hst.signs
  digits := hst.digits
  expectsOperand := rfl
  undigited := fun _ => by simp [Scan.emit, hs, Literal.digits]

theorem SameForm.step (hst : s.SameForm t) (hgh : g.char = h.char) (hg : g.char.isDigit = false) :
    EndAlike SameHalt SameForm (s.step filename g) (t.step filename h) := by
  have hrole : h.role = g.role := congrArg Glyph.Role.ofChar hgh.symm
  have hmark (k : Token.Kind) (e : Bool) : EndAlike SameHalt SameForm
      (s.flush filename >>= fun s => .ok (s.emit filename g k e))
      (t.flush filename >>= fun t => .ok (t.emit filename h k e)) :=
    hst.flush.bind fun _ _ ⟨hst, hs⟩ => .ok (hst.emit hs k e)
  unfold Scan.step
  rw [hrole, ← hst.expectsOperand]
  cases hr : g.role with
  | digit =>
    rw [Glyph.role_eq_digit_iff.mp hr] at hg
    cases hg
  | operator op =>
    cases he : s.expectsOperand with
    | false => exact hmark (.operator op) true
    | true =>
      by_cases hop : op.isSign = true
      · simp only [hop, if_true]
        refine .ok (hst.sign hgh ?_ he)
        rw [Glyph.role_eq_operator_iff.mp hr]
        cases op <;> first | rfl | cases hop
      · simp only [hop, if_true]
        exact .error rfl
  | leftParen => exact hmark .leftParen true
  | rightParen => exact hmark .rightParen false
  | foreign => exact .error rfl

theorem SameForm.foldlM {gs hs : List Glyph} (h : Glyph.Renumbered gs hs) (hst : s.SameForm t) :
    EndAlike SameHalt SameForm (gs.foldlM (Scan.step filename) s)
      (hs.foldlM (Scan.step filename) t) := by
  induction h generalizing s t with
  | nil => exact .ok hst
  | glyph hgh hg _ ih =>
    rw [List.foldlM_cons, List.foldlM_cons]
    exact (hst.step hgh hg).bind fun _ _ hnext => ih hnext
  | run hx hxs hy hys _ ih =>
    obtain ⟨u, hu, hutokens, husigns, hudigits, huexpects⟩ := foldlM_digits hx hxs
    obtain ⟨v, hv, hvtokens, hvsigns, hvdigits, hvexpects⟩ := foldlM_digits hy hys
    rw [List.foldlM_append, List.foldlM_append, hu, hv]
    refine ih ⟨?_, ?_, iff_of_false hudigits hvdigits, ?_, ?_⟩
    · rw [hutokens, hvtokens, hst.kinds]
    · rw [husigns, hvsigns, hst.signs]
    · rw [huexpects, hvexpects]
    · rw [huexpects]
      exact fun h => nomatch h

theorem sameForm_read {gs hs : List Glyph} (h : Glyph.Renumbered gs hs) :
    EndAlike SameHalt SameForm (read filename {} gs) (read filename {} hs) := by
  have hstart : SameForm {} {} := ⟨rfl, rfl, .rfl, rfl, fun _ => rfl⟩
  exact (hstart.foldlM h).bind fun s t hst => hst.flush.mono (fun _ _ he => he) fun _ _ h => h.1

end Scan

theorem Glyph.Renumbered.eq_nil_iff {gs hs : List Glyph} (h : Renumbered gs hs) :
    gs = [] ↔ hs = [] := by
  cases h with
  | nil => rfl
  | glyph => simp
  | run hx _ hy => simp [hx, hy]

section
variable {source source' : String} (h : Text.Renumbered source.toList source'.toList)
include h

theorem tokenize_renumbered (filename : String) :
    EndAlike Fault.SameCause (fun ts us => ts.map (·.kind) = us.map (·.kind))
      (tokenize filename source) (tokenize filename source') := by
  have hread := @Scan.sameForm_read filename _ _ (Glyph.renumbered_filterMap h 0 0)
  unfold tokenize Scan.ofText Glyph.ofText
  generalize Scan.read filename {} (source.toList.zipIdx.filterMap Glyph.ofIndexed) = x at hread ⊢
  generalize Scan.read filename {} (source'.toList.zipIdx.filterMap Glyph.ofIndexed) = y at hread ⊢
  cases hread with
  | ok hst => exact .ok hst.kinds
  | error he => exact .error he

theorem answer_renumbered (c : Calculator)
    (hs : ∀ l, (c.calculate (some source)).answer ≠ .error (.divisionByZero l))
    (hs' : ∀ l, (c.calculate (some source')).answer ≠ .error (.divisionByZero l)) :
    EndAlike Fault.SameCause (fun _ _ => True) (c.calculate (some source)).answer
      (c.calculate (some source')).answer := by
  have hnil := (Glyph.renumbered_filterMap h 0 0).eq_nil_iff
  by_cases hblank : Glyph.ofText source = []
  · rw [Calculator.answer_calculate_of_isBlankText (ofText_eq_nil_iff.mp hblank),
      Calculator.answer_calculate_of_isBlankText (ofText_eq_nil_iff.mp (hnil.mp hblank))]
    exact .error rfl
  · rw [c.answer_calculate hblank] at hs ⊢
    rw [c.answer_calculate (mt hnil.mpr hblank)] at hs' ⊢
    have htokens := tokenize_renumbered h c.filename
    generalize Abacus.tokenize c.filename source = x at htokens hs ⊢
    generalize Abacus.tokenize c.filename source' = y at htokens hs' ⊢
    cases htokens with
    | error hf => exact .error hf
    | ok hkinds => exact evaluate_sameKinds hkinds hs hs'

end

theorem Fault.isArithmetic_eq_false {f : Fault} (h : ∀ l, f ≠ .divisionByZero l) :
    f.cause.isArithmetic = false := by
  cases f with
  | divisionByZero l => exact absurd rfl (h l)
  | _ => rfl

/-- With other digits a text has tokens of the same kinds, or a fault of the same cause. Where no
divisor becomes zero, also both texts have values, or faults of one cause. -/
theorem calculate_renumbered (c : Calculator) {source source' : String}
    (h : Text.Renumbered source.toList source'.toList) :
    EndAlike (fun f g => f.cause = g.cause) (fun ts us => ts.map Token.kind = us.map Token.kind)
        (tokenize c.filename source) (tokenize c.filename source') ∧
      ((∀ l, (c.calculate (some source)).answer ≠ .error (.divisionByZero l)) →
        (∀ l, (c.calculate (some source')).answer ≠ .error (.divisionByZero l)) →
        EndAlike (fun f g => f.cause = g.cause ∧ f.cause.isArithmetic = false) (fun _ _ => True)
          (c.calculate (some source)).answer (c.calculate (some source')).answer) := by
  refine ⟨tokenize_renumbered h c.filename, fun hs hs' => ?_⟩
  have hanswers := answer_renumbered h c hs hs'
  generalize (c.calculate (some source)).answer = x at hanswers hs ⊢
  generalize (c.calculate (some source')).answer = y at hanswers ⊢
  cases hanswers with
  | ok => exact .ok trivial
  | @error f g hfg => exact .error ⟨hfg, Fault.isArithmetic_eq_false fun l hl => hs l (hl ▸ rfl)⟩

/-- The runs of digits on the two sides of the blank make up one literal. -/
theorem calculate_renumbered_quotient :
    Text.Renumbered "(1 2-3)/-04".toList "(60 7-7)/-9".toList ∧
      EndAlike (fun f g => f.cause = g.cause ∧ f.cause.isArithmetic = false) (fun _ _ => True)
        (({} : Calculator).calculate (some "(1 2-3)/-04")).answer
        (({} : Calculator).calculate (some "(60 7-7)/-9")).answer := by
  have hs : "(1 2-3)/-04".toList = ['(', '1', ' ', '2', '-', '3', ')', '/', '-', '0', '4'] := rfl
  have hs' : "(60 7-7)/-9".toList = ['(', '6', '0', ' ', '7', '-', '7', ')', '/', '-', '9'] := rfl
  have h : Text.Renumbered "(1 2-3)/-04".toList "(60 7-7)/-9".toList := by
    rw [hs, hs']
    refine .char rfl <| .run ['1'] ['6', '0'] ?_ ?_ ?_ ?_ ?_ <| .char rfl <|
      .run ['2'] ['7'] ?_ ?_ ?_ ?_ ?_ <| .char rfl <| .run ['3'] ['7'] ?_ ?_ ?_ ?_ ?_ <|
      .char rfl <| .char rfl <| .char rfl <| .run ['0', '4'] ['9'] ?_ ?_ ?_ ?_ ?_ .nil <;> simp
  have hvalue : (({} : Calculator).calculate (some "(1 2-3)/-04")).answer = .ok (-2) := by
    decide +kernel
  have hvalue' : (({} : Calculator).calculate (some "(60 7-7)/-9")).answer = .ok (-66) := by
    decide +kernel
  exact ⟨h, (calculate_renumbered {} h).2 (by simp [hvalue]) (by simp [hvalue'])⟩

end Abacus
