import Abacus.Proofs.Runs
import Abacus.Machine
import Abacus.Lexer

/-! # Texts that differ in places only

Neither the scan nor the machine looks at a place: it is copied into tokens and faults and no more.
So where the glyphs of two texts differ in their offsets only, all that is made of them differs in
places only.
-/
namespace Abacus

variable {L : Location → Location → Prop}

structure Token.Alike (L : Location → Location → Prop) (t u : Token) : Prop where
  kind : t.kind = u.kind
  lexeme : t.lexeme = u.lexeme
  value : t.value = u.value
  location : Option.Rel L t.location u.location

structure Fault.Alike (L : Location → Location → Prop) (f g : Fault) : Prop where
  cause : f.cause = g.cause
  message : f.message = g.message
  location : Option.Rel L f.location g.location

def Halt.Alike (L : Location → Location → Prop) {σ τ : Type} (e : Halt σ) (d : Halt τ) : Prop :=
  e.fault.Alike L d.fault

structure Pending.Alike (L : Location → Location → Prop) (p q : Pending) : Prop where
  operator : p.operator = q.operator
  token : p.token.Alike L q.token

structure Group.Alike (L : Location → Location → Prop) (g h : Group) : Prop where
  opening : g.opening.Alike L h.opening
  outer : List.Forall₂ (Pending.Alike L) g.outer h.outer

theorem forall₂_takeWhile_dropWhile {α β : Type} {R : α → β → Prop} {p : α → Bool} {q : β → Bool}
    (hpq : ∀ a b, R a b → p a = q b) {as : List α} {bs : List β} (h : List.Forall₂ R as bs) :
    List.Forall₂ R (as.takeWhile p) (bs.takeWhile q) ∧
      List.Forall₂ R (as.dropWhile p) (bs.dropWhile q) := by
  induction h with
  | nil => exact ⟨.nil, .nil⟩
  | @cons a b as bs hab habs ih =>
    have hp := hpq a b hab
    cases hq : q b with
    | true =>
      rw [List.takeWhile_cons, List.takeWhile_cons, List.dropWhile_cons, List.dropWhile_cons, hp,
        hq]
      exact ⟨.cons hab ih.1, ih.2⟩
    | false =>
      rw [List.takeWhile_cons, List.takeWhile_cons, List.dropWhile_cons, List.dropWhile_cons, hp,
        hq]
      exact ⟨.nil, .cons hab habs⟩

namespace Machine

structure Alike (L : Location → Location → Prop) (m n : Machine) : Prop where
  values : m.values = n.values
  pending : List.Forall₂ (Pending.Alike L) m.pending n.pending
  groups : List.Forall₂ (Group.Alike L) m.groups n.groups

variable {m n : Machine} {t u : Token}

theorem Alike.reduce (h : m.Alike L n) {p q : Pending} (hpq : p.Alike L q) :
    EndAlike (Halt.Alike L) (Alike L) (m.reduce p) (n.reduce q) := by
  unfold Machine.reduce
  rw [← h.values, ← hpq.operator, ← hpq.token.lexeme]
  rcases m.values with _ | ⟨right, _ | ⟨left, rest⟩⟩
  · refine .error ?_
    exact ⟨rfl, rfl, hpq.token.location⟩
  · refine .error ?_
    exact ⟨rfl, rfl, hpq.token.location⟩
  · simp only [Operator.apply]
    cases p.operator.compute? left right with
    | none => exact .error ⟨rfl, rfl, hpq.token.location⟩
    | some v => exact .ok ⟨rfl, h.pending, h.groups⟩

theorem Alike.reduceAll (h : m.Alike L n) {ps qs : List Pending}
    (hps : List.Forall₂ (Pending.Alike L) ps qs) :
    EndAlike (Halt.Alike L) (Alike L) (m.reduceAll ps) (n.reduceAll qs) :=
  .foldlM (fun _ _ _ _ hmn hpq => hmn.reduce hpq) hps h

theorem Alike.await (h : m.Alike L n) (op : Operator) (htu : t.Alike L u) :
    EndAlike (Halt.Alike L) (Alike L) (m.await op t) (n.await op u) := by
  have hcut := forall₂_takeWhile_dropWhile
    (p := (op.yieldsTo ·.operator)) (q := (op.yieldsTo ·.operator))
    (fun _ _ hpq => congrArg op.yieldsTo hpq.operator) h.pending
  exact (h.reduceAll hcut.1).bind fun _ _ hmn =>
    .ok ⟨hmn.values, .cons ⟨rfl, htu⟩ hcut.2, hmn.groups⟩

theorem Alike.closeGroup (h : m.Alike L n) (htu : t.Alike L u) :
    EndAlike (Halt.Alike L) (Alike L) (m.closeGroup t) (n.closeGroup u) := by
  refine (h.reduceAll h.pending).bind fun m n hmn => ?_
  have hgroups := hmn.groups
  revert hgroups
  cases m.groups <;> cases n.groups <;> intro hgroups
  · exact .error ⟨rfl, rfl, htu.location⟩
  · cases hgroups
  · cases hgroups
  · cases hgroups with
    | cons hg hgs => exact .ok ⟨hmn.values, hg.outer, hgs⟩

theorem Alike.step (h : m.Alike L n) (htu : t.Alike L u) :
    EndAlike (Halt.Alike L) (Alike L) (m.step t) (n.step u) := by
  unfold Machine.step
  rw [← htu.kind, ← htu.value]
  cases t.kind with
  | number => exact .ok ⟨congrArg (_ :: ·) h.values, h.pending, h.groups⟩
  | operator op => exact h.await op htu
  | leftParen => exact .ok ⟨h.values, .nil, .cons ⟨htu, h.pending⟩ h.groups⟩
  | rightParen => exact h.closeGroup htu

theorem Alike.finish (h : m.Alike L n) {k l : Option Location} (hkl : Option.Rel L k l) :
    EndAlike (Halt.Alike L) (fun x y => x.1 = y.1) (m.finish k) (n.finish l) := by
  refine (h.reduceAll h.pending).bind fun m n hmn => ?_
  obtain ⟨values, hgroups⟩ := And.intro hmn.values hmn.groups
  rw [← values]
  revert hgroups
  cases m.groups <;> cases n.groups <;> intro hgroups
  · rcases m.values with _ | ⟨v, _ | ⟨w, rest⟩⟩
    · refine .error ?_
      exact ⟨rfl, rfl, hkl⟩
    · exact .ok rfl
    · refine .error ?_
      exact ⟨rfl, rfl, hkl⟩
  · cases hgroups
  · cases hgroups
  · cases hgroups with
    | cons hg _ => exact .error ⟨rfl, rfl, hg.opening.location⟩

theorem rel_getLast? {ts us : List Token} (h : List.Forall₂ (Token.Alike L) ts us) :
    Option.Rel L (ts.getLast?.bind (·.location)) (us.getLast?.bind (·.location)) := by
  have hreverse := List.forall₂_reverse_iff.mpr h
  rw [List.getLast?_eq_head?_reverse, List.getLast?_eq_head?_reverse]
  revert hreverse
  cases ts.reverse <;> cases us.reverse <;> intro hreverse
  · exact .none
  · cases hreverse
  · cases hreverse
  · cases hreverse with
    | cons htu _ => exact htu.location

theorem run_alike {ts us : List Token} (h : List.Forall₂ (Token.Alike L) ts us) :
    EndAlike (Halt.Alike L) (fun x y => x.1 = y.1) (run ts) (run us) := by
  have hstart : Alike L {} {} := ⟨rfl, .nil, .nil⟩
  have hsteps := EndAlike.foldlM (R := Token.Alike L) (Q := Alike L)
    (fun m n t u hmn htu => hmn.step htu) h hstart
  exact hsteps.bind fun m n hmn => hmn.finish (rel_getLast? h)

end Machine

/-- Tokens that differ in places only have the same value, or faults that differ in places only. -/
theorem evaluate_alike {ts us : List Token} (h : List.Forall₂ (Token.Alike L) ts us) :
    EndAlike (Fault.Alike L) Eq (evaluate ts) (evaluate us) := by
  have hrun := Machine.run_alike h
  unfold evaluate
  generalize Machine.run ts = x at hrun ⊢
  generalize Machine.run us = y at hrun ⊢
  cases hrun with
  | ok hv => exact .ok hv
  | error he => exact .error he

/-- Two places in texts of the same name, at offsets that `ρ` relates. -/
def Location.Related (filename : String) (ρ : Nat → Nat → Prop) (l m : Location) : Prop :=
  ∃ i j, ρ i j ∧ l = .ofOffset filename i ∧ m = .ofOffset filename j

structure Glyph.Alike (ρ : Nat → Nat → Prop) (g h : Glyph) : Prop where
  char : g.char = h.char
  offset : ρ g.offset h.offset

namespace Scan

/-- The start of a literal matters only while there is one. -/
structure Alike (filename : String) (ρ : Nat → Nat → Prop) (s t : Scan) : Prop where
  tokens : List.Forall₂ (Token.Alike (Location.Related filename ρ)) s.tokens.toList t.tokens.toList
  literal : s.literal = t.literal
  start : s.literal ≠ "" → ρ s.start t.start
  expectsOperand : s.expectsOperand = t.expectsOperand

variable {filename : String} {ρ : Nat → Nat → Prop} {s t : Scan} {g h : Glyph}

theorem related_ofOffset (filename : String) {i j : Nat} (hij : ρ i j) :
    Option.Rel (Location.Related filename ρ) (some (.ofOffset filename i))
      (some (.ofOffset filename j)) :=
  .some ⟨i, j, hij, rfl, rfl⟩

theorem Alike.push (hst : s.Alike filename ρ t) {x y : Token}
    (hxy : x.Alike (Location.Related filename ρ) y) :
    List.Forall₂ (Token.Alike (Location.Related filename ρ)) (s.tokens.push x).toList
      (t.tokens.push y).toList := by
  rw [Array.toList_push, Array.toList_push]
  exact List.rel_append hst.tokens (.cons hxy .nil)

theorem Alike.extend (hst : s.Alike filename ρ t) (hgh : g.Alike ρ h) (e : Bool) :
    (s.extend g e).Alike filename ρ (t.extend h e) where
  tokens := hst.tokens
  literal := by simp only [Scan.extend, hst.literal, hgh.char]
  start := by
    intro _
    simp only [Scan.extend, ← hst.literal, String.isEmpty_iff]
    by_cases hblank : s.literal = ""
    · rw [if_pos hblank, if_pos hblank]
      exact hgh.offset
    · rw [if_neg hblank, if_neg hblank]
      exact hst.start hblank
  expectsOperand := rfl

theorem Alike.emit (hst : s.Alike filename ρ t) (hgh : g.Alike ρ h) (k : Token.Kind) (e : Bool) :
    (s.emit filename g k e).Alike filename ρ (t.emit filename h k e) where
  tokens :=
    hst.push ⟨rfl, congrArg Char.toString hgh.char, rfl, related_ofOffset filename hgh.offset⟩
  literal := hst.literal
  start := hst.start
  expectsOperand := rfl

theorem Alike.flush (hst : s.Alike filename ρ t) :
    EndAlike (Halt.Alike (Location.Related filename ρ)) (Alike filename ρ) (s.flush filename)
      (t.flush filename) := by
  by_cases hblank : s.literal = ""
  · simp only [Scan.flush, ← hst.literal, hblank]
    exact .ok hst
  · have hplace := related_ofOffset filename (hst.start hblank)
    simp only [Scan.flush, ← hst.literal, String.isEmpty_iff, hblank, if_false]
    cases Literal.read s.literal.toList with
    | error defect => exact .error ⟨rfl, rfl, hplace⟩
    | ok v =>
      exact .ok ⟨hst.push ⟨rfl, rfl, rfl, hplace⟩, rfl, fun hne => absurd rfl hne,
        hst.expectsOperand⟩

theorem Alike.step (hst : s.Alike filename ρ t) (hgh : g.Alike ρ h) :
    EndAlike (Halt.Alike (Location.Related filename ρ)) (Alike filename ρ) (s.step filename g)
      (t.step filename h) := by
  have hrole : h.role = g.role := congrArg Glyph.Role.ofChar hgh.char.symm
  have hplace := related_ofOffset filename hgh.offset
  have hmark (k : Token.Kind) (e : Bool) := hst.flush.bind fun _ _ hst =>
    EndAlike.ok (F := Halt.Alike (Location.Related filename ρ)) (hst.emit hgh k e)
  unfold Scan.step
  rw [hrole, ← hgh.char, ← hst.expectsOperand]
  cases g.role with
  | digit => exact .ok (hst.extend hgh false)
  | operator op =>
    cases s.expectsOperand with
    | false => exact hmark (.operator op) true
    | true =>
      by_cases hop : op.isSign = true
      · simp only [hop, if_true]
        exact .ok (hst.extend hgh true)
      · simp only [hop, if_true]
        exact .error ⟨rfl, rfl, hplace⟩
  | leftParen => exact hmark .leftParen true
  | rightParen => exact hmark .rightParen false
  | foreign => exact .error ⟨rfl, rfl, hplace⟩

theorem Alike.read (hst : s.Alike filename ρ t) {gs hs : List Glyph}
    (h : List.Forall₂ (Glyph.Alike ρ) gs hs) :
    EndAlike (Halt.Alike (Location.Related filename ρ)) (Alike filename ρ) (read filename s gs)
      (read filename t hs) := by
  have hsteps := EndAlike.foldlM (R := Glyph.Alike ρ) (Q := Alike filename ρ)
    (fun s t g h hst hgh => hst.step hgh) h hst
  exact hsteps.bind fun s t hst => hst.flush

theorem alike_start (filename : String) (ρ : Nat → Nat → Prop) (start : Nat) :
    Alike filename ρ {} { start } where
  tokens := .nil
  literal := rfl
  start hne := absurd rfl hne
  expectsOperand := rfl

end Scan

/-- Glyphs that differ in places only are tokenized alike. -/
theorem tokenize_alike (filename : String) {source source' : String} {ρ : Nat → Nat → Prop}
    (h : List.Forall₂ (Glyph.Alike ρ) (Glyph.ofText source) (Glyph.ofText source')) :
    EndAlike (Fault.Alike (Location.Related filename ρ))
      (List.Forall₂ (Token.Alike (Location.Related filename ρ)))
      (tokenize filename source) (tokenize filename source') := by
  have hread := (Scan.alike_start filename ρ 0).read h
  unfold tokenize Scan.ofText
  generalize Scan.read filename {} (Glyph.ofText source) = x at hread ⊢
  generalize Scan.read filename {} (Glyph.ofText source') = y at hread ⊢
  cases hread with
  | ok hst => exact .ok hst.tokens
  | error he => exact .error he

end Abacus
