import Abacus.Machine
import Abacus.Proofs.Runs

/-! # What a machine carries out

A machine makes no tokens of its own: those that it carries out, and those that still wait in it,
are among the tokens that it has read. So what holds of all tokens of a text holds of every operator
that is carried out, in a run that fails too.
-/
namespace Abacus

namespace Machine

/-- All tokens that still wait in a machine or have been carried out by it are of a kind. -/
structure Holds (P : Token → Prop) (m : Machine) : Prop where
  pending : ∀ p ∈ m.pending, P p.token
  outer : ∀ g ∈ m.groups, ∀ p ∈ g.outer, P p.token
  reduced : ∀ t ∈ m.reduced.toList, P t

variable {P : Token → Prop} {m : Machine}

theorem Holds.reduce (h : m.Holds P) {p : Pending} (hp : P p.token) :
    Holds P (Halt.reached (m.reduce p)) := by
  unfold Machine.reduce
  split
  · split
    · refine ⟨h.pending, h.outer, ?_⟩
      rw [Halt.reached, Array.toList_push, List.forall_mem_append, List.forall_mem_singleton]
      exact ⟨h.reduced, hp⟩
    · exact h
  · exact h

theorem Holds.reduceAll (h : m.Holds P) {ps : List Pending} (hps : ∀ p ∈ ps, P p.token) :
    Holds P (Halt.reached (m.reduceAll ps)) :=
  reached_foldlM h fun p hp _ hm => hm.reduce (hps p hp)

theorem Holds.openGroup (h : m.Holds P) (opening : Token) : (m.openGroup opening).Holds P where
  pending _ hp := nomatch hp
  outer := List.forall_mem_cons.mpr ⟨h.pending, h.outer⟩
  reduced := h.reduced

theorem Holds.closeGroup (h : m.Holds P) (closing : Token) :
    Holds P (Halt.reached (m.closeGroup closing)) := by
  apply reached_bind (h.reduceAll h.pending)
  intro n hn
  cases hgroups : n.groups with
  | nil => exact hn
  | cons g groups =>
    have houter := hn.outer
    rw [hgroups, List.forall_mem_cons] at houter
    exact ⟨houter.1, houter.2, hn.reduced⟩

theorem Holds.await (h : m.Holds P) (op : Operator) {t : Token} (ht : P t) :
    Holds P (Halt.reached (m.await op t)) := by
  have hdue : ∀ p ∈ m.pending.takeWhile (op.yieldsTo ·.operator), P p.token :=
    fun p hp => h.pending p (List.takeWhile_subset _ hp)
  have hrest : ∀ p ∈ m.pending.dropWhile (op.yieldsTo ·.operator), P p.token :=
    fun p hp => h.pending p (List.dropWhile_subset _ hp)
  apply reached_bind (h.reduceAll hdue)
  intro n hn
  exact ⟨List.forall_mem_cons.mpr ⟨ht, hrest⟩, hn.outer, hn.reduced⟩

theorem Holds.step (h : m.Holds P) {t : Token} (ht : P t) :
    Holds P (Halt.reached (m.step t)) := by
  unfold Machine.step
  cases t.kind with
  | number => exact ⟨h.pending, h.outer, h.reduced⟩
  | operator op => exact h.await op ht
  | leftParen => exact h.openGroup t
  | rightParen => exact h.closeGroup t

theorem Holds.finish (h : m.Holds P) (last : Option Location) :
    Holds P (Halt.reached ((m.finish last).map Prod.snd)) := by
  have hall := h.reduceAll h.pending
  unfold Machine.finish
  cases hm : m.reduceAll m.pending with
  | error e =>
    rw [hm] at hall
    exact hall
  | ok n =>
    rw [hm] at hall
    simp only [bind, Except.bind]
    split <;> exact hall

/-- A run carries out no tokens but those that it is given, also where it fails. -/
theorem holds_run {ts : List Token} (h : ∀ t ∈ ts, P t) :
    Holds P (Halt.reached ((run ts).map Prod.snd)) := by
  have hstart : Holds P {} := ⟨by simp, by simp, by simp⟩
  have hsteps := reached_foldlM (f := Machine.step) hstart fun t ht _ hm => hm.step (h t ht)
  unfold run
  cases hm : ts.foldlM Machine.step {} with
  | error e =>
    rw [hm] at hsteps
    exact hsteps
  | ok m =>
    rw [hm] at hsteps
    exact hsteps.finish _

end Machine

end Abacus
