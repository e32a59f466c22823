import Abacus.Fault
import Mathlib.Data.List.Forall2

/-! # Runs that stop at the first failure

A run goes through a list and stops at the first step that fails. So a failure belongs to one of the
elements, and all elements before that one went well. Two runs whose steps go alike end alike.
-/
namespace Abacus

/-- A run as its caller sees it, without the state in which it halted. -/
def outcome {σ α : Type} (x : Except (Halt σ) α) : Except Fault α := x.mapError Halt.fault

theorem mapError_bind {ε δ α β : Type} (h : ε → δ) (x : Except ε α) (f : α → Except ε β) :
    (x >>= f).mapError h = x.mapError h >>= fun a => (f a).mapError h := by
  cases x <;> rfl

theorem outcome_bind {σ α β : Type} (x : Except (Halt σ) α) (f : α → Except (Halt σ) β) :
    outcome (x >>= f) = outcome x >>= fun a => outcome (f a) :=
  mapError_bind Halt.fault x f

section
variable {ε α β : Type}

theorem bind_eq_error_iff {x : Except ε α} {f : α → Except ε β} {e : ε} :
    (x >>= f) = .error e ↔ x = .error e ∨ ∃ a, x = .ok a ∧ f a = .error e := by
  cases x with
  | error d => simp [bind, Except.bind]
  | ok a => simp [bind, Except.bind]

theorem bind_eq_ok_iff {x : Except ε α} {f : α → Except ε β} {b : β} :
    (x >>= f) = .ok b ↔ ∃ a, x = .ok a ∧ f a = .ok b := by
  cases x with
  | error d => simp [bind, Except.bind]
  | ok a => simp [bind, Except.bind]

theorem foldlM_eq_error_iff {f : β → α → Except ε β} {b : β} {as : List α} {e : ε} :
    as.foldlM f b = .error e ↔ ∃ before a after reached, as = before ++ a :: after ∧
      before.foldlM f b = .ok reached ∧ f reached a = .error e := by
  constructor
  · intro h
    induction as generalizing b with
    | nil => cases h
    | cons a as ih =>
      rcases bind_eq_error_iff.mp h with hstep | ⟨c, hstep, hrest⟩
      · exact ⟨[], a, as, b, rfl, rfl, hstep⟩
      · obtain ⟨before, d, after, reached, rfl, hbefore, hfail⟩ := ih hrest
        refine ⟨a :: before, d, after, reached, rfl, ?_, hfail⟩
        rw [List.foldlM_cons, hstep]
        exact hbefore
  · rintro ⟨before, a, after, reached, rfl, hbefore, hfail⟩
    rw [List.foldlM_append, hbefore]
    change f reached a >>= _ = _
    rw [hfail]
    rfl

/-- Where another run can follow each step that goes well, it can follow a whole run. -/
theorem exists_follow_foldlM {δ τ : Type} {Q : β → τ → Prop} {f : β → α → Except ε β}
    {g : τ → α → Except δ τ} {as : List α}
    (hstep : ∀ a ∈ as, ∀ b c t, Q b t → f b a = .ok c → ∃ u, g t a = .ok u ∧ Q c u)
    {b c : β} {t : τ} (hQ : Q b t) (h : as.foldlM f b = .ok c) :
    ∃ u, as.foldlM g t = .ok u ∧ Q c u := by
  induction as generalizing b t with
  | nil =>
    cases h
    exact ⟨t, rfl, hQ⟩
  | cons a as ih =>
    obtain ⟨d, hd, hrest⟩ := bind_eq_ok_iff.mp h
    obtain ⟨v, hv, hnext⟩ := hstep a List.mem_cons_self b d t hQ hd
    obtain ⟨u, hu, hlast⟩ := ih (fun x hx => hstep x (List.mem_cons_of_mem a hx)) hnext hrest
    exact ⟨u, bind_eq_ok_iff.mpr ⟨v, hv, hu⟩, hlast⟩

end

theorem append_cons_cases {α : Type} {as bs cs ds : List α} {x y : α}
    (h : as ++ x :: bs = cs ++ y :: ds) :
    (∃ mid, as = cs ++ y :: mid ∧ ds = mid ++ x :: bs) ∨ (as = cs ∧ x = y ∧ bs = ds) ∨
      ∃ mid, cs = as ++ x :: mid ∧ bs = mid ++ y :: ds := by
  rcases List.append_eq_append_iff.mp h with ⟨mid, rfl, hmid⟩ | ⟨mid, rfl, hmid⟩
  · cases mid with
    | nil =>
      obtain ⟨rfl, rfl⟩ := List.cons.inj hmid
      exact .inr (.inl ⟨(List.append_nil as).symm, rfl, rfl⟩)
    | cons z mid =>
      obtain ⟨rfl, rfl⟩ := List.cons.inj hmid
      exact .inr (.inr ⟨mid, rfl, rfl⟩)
  · cases mid with
    | nil =>
      obtain ⟨rfl, rfl⟩ := List.cons.inj hmid
      exact .inr (.inl ⟨List.append_nil cs, rfl, rfl⟩)
    | cons z mid =>
      obtain ⟨rfl, rfl⟩ := List.cons.inj hmid
      exact .inl ⟨mid, rfl, rfl⟩

section
variable {σ α : Type} {Q : σ → Prop}

theorem reached_bind {x : Except (Halt σ) σ} {f : σ → Except (Halt σ) σ} (hx : Q (Halt.reached x))
    (hf : ∀ s, Q s → Q (Halt.reached (f s))) : Q (Halt.reached (x >>= f)) := by
  cases x with
  | error e => exact hx
  | ok s => exact hf s hx

/-- What each step keeps holds in the state that a run reaches, also where it stops. -/
theorem reached_foldlM {f : σ → α → Except (Halt σ) σ} {as : List α} {s : σ} (hs : Q s)
    (hstep : ∀ a ∈ as, ∀ t, Q t → Q (Halt.reached (f t a))) :
    Q (Halt.reached (as.foldlM f s)) := by
  induction as generalizing s with
  | nil => exact hs
  | cons a as ih =>
    rw [List.foldlM_cons]
    apply reached_bind (hstep a List.mem_cons_self s hs)
    intro t ht
    exact ih ht fun b hb => hstep b (List.mem_cons_of_mem a hb)

end

section
variable {ε δ α β : Type}

/-- Two runs end alike: both with results that `R` relates, or both with failures that `F` does. -/
inductive EndAlike (F : ε → δ → Prop) (R : α → β → Prop) : Except ε α → Except δ β → Prop where
  | ok {a : α} {b : β} (h : R a b) : EndAlike F R (.ok a) (.ok b)
  | error {e : ε} {d : δ} (h : F e d) : EndAlike F R (.error e) (.error d)

variable {F : ε → δ → Prop} {R : α → β → Prop}

theorem EndAlike.refl {F : ε → ε → Prop} {R : α → α → Prop} (hF : ∀ e, F e e) (hR : ∀ a, R a a)
    (x : Except ε α) : EndAlike F R x x := by
  cases x with
  | error e => exact .error (hF e)
  | ok a => exact .ok (hR a)

theorem EndAlike.bind {α' β' : Type} {S : α' → β' → Prop} {x : Except ε α} {y : Except δ β}
    {f : α → Except ε α'} {g : β → Except δ β'} (h : EndAlike F R x y)
    (hfg : ∀ a b, R a b → EndAlike F S (f a) (g b)) : EndAlike F S (x >>= f) (y >>= g) := by
  cases h with
  | ok hab => exact hfg _ _ hab
  | error he => exact .error he

theorem EndAlike.mono {G : ε → δ → Prop} {S : α → β → Prop} {x : Except ε α} {y : Except δ β}
    (h : EndAlike F R x y) (hF : ∀ e d, F e d → G e d) (hR : ∀ a b, R a b → S a b) :
    EndAlike G S x y := by
  cases h with
  | ok hab => exact .ok (hR _ _ hab)
  | error he => exact .error (hF _ _ he)

/-- Steps that keep a relation between two states are a run that keeps it. -/
theorem EndAlike.foldlM {σ τ : Type} {Q : σ → τ → Prop} {f : σ → α → Except ε σ}
    {g : τ → β → Except δ τ} (hstep : ∀ s t a b, Q s t → R a b → EndAlike F Q (f s a) (g t b))
    {as : List α} {bs : List β} (has : List.Forall₂ R as bs) {s : σ} {t : τ} (hst : Q s t) :
    EndAlike F Q (as.foldlM f s) (bs.foldlM g t) := by
  induction has generalizing s t with
  | nil => exact .ok hst
  | cons hab _ ih =>
    rw [List.foldlM_cons, List.foldlM_cons]
    exact (hstep s t _ _ hst hab).bind fun _ _ hnext => ih hnext

end

end Abacus
