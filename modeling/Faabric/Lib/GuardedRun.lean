import Mathlib

/-! Runs of a machine in which every step meets a guard on the state it is
taken from. An invariant that guarded steps preserve holds along the run. -/

namespace GuardedRun

variable {σ ι : Type*}

def run (step : σ → ι → σ) (s : σ) (ops : List ι) : σ := ops.foldl step s

def Meets (step : σ → ι → σ) (ok : σ → ι → Prop) : σ → List ι → Prop
  | _, [] => True
  | s, i :: is => ok s i ∧ Meets step ok (step s i) is

instance decidableMeets (step : σ → ι → σ) (ok : σ → ι → Prop) [∀ s i, Decidable (ok s i)] :
    (s : σ) → (ops : List ι) → Decidable (Meets step ok s ops)
  | _, [] => isTrue trivial
  | s, i :: is =>
    have := decidableMeets step ok (step s i) is
    inferInstanceAs (Decidable (ok s i ∧ Meets step ok (step s i) is))

theorem run_invariant {step : σ → ι → σ} {Inv : σ → Prop} (hstep : ∀ s i, Inv s → Inv (step s i))
    {s : σ} (ops : List ι) (hs : Inv s) : Inv (run step s ops) := by
  induction ops generalizing s with
  | nil => exact hs
  | cons i is ih => exact ih (hstep s i hs)

theorem run_append (step : σ → ι → σ) (s : σ) (p q : List ι) :
    run step s (p ++ q) = run step (run step s p) q := by
  simp [run, List.foldl_append]

variable {step : σ → ι → σ} {ok : σ → ι → Prop}

theorem Meets.append {s : σ} {p q : List ι} (h : Meets step ok s (p ++ q)) :
    Meets step ok s p ∧ Meets step ok (run step s p) q := by
  induction p generalizing s with
  | nil => exact ⟨trivial, h⟩
  | cons i p ih =>
    obtain ⟨hp, hq⟩ := ih h.2
    exact ⟨⟨h.1, hp⟩, hq⟩

theorem Meets.and_forall {P : ι → Prop} {s : σ} {ops : List ι} (h : Meets step ok s ops) (hP : ∀ i ∈ ops, P i) :
    Meets step (fun s i => P i ∧ ok s i) s ops := by
  induction ops generalizing s with
  | nil => trivial
  | cons i is ih =>
    obtain ⟨hi, his⟩ := List.forall_mem_cons.mp hP
    exact ⟨⟨hi, h.1⟩, ih h.2 his⟩

theorem Meets.invariant {Inv : σ → Prop} (hstep : ∀ s i, Inv s → ok s i → Inv (step s i)) {s : σ}
    {ops : List ι} (h : Meets step ok s ops) (hs : Inv s) : Inv (run step s ops) := by
  induction ops generalizing s with
  | nil => exact hs
  | cons i is ih => exact ih h.2 (hstep s i hs h.1)

end GuardedRun
