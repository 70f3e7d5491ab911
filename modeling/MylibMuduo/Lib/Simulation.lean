import MylibMuduo.Lib.Machine

/-!
# Simulations between machines

A step of the lower machine is matched by a short run of the upper one, which may be empty.
Runs are then matched by runs.
-/

namespace MylibMuduo

/-- Every step of `M` is matched by the labels `f` of `N`, along the relation `R`. -/
structure Simulation {σ ρ α β : Type} (M : Machine σ α) (N : Machine ρ β) (f : α → List β)
    (R : σ → ρ → Prop) : Prop where
  step : ∀ s r a s', R s r → M.next s a = some s' → ∃ r', N.run r (f a) = some r' ∧ R s' r'

namespace Simulation

variable {σ ρ α β : Type} {M : Machine σ α} {N : Machine ρ β} {f : α → List β} {R : σ → ρ → Prop}

theorem run (h : Simulation M N f R) {s s' : σ} {r : ρ} {labels : List α} (hs : R s r)
    (hrun : M.run s labels = some s') : ∃ r', N.run r (labels.flatMap f) = some r' ∧ R s' r' := by
  induction labels generalizing s r with
  | nil =>
    rw [Machine.run, Option.some.injEq] at hrun
    exact ⟨r, rfl, hrun ▸ hs⟩
  | cons a labels ih =>
    obtain ⟨s₁, hnext, hrest⟩ := (M.run_cons_eq_some s s' a labels).mp hrun
    obtain ⟨r₁, hr₁, hs₁⟩ := h.step s r a s₁ hs hnext
    obtain ⟨r', hr', hs'⟩ := ih hs₁ hrest
    refine ⟨r', ?_, hs'⟩
    rw [List.flatMap_cons, Machine.run_append_eq_some]
    exact ⟨r₁, hr₁, hr'⟩

end Simulation

namespace Machine

variable {σ ρ α β : Type} (M : Machine σ α)

/-- The labels that the steps of a run emit, where a step may look at the state before it. -/
def emitted (f : σ → α → List β) : σ → List α → List β
  | _, [] => []
  | s, a :: labels => f s a ++ (M.next s a).elim [] fun s' => emitted f s' labels

/-- If the labels that a step emits match the step, the labels that a run emits match the run, here for
the runs whose steps meet a condition. -/
theorem run_emitted_of_meets {N : Machine ρ β} {f : σ → α → List β} {R : σ → ρ → Prop} {ok : σ → α → Prop}
    (hstep : ∀ s r a s', R s r → ok s a → M.next s a = some s' → ∃ r', N.run r (f s a) = some r' ∧ R s' r')
    {s s' : σ} {r : ρ} {labels : List α} (hs : R s r) (hok : M.Meets ok s labels)
    (hrun : M.run s labels = some s') : ∃ r', N.run r (M.emitted f s labels) = some r' ∧ R s' r' := by
  induction labels generalizing s r with
  | nil =>
    rw [run, Option.some.injEq] at hrun
    exact ⟨r, rfl, hrun ▸ hs⟩
  | cons a labels ih =>
    obtain ⟨s₁, hnext, hrest⟩ := (M.run_cons_eq_some s s' a labels).mp hrun
    obtain ⟨r₁, hr₁, hs₁⟩ := hstep s r a s₁ hs hok.1 hnext
    obtain ⟨r', hr', hs'⟩ := ih hs₁ (hok.2 s₁ hnext) hrest
    refine ⟨r', ?_, hs'⟩
    rw [emitted, hnext, Option.elim_some, run_append_eq_some]
    exact ⟨r₁, hr₁, hr'⟩

theorem run_emitted {N : Machine ρ β} {f : σ → α → List β} {R : σ → ρ → Prop}
    (hstep : ∀ s r a s', R s r → M.next s a = some s' → ∃ r', N.run r (f s a) = some r' ∧ R s' r')
    {s s' : σ} {r : ρ} {labels : List α} (hs : R s r) (hrun : M.run s labels = some s') :
    ∃ r', N.run r (M.emitted f s labels) = some r' ∧ R s' r' :=
  M.run_emitted_of_meets (fun s r a s' hR _ hnext => hstep s r a s' hR hnext) hs (M.meets_true s labels) hrun

end Machine

end MylibMuduo
