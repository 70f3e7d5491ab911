import Mathlib.Algebra.GroupWithZero.Nat
import MylibMuduo.Lib.Machine

/-!
# Progress of runs

A rank that the counted steps lower bounds how many of them a run can make before it reaches its
goal. The steps of the environment may raise the rank, each by an allowance.
-/

namespace MylibMuduo.Machine

variable {σ α : Type} (M : Machine σ α)

/-- Some state of the run from `s` along `labels` satisfies `goal`. -/
def Reaches (goal : σ → Prop) (s : σ) (labels : List α) : Prop :=
  ∃ as bs u, labels = as ++ bs ∧ M.run s as = some u ∧ goal u

lemma reaches_of_goal {goal : σ → Prop} {s : σ} (labels : List α) (h : goal s) : M.Reaches goal s labels :=
  ⟨[], labels, s, rfl, rfl, h⟩

lemma reaches_cons {goal : σ → Prop} {s s' : σ} {a : α} {labels : List α} (hnext : M.next s a = some s')
    (h : M.Reaches goal s' labels) : M.Reaches goal s (a :: labels) := by
  obtain ⟨as, bs, u, rfl, hrun, hu⟩ := h
  exact ⟨a :: as, bs, u, rfl, (M.run_cons_eq_some s u a as).mpr ⟨s', hnext, hrun⟩, hu⟩

/-- A goal that every step keeps holds at the end of a run that reaches it. -/
lemma Reaches.stable {I goal : σ → Prop} {ok : σ → α → Prop}
    (hstep : ∀ s a s', I s → ok s a → M.next s a = some s' → I s' ∧ (goal s → goal s'))
    {s t : σ} {labels : List α} (h : M.Reaches goal s labels) (hs : I s) (hok : M.Meets ok s labels)
    (hrun : M.run s labels = some t) : goal t := by
  obtain ⟨as, bs, u, rfl, has, hgoal⟩ := h
  obtain ⟨u', hu', hbs⟩ := (M.run_append_eq_some s t as bs).mp hrun
  rw [has, Option.some.injEq] at hu'
  subst hu'
  have hu : I u := M.invariant_of_meets (fun v a v' hv ha hnext => (hstep v a v' hv ha hnext).1) hs
    (hok.left_of_append M) has
  have hboth : I t ∧ goal t := by
    refine M.invariant_of_meets (I := fun v => I v ∧ goal v) ?_ ⟨hu, hgoal⟩ (hok.of_append M has) hbs
    intro v a v' hv ha hnext
    obtain ⟨hI, hkeep⟩ := hstep v a v' hv.1 ha hnext
    exact ⟨hI, hkeep hv.2⟩
  exact hboth.2

/-- Short of the goal a counted step lowers `rank`, and any step raises it at most by its allowance.
Then a run reaches the goal, or its counted steps are paid by its first rank and its allowances. -/
theorem reaches_or_countP_le {I goal : σ → Prop} {ok : σ → α → Prop} (counts : α → Bool) (allow : α → Nat)
    (rank : σ → Nat)
    (hstep : ∀ s a s', I s → ¬goal s → ok s a → M.next s a = some s' →
      I s' ∧ (goal s' ∨ rank s' + (if counts a then 1 else 0) ≤ rank s + allow a))
    {s t : σ} {labels : List α} (hs : I s) (hok : M.Meets ok s labels) (hrun : M.run s labels = some t) :
    M.Reaches goal s labels ∨
      I t ∧ ¬goal t ∧ rank t + labels.countP counts ≤ rank s + (labels.map allow).sum := by
  induction labels generalizing s with
  | nil =>
    rw [run, Option.some.injEq] at hrun
    subst hrun
    by_cases hgoal : goal s
    · exact Or.inl (M.reaches_of_goal _ hgoal)
    · exact Or.inr ⟨hs, hgoal, by simp⟩
  | cons a labels ih =>
    obtain ⟨s', hnext, hrest⟩ := (M.run_cons_eq_some s t a labels).mp hrun
    by_cases hgoal : goal s
    · exact Or.inl (M.reaches_of_goal _ hgoal)
    obtain ⟨hs', hcases⟩ := hstep s a s' hs hgoal hok.1 hnext
    rcases hcases with hgoal' | hrank
    · exact Or.inl (M.reaches_cons hnext (M.reaches_of_goal _ hgoal'))
    rcases ih hs' (hok.2 s' hnext) hrest with hreach | ⟨ht, hgoal', hcount⟩
    · exact Or.inl (M.reaches_cons hnext hreach)
    · refine Or.inr ⟨ht, hgoal', ?_⟩
      rw [List.countP_cons, List.map_cons, List.sum_cons]
      omega

/-- If the rank is positive short of the goal, a run with as many counted steps as its first rank and
its allowances reaches the goal. -/
theorem reaches_of_le_countP {I goal : σ → Prop} {ok : σ → α → Prop} (counts : α → Bool) (allow : α → Nat)
    (rank : σ → Nat)
    (hstep : ∀ s a s', I s → ¬goal s → ok s a → M.next s a = some s' →
      I s' ∧ (goal s' ∨ rank s' + (if counts a then 1 else 0) ≤ rank s + allow a))
    (hpos : ∀ s, I s → ¬goal s → 0 < rank s)
    {s t : σ} {labels : List α} (hs : I s) (hok : M.Meets ok s labels) (hrun : M.run s labels = some t)
    (hcount : rank s + (labels.map allow).sum ≤ labels.countP counts) : M.Reaches goal s labels := by
  rcases M.reaches_or_countP_le counts allow rank hstep hs hok hrun with hreach | ⟨ht, hgoal, hle⟩
  · exact hreach
  · have hrank := hpos t ht hgoal
    omega

lemma sum_map_zero (labels : List α) : (labels.map fun _ => 0).sum = 0 := by
  rw [List.map_const', List.sum_replicate_nat, Nat.mul_zero]

/-- One allowance for all steps of a kind. -/
lemma sum_map_ite (p : α → Bool) (k : Nat) (labels : List α) :
    (labels.map fun a => if p a then k else 0).sum = k * labels.countP p := by
  induction labels with
  | nil => rfl
  | cons a labels ih =>
    rw [List.map_cons, List.sum_cons, List.countP_cons, ih, Nat.mul_add]
    split
    · omega
    · omega

end MylibMuduo.Machine
