import Mathlib.Tactic.Common

/-!
# Labelled machines

A machine takes one step for each label, and the label carries every choice that the
environment makes: a scheduled thread, the result of a system call, the time that passes.
A run is a list of labels. This file proves the induction rules for runs that the rest of
the development uses, for all runs and for the runs whose steps meet a condition.
-/

namespace MylibMuduo

/-- A deterministic transition function on labels; `none` is a step that is not enabled. -/
structure Machine (σ α : Type) where
  next : σ → α → Option σ

namespace Machine

variable {σ α : Type} (M : Machine σ α)

/-- The state after the steps `labels`, if each of them is enabled. -/
def run : σ → List α → Option σ
  | s, [] => some s
  | s, a :: labels => (M.next s a).bind fun s' => run s' labels

/-- Every step of the run from `s` along `labels` meets `ok` in the state before it. -/
def Meets (ok : σ → α → Prop) : σ → List α → Prop
  | _, [] => True
  | s, a :: labels => ok s a ∧ ∀ s', M.next s a = some s' → Meets ok s' labels

/-- Every state of the run from `s` along `labels` satisfies `P`. -/
def Always (P : σ → Prop) : σ → List α → Prop
  | s, [] => P s
  | s, a :: labels => P s ∧ ∀ s', M.next s a = some s' → Always P s' labels

/-- The largest value of `f` in the states of the run from `s` along `labels`. -/
def peak (f : σ → Nat) : σ → List α → Nat
  | s, [] => f s
  | s, a :: labels => max (f s) ((M.next s a).elim 0 fun s' => peak f s' labels)

/-- A condition that can be decided at each step can be decided for a run. -/
instance decidableMeets (ok : σ → α → Prop) [∀ s a, Decidable (ok s a)] :
    (s : σ) → (labels : List α) → Decidable (M.Meets ok s labels)
  | _, [] => isTrue trivial
  | s, a :: labels =>
    match hnext : M.next s a with
    | none => decidable_of_iff (ok s a)
        ⟨fun ha => ⟨ha, fun _ hs => nomatch hnext.symm.trans hs⟩, fun h => h.1⟩
    | some t =>
      have := decidableMeets ok t labels
      decidable_of_iff (ok s a ∧ M.Meets ok t labels)
        ⟨fun h => ⟨h.1, fun _ hs => Option.some.inj (hnext.symm.trans hs) ▸ h.2⟩,
          fun h => ⟨h.1, h.2 t hnext⟩⟩

lemma run_cons_eq_some (s t : σ) (a : α) (labels : List α) :
    M.run s (a :: labels) = some t ↔ ∃ s', M.next s a = some s' ∧ M.run s' labels = some t := by
  rw [run, Option.bind_eq_some_iff]

lemma run_append_eq_some (s t : σ) (as bs : List α) :
    M.run s (as ++ bs) = some t ↔ ∃ s', M.run s as = some s' ∧ M.run s' bs = some t := by
  induction as generalizing s with
  | nil => simp [run]
  | cons a as ih =>
    rw [List.cons_append, run_cons_eq_some]
    constructor
    · rintro ⟨s₁, ha, hrest⟩
      obtain ⟨s', has, hbs⟩ := (ih s₁).mp hrest
      exact ⟨s', (run_cons_eq_some M s s' a as).mpr ⟨s₁, ha, has⟩, hbs⟩
    · rintro ⟨s', has, hbs⟩
      obtain ⟨s₁, ha, hrest⟩ := (run_cons_eq_some M s s' a as).mp has
      exact ⟨s₁, ha, (ih s₁).mpr ⟨s', hrest, hbs⟩⟩

/-- What a conditioned step keeps, a run whose steps meet the condition keeps. -/
theorem invariant_of_meets {ok : σ → α → Prop} {I : σ → Prop}
    (hstep : ∀ s a s', I s → ok s a → M.next s a = some s' → I s')
    {s t : σ} {labels : List α} (hs : I s) (hok : M.Meets ok s labels)
    (hrun : M.run s labels = some t) : I t := by
  induction labels generalizing s with
  | nil =>
    rw [run, Option.some.injEq] at hrun
    exact hrun ▸ hs
  | cons a labels ih =>
    obtain ⟨s', ha, hrest⟩ := (run_cons_eq_some M s t a labels).mp hrun
    exact ih (hstep s a s' hs hok.1 ha) (hok.2 s' ha) hrest

lemma meets_cons {ok : σ → α → Prop} {s s' : σ} {a : α} {labels : List α} (ha : ok s a)
    (hnext : M.next s a = some s') (hrest : M.Meets ok s' labels) : M.Meets ok s (a :: labels) := by
  refine ⟨ha, fun t ht => ?_⟩
  rw [hnext, Option.some.injEq] at ht
  exact ht ▸ hrest

lemma meets_cons_iff {ok : σ → α → Prop} {s s' : σ} {a : α} {labels : List α}
    (hnext : M.next s a = some s') : M.Meets ok s (a :: labels) ↔ ok s a ∧ M.Meets ok s' labels :=
  ⟨fun h => ⟨h.1, h.2 s' hnext⟩, fun h => M.meets_cons h.1 hnext h.2⟩

lemma Meets.mono {ok ok' : σ → α → Prop} {s : σ} {labels : List α} (h : M.Meets ok s labels)
    (himp : ∀ s a, ok s a → ok' s a) : M.Meets ok' s labels := by
  induction labels generalizing s with
  | nil => trivial
  | cons a labels ih => exact ⟨himp s a h.1, fun s' hs' => ih (h.2 s' hs')⟩

lemma Meets.of_append {ok : σ → α → Prop} {s t : σ} {as bs : List α} (h : M.Meets ok s (as ++ bs))
    (hrun : M.run s as = some t) : M.Meets ok t bs := by
  induction as generalizing s with
  | nil =>
    rw [run, Option.some.injEq] at hrun
    exact hrun ▸ h
  | cons a as ih =>
    obtain ⟨s', hnext, hrest⟩ := (run_cons_eq_some M s t a as).mp hrun
    exact ih (h.2 s' hnext) hrest

lemma Meets.left_of_append {ok : σ → α → Prop} {s : σ} {as bs : List α} (h : M.Meets ok s (as ++ bs)) :
    M.Meets ok s as := by
  induction as generalizing s with
  | nil => trivial
  | cons a as ih => exact ⟨h.1, fun s' hs' => ih (h.2 s' hs')⟩

lemma always_cons_iff {P : σ → Prop} {s s' : σ} {a : α} {labels : List α} (hnext : M.next s a = some s') :
    M.Always P s (a :: labels) ↔ P s ∧ M.Always P s' labels := by
  refine ⟨fun h => ⟨h.1, h.2 s' hnext⟩, fun h => ⟨h.1, fun t ht => ?_⟩⟩
  rw [hnext, Option.some.injEq] at ht
  exact ht ▸ h.2

lemma Always.head {P : σ → Prop} {s : σ} {labels : List α} (h : M.Always P s labels) : P s := by
  cases labels with
  | nil => exact h
  | cons a labels => exact h.1

lemma Always.of_append {P : σ → Prop} {s t : σ} {as bs : List α} (h : M.Always P s (as ++ bs))
    (hrun : M.run s as = some t) : M.Always P t bs := by
  induction as generalizing s with
  | nil =>
    rw [run, Option.some.injEq] at hrun
    exact hrun ▸ h
  | cons a as ih =>
    obtain ⟨s', hnext, hrest⟩ := (run_cons_eq_some M s t a as).mp hrun
    exact ih (h.2 s' hnext) hrest

/-- If a step from a good state leads to a good state exactly under `ok`, then a run stays in good
states exactly if all its steps meet `ok`. -/
theorem always_iff_meets {I P : σ → Prop} {ok : σ → α → Prop}
    (hstep : ∀ s a s', I s → P s → M.next s a = some s' → (P s' ↔ ok s a) ∧ (P s' → I s'))
    {s t : σ} {labels : List α} (hs : I s) (hP : P s) (hrun : M.run s labels = some t) :
    M.Always P s labels ↔ M.Meets ok s labels := by
  induction labels generalizing s with
  | nil => exact iff_of_true hP trivial
  | cons a labels ih =>
    obtain ⟨s', hnext, hrest⟩ := (run_cons_eq_some M s t a labels).mp hrun
    obtain ⟨hiff, hs'⟩ := hstep s a s' hs hP hnext
    rw [M.always_cons_iff hnext, M.meets_cons_iff hnext]
    by_cases hP' : P s'
    · rw [ih (hs' hP') hP' hrest]
      exact and_congr_left fun _ => iff_of_true hP (hiff.mp hP')
    · exact iff_of_false (fun h => hP' (h.2.head M)) (fun h => hP' (hiff.mpr h.1))

/-- The same for the runs whose steps meet a condition of their own. -/
theorem always_iff_meets_of_meets {I P : σ → Prop} {cond ok : σ → α → Prop}
    (hstep : ∀ s a s', I s → P s → cond s a → M.next s a = some s' → (P s' ↔ ok s a) ∧ (P s' → I s'))
    {s t : σ} {labels : List α} (hs : I s) (hP : P s) (hcond : M.Meets cond s labels)
    (hrun : M.run s labels = some t) : M.Always P s labels ↔ M.Meets ok s labels := by
  induction labels generalizing s with
  | nil => exact iff_of_true hP trivial
  | cons a labels ih =>
    obtain ⟨s', hnext, hrest⟩ := (run_cons_eq_some M s t a labels).mp hrun
    obtain ⟨hiff, hs'⟩ := hstep s a s' hs hP hcond.1 hnext
    rw [M.always_cons_iff hnext, M.meets_cons_iff hnext]
    by_cases hP' : P s'
    · rw [ih (hs' hP') hP' (hcond.2 s' hnext) hrest]
      exact and_congr_left fun _ => iff_of_true hP (hiff.mp hP')
    · exact iff_of_false (fun h => hP' (h.2.head M)) (fun h => hP' (hiff.mpr h.1))

/-- Two conditions that agree in the states that their steps lead through agree on runs. -/
theorem meets_iff_meets {I : σ → Prop} {ok ok' : σ → α → Prop}
    (hstep : ∀ s a s', I s → ok s a → M.next s a = some s' → I s')
    (hiff : ∀ s a s', I s → M.next s a = some s' → (ok s a ↔ ok' s a))
    {s t : σ} {labels : List α} (hs : I s) (hrun : M.run s labels = some t) :
    M.Meets ok s labels ↔ M.Meets ok' s labels := by
  induction labels generalizing s with
  | nil => exact Iff.rfl
  | cons a labels ih =>
    obtain ⟨s', hnext, hrest⟩ := (run_cons_eq_some M s t a labels).mp hrun
    rw [M.meets_cons_iff hnext, M.meets_cons_iff hnext, ← hiff s a s' hs hnext]
    exact and_congr_right fun hok => ih (hstep s a s' hs hok hnext) hrest

lemma meets_true (s : σ) (labels : List α) : M.Meets (fun _ _ => True) s labels := by
  induction labels generalizing s with
  | nil => trivial
  | cons a labels ih => exact ⟨trivial, fun s' _ => ih s'⟩

lemma meets_of_forall {ok : α → Prop} {labels : List α} (s : σ) (h : ∀ a ∈ labels, ok a) :
    M.Meets (fun _ a => ok a) s labels := by
  induction labels generalizing s with
  | nil => trivial
  | cons a labels ih =>
    exact ⟨h a List.mem_cons_self, fun s' _ => ih s' fun b hb => h b (List.mem_cons_of_mem a hb)⟩

/-- What every step keeps, every run keeps. -/
theorem invariant {I : σ → Prop} (hstep : ∀ s a s', I s → M.next s a = some s' → I s')
    {s t : σ} {labels : List α} (hs : I s) (hrun : M.run s labels = some t) : I t :=
  M.invariant_of_meets (fun s a s' hI _ h => hstep s a s' hI h) hs (M.meets_true s labels) hrun

lemma le_peak (f : σ → Nat) (s : σ) (labels : List α) : f s ≤ M.peak f s labels := by
  cases labels with
  | nil => exact Nat.le_refl _
  | cons a labels => exact Nat.le_max_left _ _

lemma peak_le_peak_cons (f : σ → Nat) {s s' : σ} {a : α} (hnext : M.next s a = some s') (labels : List α) :
    M.peak f s' labels ≤ M.peak f s (a :: labels) := by
  rw [peak, hnext]
  exact Nat.le_max_right _ _

/-- If a step enlarges `size` at most to a bound in the `level` it reaches, then a run enlarges it at
most to that bound in its peak level. -/
theorem le_max_peak {I : σ → Prop} (size level : σ → Nat) (bound : Nat → Nat)
    (hbound : ∀ m n, m ≤ n → bound m ≤ bound n)
    (hstep : ∀ s a s', I s → M.next s a = some s' → I s' ∧ size s' ≤ max (size s) (bound (level s')))
    {s t : σ} {labels : List α} (hs : I s) (hrun : M.run s labels = some t) :
    size t ≤ max (size s) (bound (M.peak level s labels)) := by
  induction labels generalizing s with
  | nil =>
    rw [run, Option.some.injEq] at hrun
    rw [hrun]
    exact Nat.le_max_left _ _
  | cons a labels ih =>
    obtain ⟨s', hnext, hrest⟩ := (run_cons_eq_some M s t a labels).mp hrun
    obtain ⟨hs', hsize⟩ := hstep s a s' hs hnext
    have hrec := ih hs' hrest
    have hlevel := hbound _ _ (M.le_peak level s' labels)
    have hpeak := hbound _ _ (M.peak_le_peak_cons level hnext labels)
    omega

/-- An invariant that speaks about the labels taken so far, in runs whose steps meet a condition. -/
theorem invariant_of_history_of_meets {ok : σ → α → Prop} {I : List α → σ → Prop}
    (hstep : ∀ done s a s', I done s → ok s a → M.next s a = some s' → I (done ++ [a]) s')
    {s t : σ} {done labels : List α} (hs : I done s) (hok : M.Meets ok s labels)
    (hrun : M.run s labels = some t) : I (done ++ labels) t := by
  induction labels generalizing s done with
  | nil =>
    rw [run, Option.some.injEq] at hrun
    rw [List.append_nil]
    exact hrun ▸ hs
  | cons a labels ih =>
    obtain ⟨s', ha, hrest⟩ := (run_cons_eq_some M s t a labels).mp hrun
    obtain ⟨hhead, htail⟩ := (M.meets_cons_iff ha).mp hok
    rw [List.append_cons]
    exact ih (hstep done s a s' hs hhead ha) htail hrest

/-- An invariant that speaks about the labels taken so far. -/
theorem invariant_of_history {I : List α → σ → Prop}
    (hstep : ∀ done s a s', I done s → M.next s a = some s' → I (done ++ [a]) s')
    {s t : σ} {done labels : List α} (hs : I done s) (hrun : M.run s labels = some t) :
    I (done ++ labels) t :=
  M.invariant_of_history_of_meets (fun done s a s' h _ => hstep done s a s' h) hs (M.meets_true s labels) hrun

end Machine

end MylibMuduo
