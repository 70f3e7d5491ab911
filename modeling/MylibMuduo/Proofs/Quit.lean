import MylibMuduo.Proofs.LoopSteps

/-!
# The store of `quit`

`loop` tests `quit_` when it is entered and then stores `false`, so a store of `quit` between
the two is overwritten; every other store stays.
-/

namespace MylibMuduo

namespace LoopPc

variable {τ : Type}

/-- `loop` has passed its first test and not yet stored `false` into `quit_`. -/
def resetsQuit : LoopPc τ → Bool
  | .setLooping => true
  | .resetQuit => true
  | _ => false

end LoopPc

namespace Proofs

variable {τ : Type}

/-- `quit_` is true, and the next test of the `while` ends the loop. -/
def QuitHolds (s : LoopState τ) : Prop :=
  s.loop.quit = true ∧ ∀ s', s.pc = .whileTest → (loopMachine τ).next s .advance = some s' →
    s'.pc = .clearLooping

def QuitStays (s : LoopState τ) : Prop := s.loop.quit = true ∧ s.pc.resetsQuit = false

lemma QuitStays.quitHolds {s : LoopState τ} (h : QuitStays s) : QuitHolds s := by
  refine ⟨h.1, ?_⟩
  intro s' hpc hnext
  change s.advance = some s' at hnext
  unfold LoopState.advance at hnext
  rw [hpc] at hnext
  dsimp only at hnext
  rw [h.1, if_pos rfl, Option.some.injEq] at hnext
  rw [← hnext]

theorem quitStays_step {s s' : LoopState τ} {a : LoopStep τ} (h : QuitStays s)
    (hnext : (loopMachine τ).next s a = some s') : QuitStays s' := by
  obtain ⟨hq, hpc'⟩ := h
  cases loop_trans hnext with
  | entryPass hpc hquit =>
    rw [hq] at hquit
    simp at hquit
  | whilePass hpc hquit =>
    rw [hq] at hquit
    simp at hquit
  | setLooping hpc =>
    rw [hpc] at hpc'
    simp [LoopPc.resetsQuit] at hpc'
  | resetQuit hpc =>
    rw [hpc] at hpc'
    simp [LoopPc.resetsQuit] at hpc'
  | queueInLoop f huser hin => exact ⟨hq, hpc'⟩
  | queueInLoopWake hin => exact ⟨(queueInLoopWake_quit s.loop true).trans hq, hpc'⟩
  | quit huser => exact ⟨rfl, hpc'⟩
  | foreignQueueInLoop t f hidle => exact ⟨hq, hpc'⟩
  | foreignQuit t hidle => exact ⟨rfl, hpc'⟩
  | foreignWakeUp t hbusy => exact ⟨(wakeUp_quit s.loop).trans hq, hpc'⟩
  | _ => exact ⟨hq, rfl⟩

/-- From the first test of `loop` on, the store of `false` follows. -/
lemma quit_reset {s : LoopState τ} (h : s.pc.resetsQuit = true) :
    ∃ steps s', (loopMachine τ).run s steps = some s' ∧ s'.loop.quit = false ∧ s'.pc = .whileTest ∧
      s'.foreign = s.foreign ∧ s'.loop.pendingFunctors = s.loop.pendingFunctors ∧ s'.enqueued = s.enqueued := by
  unfold LoopPc.resetsQuit at h
  split at h
  · next hpc =>
    refine ⟨[.advance, .advance], { s with
      loop := { s.loop with looping := true, quit := false }, pc := .whileTest }, ?_, rfl, rfl, rfl, rfl, rfl⟩
    simp [Machine.run, loopMachine, LoopState.advance, hpc]
  · next hpc =>
    refine ⟨[.advance], { s with
      loop := { s.loop with quit := false }, pc := .whileTest }, ?_, rfl, rfl, rfl, rfl, rfl⟩
    simp [Machine.run, loopMachine, LoopState.advance, hpc]
  · simp at h

/-- A store of `quit` by another thread lasts exactly if it does not fall between the first
test of `quit_` in `loop` and the store of `false`. -/
theorem quit_store_lasts_iff (s s' : LoopState τ) (t : Nat)
    (hquit : (loopMachine τ).next s (.foreignQuit t) = some s') :
    (∀ steps u, (loopMachine τ).run s' steps = some u → QuitHolds u) ↔ s.pc.resetsQuit = false := by
  have hpc : s'.pc = s.pc ∧ s'.loop.quit = true := by
    cases loop_trans hquit with
    | foreignQuit t hidle => exact ⟨rfl, rfl⟩
  constructor
  · intro hall
    rw [← Bool.not_eq_true]
    intro hwindow
    rw [← hpc.1] at hwindow
    obtain ⟨steps, u, hrun, hfalse, -⟩ := quit_reset hwindow
    have htrue := (hall steps u hrun).1
    rw [hfalse] at htrue
    simp at htrue
  · intro hwindow steps u hrun
    have hstays : QuitStays s' := by
      refine ⟨hpc.2, ?_⟩
      rw [hpc.1]
      exact hwindow
    exact ((loopMachine τ).invariant (fun _ _ _ => quitStays_step) hstays hrun).quitHolds

/-- The loop has entered `poll`. -/
def untilPoll : List (LoopStep Nat) := [.enterLoop, .advance, .advance, .advance, .advance]

theorem quit_store_lasts_in_poll :
    ∃ s s', (loopMachine Nat).run LoopState.make untilPoll = some s ∧
      (loopMachine Nat).next s (.foreignQuit 0) = some s' ∧
      ∀ steps u, (loopMachine Nat).run s' steps = some u → QuitHolds u := by
  have hend : ((loopMachine Nat).run LoopState.make untilPoll).map
      (fun s => (s.pc, s.foreign 0)) = some (.poll, .idle) := by
    decide +kernel
  obtain ⟨s, hrun, hs⟩ := Option.map_eq_some_iff.mp hend
  obtain ⟨hpc, hidle⟩ := Prod.mk.inj hs
  have hnext : (loopMachine Nat).next s (.foreignQuit 0) =
      some { s.setForeign 0 .quitStored with loop := s.loop.storeQuit } := if_pos hidle
  refine ⟨s, _, hrun, hnext, (quit_store_lasts_iff s _ 0 hnext).mpr ?_⟩
  rw [hpc]
  rfl

/-- Thread 0 stores `quit` between the first test of `loop` and the store of `false`. -/
def quitInEntry : List (LoopStep Nat) := [.enterLoop, .advance, .foreignQuit 0]

theorem quit_store_lost_in_entry :
    ∃ s, (loopMachine Nat).run LoopState.make quitInEntry = some s ∧ s.foreign 0 = .quitStored ∧
      s.loop.quit = true ∧
      ∃ u, (loopMachine Nat).run s [.advance, .advance, .advance, .foreignWakeUp 0] = some u ∧
        u.loop.quit = false ∧ u.pc = .poll ∧ ¬ QuitHolds u := by
  have hend : ((loopMachine Nat).run LoopState.make quitInEntry).map
      (fun s => (s.foreign 0, s.loop.quit,
        ((loopMachine Nat).run s [.advance, .advance, .advance, .foreignWakeUp 0]).map
          (fun u => (u.loop.quit, u.pc)))) = some (.quitStored, true, some (false, .poll)) := by
    decide +kernel
  obtain ⟨s, hrun, hs⟩ := Option.map_eq_some_iff.mp hend
  obtain ⟨hstored, hs⟩ := Prod.mk.inj hs
  obtain ⟨hquit, hs⟩ := Prod.mk.inj hs
  obtain ⟨u, hu, hs⟩ := Option.map_eq_some_iff.mp hs
  obtain ⟨hfalse, hpc⟩ := Prod.mk.inj hs
  refine ⟨s, hrun, hstored, hquit, u, hu, hfalse, hpc, ?_⟩
  intro hholds
  have htrue := hholds.1
  rw [hfalse] at htrue
  simp at htrue

end Proofs

end MylibMuduo
