import MylibMuduo.Proofs.LoopSteps

/-!
# Wake-ups

A task in `pendingFunctors_` is covered if the loop is on its way from `poll` to the swap, if
the eventfd is readable, or if a thread that has queued a task is about to write to it. The
eventfd is drained only on the way to the swap, and the loop thread leaves out its write only
there, as long as it queues tasks from channel callbacks and running functors alone.
-/

namespace MylibMuduo

namespace LoopPc

variable {τ : Type}

/-- The swap comes before the next `poll`. -/
def swapsNext : LoopPc τ → Bool
  | .dispatch _ => true
  | .callback _ => true
  | .setCalling => true
  | .swap => true
  | _ => false

/-- `calling_pending_functors_` is set. -/
def isCalling : LoopPc τ → Bool
  | .swap => true
  | .running _ _ => true
  | .functor _ _ => true
  | _ => false

/-- A channel callback or a functor runs. -/
def inCallback : LoopPc τ → Bool
  | .callback _ => true
  | .functor _ _ => true
  | _ => false

end LoopPc

namespace Proofs

variable {τ : Type}

/-- On the loop thread only channel callbacks and running functors queue tasks. -/
def QueuesFromCallbacks (s : LoopState τ) : LoopStep τ → Prop
  | .queueInLoop _ => s.pc.inCallback = true
  | _ => True

instance (s : LoopState τ) (a : LoopStep τ) : Decidable (QueuesFromCallbacks s a) := by
  unfold QueuesFromCallbacks
  split
  · infer_instance
  · infer_instance

def Covered (s : LoopState τ) : Prop :=
  s.pc.swapsNext = true ∨ 0 < s.loop.wakeupFd ∨ (∃ t, s.foreign t = .enqueued) ∨ s.inQueueInLoop = true

structure WakeInv (s : LoopState τ) : Prop where
  calling : s.loop.callingPendingFunctors = s.pc.isCalling
  queueing : s.inQueueInLoop = true → s.pc.inCallback = true
  covered : s.loop.pendingFunctors ≠ [] → Covered s

lemma not_queueing {s : LoopState τ} {p : LoopPc τ} (h : WakeInv s) (hpc : s.pc = p)
    (hp : p.inCallback = false) : s.inQueueInLoop = false := by
  rw [← Bool.not_eq_true]
  intro hin
  have hcallback := h.queueing hin
  rw [hpc, hp] at hcallback
  simp at hcallback

/-- A step of the loop thread from `p` to `p₁` that leaves the tasks and the eventfd alone. -/
lemma wakeInv_move {s : LoopState τ} {l : EventLoop τ} {p p₁ : LoopPc τ} (h : WakeInv s)
    (hpc : s.pc = p) (hin : s.inQueueInLoop = false) (hcalling : l.callingPendingFunctors = p₁.isCalling)
    (hpending : l.pendingFunctors = s.loop.pendingFunctors) (hfd : l.wakeupFd = s.loop.wakeupFd)
    (hswap : p.swapsNext = true → p₁.swapsNext = true) : WakeInv { s with loop := l, pc := p₁ } := by
  refine ⟨hcalling, ?_, ?_⟩
  · intro hqueue
    rw [hin] at hqueue
    simp at hqueue
  · intro hne
    rw [hpending] at hne
    rcases h.covered hne with hc | hc | hc | hc
    · rw [hpc] at hc
      exact Or.inl (hswap hc)
    · rw [← hfd] at hc
      exact Or.inr (Or.inl hc)
    · exact Or.inr (Or.inr (Or.inl hc))
    · exact Or.inr (Or.inr (Or.inr hc))

lemma calling_of_pc {s : LoopState τ} {p p₁ : LoopPc τ} (h : WakeInv s) (hpc : s.pc = p)
    (hsame : p.isCalling = p₁.isCalling) : s.loop.callingPendingFunctors = p₁.isCalling := by
  rw [← hsame, ← hpc]
  exact h.calling

/-- The rest of `queueInLoop` on the loop thread: in a functor it writes to the eventfd, in a
channel callback the swap is still to come. -/
lemma wakeInv_queueInLoopWake {s : LoopState τ} (h : WakeInv s) (hin : s.inQueueInLoop = true) :
    WakeInv { s with loop := s.loop.queueInLoopWake true, inQueueInLoop := false } := by
  have hcallback := h.queueing hin
  cases hcalling : s.loop.callingPendingFunctors with
  | true =>
    have hwake : s.loop.queueInLoopWake true = s.loop.wakeUp := by
      simp [EventLoop.queueInLoopWake, hcalling]
    rw [hwake]
    refine ⟨(wakeUp_calling s.loop).trans h.calling, by simp, ?_⟩
    intro _
    exact Or.inr (Or.inl (wakeUp_pos s.loop))
  | false =>
    have hwake : s.loop.queueInLoopWake true = s.loop := by
      simp [EventLoop.queueInLoopWake, hcalling]
    rw [hwake]
    refine ⟨h.calling, by simp, ?_⟩
    intro _
    left
    rw [h.calling] at hcalling
    unfold LoopPc.inCallback at hcallback
    split at hcallback
    · next active hpc =>
      change s.pc.swapsNext = true
      rw [hpc]
      rfl
    · next done rest hpc =>
      rw [hpc] at hcalling
      simp [LoopPc.isCalling] at hcalling
    · simp at hcallback

theorem wakeInv_step {s s' : LoopState τ} {a : LoopStep τ} (h : WakeInv s)
    (hok : QueuesFromCallbacks s a) (hnext : (loopMachine τ).next s a = some s') : WakeInv s' := by
  cases loop_trans hnext with
  | enterLoop hpc hin =>
    rcases hpc with hpc | hpc
    · exact wakeInv_move h hpc hin (calling_of_pc h hpc rfl) rfl rfl id
    · exact wakeInv_move h hpc hin (calling_of_pc h hpc rfl) rfl rfl id
  | entryQuit hpc hquit | entryPass hpc hquit | whileQuit hpc hquit | whilePass hpc hquit =>
    exact wakeInv_move h hpc (not_queueing h hpc rfl) (calling_of_pc h hpc rfl) rfl rfl id
  | setLooping hpc | resetQuit hpc | dispatched hpc | destroyed hpc | clearLooping hpc =>
    exact wakeInv_move h hpc (not_queueing h hpc rfl) (calling_of_pc h hpc rfl) rfl rfl id
  | pollReturns active hpc =>
    exact wakeInv_move h hpc (not_queueing h hpc rfl) (calling_of_pc h hpc rfl) rfl rfl (fun _ => rfl)
  | handleRead active hpc =>
    have hcalling := h.calling
    rw [hpc] at hcalling
    refine ⟨hcalling, ?_, fun _ => Or.inl rfl⟩
    intro hin
    rw [not_queueing h hpc rfl] at hin
    simp at hin
  | callback active hpc =>
    exact wakeInv_move h hpc (not_queueing h hpc rfl) (calling_of_pc h hpc rfl) rfl rfl id
  | callbackReturns active hpc hin => exact wakeInv_move h hpc hin (calling_of_pc h hpc rfl) rfl rfl id
  | setCalling hpc => exact wakeInv_move h hpc (not_queueing h hpc rfl) rfl rfl rfl id
  | swap hpc =>
    have hcalling := h.calling
    rw [hpc] at hcalling
    refine ⟨hcalling, ?_, fun hne => absurd rfl hne⟩
    intro hin
    rw [not_queueing h hpc rfl] at hin
    simp at hin
  | functor done f rest hpc =>
    have hmove := wakeInv_move h hpc (not_queueing h hpc rfl)
      (show s.loop.callingPendingFunctors = (LoopPc.functor (done ++ [f]) rest).isCalling from
        calling_of_pc h hpc rfl) rfl rfl id
    exact ⟨hmove.calling, hmove.queueing, hmove.covered⟩
  | functorReturns done rest hpc hin => exact wakeInv_move h hpc hin (calling_of_pc h hpc rfl) rfl rfl id
  | clearCalling done hpc => exact wakeInv_move h hpc (not_queueing h hpc rfl) rfl rfl rfl id
  | destructorReturns f tasks hpc hin =>
    exact wakeInv_move h hpc hin (calling_of_pc h hpc rfl) rfl rfl id
  | queueInLoop f huser hin =>
    exact ⟨h.calling, fun _ => hok, fun _ => Or.inr (Or.inr (Or.inr rfl))⟩
  | queueInLoopWake hin => exact wakeInv_queueInLoopWake h hin
  | quit huser => exact ⟨h.calling, h.queueing, h.covered⟩
  | foreignQueueInLoop t f hidle =>
    refine ⟨h.calling, h.queueing, ?_⟩
    intro _
    exact Or.inr (Or.inr (Or.inl ⟨t, by simp [LoopState.setForeign]⟩))
  | foreignQuit t hidle =>
    refine ⟨h.calling, h.queueing, ?_⟩
    intro hne
    rcases h.covered hne with hc | hc | ⟨u, hu⟩ | hc
    · exact Or.inl hc
    · exact Or.inr (Or.inl hc)
    · have hut : u ≠ t := by
        rintro rfl
        rw [hidle] at hu
        simp at hu
      exact Or.inr (Or.inr (Or.inl ⟨u, by simpa [LoopState.setForeign, hut] using hu⟩))
    · exact Or.inr (Or.inr (Or.inr hc))
  | foreignWakeUp t hbusy =>
    refine ⟨(wakeUp_calling s.loop).trans h.calling, h.queueing, ?_⟩
    intro _
    exact Or.inr (Or.inl (wakeUp_pos s.loop))

lemma wakeInv_make : WakeInv (LoopState.make : LoopState τ) :=
  ⟨rfl, fun hin => absurd hin (by simp [LoopState.make]), fun hne => absurd rfl hne⟩

/-- Whenever the loop is in `poll` with tasks in the queue, the eventfd is readable or a thread
that has queued a task has still to call `wakeUp`. -/
theorem poll_is_woken (steps : List (LoopStep τ)) (s : LoopState τ)
    (hok : (loopMachine τ).Meets QueuesFromCallbacks LoopState.make steps)
    (hrun : (loopMachine τ).run LoopState.make steps = some s) (hpoll : s.pc = .poll)
    (hpending : s.loop.pendingFunctors ≠ []) :
    0 < s.loop.wakeupFd ∨ ∃ t, s.foreign t = .enqueued := by
  have h := (loopMachine τ).invariant_of_meets (fun _ _ _ => wakeInv_step) wakeInv_make hok hrun
  rcases h.covered hpending with hc | hc | hc | hc
  · rw [hpoll] at hc
    simp [LoopPc.swapsNext] at hc
  · exact Or.inl hc
  · exact Or.inr hc
  · rw [not_queueing h hpoll rfl] at hc
    simp at hc

/-- A channel callback queues task 1, and task 1 queues task 2; thread 0 queues task 3 before
the loop drains the eventfd, and task 4 after the swap. -/
def wakeupSchedule : List (LoopStep Nat) :=
  [.enterLoop, .advance, .advance, .advance, .advance, .foreignQueueInLoop 0 3, .foreignWakeUp 0,
   .pollReturns [.other, .wakeup], .advance, .queueInLoop 1, .queueInLoopWake, .userReturns,
   .advance, .advance, .advance, .advance, .foreignQueueInLoop 0 4, .advance, .userReturns,
   .advance, .queueInLoop 2, .queueInLoopWake, .userReturns, .advance, .userReturns, .userReturns,
   .advance, .advance]

theorem poll_is_woken_schedule :
    ∃ s, (loopMachine Nat).run LoopState.make wakeupSchedule = some s ∧ s.pc = .poll ∧
      s.loop.pendingFunctors = [4, 2] ∧ (0 < s.loop.wakeupFd ∨ ∃ t, s.foreign t = .enqueued) := by
  have hend : ((loopMachine Nat).run LoopState.make wakeupSchedule).map
      (fun s => (s.pc, s.loop.pendingFunctors)) = some (.poll, [4, 2]) := by
    decide +kernel
  obtain ⟨s, hrun, hs⟩ := Option.map_eq_some_iff.mp hend
  obtain ⟨hpc, hpending⟩ := Prod.mk.inj hs
  have hok : (loopMachine Nat).Meets QueuesFromCallbacks LoopState.make wakeupSchedule := by
    decide +kernel
  exact ⟨s, hrun, hpc, hpending,
    poll_is_woken wakeupSchedule s hok hrun hpc (by simp [hpending])⟩

end Proofs

end MylibMuduo
