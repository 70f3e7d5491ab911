import MylibMuduo.Proofs.Wakeup

/-!
# One call of `doingPendingFunctors`

The batch of a call is what the swap found in the queue. Tasks queued later, by the batch
itself or by other threads, wait in `pendingFunctors_`. The call starts the tasks of the batch
one after the other and ends when the last of them has returned.
-/

namespace MylibMuduo

/-- A step of the loop thread inside `loop`: a statement, or the return of user code. -/
def LoopStep.isControl {τ : Type} : LoopStep τ → Bool
  | .advance => true
  | .userReturns => true
  | _ => false

namespace Proofs

variable {τ : Type}

/-- The steps `steps` lead from the swap at `s₁` to `s`, and the call has not ended before `s`. -/
def InCall (s₁ : LoopState τ) (steps : List (LoopStep τ)) (s : LoopState τ) : Prop :=
  s₁.pc = .swap ∧ ∃ s₂, (loopMachine τ).next s₁ .advance = some s₂ ∧
    (loopMachine τ).Meets (fun u _ => u.pc.isCalling = true) s₂ steps ∧
    (loopMachine τ).run s₂ steps = some s

/-- `done` have been started and `rest` have not; `left` steps of the loop thread remain. -/
def CallAt (done rest : List τ) (left : Nat) (s : LoopState τ) : Prop :=
  (s.pc = .running done rest ∧ left = 2 * rest.length + 1) ∨
    (s.pc = .functor done rest ∧ left = 2 * rest.length + 2) ∨
    (s.pc = .destroying done ∧ rest = [] ∧ left = 0)

/-- The call that took `batch` out after the tasks `before` had been started. -/
def BatchAt (before batch : List τ) (left : Nat) (s : LoopState τ) : Prop :=
  ∃ done rest, done ++ rest = batch ∧ s.started = before ++ done ∧ CallAt done rest left s

/-- Steps of other threads, and the calls that user code makes, leave the call where it is. -/
lemma batchAt_other {before batch : List τ} {left : Nat} {s s' : LoopState τ}
    (h : BatchAt before batch left s) (hpc : s'.pc = s.pc) (hstarted : s'.started = s.started) :
    BatchAt before batch left s' := by
  obtain ⟨done, rest, hbatch, hs, hcall⟩ := h
  refine ⟨done, rest, hbatch, hstarted.trans hs, ?_⟩
  unfold CallAt at hcall ⊢
  rw [hpc]
  exact hcall

/-- A step of the loop thread brings the call one step nearer to its end. -/
lemma batchAt_control {before batch : List τ} {left : Nat} {s s' : LoopState τ} {a : LoopStep τ}
    (h : BatchAt before batch left s) (hcalling : s.pc.isCalling = true) (ha : a.isControl = true)
    (hnext : (loopMachine τ).next s a = some s') :
    ∃ left', left = left' + 1 ∧ BatchAt before batch left' s' := by
  obtain ⟨done, rest, hbatch, hstarted, hcall⟩ := h
  rcases hcall with ⟨hpc, hleft⟩ | ⟨hpc, hleft⟩ | ⟨hpc, -, -⟩
  · cases rest with
    | nil =>
      cases loop_trans hnext with
      | clearCalling done' hpc' =>
        obtain ⟨rfl, -⟩ := LoopPc.running.inj (hpc.symm.trans hpc')
        exact ⟨0, hleft, done, [], hbatch, hstarted, Or.inr (Or.inr ⟨rfl, rfl, rfl⟩)⟩
      | _ => simp_all [LoopStep.isControl]
    | cons f rest =>
      cases loop_trans hnext with
      | functor done' f' rest' hpc' =>
        obtain ⟨rfl, hcons⟩ := LoopPc.running.inj (hpc.symm.trans hpc')
        obtain ⟨rfl, rfl⟩ := List.cons.inj hcons
        rw [List.length_cons] at hleft
        refine ⟨2 * rest.length + 2, by omega, done ++ [f], rest, ?_, ?_, Or.inr (Or.inl ⟨rfl, rfl⟩)⟩
        · rw [← hbatch, List.append_assoc, List.singleton_append]
        · change s.started ++ [f] = before ++ (done ++ [f])
          rw [hstarted, List.append_assoc]
      | _ => simp_all [LoopStep.isControl]
  · cases loop_trans hnext with
    | functorReturns done' rest' hpc' hin =>
      obtain ⟨rfl, rfl⟩ := LoopPc.functor.inj (hpc.symm.trans hpc')
      exact ⟨2 * rest.length + 1, hleft, done, rest, hbatch, hstarted, Or.inl ⟨rfl, rfl⟩⟩
    | _ => simp_all [LoopStep.isControl]
  · rw [hpc] at hcalling
    simp [LoopPc.isCalling] at hcalling

lemma batchAt_step {before batch : List τ} {left : Nat} {s s' : LoopState τ} {a : LoopStep τ}
    (h : BatchAt before batch left s) (hcalling : s.pc.isCalling = true)
    (hnext : (loopMachine τ).next s a = some s') :
    ∃ left', left = left' + (if a.isControl then 1 else 0) ∧ BatchAt before batch left' s' := by
  cases ha : a.isControl with
  | true => exact batchAt_control h hcalling ha hnext
  | false =>
    refine ⟨left, rfl, ?_⟩
    cases loop_trans hnext with
    | queueInLoop f huser hin => exact batchAt_other h rfl rfl
    | queueInLoopWake hin => exact batchAt_other h rfl rfl
    | quit huser => exact batchAt_other h rfl rfl
    | foreignQueueInLoop t f hidle => exact batchAt_other h rfl rfl
    | foreignQuit t hidle => exact batchAt_other h rfl rfl
    | foreignWakeUp t hbusy => exact batchAt_other h rfl rfl
    | enterLoop hpc hin =>
      rcases hpc with hpc | hpc
      · simp [hpc, LoopPc.isCalling] at hcalling
      · simp [hpc, LoopPc.isCalling] at hcalling
    | pollReturns active hpc => simp [hpc, LoopPc.isCalling] at hcalling
    | _ => simp [LoopStep.isControl] at ha

lemma batchAt_run {before batch : List τ} {left : Nat} {s u : LoopState τ} {steps : List (LoopStep τ)}
    (h : BatchAt before batch left s)
    (hcall : (loopMachine τ).Meets (fun u _ => u.pc.isCalling = true) s steps)
    (hrun : (loopMachine τ).run s steps = some u) :
    ∃ left', left = left' + steps.countP LoopStep.isControl ∧ BatchAt before batch left' u := by
  induction steps generalizing s left with
  | nil =>
    rw [Machine.run, Option.some.injEq] at hrun
    exact ⟨left, rfl, hrun ▸ h⟩
  | cons a steps ih =>
    obtain ⟨s', hnext, hrest⟩ := ((loopMachine τ).run_cons_eq_some s u a steps).mp hrun
    obtain ⟨left', hleft, hs'⟩ := batchAt_step h hcall.1 hnext
    obtain ⟨left'', hleft', hu⟩ := ih hs' (hcall.2 s' hnext) hrest
    refine ⟨left'', ?_, hu⟩
    rw [hleft, hleft', List.countP_cons, Nat.add_assoc]

/-- In every state the tasks started, the rest of the batch and `pendingFunctors_` are the tasks
queued, in the order of their critical sections. A call of `doingPendingFunctors` starts the
tasks that its swap found and no other, and it ends after two steps of the loop thread for each
of them and one more, when all of them and hence all tasks queued before the swap have run. -/
theorem tasks_run_once_in_order (steps₁ : List (LoopStep τ)) (s₁ : LoopState τ)
    (hrun : (loopMachine τ).run LoopState.make steps₁ = some s₁) :
    s₁.enqueued = s₁.started ++ s₁.pc.rest ++ s₁.loop.pendingFunctors ∧
      ∀ steps s, InCall s₁ steps s → ∃ left,
        2 * s₁.loop.pendingFunctors.length + 1 = left + steps.countP LoopStep.isControl ∧
        BatchAt s₁.started s₁.loop.pendingFunctors left s ∧
        (left = 0 → s.started = s₁.enqueued) := by
  have horder := tasksInOrder_run hrun
  refine ⟨horder, ?_⟩
  rintro steps s ⟨hpc, s₂, hnext, hcall, hrun₂⟩
  have hswap : BatchAt s₁.started s₁.loop.pendingFunctors (2 * s₁.loop.pendingFunctors.length + 1) s₂ := by
    cases loop_trans hnext with
    | swap hpc' => exact ⟨[], _, rfl, (List.append_nil _).symm, Or.inl ⟨rfl, rfl⟩⟩
    | _ => simp_all
  obtain ⟨left, hleft, hs⟩ := batchAt_run hswap hcall hrun₂
  refine ⟨left, hleft, hs, ?_⟩
  intro hzero
  obtain ⟨done, rest, hbatch, hstarted, hat⟩ := hs
  unfold TasksInOrder at horder
  rw [hpc] at horder
  have hrest : rest = [] := by
    rcases hat with ⟨-, h⟩ | ⟨-, h⟩ | ⟨-, h, -⟩
    · omega
    · omega
    · exact h
  rw [hrest, List.append_nil] at hbatch
  rw [hstarted, hbatch, horder]
  simp [LoopPc.rest]

/-- Thread 0 queues task 3 before the swap. -/
def untilSwap : List (LoopStep Nat) :=
  [.enterLoop, .advance, .advance, .advance, .advance, .foreignQueueInLoop 0 3, .foreignWakeUp 0,
   .pollReturns [], .advance, .advance]

/-- Task 3 queues task 5 while it runs. -/
def sampleCall : List (LoopStep Nat) :=
  [.advance, .queueInLoop 5, .queueInLoopWake, .userReturns, .advance]

theorem tasks_run_once_in_order_call :
    ∃ s₁ s, (loopMachine Nat).run LoopState.make untilSwap = some s₁ ∧ InCall s₁ sampleCall s ∧
      s₁.enqueued = [3] ∧ s.started = s₁.enqueued ∧ s.loop.pendingFunctors = [5] := by
  have hend : (((loopMachine Nat).run LoopState.make untilSwap).bind fun s₁ =>
      ((loopMachine Nat).next s₁ .advance).bind fun s₂ =>
        ((loopMachine Nat).run s₂ sampleCall).map fun s =>
          (s₁.pc, s₁.loop.pendingFunctors, s₁.enqueued, s.loop.pendingFunctors,
            decide ((loopMachine Nat).Meets (fun u _ => u.pc.isCalling = true) s₂ sampleCall))) =
      some (.swap, [3], [3], [5], true) := by
    decide +kernel
  obtain ⟨s₁, hrun, hend⟩ := Option.bind_eq_some_iff.mp hend
  obtain ⟨s₂, hnext, hend⟩ := Option.bind_eq_some_iff.mp hend
  obtain ⟨s, hrun₂, hend⟩ := Option.map_eq_some_iff.mp hend
  simp only [Prod.mk.injEq, decide_eq_true_eq] at hend
  obtain ⟨hpc, hfound, henqueued, hpending, hcall⟩ := hend
  have hin : InCall s₁ sampleCall s := ⟨hpc, s₂, hnext, hcall, hrun₂⟩
  obtain ⟨left, hleft, -, hall⟩ := (tasks_run_once_in_order untilSwap s₁ hrun).2 sampleCall s hin
  have hzero : left = 0 := by
    have hcount : sampleCall.countP LoopStep.isControl = 3 := by decide
    rw [hfound, hcount] at hleft
    simpa using hleft
  exact ⟨s₁, s, hrun, hin, henqueued, hall hzero, hpending⟩

end Proofs

end MylibMuduo
