import MylibMuduo.EventLoop

/-!
# The steps of an event loop

`LoopTrans` lists what each step of the loop thread and of the other threads does, so that the
proofs about runs look at these cases and not at the machine. The first use is the order of the
tasks: the tasks started, the rest of the batch and `pendingFunctors_` are together the tasks
queued, in the order of their critical sections.
-/

namespace MylibMuduo.Proofs

variable {τ : Type}

inductive LoopTrans (s : LoopState τ) : LoopStep τ → LoopState τ → Prop
  | enterLoop (hpc : s.pc = .notEntered ∨ s.pc = .returned) (hin : s.inQueueInLoop = false) :
      LoopTrans s .enterLoop { s with pc := .entryTest }
  | entryQuit (hpc : s.pc = .entryTest) (hquit : s.loop.quit = true) :
      LoopTrans s .advance { s with pc := .returned }
  | entryPass (hpc : s.pc = .entryTest) (hquit : s.loop.quit = false) :
      LoopTrans s .advance { s with pc := .setLooping }
  | setLooping (hpc : s.pc = .setLooping) :
      LoopTrans s .advance { s with loop := { s.loop with looping := true }, pc := .resetQuit }
  | resetQuit (hpc : s.pc = .resetQuit) :
      LoopTrans s .advance { s with loop := { s.loop with quit := false }, pc := .whileTest }
  | whileQuit (hpc : s.pc = .whileTest) (hquit : s.loop.quit = true) :
      LoopTrans s .advance { s with pc := .clearLooping }
  | whilePass (hpc : s.pc = .whileTest) (hquit : s.loop.quit = false) :
      LoopTrans s .advance { s with pc := .poll }
  | pollReturns (active : List ActiveChannel) (hpc : s.pc = .poll) :
      LoopTrans s (.pollReturns active) { s with pc := .dispatch active }
  | handleRead (active : List ActiveChannel) (hpc : s.pc = .dispatch (.wakeup :: active)) :
      LoopTrans s .advance { s with loop := s.loop.handleRead, pc := .dispatch active }
  | callback (active : List ActiveChannel) (hpc : s.pc = .dispatch (.other :: active)) :
      LoopTrans s .advance { s with pc := .callback active }
  | callbackReturns (active : List ActiveChannel) (hpc : s.pc = .callback active)
      (hin : s.inQueueInLoop = false) : LoopTrans s .userReturns { s with pc := .dispatch active }
  | dispatched (hpc : s.pc = .dispatch []) : LoopTrans s .advance { s with pc := .setCalling }
  | setCalling (hpc : s.pc = .setCalling) :
      LoopTrans s .advance
        { s with loop := { s.loop with callingPendingFunctors := true }, pc := .swap }
  | swap (hpc : s.pc = .swap) :
      LoopTrans s .advance
        { s with
          loop := { s.loop with pendingFunctors := [] }
          pc := .running [] s.loop.pendingFunctors }
  | functor (done : List τ) (f : τ) (rest : List τ) (hpc : s.pc = .running done (f :: rest)) :
      LoopTrans s .advance
        { s with pc := .functor (done ++ [f]) rest, started := s.started ++ [f] }
  | functorReturns (done rest : List τ) (hpc : s.pc = .functor done rest)
      (hin : s.inQueueInLoop = false) : LoopTrans s .userReturns { s with pc := .running done rest }
  | clearCalling (done : List τ) (hpc : s.pc = .running done []) :
      LoopTrans s .advance
        { s with loop := { s.loop with callingPendingFunctors := false }, pc := .destroying done }
  | destructorReturns (f : τ) (tasks : List τ) (hpc : s.pc = .destroying (f :: tasks))
      (hin : s.inQueueInLoop = false) : LoopTrans s .userReturns { s with pc := .destroying tasks }
  | destroyed (hpc : s.pc = .destroying []) : LoopTrans s .advance { s with pc := .whileTest }
  | clearLooping (hpc : s.pc = .clearLooping) :
      LoopTrans s .advance { s with loop := { s.loop with looping := false }, pc := .returned }
  | queueInLoop (f : τ) (huser : s.pc.inUserCode = true) (hin : s.inQueueInLoop = false) :
      LoopTrans s (.queueInLoop f)
        { s with loop := s.loop.emplaceBack f, inQueueInLoop := true, enqueued := s.enqueued ++ [f] }
  | queueInLoopWake (hin : s.inQueueInLoop = true) :
      LoopTrans s .queueInLoopWake
        { s with loop := s.loop.queueInLoopWake true, inQueueInLoop := false }
  | quit (huser : s.pc.inUserCode = true) : LoopTrans s .quit { s with loop := s.loop.storeQuit }
  | foreignQueueInLoop (t : Nat) (f : τ) (hidle : s.foreign t = .idle) :
      LoopTrans s (.foreignQueueInLoop t f)
        { s.setForeign t .enqueued with
          loop := s.loop.emplaceBack f
          enqueued := s.enqueued ++ [f] }
  | foreignQuit (t : Nat) (hidle : s.foreign t = .idle) :
      LoopTrans s (.foreignQuit t) { s.setForeign t .quitStored with loop := s.loop.storeQuit }
  | foreignWakeUp (t : Nat) (hbusy : s.foreign t ≠ .idle) :
      LoopTrans s (.foreignWakeUp t) { s.setForeign t .idle with loop := s.loop.wakeUp }

lemma advance_trans {s s' : LoopState τ} (h : s.advance = some s') : LoopTrans s .advance s' := by
  unfold LoopState.advance at h
  split at h
  · next hpc =>
    rw [Option.some.injEq] at h
    subst h
    cases hquit : s.loop.quit with
    | true => exact .entryQuit hpc hquit
    | false => exact .entryPass hpc hquit
  · next hpc => exact Option.some.inj h ▸ .setLooping hpc
  · next hpc => exact Option.some.inj h ▸ .resetQuit hpc
  · next hpc =>
    rw [Option.some.injEq] at h
    subst h
    cases hquit : s.loop.quit with
    | true => exact .whileQuit hpc hquit
    | false => exact .whilePass hpc hquit
  · next active hpc => exact Option.some.inj h ▸ .handleRead active hpc
  · next active hpc => exact Option.some.inj h ▸ .callback active hpc
  · next hpc => exact Option.some.inj h ▸ .dispatched hpc
  · next hpc => exact Option.some.inj h ▸ .setCalling hpc
  · next hpc => exact Option.some.inj h ▸ .swap hpc
  · next done f rest hpc => exact Option.some.inj h ▸ .functor done f rest hpc
  · next done hpc => exact Option.some.inj h ▸ .clearCalling done hpc
  · next hpc => exact Option.some.inj h ▸ .destroyed hpc
  · next hpc => exact Option.some.inj h ▸ .clearLooping hpc
  · simp at h

lemma userReturns_trans {s s' : LoopState τ} (hin : s.inQueueInLoop = false)
    (h : s.userReturns = some s') : LoopTrans s .userReturns s' := by
  unfold LoopState.userReturns at h
  split at h
  · next active hpc => exact Option.some.inj h ▸ .callbackReturns active hpc hin
  · next done rest hpc => exact Option.some.inj h ▸ .functorReturns done rest hpc hin
  · next f tasks hpc => exact Option.some.inj h ▸ .destructorReturns f tasks hpc hin
  · simp at h

/-- Everything that a step can do. -/
theorem loop_trans {s s' : LoopState τ} {a : LoopStep τ}
    (h : (loopMachine τ).next s a = some s') : LoopTrans s a s' := by
  cases a with
  | enterLoop =>
    simp only [loopMachine] at h
    split at h
    · simp at h
    · next hin =>
      rw [Bool.not_eq_true] at hin
      unfold LoopState.enterLoop at h
      split at h
      · next hpc => exact Option.some.inj h ▸ .enterLoop (Or.inl hpc) hin
      · next hpc => exact Option.some.inj h ▸ .enterLoop (Or.inr hpc) hin
      · simp at h
  | advance => exact advance_trans h
  | pollReturns active =>
    simp only [loopMachine, LoopState.pollReturns] at h
    split at h
    · next hpc =>
      split at h
      · exact Option.some.inj h ▸ .pollReturns active hpc
      · simp at h
    · simp at h
  | userReturns =>
    simp only [loopMachine] at h
    split at h
    · simp at h
    · next hin =>
      rw [Bool.not_eq_true] at hin
      exact userReturns_trans hin h
  | queueInLoop f =>
    simp only [loopMachine] at h
    split at h
    · next hguard => exact Option.some.inj h ▸ .queueInLoop f hguard.1 hguard.2
    · simp at h
  | queueInLoopWake =>
    simp only [loopMachine] at h
    split at h
    · next hin => exact Option.some.inj h ▸ .queueInLoopWake hin
    · simp at h
  | quit =>
    simp only [loopMachine] at h
    split at h
    · next hguard => exact Option.some.inj h ▸ .quit hguard.1
    · simp at h
  | foreignQueueInLoop t f =>
    simp only [loopMachine] at h
    split at h
    · next hidle => exact Option.some.inj h ▸ .foreignQueueInLoop t f hidle
    · simp at h
  | foreignQuit t =>
    simp only [loopMachine] at h
    split at h
    · next hidle => exact Option.some.inj h ▸ .foreignQuit t hidle
    · simp at h
  | foreignWakeUp t =>
    simp only [loopMachine] at h
    split at h
    · simp at h
    · next hpc => exact Option.some.inj h ▸ .foreignWakeUp t (by simp [hpc])
    · next hpc => exact Option.some.inj h ▸ .foreignWakeUp t (by simp [hpc])

/-! ### The fields that a wake-up and the critical section leave alone -/

section Fields

variable (l : EventLoop τ)

@[simp] lemma wakeUp_pendingFunctors : l.wakeUp.pendingFunctors = l.pendingFunctors := by
  unfold EventLoop.wakeUp
  split
  · rfl
  · rfl

@[simp] lemma wakeUp_calling : l.wakeUp.callingPendingFunctors = l.callingPendingFunctors := by
  unfold EventLoop.wakeUp
  split
  · rfl
  · rfl

@[simp] lemma wakeUp_quit : l.wakeUp.quit = l.quit := by
  unfold EventLoop.wakeUp
  split
  · rfl
  · rfl

/-- After `wakeUp` the eventfd is readable, also if the write failed. -/
lemma wakeUp_pos : 0 < l.wakeUp.wakeupFd := by
  unfold EventLoop.wakeUp kEventFdMax
  split
  · exact Nat.succ_pos _
  · omega

@[simp] lemma queueInLoopWake_pendingFunctors (b : Bool) :
    (l.queueInLoopWake b).pendingFunctors = l.pendingFunctors := by
  unfold EventLoop.queueInLoopWake
  split
  · exact wakeUp_pendingFunctors l
  · rfl

@[simp] lemma queueInLoopWake_quit (b : Bool) : (l.queueInLoopWake b).quit = l.quit := by
  unfold EventLoop.queueInLoopWake
  split
  · exact wakeUp_quit l
  · rfl

end Fields

/-! ### The order of the tasks -/

/-- The tasks started, the rest of the batch and the queue are the tasks queued, in order. -/
def TasksInOrder (s : LoopState τ) : Prop :=
  s.enqueued = s.started ++ s.pc.rest ++ s.loop.pendingFunctors

lemma rest_of_outside {s : LoopState τ} (hpc : s.pc = .notEntered ∨ s.pc = .returned) :
    s.pc.rest = [] := by
  rcases hpc with hpc | hpc
  · rw [hpc]
    rfl
  · rw [hpc]
    rfl

theorem tasksInOrder_step {s s' : LoopState τ} {a : LoopStep τ} (h : TasksInOrder s)
    (hnext : (loopMachine τ).next s a = some s') : TasksInOrder s' := by
  unfold TasksInOrder at h ⊢
  cases loop_trans hnext with
  | enterLoop hpc hin =>
    rw [rest_of_outside hpc] at h
    exact h
  | queueInLoop f huser hin => simp [h, EventLoop.emplaceBack]
  | queueInLoopWake hin => simp [h]
  | quit huser => exact h
  | foreignQueueInLoop t f hidle => simp [h, EventLoop.emplaceBack, LoopState.setForeign]
  | foreignQuit t hidle => exact h
  | foreignWakeUp t hbusy => simp [h, LoopState.setForeign]
  | _ => simp_all [LoopPc.rest, EventLoop.handleRead]

lemma tasksInOrder_make : TasksInOrder (LoopState.make : LoopState τ) := rfl

lemma tasksInOrder_run {steps : List (LoopStep τ)} {s : LoopState τ}
    (hrun : (loopMachine τ).run LoopState.make steps = some s) : TasksInOrder s :=
  (loopMachine τ).invariant (fun _ _ _ => tasksInOrder_step) tasksInOrder_make hrun

end MylibMuduo.Proofs
