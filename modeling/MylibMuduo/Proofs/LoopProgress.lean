import MylibMuduo.Lib.Progress
import MylibMuduo.Proofs.Quit
import MylibMuduo.Proofs.Wakeup

/-!
# Progress of an event loop

The loop thread starts every queued task, and it returns after a `quit`, within a number of its own
steps that can be read off the state. `poll` reports at most `kEpollEventListSize` channels at a time,
as `event_list_` is never enlarged. User code is counted only by its return.
-/

namespace MylibMuduo

/-- `EPollPoller::kEpollEventListSize`. -/
def kEpollEventListSize : Nat := 16

namespace LoopStep

variable {τ : Type}

/-- A step of the loop thread inside `loop`. -/
def ofLoop : LoopStep τ → Bool
  | .advance => true
  | .pollReturns _ => true
  | .userReturns => true
  | _ => false

/-- The step puts a task into the queue. -/
def enqueues : LoopStep τ → Bool
  | .queueInLoop _ => true
  | .foreignQueueInLoop _ _ => true
  | _ => false

end LoopStep

namespace Proofs

variable {τ : Type}

/-- `poll` fills `event_list_` at most. -/
def pollFits (_ : LoopState τ) : LoopStep τ → Prop
  | .pollReturns active => active.length ≤ kEpollEventListSize
  | _ => True

instance (s : LoopState τ) : (a : LoopStep τ) → Decidable (pollFits s a)
  | .pollReturns active => inferInstanceAs (Decidable (active.length ≤ kEpollEventListSize))
  | .enterLoop | .advance | .userReturns | .queueInLoop _ | .queueInLoopWake | .quit => isTrue trivial
  | .foreignQueueInLoop _ _ | .foreignQuit _ | .foreignWakeUp _ => isTrue trivial

/-! ### Tasks -/

/-- The steps of the loop thread in front of the next swap, with a full `event_list_` in each `poll`. -/
def stepsToSwap : LoopPc τ → Nat
  | .swap => 0
  | .setCalling => 1
  | .dispatch active => 2 * active.length + 2
  | .callback active => 2 * active.length + 3
  | .poll => 2 * kEpollEventListSize + 3
  | .whileTest => 2 * kEpollEventListSize + 4
  | .destroying tasks => tasks.length + 2 * kEpollEventListSize + 5
  | .running done rest => done.length + 3 * rest.length + 2 * kEpollEventListSize + 6
  | .functor done rest => done.length + 3 * rest.length + 2 * kEpollEventListSize + 7
  | .resetQuit => 2 * kEpollEventListSize + 5
  | .setLooping => 2 * kEpollEventListSize + 6
  | .entryTest => 2 * kEpollEventListSize + 7
  | .notEntered => 2 * kEpollEventListSize + 7
  | .clearLooping => 1
  | .returned => 0

/-- A functor runs. -/
def inFunctor : LoopPc τ → Bool
  | .functor _ _ => true
  | _ => false

/-- The steps of the loop thread until it starts the task that was queued after `k` others: the task
is in the rest of the batch, or in `pendingFunctors_` behind the next swap. -/
def stepsToStart (k : Nat) (s : LoopState τ) : Nat :=
  if k < s.started.length + s.pc.rest.length then
    2 * (k - s.started.length) + 1 + if inFunctor s.pc then 1 else 0
  else stepsToSwap s.pc + 2 * (k - s.started.length - s.pc.rest.length) + 2

/-- The task has been started, or `loop` has returned. -/
def StartedOrReturned (k : Nat) (s : LoopState τ) : Prop := k < s.started.length ∨ s.pc = .returned

/-- Outside of a batch the task waits for the next swap. -/
lemma stepsToStart_eq {k : Nat} {s : LoopState τ} (hk : ¬k < s.started.length) (hrest : s.pc.rest = []) :
    stepsToStart k s = stepsToSwap s.pc + 2 * (k - s.started.length) + 2 := by
  unfold stepsToStart
  rw [hrest, List.length_nil, Nat.add_zero, Nat.sub_zero, if_neg hk]

/-- A step that starts no task, from a point with no rest of a batch to another. -/
lemma stepsToStart_move {k : Nat} {s s' : LoopState τ} (hgoal : ¬StartedOrReturned k s)
    (hstarted : s'.started = s.started) (hrest : s.pc.rest = []) (hrest' : s'.pc.rest = [])
    (hsteps : stepsToSwap s'.pc + 1 ≤ stepsToSwap s.pc) : stepsToStart k s' + 1 ≤ stepsToStart k s := by
  have hk : ¬k < s.started.length := fun h => hgoal (Or.inl h)
  rw [stepsToStart_eq hk hrest, stepsToStart_eq (by rw [hstarted]; exact hk) hrest', hstarted]
  omega

/-- A step of the loop thread brings the task nearer. -/
lemma stepsToStart_control {k : Nat} {s s' : LoopState τ} {a : LoopStep τ} (horder : TasksInOrder s)
    (hk : k < s.enqueued.length) (hgoal : ¬StartedOrReturned k s) (hfits : pollFits s a)
    (ha : a.ofLoop = true) (htrans : LoopTrans s a s') :
    StartedOrReturned k s' ∨ stepsToStart k s' + 1 ≤ stepsToStart k s := by
  have hn : ¬k < s.started.length := fun h => hgoal (Or.inl h)
  have hmove (hstarted : s'.started = s.started) (hrest : s.pc.rest = []) (hrest' : s'.pc.rest = [])
      (hsteps : stepsToSwap s'.pc + 1 ≤ stepsToSwap s.pc) :
      StartedOrReturned k s' ∨ stepsToStart k s' + 1 ≤ stepsToStart k s :=
    Or.inr (stepsToStart_move hgoal hstarted hrest hrest' hsteps)
  cases htrans with
  | entryQuit hpc hquit => exact Or.inl (Or.inr rfl)
  | clearLooping hpc => exact Or.inl (Or.inr rfl)
  | entryPass hpc hquit | whileQuit hpc hquit | whilePass hpc hquit =>
    refine hmove rfl (by rw [hpc]; rfl) rfl ?_
    rw [hpc]
    simp [stepsToSwap]
  | setLooping hpc | resetQuit hpc | dispatched hpc | setCalling hpc | destroyed hpc =>
    refine hmove rfl (by rw [hpc]; rfl) rfl ?_
    rw [hpc]
    simp [stepsToSwap]
  | pollReturns active hpc =>
    have hactive : active.length ≤ kEpollEventListSize := hfits
    refine hmove rfl (by rw [hpc]; rfl) rfl ?_
    rw [hpc]
    simp only [stepsToSwap]
    omega
  | handleRead active hpc | callback active hpc =>
    refine hmove rfl (by rw [hpc]; rfl) rfl ?_
    rw [hpc]
    simp only [stepsToSwap, List.length_cons]
    omega
  | callbackReturns active hpc hin =>
    refine hmove rfl (by rw [hpc]; rfl) rfl ?_
    rw [hpc]
    simp [stepsToSwap]
  | destructorReturns f tasks hpc hin =>
    refine hmove rfl (by rw [hpc]; rfl) rfl ?_
    rw [hpc]
    simp only [stepsToSwap, List.length_cons]
    omega
  | swap hpc =>
    unfold TasksInOrder at horder
    rw [hpc] at horder
    have hlength := congrArg List.length horder
    simp only [LoopPc.rest, List.append_nil, List.length_append] at hlength
    have hin : k < s.started.length + s.loop.pendingFunctors.length := by omega
    right
    simp only [stepsToStart, hpc, LoopPc.rest, inFunctor, stepsToSwap, List.length_nil, Nat.add_zero,
      Nat.sub_zero, if_pos hin, if_neg hn, Bool.false_eq_true, if_false]
    omega
  | functor done f rest hpc =>
    by_cases hfirst : k = s.started.length
    · refine Or.inl (Or.inl ?_)
      simp [hfirst]
    right
    simp only [stepsToStart, hpc, LoopPc.rest, inFunctor, stepsToSwap, List.length_append, List.length_cons,
      List.length_nil, if_true, Bool.false_eq_true, if_false]
    split
    · rw [if_pos (by omega)]
      omega
    · rw [if_neg (by omega)]
      omega
  | functorReturns done rest hpc hin =>
    right
    simp only [stepsToStart, hpc, LoopPc.rest, inFunctor, stepsToSwap, if_true, Bool.false_eq_true, if_false]
    split
    · omega
    · omega
  | clearCalling done hpc =>
    refine hmove rfl (by rw [hpc]; rfl) rfl ?_
    rw [hpc]
    simp only [stepsToSwap, List.length_nil]
    omega
  | _ => cases ha

/-- The steps of other threads, and the calls that user code makes, leave the task where it is. -/
lemma stepsToStart_other {k : Nat} {s s' : LoopState τ} {a : LoopStep τ} (hgoal : ¬StartedOrReturned k s)
    (ha : a.ofLoop = false) (htrans : LoopTrans s a s') : stepsToStart k s' ≤ stepsToStart k s := by
  cases htrans with
  | enterLoop hpc hin =>
    rcases hpc with hpc | hpc
    · have hk : ¬k < s.started.length := fun h => hgoal (Or.inl h)
      have hentered : stepsToStart k { s with pc := .entryTest } = _ := stepsToStart_eq hk rfl
      rw [hentered, stepsToStart_eq hk (by rw [hpc]; rfl), hpc]
      exact Nat.le_refl _
    · exact absurd (Or.inr hpc) hgoal
  | queueInLoop f huser hin => exact Nat.le_refl _
  | queueInLoopWake hin => exact Nat.le_refl _
  | quit huser => exact Nat.le_refl _
  | foreignQueueInLoop t f hidle => exact Nat.le_refl _
  | foreignQuit t hidle => exact Nat.le_refl _
  | foreignWakeUp t hbusy => exact Nat.le_refl _
  | _ => cases ha

/-- Tasks are never taken out of the history of the queue. -/
lemma enqueued_length_step {s s' : LoopState τ} {a : LoopStep τ} (htrans : LoopTrans s a s') :
    s.enqueued.length ≤ s'.enqueued.length := by
  cases htrans with
  | queueInLoop f huser hin => simp
  | foreignQueueInLoop t f hidle => simp
  | _ => exact Nat.le_refl _

/-- While the task waits and the loop polls, the task is in `pendingFunctors_`. -/
lemma pending_of_poll {k : Nat} {s : LoopState τ} (horder : TasksInOrder s) (hk : k < s.enqueued.length)
    (hpoll : s.pc = .poll) (hwait : s.started.length ≤ k) : s.loop.pendingFunctors ≠ [] := by
  intro hnil
  unfold TasksInOrder at horder
  rw [hpoll, hnil] at horder
  have hlength := congrArg List.length horder
  simp only [LoopPc.rest, List.append_nil] at hlength
  omega

lemma stepsToStart_pos (k : Nat) (s : LoopState τ) : 0 < stepsToStart k s := by
  unfold stepsToStart
  split
  · omega
  · omega

/-- A task in the queue of a loop is started, or `loop` returns, by the time the loop thread has made
`stepsToStart` steps; and if the loop thread queues tasks in callbacks only, every `poll` is woken as
long as the task waits. -/
theorem queued_task_is_started (before steps : List (LoopStep τ)) (s u : LoopState τ) (k : Nat)
    (hrun : (loopMachine τ).run LoopState.make before = some s) (hk : k < s.enqueued.length)
    (hfits : (loopMachine τ).Meets pollFits s steps) (hmore : (loopMachine τ).run s steps = some u) :
    (stepsToStart k s ≤ steps.countP LoopStep.ofLoop →
      (loopMachine τ).Reaches (StartedOrReturned k) s steps) ∧
    ((loopMachine τ).Meets QueuesFromCallbacks LoopState.make (before ++ steps) → u.pc = .poll →
      u.started.length ≤ k → 0 < u.loop.wakeupFd ∨ ∃ t, u.foreign t = .enqueued) := by
  have horder := tasksInOrder_run hrun
  constructor
  · intro hcount
    refine (loopMachine τ).reaches_of_le_countP (I := fun v => TasksInOrder v ∧ k < v.enqueued.length)
      LoopStep.ofLoop (fun _ => 0) (stepsToStart k) ?_ (fun v _ _ => stepsToStart_pos k v) ⟨horder, hk⟩ hfits hmore
      (by rw [Machine.sum_map_zero]; exact hcount)
    rintro v a v' ⟨hv, hkv⟩ hgoal hfit hnext
    have htrans := loop_trans hnext
    refine ⟨⟨tasksInOrder_step hv hnext, Nat.lt_of_lt_of_le hkv (enqueued_length_step htrans)⟩, ?_⟩
    cases ha : a.ofLoop with
    | true => simpa using stepsToStart_control hv hkv hgoal hfit ha htrans
    | false => exact Or.inr (by simpa using stepsToStart_other hgoal ha htrans)
  · intro hcallbacks hpoll hwait
    have hwhole : (loopMachine τ).run LoopState.make (before ++ steps) = some u :=
      ((loopMachine τ).run_append_eq_some _ _ _ _).mpr ⟨s, hrun, hmore⟩
    have hwake := (loopMachine τ).invariant_of_meets (fun _ _ _ => wakeInv_step) wakeInv_make hcallbacks hwhole
    have hku : k < u.enqueued.length := Nat.lt_of_lt_of_le hk
      ((loopMachine τ).invariant (I := fun v => s.enqueued.length ≤ v.enqueued.length)
        (fun _ _ _ hv hnext => Nat.le_trans hv (enqueued_length_step (loop_trans hnext)))
        (Nat.le_refl _) hmore)
    rcases hwake.covered (pending_of_poll (tasksInOrder_run hwhole) hku hpoll hwait) with hc | hc | hc | hc
    · rw [hpoll] at hc
      cases hc
    · exact Or.inl hc
    · exact Or.inr hc
    · rw [not_queueing hwake hpoll rfl] at hc
      cases hc

/-- The callbacks of a full `event_list_`. -/
def fullDispatch : List (LoopStep Nat) :=
  .pollReturns (List.replicate 16 .other) :: (List.replicate 16 [.advance, .userReturns]).flatten

/-- The loop is in `poll` when thread 0 queues task 7; a full `event_list_` comes first. -/
def untilStarted : List (LoopStep Nat) := .foreignWakeUp 0 :: fullDispatch ++ [.advance, .advance, .advance, .advance]

theorem queued_task_is_started_last_step :
    ∃ s u, (loopMachine Nat).run LoopState.make (untilPoll ++ [.foreignQueueInLoop 0 7]) = some s ∧
      (loopMachine Nat).run s untilStarted = some u ∧ u.started = [7] ∧
      stepsToStart 0 s = untilStarted.countP LoopStep.ofLoop ∧
      (loopMachine Nat).Reaches (StartedOrReturned 0) s untilStarted ∧
      (0 < s.loop.wakeupFd ∨ ∃ t, s.foreign t = .enqueued) := by
  have hend : ((loopMachine Nat).run LoopState.make (untilPoll ++ [.foreignQueueInLoop 0 7])).bind (fun s =>
      ((loopMachine Nat).run s untilStarted).map fun u => (s.enqueued, u.started,
        decide (stepsToStart 0 s = untilStarted.countP LoopStep.ofLoop),
        decide ((loopMachine Nat).Meets pollFits s untilStarted))) = some ([7], [7], true, true) := by
    decide +kernel
  have hwait : ((loopMachine Nat).run LoopState.make (untilPoll ++ [.foreignQueueInLoop 0 7])).map (fun s =>
      (s.pc, s.started)) = some (.poll, []) := by
    decide +kernel
  have hcallbacks : (loopMachine Nat).Meets QueuesFromCallbacks LoopState.make
      ((untilPoll ++ [.foreignQueueInLoop 0 7]) ++ []) := by
    decide +kernel
  obtain ⟨s, hrun, hend⟩ := Option.bind_eq_some_iff.mp hend
  obtain ⟨u, hmore, hend⟩ := Option.map_eq_some_iff.mp hend
  rw [hrun, Option.map_some, Option.some.injEq, Prod.mk.injEq] at hwait
  simp only [Prod.mk.injEq, decide_eq_true_eq] at hend
  obtain ⟨henqueued, hstarted, hcount, hfits⟩ := hend
  have hk : 0 < s.enqueued.length := by simp [henqueued]
  have hreach := (queued_task_is_started _ untilStarted s u 0 hrun hk hfits hmore).1
  have hwoken := (queued_task_is_started _ [] s s 0 hrun hk trivial rfl).2 hcallbacks hwait.1
  exact ⟨s, u, hrun, hmore, hstarted, hcount, hreach (Nat.le_of_eq hcount), hwoken (by simp [hwait.2])⟩

/-! ### The end of the loop -/

/-- The steps of the loop thread until `loop` returns, once `quit_` is set for good: it finishes the
iteration, with the `pending` tasks that are in the queue. -/
def returnSteps (pending : Nat) : LoopPc τ → Nat
  | .clearLooping => 1
  | .whileTest => 2
  | .destroying tasks => tasks.length + 3
  | .running done rest => done.length + 3 * rest.length + 4
  | .functor done rest => done.length + 3 * rest.length + 5
  | .swap => 3 * pending + 5
  | .setCalling => 3 * pending + 6
  | .dispatch active => 2 * active.length + 3 * pending + 7
  | .callback active => 2 * active.length + 3 * pending + 8
  | .poll => 2 * kEpollEventListSize + 3 * pending + 8
  | .returned => 0
  | _ => 1

def stepsToReturn (s : LoopState τ) : Nat := returnSteps s.loop.pendingFunctors.length s.pc

lemma returnSteps_succ (pending : Nat) (p : LoopPc τ) : returnSteps (pending + 1) p ≤ returnSteps pending p + 3 := by
  cases p <;> simp only [returnSteps] <;> omega

/-- A task that comes into the queue is started and destroyed by the loop thread. -/
def taskSteps (a : LoopStep τ) : Nat := if a.enqueues then 3 else 0

lemma sum_taskSteps (steps : List (LoopStep τ)) : (steps.map taskSteps).sum = 3 * steps.countP LoopStep.enqueues :=
  Machine.sum_map_ite LoopStep.enqueues 3 steps

lemma stepsToReturn_pos {s : LoopState τ} (h : s.pc ≠ .returned) : 0 < stepsToReturn s := by
  unfold stepsToReturn
  cases hpc : s.pc <;> simp_all [returnSteps]

lemma stepsToReturn_step {s s' : LoopState τ} {a : LoopStep τ} (hquit : QuitStays s) (hfits : pollFits s a)
    (henter : a = .enterLoop → s.pc ≠ .returned) (htrans : LoopTrans s a s') :
    stepsToReturn s' + (if a.ofLoop then 1 else 0) ≤ stepsToReturn s + taskSteps a := by
  obtain ⟨hset, hwindow⟩ := hquit
  cases htrans with
  | enterLoop hpc hin =>
    rcases hpc with hpc | hpc
    · simp [stepsToReturn, returnSteps, hpc, LoopStep.ofLoop]
    · exact absurd hpc (henter rfl)
  | entryPass hpc hclear | whilePass hpc hclear =>
    rw [hset] at hclear
    cases hclear
  | setLooping hpc | resetQuit hpc =>
    rw [hpc] at hwindow
    cases hwindow
  | pollReturns active hpc =>
    have hactive : active.length ≤ kEpollEventListSize := hfits
    simp only [stepsToReturn, returnSteps, hpc, LoopStep.ofLoop, if_true]
    omega
  | queueInLoop f huser hin | foreignQueueInLoop t f hidle =>
    have hone := returnSteps_succ s.loop.pendingFunctors.length s.pc
    simpa [stepsToReturn, LoopState.setForeign, EventLoop.emplaceBack, taskSteps, LoopStep.ofLoop, LoopStep.enqueues] using hone
  | queueInLoopWake hin | foreignWakeUp t hbusy => simp [stepsToReturn, LoopState.setForeign, LoopStep.ofLoop]
  | quit huser | foreignQuit t hidle => simp [stepsToReturn, LoopState.setForeign, LoopStep.ofLoop, EventLoop.storeQuit]
  | _ =>
    simp only [stepsToReturn, returnSteps, *, LoopStep.ofLoop, if_true, EventLoop.handleRead, List.length_cons,
      List.length_nil, List.length_append]
    omega

/-- `quit_` is set for good, and a loop in `poll` is or will be woken. -/
structure QuitSeen (s : LoopState τ) : Prop where
  stays : QuitStays s
  woken : s.pc = .poll → 0 < s.loop.wakeupFd ∨ ∃ t, s.foreign t ≠ .idle

lemma wakeUp_wakeupFd (l : EventLoop τ) : l.wakeupFd ≤ l.wakeUp.wakeupFd := by
  unfold EventLoop.wakeUp
  split
  · exact Nat.le_succ _
  · exact Nat.le_refl _

lemma queueInLoopWake_wakeupFd (l : EventLoop τ) (b : Bool) : l.wakeupFd ≤ (l.queueInLoopWake b).wakeupFd := by
  unfold EventLoop.queueInLoopWake
  split
  · exact wakeUp_wakeupFd l
  · exact Nat.le_refl _

theorem quitSeen_step {s s' : LoopState τ} {a : LoopStep τ} (h : QuitSeen s)
    (hnext : (loopMachine τ).next s a = some s') : QuitSeen s' := by
  refine ⟨quitStays_step h.stays hnext, ?_⟩
  obtain ⟨hset, -⟩ := h.stays
  cases loop_trans hnext with
  | whilePass hpc hclear =>
    rw [hset] at hclear
    cases hclear
  | queueInLoop f huser hin => exact h.woken
  | queueInLoopWake hin =>
    intro hpc
    exact (h.woken hpc).imp_left fun hpos => Nat.lt_of_lt_of_le hpos (queueInLoopWake_wakeupFd s.loop true)
  | quit huser => exact h.woken
  | foreignQueueInLoop t f hidle => exact fun _ => Or.inr ⟨t, by simp [LoopState.setForeign]⟩
  | foreignQuit t hidle => exact fun _ => Or.inr ⟨t, by simp [LoopState.setForeign]⟩
  | foreignWakeUp t hbusy => exact fun _ => Or.inl (wakeUp_pos s.loop)
  | _ =>
    intro hpc
    cases hpc

/-- Within its bound of steps a loop for which `quit_` is set for good returns. -/
lemma returns_of_quitStays {s u : LoopState τ} {steps : List (LoopStep τ)} (hquit : QuitStays s)
    (hfits : (loopMachine τ).Meets pollFits s steps) (hrun : (loopMachine τ).run s steps = some u)
    (hcount : stepsToReturn s + 3 * steps.countP LoopStep.enqueues ≤ steps.countP LoopStep.ofLoop) :
    (loopMachine τ).Reaches (fun v => v.pc = .returned) s steps := by
  refine (loopMachine τ).reaches_of_le_countP (I := QuitStays) LoopStep.ofLoop taskSteps stepsToReturn ?_
    (fun v _ => stepsToReturn_pos) hquit hfits hrun (by rw [sum_taskSteps]; exact hcount)
  intro v a v' hv hgoal hfit hnext
  exact ⟨quitStays_step hv hnext, Or.inr (stepsToReturn_step hv hfit (fun _ => hgoal) (loop_trans hnext))⟩

/-- After a `quit` of another thread that `loop` does not overwrite, `loop` returns by the time the
loop thread has made `stepsToReturn` steps and three for each task queued since; and until then every
`poll` is woken. -/
theorem quit_ends_loop (s s' u : LoopState τ) (t : Nat) (steps : List (LoopStep τ))
    (hquit : (loopMachine τ).next s (.foreignQuit t) = some s') (hwindow : s.pc.resetsQuit = false)
    (hfits : (loopMachine τ).Meets pollFits s' steps) (hrun : (loopMachine τ).run s' steps = some u) :
    (stepsToReturn s' + 3 * steps.countP LoopStep.enqueues ≤ steps.countP LoopStep.ofLoop →
      (loopMachine τ).Reaches (fun v => v.pc = .returned) s' steps) ∧
    (u.pc = .poll → 0 < u.loop.wakeupFd ∨ ∃ t, u.foreign t ≠ .idle) := by
  have hseen : QuitSeen s' := by
    cases loop_trans hquit with
    | foreignQuit t hidle =>
      exact ⟨⟨rfl, hwindow⟩, fun _ => Or.inr ⟨t, by simp [LoopState.setForeign]⟩⟩
  constructor
  · exact returns_of_quitStays hseen.stays hfits hrun
  · exact ((loopMachine τ).invariant (fun _ _ _ => quitSeen_step) hseen hrun).woken

/-- Thread 0 calls `quit` while the loop is in `poll`, and a full `event_list_` comes first. -/
def untilReturn : List (LoopStep Nat) := .foreignWakeUp 0 :: fullDispatch ++ List.replicate 7 .advance

theorem quit_ends_loop_last_step :
    ∃ s s' u, (loopMachine Nat).run LoopState.make untilPoll = some s ∧
      (loopMachine Nat).next s (.foreignQuit 0) = some s' ∧ (loopMachine Nat).run s' untilReturn = some u ∧
      stepsToReturn s' = untilReturn.countP LoopStep.ofLoop ∧
      (loopMachine Nat).Reaches (fun v => v.pc = .returned) s' untilReturn := by
  have hend : ((loopMachine Nat).run LoopState.make untilPoll).bind (fun s =>
      ((loopMachine Nat).next s (.foreignQuit 0)).bind fun s' => ((loopMachine Nat).run s' untilReturn).map fun _ =>
        (s.pc.resetsQuit, decide (stepsToReturn s' = untilReturn.countP LoopStep.ofLoop),
          untilReturn.countP LoopStep.enqueues, decide ((loopMachine Nat).Meets pollFits s' untilReturn))) =
      some (false, true, 0, true) := by
    decide +kernel
  obtain ⟨s, hrun, hend⟩ := Option.bind_eq_some_iff.mp hend
  obtain ⟨s', hquit, hend⟩ := Option.bind_eq_some_iff.mp hend
  obtain ⟨u, hmore, hend⟩ := Option.map_eq_some_iff.mp hend
  simp only [Prod.mk.injEq, decide_eq_true_eq] at hend
  obtain ⟨hwindow, hcount, hnone, hfits⟩ := hend
  have hreach := (quit_ends_loop s s' u 0 untilReturn hquit hwindow hfits hmore).1
  exact ⟨s, s', u, hrun, hquit, hmore, hcount, hreach (by rw [hnone, hcount]; exact Nat.le_refl _)⟩

end Proofs

end MylibMuduo
