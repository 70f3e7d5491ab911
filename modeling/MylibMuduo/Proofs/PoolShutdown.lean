import MylibMuduo.Proofs.QueuedBeforeQuit
import MylibMuduo.Proofs.ThreadPool

/-!
# Tasks of the pool's loops at its end

The destructor of the pool quits its loops, and a loop that is past its swap returns without looking
at its queue again. A loop that is on its way to the swap, above all one that waits in `poll`, runs
what has been queued by then before its thread ends.
-/

namespace MylibMuduo.Proofs

variable {τ : Type}

/-! ### One thread -/

/-- The tasks of the thread's loop are in order, and outside of the init callback and of `loop` the
thread is not in the loop. -/
structure ThreadLoop (s : EventLoopThread τ) : Prop where
  called : s.start = .notCalled → s.thread = .notStarted
  order : TasksInOrder s.loop
  outside : s.thread ≠ .initCallback → s.thread ≠ .looping → s.loop.pc.outside = true

lemma threadLoop_make (callBack : Bool) : ThreadLoop (EventLoopThread.make callBack : EventLoopThread τ) :=
  ⟨fun _ => rfl, rfl, fun _ _ => rfl⟩

section ThreadLoop

variable {s s' : EventLoopThread τ}

/-- A step of the loop, by its own thread or by another one. -/
lemma ThreadLoop.loopStep (h : ThreadLoop s) {a : LoopStep τ} {l : LoopState τ}
    (hwho : a.isForeign = true ∨ s.ownerRuns = true) (hnext : (loopMachine τ).next s.loop a = some l) :
    ThreadLoop { s with loop := l } := by
  refine ⟨h.called, tasksInOrder_step h.order hnext, fun hinit hlooping => ?_⟩
  have hforeign : a.isForeign = true := by
    refine hwho.resolve_right fun hruns => ?_
    rcases of_decide_eq_true hruns with hthread | ⟨hthread, -⟩
    · exact hinit hthread
    · exact hlooping hthread
  change l.pc.outside = true
  rw [(foreign_outside (loop_trans hnext) hforeign).1]
  exact h.outside hinit hlooping

/-- Outside of `loop` there is no batch, and no swap is ahead. -/
lemma outside_cases {l : LoopState τ} (hout : l.pc.outside = true) : l.pc.rest = [] ∧ l.pc.beforeSwap = false := by
  cases hpc : l.pc with
  | notEntered => exact ⟨rfl, rfl⟩
  | returned => exact ⟨rfl, rfl⟩
  | _ =>
    rw [hpc] at hout
    cases hout

lemma RunsBeforeReturn.of_outside {l : LoopState τ} {queued : List τ} (h : RunsBeforeReturn queued l)
    (hout : l.pc.outside = true) : queued <+: l.started := by
  obtain ⟨hrest, hswap⟩ := outside_cases hout
  rcases h with hstarted | ⟨hbefore, -⟩
  · rw [hrest, List.append_nil] at hstarted
    exact hstarted
  · rw [hswap] at hbefore
    cases hbefore

/-- `ThreadFunc` calls `loop` on a loop that is not running. -/
lemma ThreadLoop.callLoop (h : ThreadLoop s) (hthread : s.thread = .callLoop) :
    ThreadLoop { s with loop := { s.loop with pc := .entryTest }, thread := .looping } := by
  refine ⟨fun hstart => ?_, ?_, fun _ hlooping => absurd rfl hlooping⟩
  · have hnot := h.called hstart
    rw [hthread] at hnot
    cases hnot
  have hout := h.outside (by simp [hthread]) (by simp [hthread])
  have horder := h.order
  unfold TasksInOrder at horder ⊢
  rw [(outside_cases hout).1] at horder
  exact horder

theorem threadLoop_step (h : ThreadLoop s) {a : HandoffStep τ} (hnext : (handoffMachine τ).next s a = some s') :
    ThreadLoop s' := by
  have hcalled {p : ThreadFuncPc} (hthread : s.thread = p) (hp : p ≠ .notStarted) : s.start ≠ .notCalled :=
    fun hstart => hp (hthread.symm.trans (h.called hstart))
  cases handoff_trans hnext with
  | loopStep halive hwho hloop =>
    obtain ⟨-, l, hl, heq⟩ := handoff_loopStep hnext
    rw [heq]
    exact h.loopStep hwho hl
  | startThread hstart =>
    have hthread := h.called hstart
    exact ⟨by simp, h.order, fun _ _ => h.outside (by simp [hthread]) (by simp [hthread])⟩
  | startReturns hstart | testPass hstart | testWait hstart | spuriousWake hstart | returnLoop hstart =>
    exact ⟨by simp, h.order, h.outside⟩
  | storeExiting hstart => exact ⟨h.called, h.order, h.outside⟩
  | callLoop hthread => exact h.callLoop hthread
  | callInit hthread =>
    exact ⟨fun hstart => absurd hstart (hcalled hthread (by simp)), h.order, fun hinit => absurd rfl hinit⟩
  | initReturns hthread hout hin =>
    exact ⟨fun hstart => absurd hstart (hcalled hthread (by simp)), h.order, fun _ _ => hout⟩
  | loopReturns hthread hout =>
    exact ⟨fun hstart => absurd hstart (hcalled hthread (by simp)), h.order, fun _ _ => hout⟩
  | skipInit hthread | exit hthread | stay hthread | reset hthread =>
    exact ⟨fun hstart => absurd hstart (hcalled hthread (by simp)), h.order,
      fun _ _ => h.outside (by simp [hthread]) (by simp [hthread])⟩
  | publish hthread =>
    refine ⟨fun hstart => ?_, h.order, fun _ _ => h.outside (by simp [hthread]) (by simp [hthread])⟩
    exact absurd (notifyOne_eq_notCalled hstart) (hcalled hthread (by simp))

end ThreadLoop

/-- The thread runs the tasks `queued` of its loop before it ends. -/
structure QueueKept (queued : List τ) (s : EventLoopThread τ) : Prop where
  loop : ThreadLoop s
  runs : RunsBeforeReturn queued s.loop

section QueueKept

variable {queued : List τ} {s s' : EventLoopThread τ}

lemma queueKept_handoff (h : QueueKept queued s) {a : HandoffStep τ}
    (hnext : (handoffMachine τ).next s a = some s') : QueueKept queued s' := by
  refine ⟨threadLoop_step h.loop hnext, ?_⟩
  cases handoff_trans hnext with
  | loopStep halive hwho hloop =>
    obtain ⟨-, l, hl, heq⟩ := handoff_loopStep hnext
    rw [heq]
    exact runsBeforeReturn_step h.loop.order h.runs hl
  | callLoop hthread =>
    have hstarted := h.runs.of_outside (h.loop.outside (by simp [hthread]) (by simp [hthread]))
    exact Or.inl (hstarted.trans (List.prefix_append _ _))
  | _ => exact h.runs

/-- A call of the destructor on the loop. -/
lemma QueueKept.useLoop (h : QueueKept queued s) {a : LoopStep τ} {l : LoopState τ} (ha : a.isForeign = true)
    (hnext : (loopMachine τ).next s.loop a = some l) : QueueKept queued { s with loop := l } :=
  ⟨h.loop.loopStep (Or.inl ha) hnext, runsBeforeReturn_step h.loop.order h.runs hnext⟩

theorem queueKept_step {t t' : ThreadLife τ} (h : QueueKept queued t.thread) {a : LifeStep τ}
    (hnext : (lifeMachine τ).next t a = some t') : QueueKept queued t'.thread := by
  cases life_trans hnext with
  | thread hexit howner hthread => exact queueKept_handoff h hthread
  | storeExiting hpc hfree => exact ⟨⟨h.loop.called, h.loop.order, h.loop.outside⟩, h.runs⟩
  | storeQuit hpc halive hloop => exact h.useLoop rfl hloop
  | wakeUp hpc halive hloop => exact h.useLoop rfl hloop
  | _ => exact h

/-- A thread that has ended has run the tasks. -/
lemma QueueKept.started (h : QueueKept queued s) (hend : s.thread = .finished) : queued <+: s.loop.started :=
  h.runs.of_outside (h.loop.outside (by simp [hend]) (by simp [hend]))

end QueueKept

/-! ### The pool -/

section Pool

variable {s s' : ThreadPool τ} {a : PoolStep τ}

/-- What a step of the pool does to the thread `i`. -/
lemma thread_of_trans {i : Nat} {t : ThreadLife τ} (ht : s.threads[i]? = some t) (htrans : PoolTrans s a s') :
    ∃ t', s'.threads[i]? = some t' ∧ (t' = t ∨ ∃ b, (lifeMachine τ).next t b = some t') := by
  cases htrans with
  | emplaceThread hpc hi =>
    refine ⟨t, ?_, Or.inl rfl⟩
    exact (List.getElem?_append_left (List.getElem?_eq_some_iff.mp ht).1).trans ht
  | @thread k b u u' hget hallow hnext =>
    by_cases hk : k = i
    · subst hk
      rw [ht, Option.some.injEq] at hget
      subst hget
      refine ⟨u', ?_, Or.inr ⟨b, hnext⟩⟩
      exact List.getElem?_set_self (List.getElem?_eq_some_iff.mp ht).1
    · refine ⟨t, ?_, Or.inl rfl⟩
      exact (List.getElem?_set_ne hk).trans ht
  | getNextLoop hpc =>
    refine ⟨t, ?_, Or.inl rfl⟩
    rw [getNextLoop_threads]
    exact ht
  | _ => exact ⟨t, ht, Or.inl rfl⟩

lemma threadLoop_run {steps : List (PoolStep τ)} (hrun : (poolMachine τ).run ThreadPool.make steps = some s) :
    ∀ t ∈ s.threads, ThreadLoop t.thread := by
  refine (poolMachine τ).invariant (I := fun v => ∀ t ∈ v.threads, ThreadLoop t.thread) ?_
    (fun _ hmem => absurd hmem List.not_mem_nil) hrun
  intro v a v' hv hnext
  refine forall_threads_step threadLoop_make (fun k b w w' _ hw hlife => ?_) hv (pool_trans hnext)
  have hnone : QueueKept [] w.thread := ⟨hw, Or.inl List.nil_prefix⟩
  exact (queueKept_step hnone hlife).loop

end Pool

/-- Take any moment at which the loop of the thread `i` is between the test of its `while` and the
swap, as in `poll`, or has nothing in its queue. Whatever happens then, what has been queued by that
moment has been run when the destructor of the pool returns. -/
theorem pool_end_runs_queue (τ : Type) (before after : List (PoolStep τ)) (s u : ThreadPool τ) (i : Nat)
    (t : ThreadLife τ) (hrun : (poolMachine τ).run ThreadPool.make before = some s) (ht : s.threads[i]? = some t)
    (hidle : t.thread.loop.pc.beforeSwap = true ∨ t.thread.loop.loop.pendingFunctors = [])
    (hmore : (poolMachine τ).run s after = some u) (hend : u.owner = .destroyed) :
    ∃ t', u.threads[i]? = some t' ∧ t'.thread.thread = .finished ∧
      t.thread.loop.enqueued <+: t'.thread.loop.started := by
  have hthread := threadLoop_run hrun t (List.mem_of_getElem? ht)
  have hkept : QueueKept t.thread.loop.enqueued t.thread := by
    refine ⟨hthread, ?_⟩
    rcases hidle with hswap | hempty
    · exact Or.inr ⟨hswap, List.prefix_refl _⟩
    · left
      have horder := hthread.order
      unfold TasksInOrder at horder
      rw [hempty, List.append_nil] at horder
      exact ⟨[], (List.append_nil _).trans horder⟩
  obtain ⟨t', ht', hkept'⟩ : ∃ w, u.threads[i]? = some w ∧ QueueKept t.thread.loop.enqueued w.thread := by
    refine (poolMachine τ).invariant
      (I := fun v => ∃ w, v.threads[i]? = some w ∧ QueueKept t.thread.loop.enqueued w.thread) ?_ ⟨t, ht, hkept⟩ hmore
    rintro v a v' ⟨w, hw, hkeptw⟩ hnext
    obtain ⟨w', hw', rfl | ⟨b, hlife⟩⟩ := thread_of_trans hw (pool_trans hnext)
    · exact ⟨w', hw', hkeptw⟩
    · exact ⟨w', hw', queueKept_step hkeptw hlife⟩
  have hall : (poolMachine τ).run ThreadPool.make (before ++ after) = some u :=
    ((poolMachine τ).run_append_eq_some _ _ _ _).mpr ⟨s, hrun, hmore⟩
  have hfinished := ((poolShape_run hall).ended hend t' (List.mem_of_getElem? ht')).2
  exact ⟨t', ht', hfinished, hkept'.started hfinished⟩

/-- The owner queues task 7 on the loop of thread 0, which waits in `poll`. -/
def queuedSeven : List (PoolStep Nat) :=
  threeLoops ++ [.thread 0 (.thread (.loopStep (.foreignQueueInLoop 0 7)))]

/-- The loop runs task 7 and returns. -/
def runsSeven : List (LoopStep Nat) :=
  [.pollReturns [], .advance, .advance, .advance, .advance, .userReturns, .advance, .userReturns, .advance, .advance,
   .advance]

/-- The destructor of the pool, with task 7 still in the queue. -/
def destroyBusy : List (PoolStep Nat) :=
  [.thread 0 (.thread (.loopStep (.foreignWakeUp 0))), .destroy] ++
    ([.storeExiting, .testLoop, .storeQuit, .wakeUp] ++ runsSeven.map (fun a => .thread (.loopStep a)) ++
      [.thread .threadFunc, .thread .threadFunc, .join] : List (LifeStep Nat)).map (fun a => .thread 0 a) ++
    [.destroyNext] ++ destroyRound 1 ++ [.destroyNext]

theorem pool_end_runs_queue_seven :
    ∃ s u t', (poolMachine Nat).run ThreadPool.make queuedSeven = some s ∧
      (poolMachine Nat).run s destroyBusy = some u ∧ u.threads[0]? = some t' ∧ [7] <+: t'.thread.loop.started := by
  have hend : ((poolMachine Nat).run ThreadPool.make queuedSeven).bind (fun s => (s.threads[0]?).bind fun t =>
      ((poolMachine Nat).run s destroyBusy).map fun u =>
        (t.thread.loop.pc.beforeSwap, t.thread.loop.enqueued, u.owner)) = some (true, [7], .destroyed) := by
    decide +kernel
  obtain ⟨s, hrun, hend⟩ := Option.bind_eq_some_iff.mp hend
  obtain ⟨t, ht, hend⟩ := Option.bind_eq_some_iff.mp hend
  obtain ⟨u, hmore, hend⟩ := Option.map_eq_some_iff.mp hend
  simp only [Prod.mk.injEq] at hend
  obtain ⟨hswap, hqueued, hpc⟩ := hend
  obtain ⟨t', ht', -, hstarted⟩ :=
    pool_end_runs_queue Nat queuedSeven destroyBusy s u 0 t hrun ht (Or.inl hswap) hmore hpc
  rw [hqueued] at hstarted
  exact ⟨s, u, t', hrun, hmore, ht', hstarted⟩

end MylibMuduo.Proofs
