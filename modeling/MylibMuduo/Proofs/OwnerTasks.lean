import MylibMuduo.Proofs.Wakeup

/-!
# Tasks of the owner thread outside of callbacks

`queueInLoop` leaves out the write to the eventfd on the loop's own thread unless
`calling_pending_functors_` is set, as if the swap always came before the next `poll`. Before
`loop` is entered, and in the destructors of a batch, the flag is clear and `poll` comes first.
There a task is seen by `poll` only if something else has made the eventfd readable.
-/

namespace MylibMuduo

namespace LoopPc

variable {τ : Type}

/-- The owner thread runs user code that is neither a channel callback nor a functor: `loop` has not
been entered or has returned, or the batch is being destroyed. -/
def outsideCallbacks (p : LoopPc τ) : Bool := p.inUserCode && !p.inCallback

/-- `quit_` is tested before the next `poll`, and not reset if it is set. -/
def testsQuit : LoopPc τ → Bool
  | .notEntered => true
  | .entryTest => true
  | .whileTest => true
  | .destroying _ => true
  | .clearLooping => true
  | .returned => true
  | _ => false

end LoopPc

namespace Proofs

variable {τ : Type}

/-- The task that was queued after `k` others is in `pendingFunctors_`. -/
def InQueue (k : Nat) (s : LoopState τ) : Prop := s.enqueued.length ≤ k + s.loop.pendingFunctors.length

lemma outsideCallbacks_cases {p : LoopPc τ} (h : p.outsideCallbacks = true) :
    p = .notEntered ∨ p = .returned ∨ ∃ f tasks, p = .destroying (f :: tasks) := by
  unfold LoopPc.outsideCallbacks LoopPc.inUserCode LoopPc.inCallback at h
  cases p with
  | notEntered => exact Or.inl rfl
  | returned => exact Or.inr (Or.inl rfl)
  | destroying tasks =>
    cases tasks with
    | nil => simp at h
    | cons f tasks => exact Or.inr (Or.inr ⟨f, tasks, rfl⟩)
  | _ => simp at h

lemma testsQuit_of_outside {p : LoopPc τ} (h : p.outsideCallbacks = true) : p.testsQuit = true := by
  rcases outsideCallbacks_cases h with rfl | rfl | ⟨f, tasks, rfl⟩ <;> rfl

lemma isCalling_of_outside {p : LoopPc τ} (h : p.outsideCallbacks = true) : p.isCalling = false := by
  rcases outsideCallbacks_cases h with rfl | rfl | ⟨f, tasks, rfl⟩ <;> rfl

/-- `calling_pending_functors_` is what the program counter says. -/
lemma calling_step {s s' : LoopState τ} {a : LoopStep τ}
    (h : s.loop.callingPendingFunctors = s.pc.isCalling)
    (hnext : (loopMachine τ).next s a = some s') :
    s'.loop.callingPendingFunctors = s'.pc.isCalling := by
  cases loop_trans hnext with
  | enterLoop hpc hin =>
    rcases hpc with hpc | hpc
    · rw [hpc] at h
      exact h
    · rw [hpc] at h
      exact h
  | setCalling hpc => rfl
  | clearCalling done hpc => rfl
  | queueInLoop f huser hin => exact h
  | queueInLoopWake hin =>
    rw [← h]
    unfold EventLoop.queueInLoopWake
    split
    · exact wakeUp_calling s.loop
    · rfl
  | quit huser => exact h
  | foreignQueueInLoop t f hidle => exact h
  | foreignQuit t hidle => exact h
  | foreignWakeUp t hbusy => exact (wakeUp_calling s.loop).trans h
  | _ =>
    simp_all only [LoopPc.isCalling, EventLoop.handleRead]

lemma calling_run {steps : List (LoopStep τ)} {s : LoopState τ}
    (hrun : (loopMachine τ).run LoopState.make steps = some s) :
    s.loop.callingPendingFunctors = s.pc.isCalling :=
  (loopMachine τ).invariant (I := fun s => s.loop.callingPendingFunctors = s.pc.isCalling)
    (fun _ _ _ => calling_step) rfl hrun

/-! ### A readable eventfd -/

/-- The task has left the queue, the swap comes before the next `poll`, or the eventfd is readable. -/
structure SeenByPoll (k : Nat) (s : LoopState τ) : Prop where
  queued : k < s.enqueued.length
  seen : ¬InQueue k s ∨ s.pc.swapsNext = true ∨ 0 < s.loop.wakeupFd

/-- A step that takes no task out of the queue and does not drain the eventfd. -/
lemma SeenByPoll.move {k : Nat} {s s' : LoopState τ} (h : SeenByPoll k s)
    (hgrows : s.enqueued.length ≤ s'.enqueued.length)
    (hsame : s'.enqueued.length + s.loop.pendingFunctors.length =
      s.enqueued.length + s'.loop.pendingFunctors.length)
    (hswap : s.pc.swapsNext = true → s'.pc.swapsNext = true)
    (hfd : 0 < s.loop.wakeupFd → 0 < s'.loop.wakeupFd) : SeenByPoll k s' := by
  refine ⟨Nat.lt_of_lt_of_le h.queued hgrows, ?_⟩
  rcases h.seen with htaken | hnext | hpos
  · left
    unfold InQueue at htaken ⊢
    omega
  · exact Or.inr (Or.inl (hswap hnext))
  · exact Or.inr (Or.inr (hfd hpos))

lemma swapsNext_of_eq {p q : LoopPc τ} (hp : p = q) (hq : q.swapsNext = false) {P : Prop} :
    p.swapsNext = true → P := by
  intro h
  rw [hp, hq] at h
  cases h

theorem seenByPoll_step {k : Nat} {s s' : LoopState τ} {a : LoopStep τ} (h : SeenByPoll k s)
    (hnext : (loopMachine τ).next s a = some s') : SeenByPoll k s' := by
  cases loop_trans hnext with
  | enterLoop hpc hin =>
    rcases hpc with hpc | hpc
    · exact h.move (Nat.le_refl _) rfl (swapsNext_of_eq hpc rfl) id
    · exact h.move (Nat.le_refl _) rfl (swapsNext_of_eq hpc rfl) id
  | entryQuit hpc hquit | entryPass hpc hquit | whileQuit hpc hquit | whilePass hpc hquit =>
    exact h.move (Nat.le_refl _) rfl (swapsNext_of_eq hpc rfl) id
  | setLooping hpc | resetQuit hpc | destroyed hpc | clearLooping hpc =>
    exact h.move (Nat.le_refl _) rfl (swapsNext_of_eq hpc rfl) id
  | functor done f rest hpc | functorReturns done rest hpc hin | destructorReturns f tasks hpc hin =>
    exact h.move (Nat.le_refl _) rfl (swapsNext_of_eq hpc rfl) id
  | clearCalling done hpc => exact h.move (Nat.le_refl _) rfl (swapsNext_of_eq hpc rfl) id
  | pollReturns active hpc => exact ⟨h.queued, Or.inr (Or.inl rfl)⟩
  | handleRead active hpc => exact ⟨h.queued, Or.inr (Or.inl rfl)⟩
  | callback active hpc => exact ⟨h.queued, Or.inr (Or.inl rfl)⟩
  | callbackReturns active hpc hin => exact ⟨h.queued, Or.inr (Or.inl rfl)⟩
  | dispatched hpc => exact ⟨h.queued, Or.inr (Or.inl rfl)⟩
  | setCalling hpc => exact ⟨h.queued, Or.inr (Or.inl rfl)⟩
  | swap hpc =>
    refine ⟨h.queued, Or.inl ?_⟩
    have hqueued := h.queued
    simp only [InQueue, List.length_nil]
    omega
  | queueInLoop f huser hin =>
    refine h.move ?_ ?_ id id
    · simp
    · simp only [EventLoop.emplaceBack, List.length_append]
      omega
  | queueInLoopWake hin =>
    refine h.move (Nat.le_refl _) ?_ id ?_
    · rw [queueInLoopWake_pendingFunctors]
    · intro hpos
      simp only [EventLoop.queueInLoopWake]
      split
      · exact wakeUp_pos s.loop
      · exact hpos
  | quit huser => exact h.move (Nat.le_refl _) rfl id id
  | foreignQueueInLoop t f hidle =>
    refine h.move ?_ ?_ id id
    · simp
    · simp only [EventLoop.emplaceBack, List.length_append]
      omega
  | foreignQuit t hidle => exact h.move (Nat.le_refl _) rfl id id
  | foreignWakeUp t hbusy =>
    refine h.move (Nat.le_refl _) ?_ id (fun _ => wakeUp_pos s.loop)
    simp [LoopState.setForeign]

/-! ### A loop that has to return -/

/-- `quit_` is set and will be tested before the next `poll`. -/
def ReturnsNext (s : LoopState τ) : Prop := s.loop.quit = true ∧ s.pc.testsQuit = true

theorem returnsNext_step {s s' : LoopState τ} {a : LoopStep τ} (h : ReturnsNext s)
    (hnext : (loopMachine τ).next s a = some s') : ReturnsNext s' := by
  obtain ⟨hq, htests⟩ := h
  cases loop_trans hnext with
  | enterLoop hpc hin => exact ⟨hq, rfl⟩
  | entryQuit hpc hquit => exact ⟨hq, rfl⟩
  | whileQuit hpc hquit => exact ⟨hq, rfl⟩
  | destructorReturns f tasks hpc hin => exact ⟨hq, rfl⟩
  | destroyed hpc => exact ⟨hq, rfl⟩
  | clearLooping hpc => exact ⟨hq, rfl⟩
  | entryPass hpc hquit | whilePass hpc hquit =>
    rw [hq] at hquit
    cases hquit
  | queueInLoop f huser hin => exact ⟨hq, htests⟩
  | queueInLoopWake hin => exact ⟨(queueInLoopWake_quit s.loop true).trans hq, htests⟩
  | quit huser => exact ⟨rfl, htests⟩
  | foreignQueueInLoop t f hidle => exact ⟨hq, htests⟩
  | foreignQuit t hidle => exact ⟨rfl, htests⟩
  | foreignWakeUp t hbusy => exact ⟨(wakeUp_quit s.loop).trans hq, htests⟩
  | callbackReturns active hpc hin =>
    rw [hpc] at htests
    cases htests
  | functorReturns done rest hpc hin =>
    rw [hpc] at htests
    cases htests
  | _ =>
    rename_i hpc
    rw [hpc] at htests
    cases htests

/-! ### A blocking `poll` -/

/-- Some schedule lets the loop enter `poll` with the same tasks in the queue and the same eventfd. -/
def CanPoll (s : LoopState τ) : Prop :=
  ∃ steps u, (loopMachine τ).run s steps = some u ∧ u.pc = .poll ∧ u.enqueued = s.enqueued ∧
    u.loop.pendingFunctors = s.loop.pendingFunctors ∧ u.loop.wakeupFd = s.loop.wakeupFd

lemma canPoll_of_next {s s' : LoopState τ} {a : LoopStep τ} (hnext : (loopMachine τ).next s a = some s')
    (henqueued : s'.enqueued = s.enqueued) (hpending : s'.loop.pendingFunctors = s.loop.pendingFunctors)
    (hfd : s'.loop.wakeupFd = s.loop.wakeupFd) (h : CanPoll s') : CanPoll s := by
  obtain ⟨steps, u, hrun, hpc, he, hp, hw⟩ := h
  refine ⟨a :: steps, u, ?_, hpc, he.trans henqueued, hp.trans hpending, hw.trans hfd⟩
  rw [Machine.run_cons_eq_some]
  exact ⟨s', hnext, hrun⟩

lemma canPoll_whileTest {s : LoopState τ} (hpc : s.pc = .whileTest) (hquit : s.loop.quit = false) :
    CanPoll s := by
  have hnext : (loopMachine τ).next s .advance = some { s with pc := .poll } := by
    simp [loopMachine, LoopState.advance, hpc, hquit]
  exact canPoll_of_next hnext rfl rfl rfl ⟨[], _, rfl, rfl, rfl, rfl, rfl⟩

lemma canPoll_destroying (tasks : List τ) {s : LoopState τ} (hpc : s.pc = .destroying tasks)
    (hin : s.inQueueInLoop = false) (hquit : s.loop.quit = false) : CanPoll s := by
  induction tasks generalizing s with
  | nil =>
    have hnext : (loopMachine τ).next s .advance = some { s with pc := .whileTest } := by
      simp [loopMachine, LoopState.advance, hpc]
    exact canPoll_of_next hnext rfl rfl rfl (canPoll_whileTest rfl hquit)
  | cons f tasks ih =>
    have hnext : (loopMachine τ).next s .userReturns = some { s with pc := .destroying tasks } := by
      simp [loopMachine, LoopState.userReturns, hpc, hin]
    exact canPoll_of_next hnext rfl rfl rfl (ih rfl hin hquit)

lemma canPoll_entryTest {s : LoopState τ} (hpc : s.pc = .entryTest) (hquit : s.loop.quit = false) :
    CanPoll s := by
  have hpass : (loopMachine τ).next s .advance = some { s with pc := .setLooping } := by
    simp [loopMachine, LoopState.advance, hpc, hquit]
  have hlooping : (loopMachine τ).next { s with pc := .setLooping } .advance =
      some { s with loop := { s.loop with looping := true }, pc := .resetQuit } := rfl
  have hreset : (loopMachine τ).next
      { s with loop := { s.loop with looping := true }, pc := .resetQuit } .advance =
      some { s with loop := { s.loop with looping := true, quit := false }, pc := .whileTest } := rfl
  apply canPoll_of_next hpass rfl rfl rfl
  apply canPoll_of_next hlooping rfl rfl rfl
  apply canPoll_of_next hreset rfl rfl rfl
  exact canPoll_whileTest rfl rfl

lemma canPoll_of_outside {s : LoopState τ} (hpc : s.pc.outsideCallbacks = true)
    (hin : s.inQueueInLoop = false) (hquit : s.loop.quit = false) : CanPoll s := by
  have henter : s.pc = .notEntered ∨ s.pc = .returned → CanPoll s := by
    intro hoff
    have hnext : (loopMachine τ).next s .enterLoop = some { s with pc := .entryTest } := by
      rcases hoff with hoff | hoff
      · simp [loopMachine, LoopState.enterLoop, hoff, hin]
      · simp [loopMachine, LoopState.enterLoop, hoff, hin]
    exact canPoll_of_next hnext rfl rfl rfl (canPoll_entryTest rfl hquit)
  rcases outsideCallbacks_cases hpc with hoff | hoff | ⟨f, tasks, hdestroying⟩
  · exact henter (Or.inl hoff)
  · exact henter (Or.inr hoff)
  · exact canPoll_destroying (f :: tasks) hdestroying hin hquit

/-! ### The tasks of the owner thread -/

/-- In every continuation of a call `queueInLoop(f)` on the owner thread, `poll` is not entered with
the task in the queue and an eventfd that is not readable. -/
def NotLeftBehind (s : LoopState τ) (f : τ) : Prop :=
  ∀ more u, (loopMachine τ).run s (.queueInLoop f :: more) = some u → u.pc = .poll →
    InQueue s.enqueued.length u → 0 < u.loop.wakeupFd

lemma next_queueInLoop {s : LoopState τ} (f : τ) (hpc : s.pc.outsideCallbacks = true)
    (hin : s.inQueueInLoop = false) :
    (loopMachine τ).next s (.queueInLoop f) = some { s with
      loop := s.loop.emplaceBack f, inQueueInLoop := true, enqueued := s.enqueued ++ [f] } := by
  have huser : s.pc.inUserCode = true := (Bool.and_eq_true_iff.mp hpc).1
  exact if_pos ⟨huser, hin⟩

/-- The flag is clear, so the call does not write to the eventfd, and `poll` may come next. -/
lemma polls_with_task {s : LoopState τ} (f : τ) (hcalling : s.loop.callingPendingFunctors = s.pc.isCalling)
    (hpc : s.pc.outsideCallbacks = true) (hin : s.inQueueInLoop = false) (hquit : s.loop.quit = false) :
    ∃ more u, (loopMachine τ).run s (.queueInLoop f :: more) = some u ∧ u.pc = .poll ∧
      InQueue s.enqueued.length u ∧ u.loop.wakeupFd = s.loop.wakeupFd := by
  rw [isCalling_of_outside hpc] at hcalling
  have hskip : (loopMachine τ).next { s with
      loop := s.loop.emplaceBack f, inQueueInLoop := true, enqueued := s.enqueued ++ [f] }
      .queueInLoopWake = some { s with
        loop := s.loop.emplaceBack f, enqueued := s.enqueued ++ [f] } := by
    simp [loopMachine, EventLoop.queueInLoopWake, EventLoop.emplaceBack, hcalling, hin]
  have hpoll : CanPoll { s with loop := s.loop.emplaceBack f, enqueued := s.enqueued ++ [f] } :=
    canPoll_of_outside hpc hin hquit
  obtain ⟨more, u, hmore, hupc, henqueued, hpending, hfd⟩ := canPoll_of_next hskip rfl rfl rfl hpoll
  refine ⟨more, u, ?_, hupc, ?_, hfd⟩
  · rw [Machine.run_cons_eq_some]
    exact ⟨_, next_queueInLoop f hpc hin, hmore⟩
  · unfold InQueue
    rw [henqueued, hpending]
    simp only [EventLoop.emplaceBack, List.length_append, List.length_singleton]
    omega

lemma not_left_behind_of_readable {s : LoopState τ} (f : τ) (hpc : s.pc.outsideCallbacks = true)
    (hin : s.inQueueInLoop = false) (hpos : 0 < s.loop.wakeupFd) : NotLeftBehind s f := by
  intro more u hmore hupc hqueued
  obtain ⟨s₁, hs₁, hrest⟩ := (Machine.run_cons_eq_some _ _ _ _ _).mp hmore
  rw [next_queueInLoop f hpc hin, Option.some.injEq] at hs₁
  subst hs₁
  have hseen : SeenByPoll s.enqueued.length u := by
    refine (loopMachine τ).invariant (fun _ _ _ => seenByPoll_step) ?_ hrest
    exact ⟨by simp, Or.inr (Or.inr hpos)⟩
  rcases hseen.seen with htaken | hswap | hpos'
  · exact absurd hqueued htaken
  · exact swapsNext_of_eq hupc rfl hswap
  · exact hpos'

/-- The loop returns before it polls again. -/
lemma not_left_behind_of_quit {s : LoopState τ} (f : τ) (hpc : s.pc.outsideCallbacks = true)
    (hin : s.inQueueInLoop = false) (hquit : s.loop.quit = true) : NotLeftBehind s f := by
  intro more u hmore hupc hqueued
  obtain ⟨s₁, hs₁, hrest⟩ := (Machine.run_cons_eq_some _ _ _ _ _).mp hmore
  rw [next_queueInLoop f hpc hin, Option.some.injEq] at hs₁
  subst hs₁
  have hreturns : ReturnsNext u := by
    refine (loopMachine τ).invariant (I := ReturnsNext) (fun _ _ _ => returnsNext_step) ?_ hrest
    exact ⟨hquit, testsQuit_of_outside hpc⟩
  have htests := hreturns.2
  rw [hupc] at htests
  cases htests

/-- Outside of channel callbacks and functors a task of the owner thread is not left behind a
blocking `poll` exactly if the eventfd is already readable or the loop has to return. -/
theorem owner_task_not_left_behind_iff (steps : List (LoopStep τ)) (s : LoopState τ) (f : τ)
    (hrun : (loopMachine τ).run LoopState.make steps = some s) (hpc : s.pc.outsideCallbacks = true)
    (hin : s.inQueueInLoop = false) :
    NotLeftBehind s f ↔ 0 < s.loop.wakeupFd ∨ s.loop.quit = true := by
  constructor
  · intro hall
    by_contra hcond
    rw [not_or, Bool.not_eq_true, Nat.not_lt, Nat.le_zero] at hcond
    obtain ⟨hzero, hquit⟩ := hcond
    obtain ⟨more, u, hmore, hupc, hqueued, hfd⟩ := polls_with_task f (calling_run hrun) hpc hin hquit
    have hpos := hall more u hmore hupc hqueued
    rw [hfd, hzero] at hpos
    exact absurd hpos (Nat.lt_irrefl 0)
  · rintro (hpos | hquit)
    · exact not_left_behind_of_readable f hpc hin hpos
    · exact not_left_behind_of_quit f hpc hin hquit

/-- A task has run and is being destroyed, and thread 0 has queued another one and written to the
eventfd. -/
def destroysWoken : List (LoopStep Nat) :=
  [.enterLoop, .advance, .advance, .advance, .advance, .foreignQueueInLoop 0 1, .foreignWakeUp 0,
   .pollReturns [.wakeup], .advance, .advance, .advance, .advance, .advance, .userReturns, .advance,
   .foreignQueueInLoop 0 2, .foreignWakeUp 0]

theorem owner_task_not_left_behind_woken :
    ∃ s, (loopMachine Nat).run LoopState.make destroysWoken = some s ∧ s.pc = .destroying [1] ∧
      NotLeftBehind s 3 := by
  have hend : ((loopMachine Nat).run LoopState.make destroysWoken).map
      (fun s => (s.pc, s.inQueueInLoop, s.loop.wakeupFd)) = some (.destroying [1], false, 1) := by
    decide +kernel
  obtain ⟨s, hrun, hs⟩ := Option.map_eq_some_iff.mp hend
  obtain ⟨hpc, hs⟩ := Prod.mk.inj hs
  obtain ⟨hin, hfd⟩ := Prod.mk.inj hs
  refine ⟨s, hrun, hpc, ?_⟩
  exact (owner_task_not_left_behind_iff destroysWoken s 3 hrun (by rw [hpc]; rfl) hin).mpr
    (Or.inl (by rw [hfd]; decide))

/-- The owner queues a task and calls `loop`, which blocks in `poll`. -/
theorem task_before_loop_left_behind :
    ¬∀ (steps : List (LoopStep Nat)) (s : LoopState Nat) (f : Nat),
      (loopMachine Nat).run LoopState.make steps = some s → s.pc.outsideCallbacks = true →
      s.inQueueInLoop = false → NotLeftBehind s f := by
  intro hall
  have hend : ((loopMachine Nat).run LoopState.make
      [.queueInLoop 1, .queueInLoopWake, .enterLoop, .advance, .advance, .advance, .advance]).map
      (fun s => (s.pc, s.enqueued, s.loop.pendingFunctors, s.loop.wakeupFd)) = some (.poll, [1], [1], 0) := by
    decide +kernel
  obtain ⟨u, hrun, hu⟩ := Option.map_eq_some_iff.mp hend
  simp only [Prod.mk.injEq] at hu
  obtain ⟨hpc, henqueued, hpending, hfd⟩ := hu
  have hpos := hall [] LoopState.make 1 rfl rfl rfl _ u hrun hpc (by
    unfold InQueue
    rw [henqueued, hpending]
    decide)
  rw [hfd] at hpos
  exact absurd hpos (by decide)

end Proofs

end MylibMuduo
