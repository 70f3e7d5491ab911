import MylibMuduo.Proofs.Quit
import MylibMuduo.Proofs.Wakeup

/-!
# Tasks queued before `quit`

A loop that is to return runs the batch that it has taken out of `pendingFunctors_` and nothing
after it. A task that was queued before the store of `quit` is run if it has been taken out by
then or the swap of the iteration is still to come. In every other case some schedule lets the
loop return with the task in the queue.
-/

namespace MylibMuduo

/-- The loop is between the test of its `while` and the swap. -/
def LoopPc.beforeSwap {τ : Type} : LoopPc τ → Bool
  | .poll => true
  | p => p.swapsNext

namespace Proofs

variable {τ : Type}

/-- The tasks `queued` have been taken out of the queue, or they will be before the next test
of `quit_`. -/
def RunsBeforeReturn (queued : List τ) (s : LoopState τ) : Prop :=
  queued <+: s.started ++ s.pc.rest ∨ (s.pc.beforeSwap = true ∧ queued <+: s.enqueued)

theorem runsBeforeReturn_step {queued : List τ} {s s' : LoopState τ} {a : LoopStep τ}
    (horder : TasksInOrder s) (h : RunsBeforeReturn queued s)
    (hnext : (loopMachine τ).next s a = some s') : RunsBeforeReturn queued s' := by
  unfold TasksInOrder at horder
  unfold RunsBeforeReturn at h ⊢
  cases loop_trans hnext with
  | enterLoop hpc hin =>
    rcases hpc with hpc | hpc
    · simpa [hpc, LoopPc.rest, LoopPc.beforeSwap, LoopPc.swapsNext] using h
    · simpa [hpc, LoopPc.rest, LoopPc.beforeSwap, LoopPc.swapsNext] using h
  | swap hpc =>
    left
    rw [hpc] at h horder
    simp only [LoopPc.rest, List.append_nil] at h horder ⊢
    rw [← horder]
    rcases h with hout | hin
    · rw [horder]
      exact hout.trans (List.prefix_append _ _)
    · exact hin.2
  | queueInLoop f huser hin =>
    rcases h with hout | hin
    · exact Or.inl hout
    · exact Or.inr ⟨hin.1, hin.2.trans (List.prefix_append _ _)⟩
  | foreignQueueInLoop t f hidle =>
    rcases h with hout | hin
    · exact Or.inl hout
    · exact Or.inr ⟨hin.1, hin.2.trans (List.prefix_append _ _)⟩
  | queueInLoopWake hin => exact h
  | quit huser => exact h
  | foreignQuit t hidle => exact h
  | foreignWakeUp t hbusy => exact h
  | _ => simp_all [LoopPc.rest, LoopPc.beforeSwap, LoopPc.swapsNext]

lemma runsBeforeReturn_run {queued : List τ} {s u : LoopState τ} {steps : List (LoopStep τ)}
    (horder : TasksInOrder s) (h : RunsBeforeReturn queued s)
    (hrun : (loopMachine τ).run s steps = some u) : RunsBeforeReturn queued u := by
  have hboth := (loopMachine τ).invariant (I := fun u => TasksInOrder u ∧ RunsBeforeReturn queued u)
    (fun _ _ _ hI hnext => ⟨tasksInOrder_step hI.1 hnext, runsBeforeReturn_step hI.1 hI.2 hnext⟩)
    ⟨horder, h⟩ hrun
  exact hboth.2

/-! ### Returning without another swap -/

/-- Some schedule lets the loop return with the same tasks in the queue. -/
def CanReturn (s : LoopState τ) : Prop :=
  ∃ steps u, (loopMachine τ).run s steps = some u ∧ u.pc = .returned ∧
    u.loop.pendingFunctors = s.loop.pendingFunctors ∧ u.enqueued = s.enqueued

lemma canReturn_of_run {s s' : LoopState τ} {steps : List (LoopStep τ)}
    (hrun : (loopMachine τ).run s steps = some s')
    (hpending : s'.loop.pendingFunctors = s.loop.pendingFunctors) (henqueued : s'.enqueued = s.enqueued)
    (h : CanReturn s') : CanReturn s := by
  obtain ⟨rest, u, hrest, hpc, hp, he⟩ := h
  refine ⟨steps ++ rest, u, ?_, hpc, hp.trans hpending, he.trans henqueued⟩
  rw [Machine.run_append_eq_some]
  exact ⟨s', hrun, hrest⟩

lemma canReturn_of_next {s s' : LoopState τ} {a : LoopStep τ}
    (hnext : (loopMachine τ).next s a = some s')
    (hpending : s'.loop.pendingFunctors = s.loop.pendingFunctors) (henqueued : s'.enqueued = s.enqueued)
    (h : CanReturn s') : CanReturn s := by
  have hrun : (loopMachine τ).run s [a] = some s' := by
    rw [Machine.run_cons_eq_some]
    exact ⟨s', hnext, rfl⟩
  exact canReturn_of_run hrun hpending henqueued h

lemma canReturn_returned {s : LoopState τ} (hpc : s.pc = .returned) : CanReturn s :=
  ⟨[], s, rfl, hpc, rfl, rfl⟩

lemma canReturn_clearLooping {s : LoopState τ} (hpc : s.pc = .clearLooping) : CanReturn s := by
  have hnext : (loopMachine τ).next s .advance =
      some { s with loop := { s.loop with looping := false }, pc := .returned } := by
    simp [loopMachine, LoopState.advance, hpc]
  exact canReturn_of_next hnext rfl rfl (canReturn_returned rfl)

lemma canReturn_whileTest {s : LoopState τ} (hpc : s.pc = .whileTest) (hquit : s.loop.quit = true) :
    CanReturn s := by
  have hnext : (loopMachine τ).next s .advance = some { s with pc := .clearLooping } := by
    simp [loopMachine, LoopState.advance, hpc, hquit]
  exact canReturn_of_next hnext rfl rfl (canReturn_clearLooping rfl)

/-- The loop thread first finishes a call of `queueInLoop`. -/
lemma canReturn_of_idle {s : LoopState τ}
    (h : ∀ s' : LoopState τ, s'.pc = s.pc → s'.inQueueInLoop = false → s'.loop.quit = s.loop.quit →
      CanReturn s') : CanReturn s := by
  cases hin : s.inQueueInLoop with
  | false => exact h s rfl hin rfl
  | true =>
    have hnext : (loopMachine τ).next s .queueInLoopWake =
        some { s with loop := s.loop.queueInLoopWake true, inQueueInLoop := false } := if_pos hin
    refine canReturn_of_next hnext ?_ rfl (h _ rfl rfl ?_)
    · exact queueInLoopWake_pendingFunctors s.loop true
    · exact queueInLoopWake_quit s.loop true

lemma canReturn_destroying (tasks : List τ) {s : LoopState τ} (hpc : s.pc = .destroying tasks)
    (hquit : s.loop.quit = true) : CanReturn s := by
  induction tasks generalizing s with
  | nil =>
    have hnext : (loopMachine τ).next s .advance = some { s with pc := .whileTest } := by
      simp [loopMachine, LoopState.advance, hpc]
    exact canReturn_of_next hnext rfl rfl (canReturn_whileTest rfl hquit)
  | cons f tasks ih =>
    apply canReturn_of_idle
    intro s' hpc' hin hquit'
    have hnext : (loopMachine τ).next s' .userReturns = some { s' with pc := .destroying tasks } := by
      simp [loopMachine, LoopState.userReturns, hpc', hpc, hin]
    exact canReturn_of_next hnext rfl rfl (ih rfl (hquit'.trans hquit))

lemma canReturn_functor {done rest : List τ} {s : LoopState τ} (hpc : s.pc = .functor done rest)
    (hquit : s.loop.quit = true)
    (h : ∀ s' : LoopState τ, s'.pc = .running done rest → s'.loop.quit = true → CanReturn s') :
    CanReturn s := by
  apply canReturn_of_idle
  intro s' hpc' hin hquit'
  have hnext : (loopMachine τ).next s' .userReturns = some { s' with pc := .running done rest } := by
    simp [loopMachine, LoopState.userReturns, hpc', hpc, hin]
  exact canReturn_of_next hnext rfl rfl (h _ rfl (hquit'.trans hquit))

lemma canReturn_running (rest done : List τ) {s : LoopState τ} (hpc : s.pc = .running done rest)
    (hquit : s.loop.quit = true) : CanReturn s := by
  induction rest generalizing s done with
  | nil =>
    have hnext : (loopMachine τ).next s .advance = some { s with
        loop := { s.loop with callingPendingFunctors := false }, pc := .destroying done } := by
      simp [loopMachine, LoopState.advance, hpc]
    exact canReturn_of_next hnext rfl rfl (canReturn_destroying done rfl hquit)
  | cons f rest ih =>
    have hnext : (loopMachine τ).next s .advance = some { s with
        pc := .functor (done ++ [f]) rest, started := s.started ++ [f] } := by
      simp [loopMachine, LoopState.advance, hpc]
    exact canReturn_of_next hnext rfl rfl
      (canReturn_functor rfl hquit fun s' hpc' hquit' => ih (done ++ [f]) hpc' hquit')

lemma canReturn_entryTest {s : LoopState τ} (hpc : s.pc = .entryTest) (hquit : s.loop.quit = true) :
    CanReturn s := by
  have hnext : (loopMachine τ).next s .advance = some { s with pc := .returned } := by
    simp [loopMachine, LoopState.advance, hpc, hquit]
  exact canReturn_of_next hnext rfl rfl (canReturn_returned rfl)

lemma canReturn_notEntered {s : LoopState τ} (hpc : s.pc = .notEntered) (hquit : s.loop.quit = true) :
    CanReturn s := by
  apply canReturn_of_idle
  intro s' hpc' hin hquit'
  have hnext : (loopMachine τ).next s' .enterLoop = some { s' with pc := .entryTest } := by
    simp [loopMachine, LoopState.enterLoop, hpc', hpc, hin]
  exact canReturn_of_next hnext rfl rfl (canReturn_entryTest rfl (hquit'.trans hquit))

/-- A store that is overwritten is followed by another call of `quit` of the same thread. -/
lemma canReturn_resetsQuit {s : LoopState τ} {t : Nat} (hpc : s.pc.resetsQuit = true)
    (ht : s.foreign t = .quitStored) : CanReturn s := by
  obtain ⟨steps, s₁, hrun, -, hpc₁, hforeign, hpending, henqueued⟩ := quit_reset hpc
  apply canReturn_of_run hrun hpending henqueued
  have hwake : (loopMachine τ).next s₁ (.foreignWakeUp t) =
      some { s₁.setForeign t .idle with loop := s₁.loop.wakeUp } := by
    simp [loopMachine, hforeign, ht]
  apply canReturn_of_next hwake (wakeUp_pendingFunctors s₁.loop) rfl
  generalize hs₂ : { s₁.setForeign t .idle with loop := s₁.loop.wakeUp } = s₂
  have hidle : s₂.foreign t = .idle := by simp [← hs₂, LoopState.setForeign]
  have hpc₂ : s₂.pc = .whileTest := by
    rw [← hs₂]
    exact hpc₁
  have hquit : (loopMachine τ).next s₂ (.foreignQuit t) =
      some { s₂.setForeign t .quitStored with loop := s₂.loop.storeQuit } := if_pos hidle
  exact canReturn_of_next hquit rfl rfl (canReturn_whileTest hpc₂ rfl)

/-- After a store of `quit` outside the way from the `while` to the swap, the loop can return
without a swap. -/
lemma canReturn_of_quit {s : LoopState τ} {t : Nat} (hquit : s.loop.quit = true)
    (ht : s.foreign t = .quitStored) (hswap : s.pc.beforeSwap = false) : CanReturn s := by
  cases hpc : s.pc with
  | notEntered => exact canReturn_notEntered hpc hquit
  | entryTest => exact canReturn_entryTest hpc hquit
  | setLooping => exact canReturn_resetsQuit (by rw [hpc]; rfl) ht
  | resetQuit => exact canReturn_resetsQuit (by rw [hpc]; rfl) ht
  | whileTest => exact canReturn_whileTest hpc hquit
  | running done rest => exact canReturn_running rest done hpc hquit
  | functor done rest =>
    exact canReturn_functor hpc hquit fun s' hpc' hquit' => canReturn_running rest done hpc' hquit'
  | destroying tasks => exact canReturn_destroying tasks hpc hquit
  | clearLooping => exact canReturn_clearLooping hpc
  | returned => exact canReturn_returned hpc
  | _ =>
    rw [hpc] at hswap
    simp [LoopPc.beforeSwap, LoopPc.swapsNext] at hswap

lemma enqueued_grows_step {s s' : LoopState τ} {a : LoopStep τ}
    (hnext : (loopMachine τ).next s a = some s') : s.enqueued <+: s'.enqueued := by
  cases loop_trans hnext with
  | queueInLoop f huser hin => exact List.prefix_append _ _
  | foreignQueueInLoop t f hidle => exact List.prefix_append _ _
  | _ => exact List.prefix_refl _

/-- The tasks that a returned loop has started, after a run without a swap. -/
lemma started_of_canReturn {s u : LoopState τ} (hs : TasksInOrder s) (hu : TasksInOrder u)
    (hpc : u.pc = .returned) (hpending : u.loop.pendingFunctors = s.loop.pendingFunctors)
    (henqueued : u.enqueued = s.enqueued) : u.started = s.started ++ s.pc.rest := by
  unfold TasksInOrder at hs hu
  rw [hpc, hpending, henqueued, hs] at hu
  simp only [LoopPc.rest, List.append_nil] at hu
  exact (List.append_cancel_right hu).symm

/-- A thread queues `f` and later calls `quit`. In every continuation `f` has been run when
`loop` returns exactly if, at the store of `quit`, `f` has been taken out of the queue or the
loop is between the test of its `while` and the swap. -/
theorem queued_before_quit_runs_iff (steps₁ steps₂ : List (LoopStep τ)) (s₁ s₂ s₃ s₄ : LoopState τ)
    (t : Nat) (f : τ) (hrun₁ : (loopMachine τ).run LoopState.make steps₁ = some s₁)
    (hqueue : (loopMachine τ).next s₁ (.foreignQueueInLoop t f) = some s₂)
    (hrun₂ : (loopMachine τ).run s₂ steps₂ = some s₃)
    (hquit : (loopMachine τ).next s₃ (.foreignQuit t) = some s₄) :
    (∀ steps u, (loopMachine τ).run s₄ steps = some u → u.pc = .returned →
      s₁.enqueued ++ [f] <+: u.started) ↔
      s₁.enqueued ++ [f] <+: s₃.started ++ s₃.pc.rest ∨ s₃.pc.beforeSwap = true := by
  have horder₂ := tasksInOrder_step (tasksInOrder_run hrun₁) hqueue
  have horder₃ := (loopMachine τ).invariant (fun _ _ _ => tasksInOrder_step) horder₂ hrun₂
  have horder₄ := tasksInOrder_step horder₃ hquit
  have henqueued : s₁.enqueued ++ [f] <+: s₃.enqueued := by
    have hqueued : s₁.enqueued ++ [f] <+: s₂.enqueued := by
      cases loop_trans hqueue with
      | foreignQueueInLoop t f hidle => exact List.prefix_refl _
    exact (loopMachine τ).invariant (I := fun s => s₁.enqueued ++ [f] <+: s.enqueued)
      (fun _ _ _ hI hnext => hI.trans (enqueued_grows_step hnext)) hqueued hrun₂
  have hstore : s₄.loop.quit = true ∧ s₄.foreign t = .quitStored ∧ s₄.pc = s₃.pc ∧
      s₄.started = s₃.started := by
    cases loop_trans hquit with
    | foreignQuit t hidle => exact ⟨rfl, by simp [LoopState.setForeign], rfl, rfl⟩
  obtain ⟨htrue, hstored, hpc, hstarted⟩ := hstore
  constructor
  · intro hall
    by_cases hswap : s₃.pc.beforeSwap = true
    · exact Or.inr hswap
    · left
      rw [Bool.not_eq_true, ← hpc] at hswap
      obtain ⟨steps, u, hrun, hreturned, hpending, hsame⟩ := canReturn_of_quit htrue hstored hswap
      have horder := (loopMachine τ).invariant (fun _ _ _ => tasksInOrder_step) horder₄ hrun
      have hu := started_of_canReturn horder₄ horder hreturned hpending hsame
      rw [← hpc, ← hstarted, ← hu]
      exact hall steps u hrun hreturned
  · intro hcond steps u hrun hreturned
    have hruns : RunsBeforeReturn (s₁.enqueued ++ [f]) s₃ := by
      rcases hcond with hout | hswap
      · exact Or.inl hout
      · exact Or.inr ⟨hswap, henqueued⟩
    rcases runsBeforeReturn_run horder₄ (runsBeforeReturn_step horder₃ hruns hquit) hrun with hout | hswap
    · rw [hreturned] at hout
      simpa [LoopPc.rest] using hout
    · rw [hreturned] at hswap
      simp [LoopPc.beforeSwap, LoopPc.swapsNext] at hswap

theorem queued_before_quit_runs_in_poll :
    ∃ s₁ s₂ s₃ s₄, (loopMachine Nat).run LoopState.make untilPoll = some s₁ ∧
      (loopMachine Nat).next s₁ (.foreignQueueInLoop 0 7) = some s₂ ∧
      (loopMachine Nat).run s₂ [.foreignWakeUp 0] = some s₃ ∧
      (loopMachine Nat).next s₃ (.foreignQuit 0) = some s₄ ∧ s₃.pc = .poll ∧
      ∀ steps u, (loopMachine Nat).run s₄ steps = some u → u.pc = .returned → [7] <+: u.started := by
  have hend : (((loopMachine Nat).run LoopState.make untilPoll).bind fun s₁ =>
      ((loopMachine Nat).next s₁ (.foreignQueueInLoop 0 7)).bind fun s₂ =>
        ((loopMachine Nat).run s₂ [.foreignWakeUp 0]).bind fun s₃ =>
          ((loopMachine Nat).next s₃ (.foreignQuit 0)).map fun _ => (s₁.enqueued, s₃.pc)) =
      some ([], .poll) := by
    decide +kernel
  obtain ⟨s₁, hrun₁, hend⟩ := Option.bind_eq_some_iff.mp hend
  obtain ⟨s₂, hqueue, hend⟩ := Option.bind_eq_some_iff.mp hend
  obtain ⟨s₃, hrun₂, hend⟩ := Option.bind_eq_some_iff.mp hend
  obtain ⟨s₄, hquit, hend⟩ := Option.map_eq_some_iff.mp hend
  obtain ⟨hempty, hpc⟩ := Prod.mk.inj hend
  have hiff := queued_before_quit_runs_iff untilPoll [.foreignWakeUp 0] s₁ s₂ s₃ s₄ 0 7 hrun₁ hqueue
    hrun₂ hquit
  rw [hempty, hpc] at hiff
  exact ⟨s₁, s₂, s₃, s₄, hrun₁, hqueue, hrun₂, hquit, hpc, hiff.mpr (Or.inr rfl)⟩

/-- Thread 0 queues task 7 and calls `quit` after the swap of an iteration. -/
def quitAfterSwap : List (LoopStep Nat) :=
  untilPoll ++ [.pollReturns [], .advance, .advance, .advance, .foreignQueueInLoop 0 7, .foreignWakeUp 0,
    .foreignQuit 0, .foreignWakeUp 0, .advance, .advance, .advance, .advance]

theorem queued_before_quit_left_behind :
    ((loopMachine Nat).run LoopState.make quitAfterSwap).map
      (fun s => (s.pc, s.enqueued, s.started, s.loop.pendingFunctors)) =
      some (.returned, [7], [], [7]) := by
  decide +kernel

end Proofs

end MylibMuduo
