import MylibMuduo.Lib.Simulation
import MylibMuduo.Proofs.LoopSteps
import MylibMuduo.Proofs.TimerCancel
import MylibMuduo.Proofs.TimerReset
import MylibMuduo.TimerLoop

/-!
# Cancellation across threads

A timer that another thread adds exists before its insertion: the id is out while the task that
inserts the timer waits in the queue. A `cancelTimer` on another thread queues its task behind
that one. On the loop thread it acts at once, finds nothing if the insertion is still waiting,
and the timer is inserted afterwards.
-/

namespace MylibMuduo.Proofs

variable {τ : Type}

/-- The tasks that have been queued and not started. -/
def waiting (s : LoopState τ) : List τ := s.pc.rest ++ s.loop.pendingFunctors

/-- A step of the loop starts the first of the waiting tasks, queues one, or leaves them alone. -/
lemma waiting_step {s s' : LoopState τ} {b : LoopStep τ} (hnext : (loopMachine τ).next s b = some s') :
    (∃ done f rest, b = .advance ∧ s.pc = .running done (f :: rest) ∧ waiting s = f :: waiting s' ∧
      s'.started = s.started ++ [f]) ∨
    (∃ f, (b = .queueInLoop f ∨ ∃ t, b = .foreignQueueInLoop t f) ∧ waiting s' = waiting s ++ [f] ∧
      s'.started = s.started ∧ s'.pc = s.pc) ∨
    ((∀ done f rest, b = .advance → s.pc ≠ .running done (f :: rest)) ∧ waiting s' = waiting s ∧
      s'.started = s.started) := by
  cases loop_trans hnext with
  | functor done f rest hpc =>
    refine Or.inl ⟨done, f, rest, rfl, hpc, ?_, rfl⟩
    simp [waiting, hpc, LoopPc.rest]
  | queueInLoop f huser hin =>
    refine Or.inr (Or.inl ⟨f, Or.inl rfl, ?_, rfl, rfl⟩)
    simp [waiting, EventLoop.emplaceBack]
  | foreignQueueInLoop t f hidle =>
    refine Or.inr (Or.inl ⟨f, Or.inr ⟨t, rfl⟩, ?_, rfl, rfl⟩)
    simp [waiting, EventLoop.emplaceBack, LoopState.setForeign]
  | enterLoop hpc hin =>
    refine Or.inr (Or.inr ⟨by simp, ?_, rfl⟩)
    rw [waiting, waiting, rest_of_outside hpc]
    rfl
  | queueInLoopWake hin => exact Or.inr (Or.inr ⟨by simp, by simp [waiting], rfl⟩)
  | quit huser => exact Or.inr (Or.inr ⟨by simp, rfl, rfl⟩)
  | foreignQuit t hidle => exact Or.inr (Or.inr ⟨by simp, rfl, rfl⟩)
  | foreignWakeUp t hbusy => exact Or.inr (Or.inr ⟨by simp, by simp [waiting, LoopState.setForeign], rfl⟩)
  | _ => exact Or.inr (Or.inr ⟨by simp_all, by simp_all [waiting, LoopPc.rest, EventLoop.handleRead], rfl⟩)

/-- While a channel's callback runs, the loop thread leaves it by the callback's return only. -/
lemma isCallback_step {s s' : LoopState τ} {b : LoopStep τ} (hnext : (loopMachine τ).next s b = some s')
    (hpc : s.pc.isCallback = true) (hb : b ≠ .userReturns) : s'.pc.isCallback = true := by
  cases loop_trans hnext with
  | callbackReturns active hpc' hin => exact absurd rfl hb
  | functorReturns done rest hpc' hin => exact absurd rfl hb
  | destructorReturns f tasks hpc' hin => exact absurd rfl hb
  | enterLoop hpc' hin =>
    rcases hpc' with hpc' | hpc' <;> simp [hpc', LoopPc.isCallback] at hpc
  | _ => simp_all [LoopPc.isCallback, LoopState.setForeign]

/-- All that a step can do to the tasks and to the timers. -/
inductive TimerLoopTrans (s : TimerLoop) : TimerLoopStep → TimerLoop → Prop
  | start {l : LoopState TimerTask} {f : TimerTask} (hpc : s.loop.pc.isCallback = false)
      (hwait : waiting s.loop = f :: waiting l) (hstarted : l.started = s.loop.started ++ [f]) :
      TimerLoopTrans s (.loop .advance) ⟨l, s.runTask f⟩
  | queue {b : LoopStep TimerTask} {l : LoopState TimerTask} {n : Nat}
      (hwait : waiting l = waiting s.loop ++ [.other n]) (hstarted : l.started = s.loop.started)
      (hpc : l.pc = s.loop.pc) : TimerLoopTrans s (.loop b) ⟨l, s.timers⟩
  | control {b : LoopStep TimerTask} {l : LoopState TimerTask} (hwait : waiting l = waiting s.loop)
      (hstarted : l.started = s.loop.started)
      (hpc : s.timers.phase ≠ .idle → s.loop.pc.isCallback = true → l.pc.isCallback = true) :
      TimerLoopTrans s (.loop b) ⟨l, s.timers⟩
  | timer {b : TimerStep} {u : TimerState} (hnext : timerMachine.next s.timers b = some u)
      (hpc : b = .handleRead → s.loop.pc.isCallback = true) :
      TimerLoopTrans s (.timer b) { s with timers := u }
  | foreignAddTimer {p a : Nat} {t : Timer} {l : LoopState TimerTask} (ha : s.timers.queue.heap a = none)
      (hseq : ∀ id ∈ s.timers.issued, id.sequence ≠ t.sequence)
      (hwait : waiting l = waiting s.loop ++ [.addTimerInLoop a t]) (hstarted : l.started = s.loop.started)
      (hpc : l.pc = s.loop.pc) : TimerLoopTrans s (.foreignAddTimer p a t) ⟨l, s.timers.allocate a t⟩
  | foreignCancelTimer {p : Nat} {id : TimerId} {l : LoopState TimerTask}
      (hwait : waiting l = waiting s.loop ++ [.cancelTimerInLoop id])
      (hstarted : l.started = s.loop.started) (hpc : l.pc = s.loop.pc) :
      TimerLoopTrans s (.foreignCancelTimer p id) { s with loop := l }

lemma foreignQueueInLoop_step {s l : LoopState TimerTask} {p : Nat} {f : TimerTask}
    (hnext : (loopMachine TimerTask).next s (.foreignQueueInLoop p f) = some l) :
    waiting l = waiting s ++ [f] ∧ l.started = s.started ∧ l.pc = s.pc := by
  cases loop_trans hnext with
  | foreignQueueInLoop t f hidle =>
    exact ⟨by simp [waiting, EventLoop.emplaceBack, LoopState.setForeign], rfl, rfl⟩

theorem timerLoop_trans {s s' : TimerLoop} {a : TimerLoopStep}
    (hnext : timerLoopMachine.next s a = some s') : TimerLoopTrans s a s' := by
  cases a with
  | loop b =>
    simp only [timerLoopMachine, Option.ite_none_right_eq_some] at hnext
    obtain ⟨⟨happ, hreturn⟩, hnext⟩ := hnext
    obtain ⟨l, hl, rfl⟩ := Option.map_eq_some_iff.mp hnext
    rcases waiting_step hl with ⟨done, f, rest, rfl, hpc, hwait, hstarted⟩ | ⟨f, hb, hwait, hstarted, hpc⟩ |
      ⟨hidle, hwait, hstarted⟩
    · have htimers : s.afterLoopStep .advance = s.runTask f := by
        simp only [TimerLoop.afterLoopStep, hpc]
      rw [htimers]
      exact .start (by rw [hpc]; rfl) hwait hstarted
    · rcases hb with rfl | ⟨t, rfl⟩
      · cases f with
        | other n => exact .queue hwait hstarted hpc
        | _ => cases happ
      · cases f with
        | other n => exact .queue hwait hstarted hpc
        | _ => cases happ
    · have htimers : s.afterLoopStep b = s.timers := by
        unfold TimerLoop.afterLoopStep
        split
        · split
          · next done f rest hpc => exact absurd hpc (hidle done f rest rfl)
          · rfl
        · rfl
      rw [htimers]
      exact .control hwait hstarted fun hphase hpc =>
        isCallback_step hl hpc (fun hb => hphase (hreturn hb))
  | timer b =>
    simp only [timerLoopMachine, Option.ite_none_right_eq_some] at hnext
    obtain ⟨hon, hnext⟩ := hnext
    obtain ⟨u, hu, rfl⟩ := Option.map_eq_some_iff.mp hnext
    refine .timer hu ?_
    rintro rfl
    exact hon.1
  | foreignAddTimer p a t =>
    simp only [timerLoopMachine, Option.ite_none_right_eq_some] at hnext
    obtain ⟨⟨ha, hseq⟩, hnext⟩ := hnext
    obtain ⟨l, hl, rfl⟩ := Option.map_eq_some_iff.mp hnext
    obtain ⟨hwait, hstarted, hpc⟩ := foreignQueueInLoop_step hl
    exact .foreignAddTimer ha hseq hwait hstarted hpc
  | foreignCancelTimer p id =>
    simp only [timerLoopMachine] at hnext
    obtain ⟨l, hl, rfl⟩ := Option.map_eq_some_iff.mp hnext
    obtain ⟨hwait, hstarted, hpc⟩ := foreignQueueInLoop_step hl
    exact .foreignCancelTimer hwait hstarted hpc

/-! ### Timers that no entry holds -/

section Unlisted

variable {q : TimerQueue} {a : Nat}

/-- No entry of the list holds the address. -/
def Unlisted (q : TimerQueue) (a : Nat) : Prop := ∀ e ∈ q.timerList.entries, e.2 ≠ some a

lemma Unlisted.of_active {q' : TimerQueue} (h : Indexed q) (h' : Indexed q') (hun : Unlisted q a)
    (hsub : ∀ id ∈ q'.activeTimerSet, id ∈ q.activeTimerSet) : Unlisted q' a := by
  intro e he hptr
  obtain ⟨f, hf, hid⟩ := h.mem_active.mp (hsub _ (h'.mem_active.mpr ⟨e, he, rfl⟩))
  apply hun f hf
  rw [← hptr]
  exact congrArg TimerId.timer hid

lemma erase_heap (h : Indexed q) (hun : Unlisted q a) (id : TimerId) : (q.erase id).heap a = q.heap a := by
  rcases erase_cases h id with ⟨-, heq⟩ | ⟨k, b, he, -, heq⟩
  · rw [heq]
  · have hab : a ≠ b := by
      rintro rfl
      exact hun _ he rfl
    rw [heq]
    simp [removed, hab]

lemma resetEntry_heap (h : Indexed q) (hun : Unlisted q a) (now : Int) {k : Entry} {p : Option Nat}
    (he : (k, p) ∈ q.timerList.entries) : (q.resetEntry now k).heap a = q.heap a := by
  obtain ⟨b, t, hb, ht, -, -⟩ := h.timers (k, p) he
  change p = some b at hb
  subst hb
  have hab : a ≠ b := by
    rintro rfl
    exact hun _ he rfl
  rw [resetEntry_eq h now he ht]
  split
  · simp [rekeyed, hab]
  · simp [removed, hab]

lemma resetTimers_heap {now : Int} {expired : List Entry} (h : Indexed q) (hun : Unlisted q a)
    (hnodup : (expired.map Entry.sequence).Nodup)
    (hin : ∀ k ∈ expired, ∃ p, (k, p) ∈ q.timerList.entries) :
    (resetTimers q expired now).heap a = q.heap a := by
  have herase : ∀ (ids : List TimerId) (q : TimerQueue), Indexed q → Unlisted q a →
      (ids.foldl TimerQueue.erase q).heap a = q.heap a := by
    intro ids
    induction ids with
    | nil => exact fun _ _ _ => rfl
    | cons id ids ih =>
      intro q h hun
      have hstep := (erase_step h id).1
      exact (ih _ hstep.indexed (hun.of_active h hstep.indexed hstep.active)).trans (erase_heap h hun id)
  have hfirst := resetEntries_step now expired h hnodup hin
  refine (herase _ _ hfirst.indexed (hun.of_active h hfirst.indexed hfirst.active)).trans ?_
  clear herase hfirst
  induction expired generalizing q with
  | nil => rfl
  | cons k expired ih =>
    obtain ⟨hstep, ⟨p, hp⟩, hrest, -, hin'⟩ := batch_tail h hnodup hin
    exact (ih hstep.indexed (hun.of_active h hstep.indexed hstep.active) hrest hin').trans
      (resetEntry_heap h hun now hp)

end Unlisted

/-! ### The invariant -/

/-- The number of the timer that a task inserts. -/
def addedSequence : TimerTask → Option Int
  | .addTimerInLoop _ t => some t.sequence
  | _ => none

/-- A timer whose insertion is waiting: it exists, its id is out, and the list has no timer of
its number. -/
structure Created (s : TimerState) (a : Nat) (t : Timer) : Prop where
  timer : s.queue.heap a = some t
  issued : (⟨some a, t.sequence⟩ : TimerId) ∈ s.issued
  unlisted : ∀ e ∈ s.queue.timerList.entries, e.1.sequence ≠ t.sequence

structure TimerLoopInv (s : TimerLoop) : Prop where
  timers : TimerInv s.timers
  phase : s.timers.phase ≠ .idle → s.loop.pc.isCallback = true
  created : ∀ a t, .addTimerInLoop a t ∈ waiting s.loop → Created s.timers a t
  distinct : ((waiting s.loop).filterMap addedSequence).Nodup

lemma Created.unlisted_address {s : TimerState} {a : Nat} {t : Timer} (h : TimerInv s) (hc : Created s a t) :
    Unlisted s.queue a := by
  intro e he hptr
  obtain ⟨b, u, hb, hu, -, hseq⟩ := h.indexed.timers e he
  rw [hptr, Option.some.injEq] at hb
  rw [← hb, hc.timer, Option.some.injEq] at hu
  exact hc.unlisted e he (by rw [hu, hseq])

/-- `cancelTimerInLoop` leaves timers alone that are not inserted yet. -/
lemma Created.cancelTimer {s : TimerState} {a : Nat} {t : Timer} (h : TimerInv s) (hc : Created s a t)
    (id : TimerId) : Created { s with queue := s.queue.cancelTimerInLoop id } a t := by
  have heq := cancelTimerInLoop_eq h.indexed id
  refine ⟨?_, hc.issued, ?_⟩
  · dsimp only
    rw [heq]
    split
    · exact hc.timer
    · rw [erase_heap h.indexed (hc.unlisted_address h)]
      exact hc.timer
  · dsimp only
    rw [heq]
    split
    · exact hc.unlisted
    · intro e he
      have hstep := (erase_step h.indexed id).1
      obtain ⟨f, hf, hid⟩ := h.indexed.mem_active.mp (hstep.active _ (hstep.indexed.mem_active.mpr ⟨e, he, rfl⟩))
      have hsame : f.1.sequence = e.1.sequence := congrArg TimerId.sequence hid
      rw [← hsame]
      exact hc.unlisted f hf

/-- No step of the queue touches a timer that is not inserted yet. -/
lemma Created.step {s s' : TimerState} {b : TimerStep} {a : Nat} {t : Timer} (h : TimerInv s)
    (hc : Created s a t) (hnext : timerMachine.next s b = some s') : Created s' a t := by
  cases timer_trans h hnext with
  | addTimer c u hheap hseq =>
    obtain ⟨fd, hfd⟩ := addTimer_added h.indexed hheap (h.new_sequence hseq)
    have hac : a ≠ c := by
      rintro rfl
      rw [hc.timer] at hheap
      cases hheap
    refine ⟨?_, List.mem_append_left _ hc.issued, ?_⟩
    · dsimp only
      rw [hfd]
      simpa [added, allocated, hac] using hc.timer
    · dsimp only
      rw [hfd]
      intro e he
      rcases OrderedMap.mem_insert.mp he with rfl | ⟨hold, -⟩
      · exact (hseq _ hc.issued).symm
      · exact hc.unlisted e hold
  | cancelTimer id => exact hc.cancelTimer h id
  | handleReadEnd now expired hphase =>
    obtain ⟨-, hin, hnodup, -⟩ := h.firing hphase
    obtain ⟨hstep, -, hend⟩ := h.handleReadEnd hphase
    obtain ⟨fd, hfd⟩ := rearmed_eq (resetTimers (stopped s.queue) expired now)
    have hindexed := stopped_indexed h.indexed
    refine ⟨?_, hc.issued, ?_⟩
    · dsimp only
      rw [hend, hfd]
      exact (resetTimers_heap hindexed (hc.unlisted_address h) hnodup hin).trans hc.timer
    · dsimp only
      rw [hend, hfd]
      intro e he
      obtain ⟨f, hf, hid⟩ := hindexed.mem_active.mp
        (hstep.active _ (hstep.indexed.mem_active.mpr ⟨e, he, rfl⟩))
      have hsame : f.1.sequence = e.1.sequence := congrArg TimerId.sequence hid
      rw [← hsame]
      exact hc.unlisted f hf
  | _ => exact ⟨hc.timer, hc.issued, hc.unlisted⟩

/-- The insertion of one timer leaves the other waiting timers alone. -/
lemma Created.addTimerInLoop {s : TimerState} {a b : Nat} {t u : Timer} (h : TimerInv s)
    (hc : Created s a t) (hcb : Created s b u) (hne : t.sequence ≠ u.sequence) :
    Created { s with queue := s.queue.addTimerInLoop b u } a t := by
  obtain ⟨fd, hfd⟩ := addTimerInLoop_added h.indexed hcb.timer hcb.unlisted
  refine ⟨?_, hc.issued, ?_⟩
  · dsimp only
    rw [hfd]
    exact hc.timer
  · dsimp only
    rw [hfd]
    intro e he
    rcases OrderedMap.mem_insert.mp he with rfl | ⟨hold, -⟩
    · exact hne.symm
    · exact hc.unlisted e hold

lemma Created.allocate {s : TimerState} {a b : Nat} {t : Timer} (hc : Created s a t)
    (hb : s.queue.heap b = none) (u : Timer) : Created (s.allocate b u) a t := by
  have hab : a ≠ b := by
    rintro rfl
    rw [hc.timer] at hb
    cases hb
  refine ⟨?_, List.mem_append_left _ hc.issued, hc.unlisted⟩
  simpa [TimerState.allocate, hab] using hc.timer

/-- A task of the queue runs outside `handleRead`. -/
lemma TimerLoopInv.idle {s : TimerLoop} (h : TimerLoopInv s) (hpc : s.loop.pc.isCallback = false) :
    s.timers.phase = .idle := by
  by_contra hphase
  rw [h.phase hphase] at hpc
  cases hpc

lemma timerLoopInv_start {s : TimerLoop} {l : LoopState TimerTask} {f : TimerTask} (h : TimerLoopInv s)
    (hpc : s.loop.pc.isCallback = false) (hwait : waiting s.loop = f :: waiting l) :
    TimerLoopInv ⟨l, s.runTask f⟩ := by
  have hidle := h.idle hpc
  have hcreated : ∀ a t, .addTimerInLoop a t ∈ waiting l → Created s.timers a t := by
    intro a t hmem
    apply h.created
    rw [hwait]
    exact List.mem_cons_of_mem f hmem
  have hdistinct := h.distinct
  rw [hwait] at hdistinct
  cases f with
  | addTimerInLoop b u =>
    have hb : Created s.timers b u := h.created b u (by rw [hwait]; exact List.mem_cons_self)
    change (u.sequence :: (waiting l).filterMap addedSequence).Nodup at hdistinct
    rw [List.nodup_cons] at hdistinct
    refine ⟨timerInv_addTimerInLoop h.timers hb.timer hb.issued hb.unlisted,
      fun hphase => absurd hidle hphase, ?_, hdistinct.2⟩
    intro a t hmem
    apply (hcreated a t hmem).addTimerInLoop h.timers hb
    intro heq
    apply hdistinct.1
    rw [← heq]
    exact List.mem_filterMap.mpr ⟨_, hmem, rfl⟩
  | cancelTimerInLoop id =>
    exact ⟨timerInv_cancelTimer h.timers id, fun hphase => absurd hidle hphase,
      fun a t hmem => (hcreated a t hmem).cancelTimer h.timers id, hdistinct⟩
  | other n => exact ⟨h.timers, fun hphase => absurd hidle hphase, hcreated, hdistinct⟩

lemma timerLoopInv_timer {s : TimerLoop} {b : TimerStep} {u : TimerState} (h : TimerLoopInv s)
    (hnext : timerMachine.next s.timers b = some u)
    (hpc : b = .handleRead → s.loop.pc.isCallback = true) : TimerLoopInv { s with timers := u } := by
  refine ⟨timerInv_step h.timers hnext, ?_,
    fun a t hmem => (h.created a t hmem).step h.timers hnext, h.distinct⟩
  cases timer_trans h.timers hnext with
  | handleRead hphase => exact fun _ => hpc rfl
  | runEntry now expired k rest p hphase he => exact fun _ => h.phase (by simp [hphase])
  | handleReadEnd now expired hphase => exact fun hfiring => absurd rfl hfiring
  | _ => exact h.phase

lemma timerLoopInv_foreignAddTimer {s : TimerLoop} {a : Nat} {t : Timer} {l : LoopState TimerTask}
    (h : TimerLoopInv s) (ha : s.timers.queue.heap a = none)
    (hseq : ∀ id ∈ s.timers.issued, id.sequence ≠ t.sequence)
    (hwait : waiting l = waiting s.loop ++ [.addTimerInLoop a t]) (hpc : l.pc = s.loop.pc) :
    TimerLoopInv ⟨l, s.timers.allocate a t⟩ := by
  refine ⟨timerInv_allocated h.timers t ha _, ?_, ?_, ?_⟩
  · rw [hpc]
    exact h.phase
  · intro b u hmem
    rw [hwait, List.mem_append, List.mem_singleton] at hmem
    rcases hmem with hmem | hnew
    · exact (h.created b u hmem).allocate ha t
    · obtain ⟨rfl, rfl⟩ := TimerTask.addTimerInLoop.inj hnew
      exact ⟨by simp [TimerState.allocate], List.mem_append_right _ List.mem_cons_self,
        h.timers.new_sequence hseq⟩
  · rw [hwait, List.filterMap_append, List.nodup_append]
    refine ⟨h.distinct, List.nodup_singleton _, ?_⟩
    intro n hn m hm heq
    obtain ⟨f, hf, hadded⟩ := List.mem_filterMap.mp hn
    cases f with
    | addTimerInLoop b u =>
      have hcb := h.created b u hf
      rw [List.mem_singleton.mp hm, ← Option.some.inj hadded] at heq
      exact hseq _ hcb.issued heq
    | _ => cases hadded

theorem timerLoopInv_step {s s' : TimerLoop} {a : TimerLoopStep} (h : TimerLoopInv s)
    (hnext : timerLoopMachine.next s a = some s') : TimerLoopInv s' := by
  have hkeep : ∀ (l : LoopState TimerTask) (f : TimerTask), addedSequence f = none →
      waiting l = waiting s.loop ++ [f] → l.pc = s.loop.pc → TimerLoopInv { s with loop := l } := by
    intro l f hf hwait hpc
    refine ⟨h.timers, by rw [hpc]; exact h.phase, ?_, ?_⟩
    · intro a t hmem
      rw [hwait, List.mem_append, List.mem_singleton] at hmem
      rcases hmem with hmem | rfl
      · exact h.created a t hmem
      · cases hf
    · rw [hwait, List.filterMap_append, List.filterMap_cons_none hf, List.filterMap_nil, List.append_nil]
      exact h.distinct
  cases timerLoop_trans hnext with
  | start hpc hwait hstarted => exact timerLoopInv_start h hpc hwait
  | queue hwait hstarted hpc => exact hkeep _ _ rfl hwait hpc
  | control hwait hstarted hpc =>
    refine ⟨h.timers, fun hphase => hpc hphase (h.phase hphase), ?_, ?_⟩
    · rw [hwait]
      exact h.created
    · rw [hwait]
      exact h.distinct
  | timer htimer hpc => exact timerLoopInv_timer h htimer hpc
  | foreignAddTimer ha hseq hwait hstarted hpc => exact timerLoopInv_foreignAddTimer h ha hseq hwait hpc
  | foreignCancelTimer hwait hstarted hpc => exact hkeep _ _ rfl hwait hpc

lemma timerLoopInv_make (clock : Int) : TimerLoopInv (TimerLoop.make clock) := by
  refine ⟨timerInv_make clock, fun hphase => absurd rfl hphase, ?_, List.nodup_nil⟩
  intro a t hmem
  simp [TimerLoop.make, waiting, LoopState.make, LoopPc.rest, EventLoop.make] at hmem

/-! ### A cancelled timer -/

/-- No step of the queue inserts a timer again that was given out before. -/
lemma active_of_step {s s' : TimerState} {b : TimerStep} {id : TimerId} (h : TimerInv s) (hid : id ∈ s.issued)
    (hnext : timerMachine.next s b = some s') (hactive : id ∈ s'.queue.activeTimerSet) :
    id ∈ s.queue.activeTimerSet := by
  cases timer_trans h hnext with
  | addTimer a t ha hseq =>
    obtain ⟨fd, hfd⟩ := addTimer_added h.indexed ha (h.new_sequence hseq)
    dsimp only at hactive
    rw [hfd] at hactive
    rcases List.mem_cons.mp hactive with heq | hmem
    · exact absurd (congrArg TimerId.sequence heq) (hseq id hid)
    · exact hmem
  | cancelTimer j =>
    dsimp only at hactive
    rw [cancelTimerInLoop_eq h.indexed] at hactive
    split at hactive
    · exact hactive
    · exact (erase_step h.indexed j).1.active id hactive
  | handleReadEnd now expired hphase =>
    obtain ⟨hstep, -, hend⟩ := h.handleReadEnd hphase
    obtain ⟨fd, hfd⟩ := rearmed_eq (resetTimers (stopped s.queue) expired now)
    dsimp only at hactive
    rw [hend, hfd] at hactive
    exact hstep.active id hactive
  | _ => exact hactive

/-- The timer is out of the queue, or `reset` takes it out at the end of `handleRead`. -/
def Erased (s : TimerState) (id : TimerId) : Prop :=
  id ∉ s.queue.activeTimerSet ∨ (id ∈ s.queue.cancelingTimerSet ∧ s.phase ≠ .idle)

lemma erased_step {s s' : TimerState} {b : TimerStep} {id : TimerId} (h : TimerInv s) (hid : id ∈ s.issued)
    (he : Erased s id) (hnext : timerMachine.next s b = some s') : Erased s' id := by
  rcases he with hgone | ⟨hcanceling, hphase⟩
  · exact Or.inl fun hactive => hgone (active_of_step h hid hnext hactive)
  · cases timer_trans h hnext with
    | tick d => exact Or.inr ⟨hcanceling, hphase⟩
    | lag d => exact Or.inr ⟨hcanceling, hphase⟩
    | addTimer a t ha hseq =>
      obtain ⟨fd, hfd⟩ := addTimer_added h.indexed ha (h.new_sequence hseq)
      refine Or.inr ⟨?_, hphase⟩
      dsimp only
      rw [hfd]
      exact hcanceling
    | cancelTimer j =>
      refine Or.inr ⟨?_, hphase⟩
      dsimp only
      rw [cancelTimerInLoop_eq h.indexed]
      split
      · exact List.mem_insert_of_mem hcanceling
      · rw [(erase_step h.indexed j).2.2]
        exact hcanceling
    | handleRead hidle => exact absurd hidle hphase
    | runEntry now expired k rest p hphase' he => exact Or.inr ⟨hcanceling, by simp⟩
    | handleReadEnd now expired hphase' =>
      obtain ⟨-, hcanceled, hend⟩ := h.handleReadEnd hphase'
      obtain ⟨fd, hfd⟩ := rearmed_eq (resetTimers (stopped s.queue) expired now)
      left
      dsimp only
      rw [hend, hfd]
      exact hcanceled id hcanceling

lemma erased_cancelTimer {s : TimerState} (h : TimerInv s) (id : TimerId) :
    Erased { s with queue := s.queue.cancelTimerInLoop id } id := by
  unfold Erased
  dsimp only
  rw [cancelTimerInLoop_eq h.indexed]
  cases hphase : s.phase with
  | idle =>
    rw [(h.idle hphase).1, if_neg Bool.false_ne_true]
    exact Or.inl (erase_step h.indexed id).2.1
  | firing now expired rest =>
    rw [if_pos (h.firing hphase).1]
    exact Or.inr ⟨List.mem_insert_self, by simp⟩

/-- No task that waits inserts the timer. -/
def NotAwaited (s : TimerLoop) (id : TimerId) : Prop :=
  ∀ a t, .addTimerInLoop a t ∈ waiting s.loop → (⟨some a, t.sequence⟩ : TimerId) ≠ id

lemma notAwaited_step {s s' : TimerLoop} {a : TimerLoopStep} {id : TimerId} (hid : id ∈ s.timers.issued)
    (h : NotAwaited s id) (hnext : timerLoopMachine.next s a = some s') : NotAwaited s' id := by
  intro b t hmem
  cases timerLoop_trans hnext with
  | start hpc hwait hstarted =>
    apply h b t
    rw [hwait]
    exact List.mem_cons_of_mem _ hmem
  | queue hwait hstarted hpc =>
    dsimp only at hmem
    rw [hwait] at hmem
    exact h b t (by simpa using hmem)
  | control hwait hstarted hpc =>
    dsimp only at hmem
    rw [hwait] at hmem
    exact h b t hmem
  | timer htimer hpc => exact h b t hmem
  | foreignAddTimer ha hseq hwait hstarted hpc =>
    dsimp only at hmem
    rw [hwait, List.mem_append, List.mem_singleton] at hmem
    rcases hmem with hmem | hnew
    · exact h b t hmem
    · obtain ⟨rfl, rfl⟩ := TimerTask.addTimerInLoop.inj hnew
      intro heq
      exact hseq id hid (by rw [← heq])
  | foreignCancelTimer hwait hstarted hpc =>
    dsimp only at hmem
    rw [hwait] at hmem
    exact h b t (by simpa using hmem)

lemma issued_of_step {s s' : TimerLoop} {a : TimerLoopStep} {id : TimerId} (h : TimerLoopInv s)
    (hid : id ∈ s.timers.issued) (hnext : timerLoopMachine.next s a = some s') : id ∈ s'.timers.issued := by
  cases timerLoop_trans hnext with
  | @start l f hpc hwait hstarted =>
    cases f with
    | _ => exact hid
  | timer htimer hpc => exact still_issued h.timers hid htimer
  | foreignAddTimer ha hseq hwait hstarted hpc => exact List.mem_append_left _ hid
  | _ => exact hid

/-- A task inserts the timers of the waiting tasks only. -/
lemma active_of_runTask {s : TimerLoop} {l : LoopState TimerTask} {f : TimerTask} {id : TimerId}
    (h : TimerLoopInv s) (hwait : waiting s.loop = f :: waiting l) (hnot : NotAwaited s id)
    (hactive : id ∈ (s.runTask f).queue.activeTimerSet) : id ∈ s.timers.queue.activeTimerSet := by
  cases f with
  | addTimerInLoop b u =>
    have hmem : .addTimerInLoop b u ∈ waiting s.loop := by
      rw [hwait]
      exact List.mem_cons_self
    have hb := h.created b u hmem
    obtain ⟨fd, hfd⟩ := addTimerInLoop_added h.timers.indexed hb.timer hb.unlisted
    dsimp only [TimerLoop.runTask] at hactive
    rw [hfd] at hactive
    rcases List.mem_cons.mp hactive with heq | hold
    · exact absurd heq.symm (hnot b u hmem)
    · exact hold
  | cancelTimerInLoop j =>
    dsimp only [TimerLoop.runTask] at hactive
    rw [cancelTimerInLoop_eq h.timers.indexed] at hactive
    split at hactive
    · exact hactive
    · exact (erase_step h.timers.indexed j).1.active id hactive
  | other n => exact hactive

/-- The timer was given out, is not inserted any more, and is erased or about to be. -/
structure Doomed (s : TimerLoop) (id : TimerId) : Prop where
  issued : id ∈ s.timers.issued
  insertion : NotAwaited s id
  erased : Erased s.timers id

theorem doomed_step {s s' : TimerLoop} {a : TimerLoopStep} {id : TimerId} (h : TimerLoopInv s)
    (hd : Doomed s id) (hnext : timerLoopMachine.next s a = some s') : Doomed s' id := by
  refine ⟨issued_of_step h hd.issued hnext, notAwaited_step hd.issued hd.insertion hnext, ?_⟩
  cases timerLoop_trans hnext with
  | start hpc hwait hstarted =>
    left
    intro hactive
    rcases hd.erased with hgone | ⟨-, hphase⟩
    · exact hgone (active_of_runTask h hwait hd.insertion hactive)
    · exact hphase (h.idle hpc)
  | timer htimer hpc => exact erased_step h.timers hd.issued hd.erased htimer
  | _ => exact hd.erased

/-- The timer is in neither index and no task inserts it. -/
structure Gone (s : TimerLoop) (id : TimerId) : Prop where
  issued : id ∈ s.timers.issued
  insertion : NotAwaited s id
  inactive : id ∉ s.timers.queue.activeTimerSet

theorem gone_step {s s' : TimerLoop} {a : TimerLoopStep} {id : TimerId} (h : TimerLoopInv s)
    (hg : Gone s id) (hnext : timerLoopMachine.next s a = some s') :
    Gone s' id ∧ s'.timers.fired.count id = s.timers.fired.count id := by
  have hissued := issued_of_step h hg.issued hnext
  have hinsertion := notAwaited_step hg.issued hg.insertion hnext
  cases timerLoop_trans hnext with
  | @start l f hpc hwait hstarted =>
    refine ⟨⟨hissued, hinsertion, fun hactive => hg.inactive ?_⟩, ?_⟩
    · exact active_of_runTask h hwait hg.insertion hactive
    · cases f with
      | _ => rfl
  | timer htimer hpc =>
    refine ⟨⟨hissued, hinsertion, fun hactive => hg.inactive ?_⟩, ?_⟩
    · exact active_of_step h.timers hg.issued htimer hactive
    · exact (cancelled_step h.timers ⟨hg.issued, Or.inl hg.inactive⟩ htimer).2
  | _ => exact ⟨⟨hissued, hinsertion, hg.inactive⟩, rfl⟩

lemma gone_run {s t : TimerLoop} {steps : List TimerLoopStep} {id : TimerId} (h : TimerLoopInv s)
    (hg : Gone s id) (hrun : timerLoopMachine.run s steps = some t) :
    TimerLoopInv t ∧ Gone t id ∧ t.timers.fired.count id = s.timers.fired.count id := by
  refine timerLoopMachine.invariant
    (I := fun u => TimerLoopInv u ∧ Gone u id ∧ u.timers.fired.count id = s.timers.fired.count id)
    ?_ ⟨h, hg, rfl⟩ hrun
  rintro u a u' ⟨hu, hgu, hcount⟩ hnext
  obtain ⟨hgu', hcount'⟩ := gone_step hu hgu hnext
  exact ⟨timerLoopInv_step hu hnext, hgu', hcount'.trans hcount⟩

/-- The task that cancels the timer is the one of the number `n` and waits, with no task behind
it that inserts the timer; or it has run. -/
def Queued (s : TimerLoop) (n : Nat) (id : TimerId) : Prop :=
  (id ∈ s.timers.issued ∧ ∃ front back, waiting s.loop = front ++ .cancelTimerInLoop id :: back ∧
    s.loop.started.length + front.length = n ∧
    ∀ a t, .addTimerInLoop a t ∈ back → (⟨some a, t.sequence⟩ : TimerId) ≠ id) ∨ Gone s id

lemma queued_append {s : TimerLoop} {n : Nat} {id : TimerId} {l : LoopState TimerTask} {u : TimerState}
    {f : TimerTask} (hwait : waiting l = waiting s.loop ++ [f]) (hstarted : l.started = s.loop.started)
    (hissued : id ∈ u.issued)
    (hnew : ∀ a t, f = .addTimerInLoop a t → (⟨some a, t.sequence⟩ : TimerId) ≠ id)
    (hq : ∃ front back, waiting s.loop = front ++ .cancelTimerInLoop id :: back ∧
      s.loop.started.length + front.length = n ∧
      ∀ a t, .addTimerInLoop a t ∈ back → (⟨some a, t.sequence⟩ : TimerId) ≠ id) :
    Queued ⟨l, u⟩ n id := by
  obtain ⟨front, back, hfront, hlen, hback⟩ := hq
  refine Or.inl ⟨hissued, front, back ++ [f], ?_, ?_, ?_⟩
  · dsimp only
    rw [hwait, hfront, List.append_assoc, List.cons_append]
  · dsimp only
    rw [hstarted]
    exact hlen
  · intro a t hmem
    rcases List.mem_append.mp hmem with hmem | hmem
    · exact hback a t hmem
    · exact hnew a t (List.mem_singleton.mp hmem).symm

lemma queued_step {s s' : TimerLoop} {a : TimerLoopStep} {n : Nat} {id : TimerId} (h : TimerLoopInv s)
    (hq : Queued s n id) (hnext : timerLoopMachine.next s a = some s') : Queued s' n id := by
  rcases hq with ⟨hid, hq⟩ | hg
  · have hissued := issued_of_step h hid hnext
    cases timerLoop_trans hnext with
    | @start l f hpc hwait hstarted =>
      obtain ⟨front, back, hfront, hlen, hback⟩ := hq
      cases front with
      | nil =>
        rw [hwait, List.nil_append, List.cons.injEq] at hfront
        obtain ⟨rfl, hwaiting⟩ := hfront
        refine Or.inr ⟨hissued, ?_, ?_⟩
        · intro a t hmem
          dsimp only at hmem
          rw [hwaiting] at hmem
          exact hback a t hmem
        · rcases erased_cancelTimer h.timers id with hgone | ⟨-, hphase⟩
          · exact hgone
          · exact absurd (h.idle hpc) hphase
      | cons g front =>
        rw [hwait, List.cons_append, List.cons.injEq] at hfront
        refine Or.inl ⟨hissued, front, back, hfront.2, ?_, hback⟩
        rw [List.length_cons] at hlen
        dsimp only
        rw [hstarted, List.length_append, List.length_singleton]
        omega
    | queue hwait hstarted hpc => exact queued_append hwait hstarted hissued (by simp) hq
    | control hwait hstarted hpc =>
      left
      dsimp only
      rw [hwait, hstarted]
      exact ⟨hid, hq⟩
    | timer htimer hpc => exact Or.inl ⟨hissued, hq⟩
    | foreignAddTimer ha hseq hwait hstarted hpc =>
      refine queued_append hwait hstarted hissued ?_ hq
      intro b u hnew heq
      obtain ⟨rfl, rfl⟩ := TimerTask.addTimerInLoop.inj hnew
      exact hseq id hid (by rw [← heq])
    | foreignCancelTimer hwait hstarted hpc => exact queued_append hwait hstarted hissued (by simp) hq
  · exact Or.inr (gone_step h hg hnext).1

/-! ### Runs -/

/-- The steps of the loop that a step makes. -/
def loopLabels : TimerLoopStep → List (LoopStep TimerTask)
  | .loop b => [b]
  | .timer _ => []
  | .foreignAddTimer p a t => [.foreignQueueInLoop p (.addTimerInLoop a t)]
  | .foreignCancelTimer p id => [.foreignQueueInLoop p (.cancelTimerInLoop id)]

/-- The timers leave the loop as it is. -/
lemma timerLoop_simulation :
    Simulation timerLoopMachine (loopMachine TimerTask) loopLabels (fun s l => s.loop = l) := by
  have hone : ∀ {l l' : LoopState TimerTask} {b : LoopStep TimerTask},
      (loopMachine TimerTask).next l b = some l' → (loopMachine TimerTask).run l [b] = some l' := by
    intro l l' b hnext
    exact ((loopMachine TimerTask).run_cons_eq_some l l' b []).mpr ⟨l', hnext, rfl⟩
  refine ⟨?_⟩
  rintro s l a s' rfl hnext
  cases a with
  | loop b =>
    simp only [timerLoopMachine, Option.ite_none_right_eq_some] at hnext
    obtain ⟨l, hl, rfl⟩ := Option.map_eq_some_iff.mp hnext.2
    exact ⟨l, hone hl, rfl⟩
  | timer b =>
    simp only [timerLoopMachine, Option.ite_none_right_eq_some] at hnext
    obtain ⟨u, hu, rfl⟩ := Option.map_eq_some_iff.mp hnext.2
    exact ⟨s.loop, rfl, rfl⟩
  | foreignAddTimer p a t =>
    simp only [timerLoopMachine, Option.ite_none_right_eq_some] at hnext
    obtain ⟨l, hl, rfl⟩ := Option.map_eq_some_iff.mp hnext.2
    exact ⟨l, hone hl, rfl⟩
  | foreignCancelTimer p id =>
    simp only [timerLoopMachine] at hnext
    obtain ⟨l, hl, rfl⟩ := Option.map_eq_some_iff.mp hnext
    exact ⟨l, hone hl, rfl⟩

/-- The tasks started and those that wait are the tasks queued. -/
lemma started_waiting_length {clock : Int} {steps : List TimerLoopStep} {s : TimerLoop}
    (hrun : timerLoopMachine.run (TimerLoop.make clock) steps = some s) :
    s.loop.started.length + (waiting s.loop).length = s.loop.enqueued.length := by
  obtain ⟨l, hl, rfl⟩ := timerLoop_simulation.run rfl hrun
  have horder := tasksInOrder_run hl
  unfold TasksInOrder at horder
  rw [horder, List.append_assoc, List.length_append, waiting]

/-- The step is a call of `cancelTimer` for the timer, on the loop thread or on another one. -/
def CancelCall (id : TimerId) : TimerLoopStep → Prop
  | .timer (.cancelTimer j) => j = id
  | .foreignCancelTimer _ j => j = id
  | _ => False

/-- At `t` the insertion of the timer and its cancellation, called at `s` by the step `call`, have
taken effect on the loop thread. A call on the loop thread that `handleRead` postpones takes
effect in `reset`. -/
def TakenEffect (s : TimerLoop) (call : TimerLoopStep) (id : TimerId) (t : TimerLoop) : Prop :=
  NotAwaited t id ∧
    match call with
    | .foreignCancelTimer _ _ => s.loop.enqueued.length < t.loop.started.length
    | _ => id ∉ t.timers.queue.cancelingTimerSet

/-- The call does not overtake the insertion: on the loop thread, the insertion is not waiting. -/
def NotOvertaking (s : TimerLoop) (id : TimerId) : TimerLoopStep → Prop
  | .timer _ => NotAwaited s id
  | _ => True

lemma gone_of_foreignCancelTimer {clock : Int} {steps more : List TimerLoopStep} {s s₁ t : TimerLoop}
    {p : Nat} {id : TimerId} (hrun : timerLoopMachine.run (TimerLoop.make clock) steps = some s)
    (hid : id ∈ s.timers.issued) (h₁ : TimerLoopInv s₁)
    (hcall : timerLoopMachine.next s (.foreignCancelTimer p id) = some s₁)
    (hmore : timerLoopMachine.run s₁ more = some t)
    (heffect : s.loop.enqueued.length < t.loop.started.length) : Gone t id := by
  have hqueued : Queued s₁ s.loop.enqueued.length id := by
    cases timerLoop_trans hcall with
    | foreignCancelTimer hwait hstarted hpc =>
      refine Or.inl ⟨hid, waiting s.loop, [], hwait, ?_, by simp⟩
      dsimp only
      rw [hstarted]
      exact started_waiting_length hrun
  have hend := timerLoopMachine.invariant
    (I := fun u => TimerLoopInv u ∧ Queued u s.loop.enqueued.length id)
    (fun _ _ _ hu hnext => ⟨timerLoopInv_step hu.1 hnext, queued_step hu.1 hu.2 hnext⟩)
    ⟨h₁, hqueued⟩ hmore
  rcases hend.2 with ⟨-, front, back, -, hlen, -⟩ | hg
  · omega
  · exact hg

lemma gone_of_cancelTimer {s s₁ t : TimerLoop} {more : List TimerLoopStep} {id : TimerId}
    (h : TimerLoopInv s) (hid : id ∈ s.timers.issued) (hnot : NotAwaited s id)
    (hcall : timerLoopMachine.next s (.timer (.cancelTimer id)) = some s₁)
    (hmore : timerLoopMachine.run s₁ more = some t)
    (heffect : id ∉ t.timers.queue.cancelingTimerSet) : Gone t id := by
  have hdoomed : Doomed s₁ id := by
    refine ⟨issued_of_step h hid hcall, notAwaited_step hid hnot hcall, ?_⟩
    cases timerLoop_trans hcall with
    | timer htimer hpc =>
      cases timer_trans h.timers htimer with
      | cancelTimer j => exact erased_cancelTimer h.timers id
  have hend := timerLoopMachine.invariant (I := fun u => TimerLoopInv u ∧ Doomed u id)
    (fun _ _ _ hu hnext => ⟨timerLoopInv_step hu.1 hnext, doomed_step hu.1 hu.2 hnext⟩)
    ⟨timerLoopInv_step h hcall, hdoomed⟩ hmore
  refine ⟨hend.2.issued, hend.2.insertion, ?_⟩
  rcases hend.2.erased with hgone | ⟨hcanceling, -⟩
  · exact hgone
  · exact absurd hcanceling heffect

/-- After a call of `cancelTimer` that does not overtake the insertion has taken effect, the timer
is in neither index in every later state, and its callback is never invoked again. -/
theorem cancel_effective_across_threads (clock : Int) (steps more rest : List TimerLoopStep)
    (s s₁ s₂ s₃ : TimerLoop) (call : TimerLoopStep) (id : TimerId)
    (hrun : timerLoopMachine.run (TimerLoop.make clock) steps = some s) (hid : id ∈ s.timers.issued)
    (hcancel : CancelCall id call) (hcall : timerLoopMachine.next s call = some s₁)
    (hnot : NotOvertaking s id call) (hmore : timerLoopMachine.run s₁ more = some s₂)
    (heffect : TakenEffect s call id s₂) (hrest : timerLoopMachine.run s₂ rest = some s₃) :
    id ∉ s₃.timers.queue.activeTimerSet ∧ (∀ e ∈ s₃.timers.queue.timerList.entries, activeOf e ≠ id) ∧
      s₃.timers.fired.count id = s₂.timers.fired.count id := by
  have h := timerLoopMachine.invariant (fun _ _ _ => timerLoopInv_step) (timerLoopInv_make clock) hrun
  have h₁ := timerLoopInv_step h hcall
  have hgone : Gone s₂ id := by
    cases call with
    | timer b =>
      cases b with
      | cancelTimer j =>
        obtain rfl : j = id := hcancel
        exact gone_of_cancelTimer h hid hnot hcall hmore heffect.2
      | _ => cases hcancel
    | foreignCancelTimer p j =>
      obtain rfl : j = id := hcancel
      exact gone_of_foreignCancelTimer hrun hid h₁ hcall hmore heffect.2
    | _ => cases hcancel
  have h₂ := timerLoopMachine.invariant (fun _ _ _ => timerLoopInv_step) h₁ hmore
  obtain ⟨h₃, hgone₃, hcount⟩ := gone_run h₂ hgone hrest
  refine ⟨hgone₃.inactive, ?_, hcount⟩
  intro e he heq
  exact hgone₃.inactive (h₃.timers.indexed.mem_active.mpr ⟨e, he, heq⟩)

/-- The loop thread is in the callback of a channel when thread 0 adds a timer. -/
def addDuringCallback : List TimerLoopStep :=
  [.loop .enterLoop, .loop .advance, .loop .advance, .loop .advance, .loop .advance,
   .loop (.pollReturns [.other]), .loop .advance, .foreignAddTimer 0 0 sampleOneShot,
   .loop (.foreignWakeUp 0)]

/-- The callback returns, and the loop runs the task that inserts the timer. -/
def untilInserted : List TimerLoopStep :=
  [.loop .userReturns, .loop .advance, .loop .advance, .loop .advance, .loop .advance]

/-- The next iteration of the loop finds the timerfd readable. -/
def untilFired : List TimerLoopStep :=
  [.loop .userReturns, .loop .advance, .loop .userReturns, .loop .advance, .loop .advance,
   .timer (.tick 200), .loop (.pollReturns [.other]), .loop .advance, .timer .handleRead, .timer .runEntry]

/-- The callback cancels a timer that another thread has just added: the timer is inserted
afterwards and fires. -/
theorem cancel_overtakes_insertion :
    ¬∀ (clock : Int) (steps more rest : List TimerLoopStep) (s s₁ s₂ s₃ : TimerLoop)
      (call : TimerLoopStep) (id : TimerId),
      timerLoopMachine.run (TimerLoop.make clock) steps = some s → id ∈ s.timers.issued →
      CancelCall id call → timerLoopMachine.next s call = some s₁ →
      timerLoopMachine.run s₁ more = some s₂ → TakenEffect s call id s₂ →
      timerLoopMachine.run s₂ rest = some s₃ →
      id ∉ s₃.timers.queue.activeTimerSet ∧ (∀ e ∈ s₃.timers.queue.timerList.entries, activeOf e ≠ id) ∧
        s₃.timers.fired.count id = s₂.timers.fired.count id := by
  intro hall
  have hfired : ((timerLoopMachine.run (TimerLoop.make 1) addDuringCallback).bind fun s =>
      (timerLoopMachine.next s (.timer (.cancelTimer ⟨some 0, 1⟩))).bind fun s₁ =>
        (timerLoopMachine.run s₁ untilInserted).bind fun s₂ =>
          (timerLoopMachine.run s₂ untilFired).map fun s₃ =>
            (s.timers.issued, waiting s₂.loop, s₂.timers.queue.cancelingTimerSet, s₂.timers.fired,
              s₃.timers.fired)) =
      some ([⟨some 0, 1⟩], [], [], [], [⟨some 0, 1⟩]) := by
    decide +kernel
  obtain ⟨s, hrun, hfired⟩ := Option.bind_eq_some_iff.mp hfired
  obtain ⟨s₁, hcall, hfired⟩ := Option.bind_eq_some_iff.mp hfired
  obtain ⟨s₂, hmore, hfired⟩ := Option.bind_eq_some_iff.mp hfired
  obtain ⟨s₃, hrest, hfired⟩ := Option.map_eq_some_iff.mp hfired
  simp only [Prod.mk.injEq] at hfired
  obtain ⟨hissued, hwait, hcanceling, hbefore, hafter⟩ := hfired
  have heffect : TakenEffect s (.timer (.cancelTimer ⟨some 0, 1⟩)) ⟨some 0, 1⟩ s₂ := by
    refine ⟨?_, by rw [hcanceling]; exact List.not_mem_nil⟩
    intro a t hmem
    rw [hwait] at hmem
    cases hmem
  have hcount := (hall 1 addDuringCallback untilInserted untilFired s s₁ s₂ s₃
    (.timer (.cancelTimer ⟨some 0, 1⟩)) ⟨some 0, 1⟩ hrun (by rw [hissued]; decide) rfl hcall hmore heffect
    hrest).2.2
  rw [hbefore, hafter] at hcount
  exact absurd hcount (by decide)

/-- Thread 1 cancels the timer that thread 0 has just added. -/
theorem cancel_effective_across_threads_behind :
    ∃ s s₁ s₂ s₃, timerLoopMachine.run (TimerLoop.make 1) addDuringCallback = some s ∧
      timerLoopMachine.next s (.foreignCancelTimer 1 ⟨some 0, 1⟩) = some s₁ ∧
      timerLoopMachine.run s₁ (untilInserted ++ [.loop .userReturns, .loop .advance]) = some s₂ ∧
      timerLoopMachine.run s₂ [.loop .userReturns] = some s₃ ∧ s₂.loop.started.length = 2 ∧
      s₃.timers.fired.count ⟨some 0, 1⟩ = s₂.timers.fired.count ⟨some 0, 1⟩ := by
  have hend : ((timerLoopMachine.run (TimerLoop.make 1) addDuringCallback).bind fun s =>
      (timerLoopMachine.next s (.foreignCancelTimer 1 ⟨some 0, 1⟩)).bind fun s₁ =>
        (timerLoopMachine.run s₁ (untilInserted ++ [.loop .userReturns, .loop .advance])).bind fun s₂ =>
          (timerLoopMachine.run s₂ [.loop .userReturns]).map fun _ =>
            (s.timers.issued, s.loop.enqueued.length, waiting s₂.loop, s₂.loop.started.length)) =
      some ([⟨some 0, 1⟩], 1, [], 2) := by
    decide +kernel
  obtain ⟨s, hrun, hend⟩ := Option.bind_eq_some_iff.mp hend
  obtain ⟨s₁, hcall, hend⟩ := Option.bind_eq_some_iff.mp hend
  obtain ⟨s₂, hmore, hend⟩ := Option.bind_eq_some_iff.mp hend
  obtain ⟨s₃, hrest, hend⟩ := Option.map_eq_some_iff.mp hend
  simp only [Prod.mk.injEq] at hend
  obtain ⟨hissued, hqueued, hwait, hstarted⟩ := hend
  have heffect : TakenEffect s (.foreignCancelTimer 1 ⟨some 0, 1⟩) ⟨some 0, 1⟩ s₂ := by
    refine ⟨?_, ?_⟩
    · intro a t hmem
      rw [hwait] at hmem
      cases hmem
    · change s.loop.enqueued.length < s₂.loop.started.length
      omega
  have hgone := cancel_effective_across_threads 1 addDuringCallback _ _ s s₁ s₂ s₃
    (.foreignCancelTimer 1 ⟨some 0, 1⟩) ⟨some 0, 1⟩ hrun (by rw [hissued]; decide) rfl hcall trivial hmore
    heffect hrest
  exact ⟨s, s₁, s₂, s₃, hrun, hcall, hmore, hrest, hstarted, hgone.2.2⟩

end MylibMuduo.Proofs
