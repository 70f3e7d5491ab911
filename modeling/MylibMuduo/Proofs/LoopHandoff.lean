import MylibMuduo.EventLoopThread
import MylibMuduo.Proofs.LoopSteps

/-!
# The handoff of `startLoop`

`startLoop` waits until `loop_` is not null, and `ThreadFunc` resets `loop_` when its `loop` has
returned. With `quit_` set `loop` returns at once, so a `quit` in front of the handoff lets
`ThreadFunc` run past it. Without such a `quit` the handoff cannot be missed.
-/

namespace MylibMuduo.Proofs

variable {τ : Type}

/-- `ThreadFunc` has not finished past a caller that still waits, and `startLoop` did not return
null. -/
structure HandoffOk (s : EventLoopThread τ) : Prop where
  notMissed : ¬(s.thread = .finished ∧ s.start.inWait = true ∧ s.published = false)
  notNull : s.start ≠ .returned false

/-- The step is a call of `quit` on the loop, by its owner or by another thread. -/
def callsQuit : HandoffStep τ → Bool
  | .loopStep .quit => true
  | .loopStep (.foreignQuit _) => true
  | _ => false

/-- `quit` is called on the loop only after `startLoop` has returned. -/
def quitAfterHandoff (s : EventLoopThread τ) (a : HandoffStep τ) : Prop :=
  callsQuit a = true → s.start.isReturned = true

instance (s : EventLoopThread τ) (a : HandoffStep τ) : Decidable (quitAfterHandoff s a) :=
  inferInstanceAs (Decidable (callsQuit a = true → s.start.isReturned = true))

/-- `ThreadFunc` has not called `loop`. -/
def beforeLoop : ThreadFuncPc → Bool
  | .looping => false
  | .reset => false
  | .finished => false
  | _ => true

/-! ### Steps of the handoff -/

/-- All that a step can do. -/
inductive HandoffTrans (s : EventLoopThread τ) : HandoffStep τ → EventLoopThread τ → Prop
  | startThread (hstart : s.start = .notCalled) :
    HandoffTrans s .startThread { s with thread := .testCallback, start := .starting }
  | startReturns (hstart : s.start = .starting) : HandoffTrans s .startReturns { s with start := .testing }
  | testPass (hstart : s.start = .testing) (hloop : s.published = true) :
    HandoffTrans s .testLoop { s with start := .passed }
  | testWait (hstart : s.start = .testing) (hloop : s.published = false) :
    HandoffTrans s .testLoop { s with start := .waiting }
  | spuriousWake (hstart : s.start = .waiting) : HandoffTrans s .spuriousWake { s with start := .testing }
  | returnLoop (hstart : s.start = .passed) :
    HandoffTrans s .returnLoop { s with start := .returned s.published }
  | storeExiting (hstart : s.start.isReturned = true) :
    HandoffTrans s .storeExiting { s with exiting := true }
  | callInit (hthread : s.thread = .testCallback) :
    HandoffTrans s .threadFunc { s with thread := .initCallback }
  | skipInit (hthread : s.thread = .testCallback) :
    HandoffTrans s .threadFunc { s with thread := .testExiting }
  | initReturns (hthread : s.thread = .initCallback) (hout : s.loop.pc.outside = true)
      (hin : s.loop.inQueueInLoop = false) : HandoffTrans s .threadFunc { s with thread := .testExiting }
  | exit (hthread : s.thread = .testExiting) (hexit : s.exiting = true) :
    HandoffTrans s .threadFunc { s with thread := .finished }
  | stay (hthread : s.thread = .testExiting) (hexit : s.exiting = false) :
    HandoffTrans s .threadFunc { s with thread := .publish }
  | publish (hthread : s.thread = .publish) :
    HandoffTrans s .threadFunc { s with published := true, start := s.start.notifyOne, thread := .callLoop }
  | callLoop (hthread : s.thread = .callLoop) :
    HandoffTrans s .threadFunc { s with loop := { s.loop with pc := .entryTest }, thread := .looping }
  | loopReturns (hthread : s.thread = .looping) (hout : s.loop.pc.outside = true) :
    HandoffTrans s .threadFunc { s with thread := .reset }
  | reset (hthread : s.thread = .reset) :
    HandoffTrans s .threadFunc { s with published := false, thread := .finished }
  | loopStep {a : LoopStep τ} {l : LoopState τ} (halive : s.alive = true)
      (hwho : a.isForeign = true ∨ s.ownerRuns = true) (hloop : LoopTrans s.loop a l) :
    HandoffTrans s (.loopStep a) { s with loop := l }

lemma threadFunc_trans {s s' : EventLoopThread τ} (h : s.threadFunc = some s') :
    HandoffTrans s .threadFunc s' := by
  unfold EventLoopThread.threadFunc at h
  split at h
  · next hthread =>
    by_cases hset : s.callBack = true
    · rw [if_pos hset] at h
      exact Option.some.inj h ▸ .callInit hthread
    · rw [if_neg hset] at h
      exact Option.some.inj h ▸ .skipInit hthread
  · next hthread =>
    rw [Option.ite_none_right_eq_some, Option.some.injEq] at h
    obtain ⟨⟨hout, hin⟩, rfl⟩ := h
    exact .initReturns hthread hout hin
  · next hthread =>
    by_cases hexit : s.exiting = true
    · rw [if_pos hexit] at h
      exact Option.some.inj h ▸ .exit hthread hexit
    · rw [if_neg hexit] at h
      exact Option.some.inj h ▸ .stay hthread (Bool.not_eq_true _ ▸ hexit)
  · next hthread => exact Option.some.inj h ▸ .publish hthread
  · next hthread =>
    rw [Option.map_eq_some_iff] at h
    obtain ⟨l, hl, rfl⟩ := h
    unfold LoopState.enterLoop at hl
    split at hl
    · exact Option.some.inj hl ▸ .callLoop hthread
    · exact Option.some.inj hl ▸ .callLoop hthread
    · cases hl
  · next hthread =>
    rw [Option.ite_none_right_eq_some, Option.some.injEq] at h
    obtain ⟨hout, rfl⟩ := h
    exact .loopReturns hthread hout
  · next hthread => exact Option.some.inj h ▸ .reset hthread
  · cases h

theorem handoff_trans {s s' : EventLoopThread τ} {a : HandoffStep τ}
    (hnext : (handoffMachine τ).next s a = some s') : HandoffTrans s a s' := by
  cases a with
  | testLoop =>
    simp only [handoffMachine, Option.ite_none_right_eq_some, Option.some.injEq] at hnext
    obtain ⟨hstart, hnext⟩ := hnext
    by_cases hloop : s.published = true
    · rw [if_pos hloop] at hnext
      exact hnext ▸ .testPass hstart hloop
    · rw [if_neg hloop] at hnext
      exact hnext ▸ .testWait hstart (Bool.not_eq_true _ ▸ hloop)
  | threadFunc => exact threadFunc_trans hnext
  | loopStep a =>
    simp only [handoffMachine, Option.ite_none_right_eq_some, Option.map_eq_some_iff] at hnext
    obtain ⟨⟨halive, hwho⟩, l, hl, rfl⟩ := hnext
    exact .loopStep halive hwho (loop_trans hl)
  | startThread =>
    simp only [handoffMachine, Option.ite_none_right_eq_some, Option.some.injEq] at hnext
    exact hnext.2 ▸ .startThread hnext.1
  | startReturns =>
    simp only [handoffMachine, Option.ite_none_right_eq_some, Option.some.injEq] at hnext
    exact hnext.2 ▸ .startReturns hnext.1
  | spuriousWake =>
    simp only [handoffMachine, Option.ite_none_right_eq_some, Option.some.injEq] at hnext
    exact hnext.2 ▸ .spuriousWake hnext.1
  | returnLoop =>
    simp only [handoffMachine, Option.ite_none_right_eq_some, Option.some.injEq] at hnext
    exact hnext.2 ▸ .returnLoop hnext.1
  | storeExiting =>
    simp only [handoffMachine, Option.ite_none_right_eq_some, Option.some.injEq] at hnext
    exact hnext.2 ▸ .storeExiting hnext.1

/-! ### Without an early `quit` the handoff happens -/

/-- `quit_` is not set and the loop does not end. -/
structure LoopRuns (l : LoopState τ) : Prop where
  quit : l.loop.quit = false
  pc : l.pc ≠ .clearLooping

/-- Without a `quit` the loop goes on, and its owner does not come out of it. -/
theorem loopRuns_step {l l' : LoopState τ} {a : LoopStep τ} (h : LoopRuns l) (htrans : LoopTrans l a l')
    (hquit : a ≠ .quit) (hforeign : ∀ t, a ≠ .foreignQuit t) :
    LoopRuns l' ∧ (l.pc.outside = false → l'.pc.outside = false) := by
  have hq := h.quit
  cases htrans with
  | entryQuit hpc hset =>
    rw [hq] at hset
    cases hset
  | whileQuit hpc hset =>
    rw [hq] at hset
    cases hset
  | clearLooping hpc => exact absurd hpc h.pc
  | queueInLoop f huser hin => exact ⟨⟨hq, h.pc⟩, id⟩
  | queueInLoopWake hin => exact ⟨⟨(queueInLoopWake_quit l.loop true).trans hq, h.pc⟩, id⟩
  | quit huser => exact absurd rfl hquit
  | foreignQueueInLoop t f hidle => exact ⟨⟨hq, h.pc⟩, id⟩
  | foreignQuit t hidle => exact absurd rfl (hforeign t)
  | foreignWakeUp t hbusy => exact ⟨⟨(wakeUp_quit l.loop).trans hq, h.pc⟩, id⟩
  | resetQuit hpc => exact ⟨⟨rfl, by simp⟩, fun _ => rfl⟩
  | _ => exact ⟨⟨hq, by simp⟩, fun _ => rfl⟩

/-- `startLoop` has not returned, and `ThreadFunc` will not reset `loop_`. -/
structure HandoffAhead (s : EventLoopThread τ) : Prop where
  runs : LoopRuns s.loop
  inLoop : s.thread = .looping → s.loop.pc.outside = false
  notReset : s.thread ≠ .reset
  notFinished : s.thread ≠ .finished
  published : s.thread = .callLoop ∨ s.thread = .looping → s.published = true
  passed : s.start = .passed → s.published = true
  exiting : s.exiting = false
  notReturned : s.start.isReturned = false

lemma notifyOne_eq_notCalled {pc : StartLoopPc} (h : pc.notifyOne = .notCalled) : pc = .notCalled := by
  cases pc with
  | notCalled => rfl
  | _ => cases h

lemma isReturned_notifyOne (pc : StartLoopPc) : pc.notifyOne.isReturned = pc.isReturned := by
  cases pc <;> rfl

lemma HandoffAhead.setStart {s : EventLoopThread τ} (h : HandoffAhead s) {pc : StartLoopPc}
    (hpassed : pc = .passed → s.published = true) (hreturned : pc.isReturned = false) :
    HandoffAhead { s with start := pc } :=
  ⟨h.runs, h.inLoop, h.notReset, h.notFinished, h.published, hpassed, h.exiting, hreturned⟩

/-- A step of the loop in front of the handoff. -/
lemma HandoffAhead.loopStep {s : EventLoopThread τ} {a : LoopStep τ} {l : LoopState τ} (h : HandoffAhead s)
    (hloop : LoopTrans s.loop a l) (hok : quitAfterHandoff s (.loopStep a)) :
    HandoffAhead { s with loop := l } := by
  have hquit : ¬s.start.isReturned = true := by
    rw [h.notReturned]
    simp
  have hcalls : callsQuit (.loopStep a) = false := by
    rw [← Bool.not_eq_true]
    exact fun hcalls => hquit (hok hcalls)
  obtain ⟨hruns, hout⟩ := loopRuns_step h.runs hloop (by rintro rfl; cases hcalls) (by rintro t rfl; cases hcalls)
  exact ⟨hruns, fun hthread => hout (h.inLoop hthread), h.notReset, h.notFinished, h.published, h.passed,
    h.exiting, h.notReturned⟩

theorem handoffAhead_step {s s' : EventLoopThread τ} {a : HandoffStep τ} (h : HandoffAhead s)
    (hok : quitAfterHandoff s a) (htrans : HandoffTrans s a s') :
    HandoffAhead s' ∨ s'.start = .returned true := by
  cases htrans with
  | startThread hstart =>
    left
    exact ⟨h.runs, by simp, by simp, by simp, by simp, by simp, h.exiting, rfl⟩
  | startReturns hstart => exact Or.inl (h.setStart (by simp) rfl)
  | testPass hstart hloop => exact Or.inl (h.setStart (fun _ => hloop) rfl)
  | testWait hstart hloop => exact Or.inl (h.setStart (by simp) rfl)
  | spuriousWake hstart => exact Or.inl (h.setStart (by simp) rfl)
  | returnLoop hstart => exact Or.inr (by simp [h.passed hstart])
  | storeExiting hstart =>
    rw [h.notReturned] at hstart
    cases hstart
  | exit hthread hexit =>
    rw [h.exiting] at hexit
    cases hexit
  | publish hthread =>
    left
    exact ⟨h.runs, by simp, by simp, by simp, fun _ => rfl, fun _ => rfl, h.exiting,
      (isReturned_notifyOne s.start).trans h.notReturned⟩
  | callLoop hthread =>
    left
    exact ⟨⟨h.runs.quit, by simp⟩, fun _ => rfl, by simp, by simp, fun _ => h.published (Or.inl hthread),
      h.passed, h.exiting, h.notReturned⟩
  | loopReturns hthread hout =>
    rw [h.inLoop hthread] at hout
    cases hout
  | reset hthread => exact absurd hthread h.notReset
  | loopStep halive hwho hloop => exact Or.inl (h.loopStep hloop hok)
  | _ =>
    left
    exact ⟨h.runs, by simp, by simp, by simp, by simp, h.passed, h.exiting, h.notReturned⟩

/-- `startLoop` keeps what it returned. -/
lemma returned_step {s s' : EventLoopThread τ} {a : HandoffStep τ} {b : Bool} (h : s.start = .returned b)
    (htrans : HandoffTrans s a s') : s'.start = .returned b := by
  cases htrans with
  | startThread hstart => simp [h] at hstart
  | startReturns hstart => simp [h] at hstart
  | testPass hstart hloop => simp [h] at hstart
  | testWait hstart hloop => simp [h] at hstart
  | spuriousWake hstart => simp [h] at hstart
  | returnLoop hstart => simp [h] at hstart
  | publish hthread => simp [h, StartLoopPc.notifyOne]
  | _ => exact h

/-- The handoff is ahead or has happened. -/
def HandoffSafe (s : EventLoopThread τ) : Prop := HandoffAhead s ∨ s.start = .returned true

theorem handoffSafe_step (s : EventLoopThread τ) (a : HandoffStep τ) (s' : EventLoopThread τ)
    (h : HandoffSafe s) (hok : quitAfterHandoff s a) (hnext : (handoffMachine τ).next s a = some s') :
    HandoffSafe s' := by
  have htrans := handoff_trans hnext
  rcases h with h | h
  · exact handoffAhead_step h hok htrans
  · exact Or.inr (returned_step h htrans)

lemma HandoffSafe.handoffOk {s : EventLoopThread τ} (h : HandoffSafe s) : HandoffOk s := by
  rcases h with h | h
  · refine ⟨fun hmissed => h.notFinished hmissed.1, fun hnull => ?_⟩
    have hreturned := h.notReturned
    rw [hnull] at hreturned
    cases hreturned
  · refine ⟨fun hmissed => ?_, by simp [h]⟩
    have hwait := hmissed.2.1
    rw [h] at hwait
    cases hwait

/-! ### With an early `quit` it can be missed -/

/-- `ThreadFunc` has published the loop. -/
def pastPublish : ThreadFuncPc → Bool
  | .callLoop => true
  | .looping => true
  | .reset => true
  | .finished => true
  | _ => false

/-- `ThreadFunc` is at a statement of its own, in front of its call of `loop`. -/
def ownStatement : ThreadFuncPc → Bool
  | .testCallback => true
  | .testExiting => true
  | .publish => true
  | .callLoop => true
  | _ => false

/-- What holds in every state that is reached. -/
structure HandoffInv (s : EventLoopThread τ) : Prop where
  fresh : s.thread = .notStarted → s.loop = LoopState.make
  called : s.start = .notCalled → s.thread = .notStarted
  outside : ownStatement s.thread = true → s.loop.pc.outside = true ∧ s.loop.inQueueInLoop = false
  published : s.published = true → pastPublish s.thread = true
  passed : s.start = .passed → pastPublish s.thread = true
  callLoop : s.thread = .callLoop → s.published = true
  exiting : s.start.isReturned = false → s.exiting = false

lemma handoffInv_make (callBack : Bool) : HandoffInv (EventLoopThread.make callBack : EventLoopThread τ) := by
  refine ⟨fun _ => rfl, fun _ => rfl, ?_, ?_, ?_, ?_, fun _ => rfl⟩ <;>
    simp [EventLoopThread.make, ownStatement]

lemma HandoffInv.started {s : EventLoopThread τ} (h : HandoffInv s) (hthread : s.thread ≠ .notStarted) :
    s.start ≠ .notCalled :=
  fun hstart => hthread (h.called hstart)

/-- The caller moves on inside `startLoop`. -/
lemma HandoffInv.setStart {s : EventLoopThread τ} (h : HandoffInv s) {pc : StartLoopPc} (hcalled : pc ≠ .notCalled)
    (hpassed : pc = .passed → s.published = true) (hreturned : s.start.isReturned = false) :
    HandoffInv { s with start := pc } :=
  ⟨h.fresh, fun hpc => absurd hpc hcalled, h.outside, h.published, fun hpc => h.published (hpassed hpc),
    h.callLoop, fun _ => h.exiting hreturned⟩

/-- `ThreadFunc` moves on, with the loop where it is. -/
lemma HandoffInv.setThread {s : EventLoopThread τ} (h : HandoffInv s) {pc : ThreadFuncPc}
    (hstarted : s.thread ≠ .notStarted) (hnew : pc ≠ .notStarted) (hcall : pc ≠ .callLoop)
    (hout : ownStatement pc = true → s.loop.pc.outside = true ∧ s.loop.inQueueInLoop = false)
    (hpast : pastPublish s.thread = true → pastPublish pc = true) : HandoffInv { s with thread := pc } :=
  ⟨fun hpc => absurd hpc hnew, fun hstart => absurd hstart (h.started hstarted), hout,
    fun hpub => hpast (h.published hpub), fun hpassed => hpast (h.passed hpassed),
    fun hpc => absurd hpc hcall, h.exiting⟩

/-- Another thread does not move the owner of the loop. -/
lemma foreign_outside {l l' : LoopState τ} {a : LoopStep τ} (htrans : LoopTrans l a l')
    (ha : a.isForeign = true) : l'.pc = l.pc ∧ l'.inQueueInLoop = l.inQueueInLoop := by
  cases htrans with
  | foreignQueueInLoop t f hidle => exact ⟨rfl, rfl⟩
  | foreignQuit t hidle => exact ⟨rfl, rfl⟩
  | foreignWakeUp t hbusy => exact ⟨rfl, rfl⟩
  | _ => cases ha

lemma HandoffInv.loopStep {s : EventLoopThread τ} {a : LoopStep τ} {l : LoopState τ} (h : HandoffInv s)
    (halive : s.alive = true) (hwho : a.isForeign = true ∨ s.ownerRuns = true) (hloop : LoopTrans s.loop a l) :
    HandoffInv { s with loop := l } := by
  refine ⟨fun hthread => ?_, h.called, fun hown => ?_, h.published, h.passed, h.callLoop, h.exiting⟩
  · have hstarted := (of_decide_eq_true halive).1
    exact absurd hthread hstarted
  · have hforeign : a.isForeign = true := by
      refine hwho.resolve_right fun howner => ?_
      change ownStatement s.thread = true at hown
      rcases of_decide_eq_true howner with hthread | ⟨hthread, -⟩
      · rw [hthread] at hown
        cases hown
      · rw [hthread] at hown
        cases hown
    obtain ⟨hpc, hin⟩ := foreign_outside hloop hforeign
    rw [hpc, hin]
    exact h.outside hown

theorem handoffInv_step (s : EventLoopThread τ) (a : HandoffStep τ) (s' : EventLoopThread τ) (h : HandoffInv s)
    (hnext : (handoffMachine τ).next s a = some s') : HandoffInv s' := by
  cases handoff_trans hnext with
  | startThread hstart =>
    have hthread := h.called hstart
    refine ⟨by simp, by simp, fun _ => ?_, fun hpub => ?_, by simp, by simp, fun _ => ?_⟩
    · rw [h.fresh hthread]
      exact ⟨rfl, rfl⟩
    · have hpast := h.published hpub
      rw [hthread] at hpast
      cases hpast
    · exact h.exiting (by rw [hstart]; rfl)
  | startReturns hstart => exact h.setStart (by simp) (by simp) (by rw [hstart]; rfl)
  | testPass hstart hloop => exact h.setStart (by simp) (fun _ => hloop) (by rw [hstart]; rfl)
  | testWait hstart hloop => exact h.setStart (by simp) (by simp) (by rw [hstart]; rfl)
  | spuriousWake hstart => exact h.setStart (by simp) (by simp) (by rw [hstart]; rfl)
  | returnLoop hstart => exact h.setStart (by simp) (by simp) (by rw [hstart]; rfl)
  | storeExiting hstart =>
    refine ⟨h.fresh, h.called, h.outside, h.published, h.passed, h.callLoop, fun hreturned => ?_⟩
    rw [hstart] at hreturned
    cases hreturned
  | callInit hthread =>
    exact h.setThread (by simp [hthread]) (by simp) (by simp) (by simp [ownStatement]) (by simp [hthread, pastPublish])
  | skipInit hthread =>
    exact h.setThread (by simp [hthread]) (by simp) (by simp) (fun _ => h.outside (by rw [hthread]; rfl))
      (by simp [hthread, pastPublish])
  | initReturns hthread hout hin =>
    exact h.setThread (by simp [hthread]) (by simp) (by simp) (fun _ => ⟨hout, hin⟩) (by simp [hthread, pastPublish])
  | exit hthread hexit =>
    exact h.setThread (by simp [hthread]) (by simp) (by simp) (by simp [ownStatement]) (by simp [pastPublish])
  | stay hthread hexit =>
    exact h.setThread (by simp [hthread]) (by simp) (by simp) (fun _ => h.outside (by rw [hthread]; rfl))
      (by simp [hthread, pastPublish])
  | publish hthread =>
    refine ⟨by simp, fun hstart => ?_, fun _ => h.outside (by rw [hthread]; rfl), fun _ => rfl, fun _ => rfl,
      fun _ => rfl, fun hreturned => h.exiting ((isReturned_notifyOne _).symm.trans hreturned)⟩
    exact absurd (notifyOne_eq_notCalled hstart) (h.started (by simp [hthread]))
  | callLoop hthread =>
    refine ⟨by simp, fun hstart => ?_, by simp [ownStatement], fun _ => rfl, fun _ => rfl, by simp, h.exiting⟩
    exact absurd hstart (h.started (by simp [hthread]))
  | loopReturns hthread hout =>
    exact h.setThread (by simp [hthread]) (by simp) (by simp) (by simp [ownStatement]) (by simp [pastPublish])
  | reset hthread =>
    refine ⟨by simp, fun hstart => ?_, by simp [ownStatement], by simp, fun _ => rfl, by simp, h.exiting⟩
    exact absurd hstart (h.started (by simp [hthread]))
  | loopStep halive hwho hloop => exact h.loopStep halive hwho hloop

/-- Some schedule without a further `quit` misses the handoff. -/
def Missable (s : EventLoopThread τ) : Prop :=
  ∃ more t, (handoffMachine τ).Meets quitAfterHandoff s more ∧ (handoffMachine τ).run s more = some t ∧
    ¬HandoffOk t

lemma missable_cons {s s' : EventLoopThread τ} {a : HandoffStep τ}
    (hnext : (handoffMachine τ).next s a = some s') (hcalls : callsQuit a = false) (h : Missable s') :
    Missable s := by
  have hok : quitAfterHandoff s a := by
    intro hquit
    rw [hcalls] at hquit
    cases hquit
  obtain ⟨more, t, hmeets, hrun, hmissed⟩ := h
  exact ⟨a :: more, t, (handoffMachine τ).meets_cons hok hnext hmeets,
    ((handoffMachine τ).run_cons_eq_some _ _ _ _).mpr ⟨s', hnext, hrun⟩, hmissed⟩

lemma missable_of_not_ok {s : EventLoopThread τ} (h : ¬HandoffOk s) : Missable s := ⟨[], s, trivial, rfl, h⟩

/-- The caller is inside `startLoop` and `quit_` is set. -/
structure Late (s : EventLoopThread τ) : Prop where
  called : s.start ≠ .notCalled
  notReturned : s.start.isReturned = false
  quit : s.loop.loop.quit = true

lemma missable_finished {s : EventLoopThread τ} (h : Late s) (hthread : s.thread = .finished)
    (hloop : s.published = false) : Missable s := by
  have hwait : ∀ u : EventLoopThread τ, u.thread = .finished → u.published = false → u.start.inWait = true →
      Missable u :=
    fun u hu hp hw => missable_of_not_ok fun hok => hok.notMissed ⟨hu, hw, hp⟩
  cases hstart : s.start with
  | notCalled => exact absurd hstart h.called
  | starting =>
    have hnext : (handoffMachine τ).next s .startReturns = some { s with start := .testing } := if_pos hstart
    exact missable_cons hnext rfl (hwait _ hthread hloop rfl)
  | testing => exact hwait s hthread hloop (by rw [hstart]; rfl)
  | waiting => exact hwait s hthread hloop (by rw [hstart]; rfl)
  | passed =>
    have hnext : (handoffMachine τ).next s .returnLoop = some { s with start := .returned s.published } :=
      if_pos hstart
    refine missable_cons hnext rfl (missable_of_not_ok fun hok => hok.notNull ?_)
    simp [hloop]
  | returned b =>
    have hreturned := h.notReturned
    rw [hstart] at hreturned
    cases hreturned

lemma missable_reset {s : EventLoopThread τ} (h : Late s) (hthread : s.thread = .reset) : Missable s := by
  have hnext : (handoffMachine τ).next s .threadFunc = some { s with published := false, thread := .finished } := by
    simp only [handoffMachine, EventLoopThread.threadFunc, hthread]
  exact missable_cons hnext rfl (missable_finished ⟨h.called, h.notReturned, h.quit⟩ rfl rfl)

lemma missable_looping {s : EventLoopThread τ} (h : Late s) (hthread : s.thread = .looping)
    (hpc : s.loop.pc.outside = true) : Missable s := by
  have hnext : (handoffMachine τ).next s .threadFunc = some { s with thread := .reset } := by
    simp only [handoffMachine, EventLoopThread.threadFunc, hthread]
    exact if_pos hpc
  exact missable_cons hnext rfl (missable_reset ⟨h.called, h.notReturned, h.quit⟩ rfl)

/-- With `quit_` set `loop` returns at its first test. -/
lemma missable_entryTest {s : EventLoopThread τ} (h : Late s) (hthread : s.thread = .looping)
    (hpc : s.loop.pc = .entryTest) : Missable s := by
  have hruns : s.alive = true ∧ (LoopStep.isForeign (.advance : LoopStep τ) = true ∨ s.ownerRuns = true) := by
    simp [EventLoopThread.alive, EventLoopThread.ownerRuns, hthread, hpc, LoopPc.outside]
  have hadvance : s.loop.advance = some { s.loop with pc := .returned } := by
    simp only [LoopState.advance, hpc, h.quit, if_true]
  have hnext : (handoffMachine τ).next s (.loopStep .advance) =
      some { s with loop := { s.loop with pc := .returned } } := by
    simp only [handoffMachine, if_pos hruns, loopMachine, hadvance, Option.map_some]
  exact missable_cons hnext rfl (missable_looping ⟨h.called, h.notReturned, h.quit⟩ hthread rfl)

lemma enterLoop_outside {l : LoopState τ} (h : l.pc.outside = true) :
    l.enterLoop = some { l with pc := .entryTest } := by
  unfold LoopState.enterLoop
  cases hpc : l.pc <;> simp [hpc, LoopPc.outside] at h ⊢

lemma missable_callLoop {s : EventLoopThread τ} (h : Late s) (hthread : s.thread = .callLoop)
    (hpc : s.loop.pc.outside = true) : Missable s := by
  have hnext : (handoffMachine τ).next s .threadFunc =
      some { s with loop := { s.loop with pc := .entryTest }, thread := .looping } := by
    simp only [handoffMachine, EventLoopThread.threadFunc, hthread, enterLoop_outside hpc, Option.map_some]
  exact missable_cons hnext rfl (missable_entryTest ⟨h.called, h.notReturned, h.quit⟩ rfl rfl)

lemma missable_publish {s : EventLoopThread τ} (h : Late s) (hthread : s.thread = .publish)
    (hpc : s.loop.pc.outside = true) : Missable s := by
  have hnext : (handoffMachine τ).next s .threadFunc =
      some { s with published := true, start := s.start.notifyOne, thread := .callLoop } := by
    simp only [handoffMachine, EventLoopThread.threadFunc, hthread]
  refine missable_cons hnext rfl (missable_callLoop ⟨fun hstart => h.called ?_, ?_, h.quit⟩ rfl hpc)
  · exact notifyOne_eq_notCalled hstart
  · exact (isReturned_notifyOne s.start).trans h.notReturned

lemma missable_testExiting {s : EventLoopThread τ} (h : Late s) (hexit : s.exiting = false)
    (hthread : s.thread = .testExiting) (hpc : s.loop.pc.outside = true) : Missable s := by
  have hnext : (handoffMachine τ).next s .threadFunc = some { s with thread := .publish } := by
    simp [handoffMachine, EventLoopThread.threadFunc, hthread, hexit]
  exact missable_cons hnext rfl (missable_publish ⟨h.called, h.notReturned, h.quit⟩ rfl hpc)

/-- The init callback returns, after the end of a `queueInLoop` that it is in. -/
lemma missable_initCallback {s : EventLoopThread τ} (h : Late s) (hexit : s.exiting = false)
    (hthread : s.thread = .initCallback) (hpc : s.loop.pc.outside = true) : Missable s := by
  have hreturn : ∀ u : EventLoopThread τ, Late u → u.exiting = false → u.thread = .initCallback →
      u.loop.pc.outside = true → u.loop.inQueueInLoop = false → Missable u := by
    intro u hu hexit hthread hpc hin
    have hnext : (handoffMachine τ).next u .threadFunc = some { u with thread := .testExiting } := by
      simp only [handoffMachine, EventLoopThread.threadFunc, hthread]
      exact if_pos ⟨hpc, hin⟩
    exact missable_cons hnext rfl (missable_testExiting ⟨hu.called, hu.notReturned, hu.quit⟩ hexit rfl hpc)
  cases hin : s.loop.inQueueInLoop with
  | false => exact hreturn s h hexit hthread hpc hin
  | true =>
    have hruns : s.alive = true ∧
        (LoopStep.isForeign (.queueInLoopWake : LoopStep τ) = true ∨ s.ownerRuns = true) := by
      simp [EventLoopThread.alive, EventLoopThread.ownerRuns, hthread]
    have hnext : (handoffMachine τ).next s (.loopStep .queueInLoopWake) =
        some { s with loop := { s.loop with loop := s.loop.loop.queueInLoopWake true, inQueueInLoop := false } } := by
      simp only [handoffMachine, if_pos hruns, loopMachine, if_pos hin, Option.map_some]
    refine missable_cons hnext rfl (hreturn _ ⟨h.called, h.notReturned, ?_⟩ hexit hthread hpc rfl)
    exact (queueInLoopWake_quit s.loop.loop true).trans h.quit

lemma missable_testCallback {s : EventLoopThread τ} (h : Late s) (hexit : s.exiting = false)
    (hthread : s.thread = .testCallback) (hpc : s.loop.pc.outside = true) : Missable s := by
  have hnext : (handoffMachine τ).next s .threadFunc =
      some { s with thread := if s.callBack then .initCallback else .testExiting } := by
    simp only [handoffMachine, EventLoopThread.threadFunc, hthread]
  refine missable_cons hnext rfl ?_
  by_cases hset : s.callBack = true
  · rw [if_pos hset]
    exact missable_initCallback ⟨h.called, h.notReturned, h.quit⟩ hexit rfl hpc
  · rw [if_neg hset]
    exact missable_testExiting ⟨h.called, h.notReturned, h.quit⟩ hexit rfl hpc

/-- Once `quit_` is set in front of `loop`, the handoff can be missed. -/
theorem missable_of_quit {s : EventLoopThread τ} (h : HandoffInv s) (hbefore : beforeLoop s.thread = true)
    (hpc : s.loop.pc.outside = true) (hreturned : s.start.isReturned = false)
    (hquit : s.loop.loop.quit = true) : Missable s := by
  have hexit := h.exiting hreturned
  have hstarted : s.thread ≠ .notStarted := by
    intro hthread
    rw [h.fresh hthread] at hquit
    cases hquit
  have hlate : Late s := ⟨h.started hstarted, hreturned, hquit⟩
  cases hthread : s.thread with
  | notStarted => exact absurd hthread hstarted
  | testCallback => exact missable_testCallback hlate hexit hthread hpc
  | initCallback => exact missable_initCallback hlate hexit hthread hpc
  | testExiting => exact missable_testExiting hlate hexit hthread hpc
  | publish => exact missable_publish hlate hthread hpc
  | callLoop => exact missable_callLoop hlate hthread hpc
  | looping => simp [hthread, beforeLoop] at hbefore
  | reset => simp [hthread, beforeLoop] at hbefore
  | finished => simp [hthread, beforeLoop] at hbefore

/-- In front of `loop` and without `quit_` the handoff is ahead. -/
lemma HandoffInv.ahead {s : EventLoopThread τ} (h : HandoffInv s) (hbefore : beforeLoop s.thread = true)
    (hpc : s.loop.pc.outside = true) (hreturned : s.start.isReturned = false)
    (hquit : s.loop.loop.quit = false) : HandoffAhead s := by
  have hpast : pastPublish s.thread = true → s.thread = .callLoop := by
    intro hpast
    cases hthread : s.thread <;> simp [hthread, beforeLoop, pastPublish] at hbefore hpast ⊢
  refine ⟨⟨hquit, ?_⟩, ?_, ?_, ?_, ?_, fun hstart => h.callLoop (hpast (h.passed hstart)), h.exiting hreturned,
    hreturned⟩
  · intro hclear
    simp [hclear, LoopPc.outside] at hpc
  · intro hthread
    simp [hthread, beforeLoop] at hbefore
  · intro hthread
    simp [hthread, beforeLoop] at hbefore
  · intro hthread
    simp [hthread, beforeLoop] at hbefore
  · rintro (hthread | hthread)
    · exact h.callLoop hthread
    · simp [hthread, beforeLoop] at hbefore

/-- In every run in which `quit` is called on the loop only after `startLoop` has returned, the
handoff is not missed and `startLoop` does not return null. And wherever a run stands in front of
`loop`, the handoff cannot be missed without a further `quit` exactly if `quit_` is not set. -/
theorem handoff_not_missed_iff (callBack : Bool) (steps : List (HandoffStep τ)) (s : EventLoopThread τ)
    (hrun : (handoffMachine τ).run (EventLoopThread.make callBack) steps = some s) :
    ((handoffMachine τ).Meets quitAfterHandoff (EventLoopThread.make callBack) steps → HandoffOk s) ∧
      (beforeLoop s.thread = true → s.loop.pc.outside = true → s.start.isReturned = false →
        ((∀ more t, (handoffMachine τ).Meets quitAfterHandoff s more →
          (handoffMachine τ).run s more = some t → HandoffOk t) ↔ s.loop.loop.quit = false)) := by
  have hstart := handoffInv_make (τ := τ) callBack
  have h : HandoffInv s := (handoffMachine τ).invariant handoffInv_step hstart hrun
  constructor
  · intro hmeets
    have hsafe : HandoffSafe (EventLoopThread.make callBack : EventLoopThread τ) :=
      Or.inl (hstart.ahead rfl rfl rfl rfl)
    exact ((handoffMachine τ).invariant_of_meets handoffSafe_step hsafe hmeets hrun).handoffOk
  · intro hbefore hpc hreturned
    constructor
    · intro hall
      rw [← Bool.not_eq_true]
      intro hquit
      obtain ⟨more, t, hmeets, hmore, hmissed⟩ := missable_of_quit h hbefore hpc hreturned hquit
      exact hmissed (hall more t hmeets hmore)
    · intro hquit more t hmeets hmore
      have hsafe : HandoffSafe s := Or.inl (h.ahead hbefore hpc hreturned hquit)
      exact ((handoffMachine τ).invariant_of_meets handoffSafe_step hsafe hmeets hmore).handoffOk

/-- The init callback queues a task and returns. -/
def initQueues : List (HandoffStep Nat) :=
  [.startThread, .threadFunc, .loopStep (.queueInLoop 7), .loopStep .queueInLoopWake, .threadFunc]

theorem handoff_not_missed_iff_queued :
    ∃ s : EventLoopThread Nat, (handoffMachine Nat).run (EventLoopThread.make true) initQueues = some s ∧
      HandoffOk s ∧ ∀ more t, (handoffMachine Nat).Meets quitAfterHandoff s more →
        (handoffMachine Nat).run s more = some t → HandoffOk t := by
  have hend : ((handoffMachine Nat).run (EventLoopThread.make true) initQueues).map (fun s =>
      (s.thread, s.loop.pc, s.start, s.loop.loop.quit)) = some (.testExiting, .notEntered, .starting, false) := by
    decide +kernel
  have hmeets : (handoffMachine Nat).Meets quitAfterHandoff (EventLoopThread.make true) initQueues := by
    decide +kernel
  obtain ⟨s, hrun, hs⟩ := Option.map_eq_some_iff.mp hend
  simp only [Prod.mk.injEq] at hs
  obtain ⟨hthread, hpc, hstart, hquit⟩ := hs
  obtain ⟨hok, hiff⟩ := handoff_not_missed_iff true initQueues s hrun
  refine ⟨s, hrun, hok hmeets, (hiff ?_ ?_ ?_).mpr hquit⟩
  · rw [hthread]
    rfl
  · rw [hpc]
    rfl
  · rw [hstart]
    rfl

/-- The init callback calls `quit`, and the caller waits while `ThreadFunc` runs to its end. -/
def quitInInit : List (HandoffStep Nat) :=
  [.startThread, .threadFunc, .loopStep .quit, .startReturns, .testLoop, .threadFunc, .threadFunc, .threadFunc,
   .threadFunc, .loopStep .advance, .threadFunc, .threadFunc, .testLoop]

/-- The caller sees the loop, and reads `loop_` again when it has been reset. -/
def quitInInitSeen : List (HandoffStep Nat) :=
  [.startThread, .threadFunc, .loopStep .quit, .startReturns, .threadFunc, .threadFunc, .threadFunc, .testLoop,
   .threadFunc, .loopStep .advance, .threadFunc, .threadFunc, .returnLoop]

theorem handoff_missed_after_quit_in_init :
    (∃ s, (handoffMachine Nat).run (EventLoopThread.make true) quitInInit = some s ∧ s.thread = .finished ∧
      s.start = .waiting ∧ s.published = false ∧ ¬HandoffOk s) ∧
    ∃ s, (handoffMachine Nat).run (EventLoopThread.make true) quitInInitSeen = some s ∧
      s.start = .returned false ∧ ¬HandoffOk s := by
  have hmissed : ((handoffMachine Nat).run (EventLoopThread.make true) quitInInit).map (fun s =>
      (s.thread, s.start, s.published)) = some (.finished, .waiting, false) := by
    decide +kernel
  have hnull : ((handoffMachine Nat).run (EventLoopThread.make true) quitInInitSeen).map (fun s => s.start) =
      some (.returned false) := by
    decide +kernel
  obtain ⟨s, hrun, hs⟩ := Option.map_eq_some_iff.mp hmissed
  obtain ⟨t, hrun', hstart'⟩ := Option.map_eq_some_iff.mp hnull
  simp only [Prod.mk.injEq] at hs
  obtain ⟨hthread, hstart, hloop⟩ := hs
  refine ⟨⟨s, hrun, hthread, hstart, hloop, fun hok => ?_⟩, t, hrun', hstart', fun hok => hok.notNull hstart'⟩
  exact hok.notMissed ⟨hthread, by rw [hstart]; rfl, hloop⟩

end MylibMuduo.Proofs
