import MylibMuduo.ThreadLife
import MylibMuduo.Proofs.LoopHandoff
import MylibMuduo.Proofs.LoopProgress

/-!
# The end of an EventLoopThread

If nobody but the destructor calls `quit`, the loop exists when the destructor stores `quit_`,
since `ThreadFunc` cannot have left `loop` before. It may have ended when the destructor goes on to
write to the eventfd. The `join` returns after a bounded number of steps of the thread, unless the
store fell between the first test of `quit_` in `loop` and the store of `false`; then it never
returns.
-/

namespace MylibMuduo

namespace LifeStep

variable {τ : Type}

/-- A step of the new thread. -/
def ofThread : LifeStep τ → Bool
  | .thread .threadFunc => true
  | .thread (.loopStep a) => a.ofLoop
  | _ => false

def enqueues : LifeStep τ → Bool
  | .thread (.loopStep a) => a.enqueues
  | _ => false

end LifeStep

namespace Proofs

variable {τ : Type}

/-- All that a step can do. -/
inductive LifeTrans (s : ThreadLife τ) : LifeStep τ → ThreadLife τ → Prop
  | thread {a : HandoffStep τ} {t : EventLoopThread τ} (hexit : a.storesExiting = false)
      (howner : a.ofOwner = true → s.destructor = .notCalled)
      (hnext : (handoffMachine τ).next s.thread a = some t) : LifeTrans s (.thread a) { s with thread := t }
  | storeExiting (hpc : s.destructor = .notCalled) (hfree : s.OwnerFree) :
      LifeTrans s .storeExiting { s with thread := { s.thread with exiting := true }, destructor := .testLoop }
  | testNull (hpc : s.destructor = .testLoop) (hloop : s.thread.published = false) :
      LifeTrans s .testLoop { s with destructor := .join }
  | testLoop (hpc : s.destructor = .testLoop) (hloop : s.thread.published = true) :
      LifeTrans s .testLoop { s with destructor := .storeQuit }
  | storeQuit {l : LoopState τ} (hpc : s.destructor = .storeQuit) (halive : s.thread.alive = true)
      (hnext : (loopMachine τ).next s.thread.loop (.foreignQuit 0) = some l) :
      LifeTrans s .storeQuit { s with thread := { s.thread with loop := l }, destructor := .wakeUp }
  | storeFreed (hpc : s.destructor = .storeQuit) (hfreed : s.thread.alive = false) :
      LifeTrans s .storeQuit { s with pointersValid := false, destructor := .wakeUp }
  | wakeUp {l : LoopState τ} (hpc : s.destructor = .wakeUp) (halive : s.thread.alive = true)
      (hnext : (loopMachine τ).next s.thread.loop (.foreignWakeUp 0) = some l) :
      LifeTrans s .wakeUp { s with thread := { s.thread with loop := l }, destructor := .join }
  | wakeFreed (hpc : s.destructor = .wakeUp) (hfreed : s.thread.alive = false) :
      LifeTrans s .wakeUp { s with pointersValid := false, destructor := .join }
  | join (hpc : s.destructor = .join) (hend : s.thread.thread = .finished ∨ s.thread.thread = .notStarted) :
      LifeTrans s .join { s with destructor := .destroyed }

lemma useLoop_cases {s s' : ThreadLife τ} {a : LoopStep τ} {pc : DestructorPc} (h : s.useLoop a pc = some s') :
    (s.thread.alive = true ∧ ∃ l, (loopMachine τ).next s.thread.loop a = some l ∧
      s' = { s with thread := { s.thread with loop := l }, destructor := pc }) ∨
    (s.thread.alive = false ∧ s' = { s with pointersValid := false, destructor := pc }) := by
  unfold ThreadLife.useLoop at h
  by_cases halive : s.thread.alive = true
  · rw [if_pos halive, Option.map_eq_some_iff] at h
    obtain ⟨l, hl, rfl⟩ := h
    exact Or.inl ⟨halive, l, hl, rfl⟩
  · rw [if_neg halive, Option.some.injEq] at h
    exact Or.inr ⟨Bool.not_eq_true _ ▸ halive, h.symm⟩

theorem life_trans {s s' : ThreadLife τ} {a : LifeStep τ} (hnext : (lifeMachine τ).next s a = some s') :
    LifeTrans s a s' := by
  cases a with
  | thread a =>
    simp only [lifeMachine, Option.ite_none_right_eq_some, Option.map_eq_some_iff] at hnext
    obtain ⟨⟨hexit, howner⟩, t, ht, rfl⟩ := hnext
    exact .thread hexit howner ht
  | storeExiting =>
    simp only [lifeMachine, Option.ite_none_right_eq_some, Option.some.injEq] at hnext
    exact hnext.2 ▸ .storeExiting hnext.1.1 hnext.1.2
  | testLoop =>
    simp only [lifeMachine, Option.ite_none_right_eq_some, Option.some.injEq] at hnext
    obtain ⟨hpc, hnext⟩ := hnext
    by_cases hloop : s.thread.published = true
    · rw [if_pos hloop] at hnext
      exact hnext ▸ .testLoop hpc hloop
    · rw [if_neg hloop] at hnext
      exact hnext ▸ .testNull hpc (Bool.not_eq_true _ ▸ hloop)
  | storeQuit =>
    simp only [lifeMachine, Option.ite_none_right_eq_some] at hnext
    rcases useLoop_cases hnext.2 with ⟨halive, l, hl, rfl⟩ | ⟨hfreed, rfl⟩
    · exact .storeQuit hnext.1 halive hl
    · exact .storeFreed hnext.1 hfreed
  | wakeUp =>
    simp only [lifeMachine, Option.ite_none_right_eq_some] at hnext
    rcases useLoop_cases hnext.2 with ⟨halive, l, hl, rfl⟩ | ⟨hfreed, rfl⟩
    · exact .wakeUp hnext.1 halive hl
    · exact .wakeFreed hnext.1 hfreed
  | join =>
    simp only [lifeMachine, Option.ite_none_right_eq_some, Option.some.injEq] at hnext
    exact hnext.2 ▸ .join hnext.1.1 hnext.1.2

/-- Nobody but the destructor calls `quit` on the loop. -/
def onlyDestructorQuits (_ : ThreadLife τ) : LifeStep τ → Prop
  | .thread a => callsQuit a = false
  | _ => True

instance (s : ThreadLife τ) (a : LifeStep τ) : Decidable (onlyDestructorQuits s a) := by
  unfold onlyDestructorQuits
  split
  · infer_instance
  · infer_instance

/-! ### Before the store of the destructor -/

/-- `ThreadFunc` has not left `loop`, and `loop_` is not null from its publication on. -/
structure ThreadRuns (s : EventLoopThread τ) : Prop where
  runs : LoopRuns s.loop
  inLoop : s.thread = .looping → s.loop.pc.outside = false
  notReset : s.thread ≠ .reset
  notFinished : s.thread ≠ .finished
  published : s.published = true ↔ s.thread = .callLoop ∨ s.thread = .looping
  outside : s.thread = .notStarted ∨ ownStatement s.thread = true → s.loop.pc.outside = true

lemma threadRuns_make (callBack : Bool) : ThreadRuns (EventLoopThread.make callBack : EventLoopThread τ) :=
  ⟨⟨rfl, by simp [EventLoopThread.make, LoopState.make]⟩, by simp [EventLoopThread.make],
    by simp [EventLoopThread.make], by simp [EventLoopThread.make], by simp [EventLoopThread.make], fun _ => rfl⟩

/-- Outside of the init callback and of `loop` only other threads use the loop. -/
lemma not_ownerRuns {s : EventLoopThread τ} (h : s.thread = .notStarted ∨ ownStatement s.thread = true) :
    ¬s.ownerRuns = true := by
  intro howner
  rcases of_decide_eq_true howner with hthread | ⟨hthread, -⟩
  · rw [hthread] at h
    rcases h with h | h <;> cases h
  · rw [hthread] at h
    rcases h with h | h <;> cases h

/-- Without a `quit` the thread stays in front of its end. -/
lemma ThreadRuns.step {s s' : EventLoopThread τ} {a : HandoffStep τ} (h : ThreadRuns s)
    (hstart : s.start = .notCalled → s.thread = .notStarted) (hexit : s.thread = .testExiting → s.exiting = false)
    (hquit : callsQuit a = false) (htrans : HandoffTrans s a s') : ThreadRuns s' := by
  have hunpublished : ∀ {p : ThreadFuncPc}, s.thread = p → p ≠ .callLoop → p ≠ .looping → s.published = false := by
    intro p hp hcall hloop
    rw [← Bool.not_eq_true, h.published, hp]
    exact fun hor => hor.elim hcall hloop
  cases htrans with
  | startThread hcalled =>
    have hpub := hunpublished (hstart hcalled) (by simp) (by simp)
    exact ⟨h.runs, by simp, by simp, by simp, by simp [hpub], fun _ => h.outside (Or.inl (hstart hcalled))⟩
  | callInit hthread =>
    have hpub := hunpublished hthread (by simp) (by simp)
    exact ⟨h.runs, by simp, by simp, by simp, by simp [hpub], by simp [ownStatement]⟩
  | initReturns hthread hout hin =>
    have hpub := hunpublished hthread (by simp) (by simp)
    exact ⟨h.runs, by simp, by simp, by simp, by simp [hpub], fun _ => hout⟩
  | skipInit hthread | stay hthread hexiting =>
    have hpub := hunpublished hthread (by simp) (by simp)
    exact ⟨h.runs, by simp, by simp, by simp, by simp [hpub], fun _ => h.outside (Or.inr (by rw [hthread]; rfl))⟩
  | exit hthread hexiting =>
    rw [hexit hthread] at hexiting
    cases hexiting
  | publish hthread =>
    exact ⟨h.runs, by simp, by simp, by simp, by simp, fun _ => h.outside (Or.inr (by rw [hthread]; rfl))⟩
  | callLoop hthread =>
    have hpub : s.published = true := h.published.mpr (Or.inl hthread)
    exact ⟨⟨h.runs.quit, by simp⟩, fun _ => rfl, by simp, by simp, by simp [hpub], by simp [ownStatement]⟩
  | loopReturns hthread hout =>
    rw [h.inLoop hthread] at hout
    cases hout
  | reset hthread => exact absurd hthread h.notReset
  | loopStep halive hwho hloop =>
    obtain ⟨hruns, hout⟩ := loopRuns_step h.runs hloop (by rintro rfl; cases hquit) (by rintro t rfl; cases hquit)
    refine ⟨hruns, fun hthread => hout (h.inLoop hthread), h.notReset, h.notFinished, h.published, fun hthread => ?_⟩
    have hforeign := hwho.resolve_right (not_ownerRuns hthread)
    rw [(foreign_outside hloop hforeign).1]
    exact h.outside hthread
  | _ => exact ⟨h.runs, h.inLoop, h.notReset, h.notFinished, h.published, h.outside⟩

/-- The destructor has not stored `quit_`. -/
def beforeStore : DestructorPc → Bool
  | .notCalled => true
  | .testLoop => true
  | .storeQuit => true
  | _ => false

/-- The destructor is in front of its store, or has found `loop_` null. -/
structure LifeAhead (s : ThreadLife τ) : Prop where
  thread : ThreadRuns s.thread
  unstarted : s.thread.start = .notCalled → s.thread.thread = .notStarted
  passed : s.thread.start = .passed ∨ s.thread.start.isReturned = true → s.thread.published = true
  exiting : s.thread.exiting = true → s.destructor ≠ .notCalled
  free : s.destructor ≠ .notCalled → s.thread.start = .notCalled ∨ s.thread.start.isReturned = true
  store : s.destructor = .storeQuit → s.thread.published = true

lemma lifeAhead_make (callBack : Bool) : LifeAhead (ThreadLife.make callBack : ThreadLife τ) :=
  ⟨threadRuns_make callBack, fun _ => rfl, by simp [ThreadLife.make, EventLoopThread.make, StartLoopPc.isReturned],
    by simp [ThreadLife.make, EventLoopThread.make], by simp [ThreadLife.make], by simp [ThreadLife.make]⟩

/-- The test of `exiting_` in `ThreadFunc` comes before the destructor. -/
lemma LifeAhead.not_exiting {s : ThreadLife τ} (h : LifeAhead s) (hthread : s.thread.thread = .testExiting) :
    s.thread.exiting = false := by
  rw [← Bool.not_eq_true]
  intro hexiting
  rcases h.free (h.exiting hexiting) with hstart | hstart
  · have hnot := h.unstarted hstart
    rw [hthread] at hnot
    cases hnot
  · have hpast := h.thread.published.mp (h.passed (Or.inr hstart))
    rw [hthread] at hpast
    rcases hpast with hpast | hpast <;> cases hpast

/-- `startLoop` goes on, the thread starts or publishes its loop; nothing else touches `loop_`. -/
lemma LifeAhead.start {s : ThreadLife τ} {a : HandoffStep τ} {t : EventLoopThread τ} (h : LifeAhead s)
    (hexit : a.storesExiting = false) (htrans : HandoffTrans s.thread a t) :
    (t.start = .notCalled → t.thread = .notStarted) ∧
      (t.start = .passed ∨ t.start.isReturned = true → t.published = true) ∧ t.exiting = s.thread.exiting ∧
      (s.thread.published = true → t.published = true) := by
  have hstarted : ∀ {p : ThreadFuncPc}, s.thread.thread = p → p ≠ .notStarted → s.thread.start ≠ .notCalled := by
    rintro p rfl hp hstart
    exact hp (h.unstarted hstart)
  cases htrans with
  | startThread hstart =>
    have hpub : s.thread.published = true → False := by
      intro hpub
      have hpast := h.thread.published.mp hpub
      rw [h.unstarted hstart] at hpast
      rcases hpast with hpast | hpast <;> cases hpast
    exact ⟨by simp, by simp [StartLoopPc.isReturned], rfl, fun hpub' => absurd hpub' hpub⟩
  | startReturns hstart | testWait hstart hloop | spuriousWake hstart =>
    exact ⟨by simp, by simp [StartLoopPc.isReturned], rfl, id⟩
  | testPass hstart hloop => exact ⟨by simp, fun _ => hloop, rfl, id⟩
  | returnLoop hstart => exact ⟨by simp, fun _ => h.passed (Or.inl hstart), rfl, id⟩
  | storeExiting hstart => cases hexit
  | publish hthread =>
    refine ⟨fun hstart => ?_, fun _ => rfl, rfl, fun _ => rfl⟩
    exact absurd (notifyOne_eq_notCalled hstart) (hstarted hthread (by simp))
  | reset hthread => exact absurd hthread h.thread.notReset
  | callInit hthread | skipInit hthread | initReturns hthread hout hin | exit hthread hexiting
  | stay hthread hexiting | callLoop hthread | loopReturns hthread hout =>
    exact ⟨fun hstart => absurd hstart (hstarted hthread (by simp)), h.passed, rfl, id⟩
  | loopStep halive hwho hloop => exact ⟨h.unstarted, h.passed, rfl, id⟩

lemma LifeAhead.step {s s' : ThreadLife τ} {a : LifeStep τ} (h : LifeAhead s) (hok : onlyDestructorQuits s a)
    (htrans : LifeTrans s a s') (hbefore : beforeStore s'.destructor = true) : LifeAhead s' := by
  cases htrans with
  | thread hexit howner hnext =>
    have htrans := handoff_trans hnext
    have hruns := h.thread.step h.unstarted h.not_exiting hok htrans
    obtain ⟨hunstarted, hpassed, hexiting, hpub⟩ := h.start hexit htrans
    refine ⟨hruns, hunstarted, hpassed, fun hset => h.exiting (hexiting ▸ hset), fun hpc => ?_,
      fun hpc => hpub (h.store hpc)⟩
    -- Inside the destructor the owner takes no step of `startLoop`.
    rcases h.free hpc with hstart | hstart
    · left
      have hidle : s.thread.thread = .notStarted := h.unstarted hstart
      cases htrans with
      | startThread hstart' => exact absurd (howner rfl) hpc
      | startReturns hstart' | testPass hstart' | testWait hstart' | spuriousWake hstart' | returnLoop hstart' =>
        rw [hstart] at hstart'
        cases hstart'
      | publish hthread =>
        rw [hidle] at hthread
        cases hthread
      | _ => exact hstart
    · right
      cases hreturned : s.thread.start with
      | returned b =>
        have hkeep := returned_step hreturned htrans
        change StartLoopPc.isReturned (EventLoopThread.start _) = true
        rw [hkeep]
        rfl
      | _ =>
        rw [hreturned] at hstart
        cases hstart
  | storeExiting hpc hfree => exact ⟨⟨h.thread.runs, h.thread.inLoop, h.thread.notReset, h.thread.notFinished,
      h.thread.published, h.thread.outside⟩, h.unstarted, h.passed, by simp, fun _ => hfree.1, by simp⟩
  | testLoop hpc hloop => exact ⟨h.thread, h.unstarted, h.passed, by simp, fun _ => h.free (by simp [hpc]),
      fun _ => hloop⟩
  | _ => cases hbefore

/-- The loop exists when the destructor stores `quit_`. -/
lemma LifeAhead.alive {s : ThreadLife τ} (h : LifeAhead s) (hpc : s.destructor = .storeQuit) :
    s.thread.alive = true := by
  have hloop := h.thread.published.mp (h.store hpc)
  unfold EventLoopThread.alive
  rcases hloop with hloop | hloop
  · simp [hloop]
  · simp [hloop]

lemma started_step {s s' : EventLoopThread τ} {a : HandoffStep τ} (h : s.thread ≠ .notStarted)
    (htrans : HandoffTrans s a s') : s'.thread ≠ .notStarted := by
  cases htrans with
  | startReturns hstart | testPass hstart | testWait hstart | spuriousWake hstart | returnLoop hstart => exact h
  | storeExiting hstart => exact h
  | loopStep halive hwho hloop => exact h
  | _ => simp

/-- What the uses of the loop in the destructor need. -/
structure LifeInv (s : ThreadLife τ) : Prop where
  ahead : beforeStore s.destructor = true → LifeAhead s
  started : s.destructor = .wakeUp → s.thread.thread ≠ .notStarted

lemma lifeInv_make (callBack : Bool) : LifeInv (ThreadLife.make callBack : ThreadLife τ) :=
  ⟨fun _ => lifeAhead_make callBack, by simp [ThreadLife.make]⟩

theorem lifeInv_step {s s' : ThreadLife τ} {a : LifeStep τ} (h : LifeInv s) (hok : onlyDestructorQuits s a)
    (htrans : LifeTrans s a s') : LifeInv s' := by
  constructor
  · intro hbefore
    have hs : beforeStore s.destructor = true := by
      cases htrans with
      | thread hexit howner hnext => exact hbefore
      | storeExiting hpc hfree => rw [hpc]; rfl
      | testLoop hpc hloop => rw [hpc]; rfl
      | _ => cases hbefore
    exact (h.ahead hs).step hok htrans hbefore
  · intro hpc'
    cases htrans with
    | thread hexit howner hnext => exact started_step (h.started hpc') (handoff_trans hnext)
    | storeQuit hpc halive hnext =>
      have hboth : s.thread.thread ≠ .notStarted ∧ s.thread.thread ≠ .finished := by
        simpa [EventLoopThread.alive] using halive
      exact hboth.1
    | storeFreed hpc hfreed =>
      have halive := (h.ahead (by rw [hpc]; rfl)).alive hpc
      rw [hfreed] at halive
      cases halive
    | _ => cases hpc'

/-- The destructor has used the loop only while it existed exactly if it wrote to the eventfd before
`ThreadFunc` returned. Its store of `quit_` always finds the loop. -/
theorem destructor_uses_loop_iff (callBack : Bool) (steps : List (LifeStep τ)) (s : ThreadLife τ)
    (honly : (lifeMachine τ).Meets onlyDestructorQuits (ThreadLife.make callBack) steps)
    (hrun : (lifeMachine τ).run (ThreadLife.make callBack) steps = some s) :
    (lifeMachine τ).Always (fun v => v.pointersValid = true) (ThreadLife.make callBack) steps ↔
      (lifeMachine τ).Meets (fun v a => a = .wakeUp → v.thread.thread ≠ .finished) (ThreadLife.make callBack) steps := by
  refine (lifeMachine τ).always_iff_meets_of_meets (I := LifeInv) ?_ (lifeInv_make callBack) rfl honly hrun
  intro v a v' hv hvalid hok hnext
  have htrans := life_trans hnext
  refine ⟨?_, fun _ => lifeInv_step hv hok htrans⟩
  cases htrans with
  | storeFreed hpc hfreed =>
    have halive := (hv.ahead (by rw [hpc]; rfl)).alive hpc
    rw [hfreed] at halive
    cases halive
  | wakeUp hpc halive hnext =>
    have hboth : v.thread.thread ≠ .notStarted ∧ v.thread.thread ≠ .finished := by
      simpa [EventLoopThread.alive] using halive
    exact iff_of_true hvalid fun _ => hboth.2
  | wakeFreed hpc hfreed =>
    have hend : v.thread.thread = .finished := by
      have hstarted := hv.started hpc
      simpa [EventLoopThread.alive, hstarted] using hfreed
    exact iff_of_false (by simp) fun hall => hall rfl hend
  | _ =>
    refine iff_of_true hvalid ?_
    intro ha
    cases ha

/-- `startLoop` returns a loop that is in `poll`. -/
def startedLoop : List (LifeStep Nat) := [.thread .startThread, .thread .threadFunc, .thread .threadFunc,
  .thread .threadFunc, .thread .startReturns, .thread .testLoop, .thread .returnLoop, .thread .threadFunc,
  .thread (.loopStep .advance), .thread (.loopStep .advance), .thread (.loopStep .advance),
  .thread (.loopStep .advance)]

/-- The loop leaves `poll` for its timeout, finds `quit_` set and returns, and `ThreadFunc` ends. -/
def loopEnds : List (LifeStep Nat) := .thread (.loopStep (.pollReturns [])) ::
  List.replicate 7 (.thread (.loopStep .advance)) ++ [.thread .threadFunc, .thread .threadFunc]

/-- The loop has ended when the destructor comes to write to its eventfd. -/
def writeAfterLoop : List (LifeStep Nat) :=
  startedLoop ++ [.storeExiting, .testLoop, .storeQuit] ++ loopEnds ++ [.wakeUp]

theorem destructor_uses_loop_iff_late :
    ((lifeMachine Nat).run (ThreadLife.make false) writeAfterLoop).isSome = true ∧
      ¬(lifeMachine Nat).Always (fun v => v.pointersValid = true) (ThreadLife.make false) writeAfterLoop := by
  have hsome : ((lifeMachine Nat).run (ThreadLife.make false) writeAfterLoop).isSome = true := by
    decide +kernel
  have honly : (lifeMachine Nat).Meets onlyDestructorQuits (ThreadLife.make false) writeAfterLoop := by
    decide +kernel
  have hlate : ¬(lifeMachine Nat).Meets (fun v a => a = .wakeUp → v.thread.thread ≠ .finished)
      (ThreadLife.make false) writeAfterLoop := by
    decide +kernel
  obtain ⟨s, hs⟩ := Option.isSome_iff_exists.mp hsome
  exact ⟨hsome, fun hvalid => hlate ((destructor_uses_loop_iff false _ s honly hs).mp hvalid)⟩

/-! ### After the store of the destructor -/

/-- `poll` fills `event_list_` at most. -/
def lifeFits (s : ThreadLife τ) : LifeStep τ → Prop
  | .thread (.loopStep a) => pollFits s.thread.loop a
  | _ => True

instance (s : ThreadLife τ) (a : LifeStep τ) : Decidable (lifeFits s a) := by
  unfold lifeFits
  split
  · infer_instance
  · infer_instance

/-- The steps of the thread until its end, once `quit_` is set for good. -/
def stepsToFinish (s : EventLoopThread τ) : Nat :=
  match s.thread with
  | .finished => 0
  | .reset => 1
  | .looping => stepsToReturn s.loop + 2
  | _ => 4

/-- `ThreadFunc` is behind its publication, and `quit_` is set for good. -/
structure ThreadEnds (s : EventLoopThread τ) : Prop where
  past : pastPublish s.thread = true
  called : s.start ≠ .notCalled
  seen : s.thread = .callLoop ∨ s.thread = .looping → QuitSeen s.loop

lemma ThreadEnds.not_before {s : EventLoopThread τ} (h : ThreadEnds s) {p : ThreadFuncPc} (hthread : s.thread = p)
    (hp : pastPublish p = false) : False := by
  have hpast := h.past
  rw [hthread, hp] at hpast
  cases hpast

lemma handoff_loopStep {s t : EventLoopThread τ} {a : LoopStep τ}
    (hnext : (handoffMachine τ).next s (.loopStep a) = some t) :
    (a.isForeign = true ∨ s.ownerRuns = true) ∧
      ∃ l, (loopMachine τ).next s.loop a = some l ∧ t = { s with loop := l } := by
  simp only [handoffMachine, Option.ite_none_right_eq_some, Option.map_eq_some_iff] at hnext
  obtain ⟨⟨-, hwho⟩, l, hl, rfl⟩ := hnext
  exact ⟨hwho, l, hl, rfl⟩

/-- A step of the loop, by a thread that may take it. -/
lemma ThreadEnds.loopStep {s : EventLoopThread τ} {a : LoopStep τ} {l : LoopState τ} (h : ThreadEnds s)
    (hwho : a.isForeign = true ∨ s.ownerRuns = true) (hfits : pollFits s.loop a)
    (hnext : (loopMachine τ).next s.loop a = some l) :
    ThreadEnds { s with loop := l } ∧
      stepsToFinish { s with loop := l } + (if a.ofLoop then 1 else 0) ≤ stepsToFinish s + taskSteps a := by
  refine ⟨⟨h.past, h.called, fun hthread => quitSeen_step (h.seen hthread) hnext⟩, ?_⟩
  by_cases hlooping : s.thread = .looping
  · have henter : a = .enterLoop → s.loop.pc ≠ .returned := by
      rintro rfl hpc
      rcases hwho with hwho | hwho
      · cases hwho
      · simp [EventLoopThread.ownerRuns, hlooping, hpc, LoopPc.outside] at hwho
    have hsteps := stepsToReturn_step (h.seen (Or.inr hlooping)).stays hfits henter (loop_trans hnext)
    simp only [stepsToFinish, hlooping]
    omega
  · -- Outside of `loop` the thread makes no step of the loop.
    have hother : a.ofLoop = false := by
      rcases hwho with hwho | hwho
      · cases a <;> first | rfl | cases hwho
      · simp only [EventLoopThread.ownerRuns, hlooping, false_and, or_false, decide_eq_true_eq] at hwho
        exact (h.not_before hwho rfl).elim
    rw [hother]
    simp only [stepsToFinish, Bool.false_eq_true, if_false, Nat.add_zero]
    split
    · exact Nat.zero_le _
    · exact Nat.le_add_right _ _
    · exact absurd ‹_› hlooping
    · exact Nat.le_add_right _ _

/-- A statement of `ThreadFunc`, or of the owner in `startLoop`. -/
lemma ThreadEnds.handoff {s t : EventLoopThread τ} {a : HandoffStep τ} (h : ThreadEnds s)
    (hno : ∀ b, a ≠ .loopStep b) (htrans : HandoffTrans s a t) :
    ThreadEnds t ∧ stepsToFinish t + (if LifeStep.ofThread (.thread a) then 1 else 0) ≤ stepsToFinish s := by
  cases htrans with
  | startThread hstart => exact absurd hstart h.called
  | startReturns hstart | testPass hstart | testWait hstart | spuriousWake hstart | returnLoop hstart =>
    exact ⟨⟨h.past, by simp, h.seen⟩, Nat.le_refl _⟩
  | storeExiting hstart => exact ⟨⟨h.past, h.called, h.seen⟩, Nat.le_refl _⟩
  | callInit hthread | skipInit hthread | initReturns hthread | exit hthread | stay hthread | publish hthread =>
    exact (h.not_before hthread rfl).elim
  | callLoop hthread =>
    have hset := (h.seen (Or.inl hthread)).stays.1
    refine ⟨⟨rfl, h.called, fun _ => ⟨⟨hset, rfl⟩, by simp⟩⟩, ?_⟩
    simp [stepsToFinish, stepsToReturn, returnSteps, hthread, LifeStep.ofThread]
  | loopReturns hthread hout =>
    exact ⟨⟨rfl, h.called, by simp⟩, by simp [stepsToFinish, hthread, LifeStep.ofThread]⟩
  | reset hthread => exact ⟨⟨rfl, h.called, by simp⟩, by simp [stepsToFinish, hthread, LifeStep.ofThread]⟩
  | loopStep halive hwho hloop => exact absurd rfl (hno _)

/-- The allowance of a step. -/
def lifeTaskSteps (a : LifeStep τ) : Nat := if a.enqueues then 3 else 0

theorem threadEnds_step {s s' : ThreadLife τ} {a : LifeStep τ} (h : ThreadEnds s.thread) (hfits : lifeFits s a)
    (htrans : LifeTrans s a s') :
    ThreadEnds s'.thread ∧
      stepsToFinish s'.thread + (if a.ofThread then 1 else 0) ≤ stepsToFinish s.thread + lifeTaskSteps a := by
  cases htrans with
  | @thread a t hexit howner hnext =>
    cases a with
    | loopStep a =>
      obtain ⟨hwho, l, hl, rfl⟩ := handoff_loopStep hnext
      exact h.loopStep hwho hfits hl
    | _ =>
      obtain ⟨hends, hsteps⟩ := h.handoff (by simp) (handoff_trans hnext)
      exact ⟨hends, Nat.le_trans hsteps (Nat.le_add_right _ _)⟩
  | storeQuit hpc halive hnext => exact h.loopStep (a := .foreignQuit 0) (Or.inl rfl) trivial hnext
  | wakeUp hpc halive hnext => exact h.loopStep (a := .foreignWakeUp 0) (Or.inl rfl) trivial hnext
  | storeExiting hpc hfree => exact ⟨⟨h.past, h.called, h.seen⟩, Nat.le_refl _⟩
  | _ => exact ⟨h, Nat.le_refl _⟩

/-- The store of the destructor comes to nothing: `loop` overwrites it, or has overwritten it. -/
structure ThreadLost (s : ThreadLife τ) : Prop where
  destructor : s.destructor = .wakeUp ∨ s.destructor = .join
  looping : s.thread.thread = .looping
  inLoop : s.thread.loop.pc.outside = false
  runs : s.thread.loop.pc.resetsQuit = true ∨ LoopRuns s.thread.loop

/-- In front of its store of `false`, or without a `quit`, a loop does not end. -/
lemma lost_loopStep {l l' : LoopState τ} {a : LoopStep τ} (hin : l.pc.outside = false)
    (h : l.pc.resetsQuit = true ∨ LoopRuns l) (hquit : a ≠ .quit) (hforeign : ∀ t, a ≠ .foreignQuit t)
    (htrans : LoopTrans l a l') :
    l'.pc.outside = false ∧ (l'.pc.resetsQuit = true ∨ LoopRuns l') := by
  rcases h with hwindow | hruns
  · cases htrans with
    | setLooping hpc => exact ⟨rfl, Or.inl rfl⟩
    | resetQuit hpc => exact ⟨rfl, Or.inr ⟨rfl, by simp⟩⟩
    | queueInLoop f huser hout | queueInLoopWake hout => exact ⟨hin, Or.inl hwindow⟩
    | quit huser => exact absurd rfl hquit
    | foreignQuit t hidle => exact absurd rfl (hforeign t)
    | foreignQueueInLoop t f hidle | foreignWakeUp t hbusy => exact ⟨hin, Or.inl hwindow⟩
    | enterLoop hpc hout =>
      rcases hpc with hpc | hpc
      · rw [hpc] at hin
        cases hin
      · rw [hpc] at hin
        cases hin
    | _ => simp_all [LoopPc.resetsQuit]
  · obtain ⟨hruns', hout⟩ := loopRuns_step hruns htrans hquit hforeign
    exact ⟨hout hin, Or.inr hruns'⟩

theorem threadLost_step {s s' : ThreadLife τ} {a : LifeStep τ} (h : ThreadLost s) (hok : onlyDestructorQuits s a)
    (htrans : LifeTrans s a s') : ThreadLost s' := by
  have hpc : s.destructor = .wakeUp ∨ s.destructor = .join := h.destructor
  cases htrans with
  | @thread a t hexit howner hnext =>
    cases handoff_trans hnext with
    | startThread hstart => exact absurd (howner rfl) (by rcases hpc with hpc | hpc <;> simp [hpc])
    | startReturns hstart | testPass hstart | testWait hstart | spuriousWake hstart | returnLoop hstart =>
      exact ⟨hpc, h.looping, h.inLoop, h.runs⟩
    | storeExiting hstart => exact ⟨hpc, h.looping, h.inLoop, h.runs⟩
    | loopReturns hthread hout =>
      rw [h.inLoop] at hout
      cases hout
    | loopStep halive hwho hloop =>
      obtain ⟨hin, hruns⟩ := lost_loopStep h.inLoop h.runs (by rintro rfl; cases hok) (by rintro t rfl; cases hok) hloop
      exact ⟨hpc, h.looping, hin, hruns⟩
    | _ => simp_all [h.looping]
  | wakeUp hpc' halive hnext =>
    obtain ⟨hin, hruns⟩ := lost_loopStep h.inLoop h.runs (by simp) (by simp) (loop_trans hnext)
    exact ⟨Or.inr rfl, h.looping, hin, hruns⟩
  | wakeFreed hpc' hfreed => exact ⟨Or.inr rfl, h.looping, h.inLoop, h.runs⟩
  | join hpc' hend => simp [h.looping] at hend
  | _ => simp_all

lemma stepsToFinish_pos {s : EventLoopThread τ} (h : s.thread ≠ .finished) : 0 < stepsToFinish s := by
  unfold stepsToFinish
  split
  · exact absurd ‹_› h
  · exact Nat.one_pos
  · exact Nat.succ_pos _
  · exact Nat.succ_pos _

/-- The store of the destructor meets a loop that has been published and has not returned. -/
lemma storeQuit_cases {callBack : Bool} {before : List (LifeStep τ)} {s s' : ThreadLife τ}
    (honly : (lifeMachine τ).Meets onlyDestructorQuits (ThreadLife.make callBack) before)
    (hrun : (lifeMachine τ).run (ThreadLife.make callBack) before = some s)
    (hstore : (lifeMachine τ).next s .storeQuit = some s') :
    LifeAhead s ∧ s.destructor = .storeQuit ∧ ∃ l, (loopMachine τ).next s.thread.loop (.foreignQuit 0) = some l ∧
      s' = { s with thread := { s.thread with loop := l }, destructor := .wakeUp } := by
  have hinv : LifeInv s := (lifeMachine τ).invariant_of_meets
    (fun _ _ _ hv hok hnext => lifeInv_step hv hok (life_trans hnext)) (lifeInv_make callBack) honly hrun
  cases life_trans hstore with
  | storeQuit hpc halive hnext => exact ⟨hinv.ahead (by rw [hpc]; rfl), hpc, _, hnext, rfl⟩
  | storeFreed hpc hfreed =>
    have halive := (hinv.ahead (by rw [hpc]; rfl)).alive hpc
    rw [hfreed] at halive
    cases halive

/-- Nobody else has called `quit` before the store. If the destructor stores `quit_` outside of the
window in which `loop` overwrites it, the thread ends by the time it has made `stepsToFinish` steps and
three for each task queued since, and until then every `poll` is woken. If it stores `quit_` in that
window and nobody else calls `quit`, the thread never ends and the destructor never returns. -/
theorem destructor_joins (callBack : Bool) (before steps : List (LifeStep τ)) (s s' u : ThreadLife τ)
    (honly : (lifeMachine τ).Meets onlyDestructorQuits (ThreadLife.make callBack) before)
    (hrun : (lifeMachine τ).run (ThreadLife.make callBack) before = some s)
    (hstore : (lifeMachine τ).next s .storeQuit = some s') (hmore : (lifeMachine τ).run s' steps = some u) :
    (s.thread.loop.pc.resetsQuit = false → (lifeMachine τ).Meets lifeFits s' steps →
      (stepsToFinish s'.thread + 3 * steps.countP LifeStep.enqueues ≤ steps.countP LifeStep.ofThread →
        (lifeMachine τ).Reaches (fun v => v.thread.thread = .finished) s' steps) ∧
      (u.thread.thread = .looping → u.thread.loop.pc = .poll →
        0 < u.thread.loop.loop.wakeupFd ∨ ∃ t, u.thread.loop.foreign t ≠ .idle)) ∧
    (s.thread.loop.pc.resetsQuit = true → (lifeMachine τ).Meets onlyDestructorQuits s' steps →
      u.thread.thread = .looping ∧ u.destructor ≠ .destroyed) := by
  obtain ⟨hahead, hpc, l, hl, rfl⟩ := storeQuit_cases honly hrun hstore
  have hpub := hahead.store hpc
  have hloop := hahead.thread.published.mp hpub
  obtain ⟨hquit, hsame, hforeign⟩ : l.loop.quit = true ∧ l.pc = s.thread.loop.pc ∧ l.foreign 0 ≠ .idle := by
    cases loop_trans hl with
    | foreignQuit t hidle => exact ⟨rfl, rfl, by simp [LoopState.setForeign]⟩
  constructor
  · intro hwindow hfits
    have hends : ThreadEnds { s.thread with loop := l } := by
      refine ⟨?_, ?_, fun _ => ⟨⟨hquit, hsame ▸ hwindow⟩, fun _ => Or.inr ⟨0, hforeign⟩⟩⟩
      · rcases hloop with hloop | hloop
        · rw [hloop]; rfl
        · rw [hloop]; rfl
      · intro hstart
        rw [hahead.unstarted hstart] at hloop
        rcases hloop with hloop | hloop <;> cases hloop
    constructor
    · intro hcount
      refine (lifeMachine τ).reaches_of_le_countP (I := fun v => ThreadEnds v.thread) LifeStep.ofThread lifeTaskSteps
        (fun v => stepsToFinish v.thread) ?_ (fun v _ => stepsToFinish_pos) hends hfits hmore
        (by rw [show (steps.map lifeTaskSteps).sum = _ from Machine.sum_map_ite LifeStep.enqueues 3 steps]
            exact hcount)
      intro v a v' hv _ hfit hnext
      obtain ⟨hv', hsteps⟩ := threadEnds_step hv hfit (life_trans hnext)
      exact ⟨hv', Or.inr hsteps⟩
    · intro hlooping hpoll
      have hu : ThreadEnds u.thread := (lifeMachine τ).invariant_of_meets (I := fun v => ThreadEnds v.thread)
        (fun _ _ _ hv hfit hnext => (threadEnds_step hv hfit (life_trans hnext)).1) hends hfits hmore
      exact (hu.seen (Or.inr hlooping)).woken hpoll
  · intro hwindow honly'
    have hlooping : s.thread.thread = .looping := by
      refine hloop.resolve_left fun hcall => ?_
      have hout := hahead.thread.outside (Or.inr (by rw [hcall]; rfl))
      cases hp : s.thread.loop.pc <;> simp_all [LoopPc.outside, LoopPc.resetsQuit]
    have hlost : ThreadLost { s with thread := { s.thread with loop := l }, destructor := .wakeUp } :=
      ⟨Or.inl rfl, hlooping, hsame ▸ hahead.thread.inLoop hlooping, Or.inl (hsame ▸ hwindow)⟩
    have hu := (lifeMachine τ).invariant_of_meets (I := ThreadLost)
      (fun _ _ _ hv hok hnext => threadLost_step hv hok (life_trans hnext)) hlost honly' hmore
    refine ⟨hu.looping, ?_⟩
    rcases hu.destructor with hd | hd
    · simp [hd]
    · simp [hd]

/-- The loop is in `poll` when the destructor stores `quit_`, and a full `event_list_` comes first. -/
def untilFinished : List (LifeStep Nat) :=
  .wakeUp :: (fullDispatch ++ List.replicate 7 LoopStep.advance).map (fun a => .thread (.loopStep a)) ++
    [.thread .threadFunc, .thread .threadFunc]

/-- The destructor stores `quit_` before the loop has stored it, and the loop then overwrites it. -/
def overwritten : List (LifeStep Nat) := startedLoop.drop 9 ++ [.wakeUp]

/-- In the first run the store is outside of the window, in the second one inside. -/
theorem destructor_joins_last_step :
    (∃ s s' u, (lifeMachine Nat).run (ThreadLife.make false) (startedLoop ++ [.storeExiting, .testLoop]) = some s ∧
      (lifeMachine Nat).next s .storeQuit = some s' ∧ (lifeMachine Nat).run s' untilFinished = some u ∧
      stepsToFinish s'.thread = untilFinished.countP LifeStep.ofThread ∧
      (lifeMachine Nat).Reaches (fun v => v.thread.thread = .finished) s' untilFinished) ∧
    ∃ s s' u, (lifeMachine Nat).run (ThreadLife.make false) (startedLoop.take 9 ++ [.storeExiting, .testLoop]) =
        some s ∧
      (lifeMachine Nat).next s .storeQuit = some s' ∧ (lifeMachine Nat).run s' overwritten = some u ∧
      u.thread.thread = .looping ∧ u.destructor ≠ .destroyed := by
  constructor
  · have honly : (lifeMachine Nat).Meets onlyDestructorQuits (ThreadLife.make false)
        (startedLoop ++ [.storeExiting, .testLoop]) := by
      decide +kernel
    have hend : ((lifeMachine Nat).run (ThreadLife.make false) (startedLoop ++ [.storeExiting, .testLoop])).bind
        (fun s => ((lifeMachine Nat).next s .storeQuit).bind fun s' => ((lifeMachine Nat).run s' untilFinished).map
          fun _ => (s.thread.loop.pc.resetsQuit,
            decide (stepsToFinish s'.thread = untilFinished.countP LifeStep.ofThread),
            untilFinished.countP LifeStep.enqueues, decide ((lifeMachine Nat).Meets lifeFits s' untilFinished))) =
        some (false, true, 0, true) := by
      decide +kernel
    obtain ⟨s, hrun, hend⟩ := Option.bind_eq_some_iff.mp hend
    obtain ⟨s', hstore, hend⟩ := Option.bind_eq_some_iff.mp hend
    obtain ⟨u, hmore, hend⟩ := Option.map_eq_some_iff.mp hend
    simp only [Prod.mk.injEq, decide_eq_true_eq] at hend
    obtain ⟨hwindow, hcount, hnone, hfits⟩ := hend
    have hreach := ((destructor_joins false _ untilFinished s s' u honly hrun hstore hmore).1 hwindow hfits).1
    exact ⟨s, s', u, hrun, hstore, hmore, hcount, hreach (by rw [hnone, hcount]; exact Nat.le_refl _)⟩
  · have honly : (lifeMachine Nat).Meets onlyDestructorQuits (ThreadLife.make false)
        (startedLoop.take 9 ++ [.storeExiting, .testLoop]) := by
      decide +kernel
    have hend : ((lifeMachine Nat).run (ThreadLife.make false)
        (startedLoop.take 9 ++ [.storeExiting, .testLoop])).bind
        (fun s => ((lifeMachine Nat).next s .storeQuit).bind fun s' => ((lifeMachine Nat).run s' overwritten).map
          fun _ => (s.thread.loop.pc.resetsQuit,
            decide ((lifeMachine Nat).Meets onlyDestructorQuits s' overwritten))) = some (true, true) := by
      decide +kernel
    obtain ⟨s, hrun, hend⟩ := Option.bind_eq_some_iff.mp hend
    obtain ⟨s', hstore, hend⟩ := Option.bind_eq_some_iff.mp hend
    obtain ⟨u, hmore, hend⟩ := Option.map_eq_some_iff.mp hend
    simp only [Prod.mk.injEq, decide_eq_true_eq] at hend
    obtain ⟨hwindow, honly'⟩ := hend
    obtain ⟨hlooping, hnever⟩ :=
      (destructor_joins false _ overwritten s s' u honly hrun hstore hmore).2 hwindow honly'
    exact ⟨s, s', u, hrun, hstore, hmore, hlooping, hnever⟩

end Proofs

end MylibMuduo
