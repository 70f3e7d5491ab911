import MylibMuduo.EventLoopThread

/-!
# The destructor of EventLoopThread

The owner of an `EventLoopThread` calls `startLoop` once and later destroys the object. The
destructor stores `exiting_`, calls `quit` on the loop if `loop_` is not null, and joins the
thread. `quit` is two accesses to the loop, the store of `quit_` and the write to its eventfd, and
the loop is a local variable of `ThreadFunc`. Among the threads of the loop the owner is number 0.
-/

namespace MylibMuduo

/-- Where the owner stands in `EventLoopThread::~EventLoopThread`. -/
inductive DestructorPc where
  | notCalled
  | testLoop
  | storeQuit
  | wakeUp
  | join
  | destroyed
  deriving DecidableEq, Repr

/-- `pointersValid` says that the destructor has used the loop only while it existed. -/
structure ThreadLife (τ : Type) where
  thread : EventLoopThread τ
  destructor : DestructorPc
  pointersValid : Bool

inductive LifeStep (τ : Type) where
  | thread (a : HandoffStep τ)
  | storeExiting
  | testLoop
  | storeQuit
  | wakeUp
  | join
  deriving DecidableEq

/-- The thread that executes the step of a loop, if it is not the loop's own. -/
def LoopStep.foreignThread {τ : Type} : LoopStep τ → Option Nat
  | .foreignQueueInLoop t _ => some t
  | .foreignQuit t => some t
  | .foreignWakeUp t => some t
  | _ => none

namespace HandoffStep

variable {τ : Type}

/-- The steps of the owner, in `startLoop` or in a call on the loop. -/
def ofOwner : HandoffStep τ → Bool
  | .threadFunc => false
  | .loopStep a => decide (a.foreignThread = some 0)
  | _ => true

/-- The first statement of the destructor, which has a step of its own here. -/
def storesExiting : HandoffStep τ → Bool
  | .storeExiting => true
  | _ => false

end HandoffStep

namespace ThreadLife

variable {τ : Type} (s : ThreadLife τ)

/-- `EventLoopThread::EventLoopThread`. -/
def make (callBack : Bool) : ThreadLife τ := ⟨EventLoopThread.make callBack, .notCalled, true⟩

/-- The owner is not inside `startLoop` or another call. -/
def OwnerFree : Prop :=
  (s.thread.start = .notCalled ∨ s.thread.start.isReturned = true) ∧ s.thread.loop.foreign 0 = .idle

instance : Decidable s.OwnerFree := by
  unfold OwnerFree
  infer_instance

/-- An access of the destructor to the loop: a step of the loop while it exists, and otherwise an
access to freed memory. -/
def useLoop (a : LoopStep τ) (pc : DestructorPc) : Option (ThreadLife τ) :=
  if s.thread.alive then
    ((loopMachine τ).next s.thread.loop a).map fun l =>
      { s with thread := { s.thread with loop := l }, destructor := pc }
  else some { s with pointersValid := false, destructor := pc }

end ThreadLife

/-- The interleavings of the owner, which constructs and destroys the object, with `ThreadFunc` and
the other threads that know the loop. `thread_` is null if `startLoop` was not called. -/
def lifeMachine (τ : Type) : Machine (ThreadLife τ) (LifeStep τ) where
  next s
    | .thread a =>
      if a.storesExiting = false ∧ (a.ofOwner = true → s.destructor = .notCalled) then
        ((handoffMachine τ).next s.thread a).map fun t => { s with thread := t }
      else none
    | .storeExiting =>
      if s.destructor = .notCalled ∧ s.OwnerFree then
        some { s with thread := { s.thread with exiting := true }, destructor := .testLoop }
      else none
    | .testLoop =>
      if s.destructor = .testLoop then
        some { s with destructor := if s.thread.published then .storeQuit else .join }
      else none
    | .storeQuit => if s.destructor = .storeQuit then s.useLoop (.foreignQuit 0) .wakeUp else none
    | .wakeUp => if s.destructor = .wakeUp then s.useLoop (.foreignWakeUp 0) .join else none
    | .join =>
      if s.destructor = .join ∧ (s.thread.thread = .finished ∨ s.thread.thread = .notStarted) then
        some { s with destructor := .destroyed }
      else none

end MylibMuduo
