import Mathlib.Algebra.Group.Nat.Defs
import Mathlib.Logic.Function.Basic
import MylibMuduo.Lib.Machine

/-!
# EventLoop

The loop thread of `EventLoop.cc` among any number of other threads. A load or store of an
atomic, a critical section of `mtx_` and a system call are one step each. The tasks are values
of a type `τ`; what they do, and what the channel callbacks do, is the environment's: they
queue tasks and call `quit` by steps of their own.
-/

namespace MylibMuduo

/-- The largest value of an eventfd counter. -/
def kEventFdMax : Nat := 2 ^ 64 - 2

/-- `wakeupFd` is the counter of the eventfd. -/
structure EventLoop (τ : Type) where
  looping : Bool
  quit : Bool
  callingPendingFunctors : Bool
  pendingFunctors : List τ
  wakeupFd : Nat
  deriving DecidableEq, Repr

namespace EventLoop

variable {τ : Type} (l : EventLoop τ)

/-- `EventLoop::EventLoop`. -/
def make : EventLoop τ := ⟨false, false, false, [], 0⟩

/-- `EventLoop::handleRead`; with the counter at zero the read fails. -/
def handleRead : EventLoop τ := { l with wakeupFd := 0 }

/-- `EventLoop::wakeUp`; with the counter at its maximum the write fails. -/
def wakeUp : EventLoop τ :=
  if l.wakeupFd < kEventFdMax then { l with wakeupFd := l.wakeupFd + 1 } else l

/-- The critical section of `EventLoop::queueInLoop`. -/
def emplaceBack (f : τ) : EventLoop τ := { l with pendingFunctors := l.pendingFunctors ++ [f] }

/-- `EventLoop::queueInLoop` after its critical section. -/
def queueInLoopWake (inLoopThread : Bool) : EventLoop τ :=
  if !inLoopThread || l.callingPendingFunctors then l.wakeUp else l

/-- The store of `EventLoop::quit`. -/
def storeQuit : EventLoop τ := { l with quit := true }

end EventLoop

/-- A channel that `poll` reports: the one of the eventfd, or another. -/
inductive ActiveChannel where
  | wakeup | other
  deriving DecidableEq, Repr

/-- Where the loop thread stands. In `callback`, in `functor` and in the destructor of the first
of `destroying` it runs user code. -/
inductive LoopPc (τ : Type) where
  | notEntered
  | entryTest
  | setLooping
  | resetQuit
  | whileTest
  | poll
  | dispatch (active : List ActiveChannel)
  | callback (active : List ActiveChannel)
  | setCalling
  | swap
  | running (done rest : List τ)
  | functor (done rest : List τ)
  | destroying (tasks : List τ)
  | clearLooping
  | returned
  deriving DecidableEq, Repr

namespace LoopPc

variable {τ : Type}

/-- The tasks of the batch that have not started. -/
def rest : LoopPc τ → List τ
  | .running _ rest => rest
  | .functor _ rest => rest
  | _ => []

/-- The user's code runs on the loop thread, inside `loop` or outside of it. -/
def inUserCode : LoopPc τ → Bool
  | .notEntered => true
  | .callback _ => true
  | .functor _ _ => true
  | .destroying (_ :: _) => true
  | .returned => true
  | _ => false

end LoopPc

/-- Where another thread stands: it has to call `wakeUp` in `enqueued` and in `quitStored`. -/
inductive ForeignPc where
  | idle | enqueued | quitStored
  deriving DecidableEq, Repr

/-- The threads of one loop, with the tasks queued and the tasks started so far.
`inQueueInLoop` says that the loop thread itself has queued a task and not returned yet. -/
structure LoopState (τ : Type) where
  loop : EventLoop τ
  pc : LoopPc τ
  inQueueInLoop : Bool
  foreign : Nat → ForeignPc
  enqueued : List τ
  started : List τ

inductive LoopStep (τ : Type) where
  | enterLoop
  | advance
  | pollReturns (active : List ActiveChannel)
  | userReturns
  | queueInLoop (f : τ)
  | queueInLoopWake
  | quit
  | foreignQueueInLoop (t : Nat) (f : τ)
  | foreignQuit (t : Nat)
  | foreignWakeUp (t : Nat)
  deriving DecidableEq

namespace LoopState

variable {τ : Type} (s : LoopState τ)

/-- A new loop before its `loop` is called. -/
def make : LoopState τ := ⟨EventLoop.make, .notEntered, false, fun _ => .idle, [], []⟩

def setForeign (t : Nat) (pc : ForeignPc) : LoopState τ :=
  { s with foreign := Function.update s.foreign t pc }

/-- The owner calls `EventLoop::loop`. -/
def enterLoop : Option (LoopState τ) :=
  match s.pc with
  | .notEntered => some { s with pc := .entryTest }
  | .returned => some { s with pc := .entryTest }
  | _ => none

/-- `poll` returns the channels `active`. The eventfd is readable while its counter is positive;
`poll` may return for other channels, or for its timeout. -/
def pollReturns (active : List ActiveChannel) : Option (LoopState τ) :=
  match s.pc with
  | .poll => if ActiveChannel.wakeup ∈ active → 0 < s.loop.wakeupFd then
      some { s with pc := .dispatch active } else none
  | _ => none

/-- The next statement of `EventLoop::loop` and `EventLoop::doingPendingFunctors` where it is
neither user code nor `poll`. -/
def advance : Option (LoopState τ) :=
  match s.pc with
  | .entryTest => some { s with pc := if s.loop.quit then .returned else .setLooping }
  | .setLooping => some { s with loop := { s.loop with looping := true }, pc := .resetQuit }
  | .resetQuit => some { s with loop := { s.loop with quit := false }, pc := .whileTest }
  | .whileTest => some { s with pc := if s.loop.quit then .clearLooping else .poll }
  | .dispatch (.wakeup :: active) => some { s with loop := s.loop.handleRead, pc := .dispatch active }
  | .dispatch (.other :: active) => some { s with pc := .callback active }
  | .dispatch [] => some { s with pc := .setCalling }
  | .setCalling => some { s with loop := { s.loop with callingPendingFunctors := true }, pc := .swap }
  | .swap => some { s with
      loop := { s.loop with pendingFunctors := [] }
      pc := .running [] s.loop.pendingFunctors }
  | .running done (f :: rest) => some { s with
      pc := .functor (done ++ [f]) rest
      started := s.started ++ [f] }
  | .running done [] => some { s with
      loop := { s.loop with callingPendingFunctors := false }
      pc := .destroying done }
  | .destroying [] => some { s with pc := .whileTest }
  | .clearLooping => some { s with loop := { s.loop with looping := false }, pc := .returned }
  | _ => none

/-- A callback, a task or a destructor returns. -/
def userReturns : Option (LoopState τ) :=
  match s.pc with
  | .callback active => some { s with pc := .dispatch active }
  | .functor done rest => some { s with pc := .running done rest }
  | .destroying (_ :: tasks) => some { s with pc := .destroying tasks }
  | _ => none

end LoopState

/-- The interleavings of the loop thread with the other threads. -/
def loopMachine (τ : Type) : Machine (LoopState τ) (LoopStep τ) where
  next s
    | .enterLoop => if s.inQueueInLoop then none else s.enterLoop
    | .advance => s.advance
    | .pollReturns active => s.pollReturns active
    | .userReturns => if s.inQueueInLoop then none else s.userReturns
    | .queueInLoop f =>
      if s.pc.inUserCode ∧ s.inQueueInLoop = false then
        some { s with
          loop := s.loop.emplaceBack f
          inQueueInLoop := true
          enqueued := s.enqueued ++ [f] }
      else none
    | .queueInLoopWake =>
      if s.inQueueInLoop then
        some { s with loop := s.loop.queueInLoopWake true, inQueueInLoop := false }
      else none
    | .quit =>
      if s.pc.inUserCode ∧ s.inQueueInLoop = false then some { s with loop := s.loop.storeQuit }
      else none
    | .foreignQueueInLoop t f =>
      if s.foreign t = .idle then
        some { s.setForeign t .enqueued with
          loop := s.loop.emplaceBack f
          enqueued := s.enqueued ++ [f] }
      else none
    | .foreignQuit t =>
      if s.foreign t = .idle then some { s.setForeign t .quitStored with loop := s.loop.storeQuit }
      else none
    | .foreignWakeUp t =>
      match s.foreign t with
      | .idle => none
      | .enqueued => some { s.setForeign t .idle with loop := s.loop.queueInLoopWake false }
      | .quitStored => some { s.setForeign t .idle with loop := s.loop.wakeUp }

end MylibMuduo
