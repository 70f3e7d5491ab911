import MylibMuduo.EventLoop

/-!
# EventLoopThread

`startLoop` on the thread of its caller and `ThreadFunc` on the new thread, as in
`EventLoopThread.cc`. A critical section of `mtx_` is one step, and so is the unlocked read of
`loop_`. The loop of the new thread makes the steps of `loopMachine`: the init callback is user
code in front of `loop`, and other threads may have been given the loop.
-/

namespace MylibMuduo

/-- The owner is not inside `loop`. -/
def LoopPc.outside {τ : Type} : LoopPc τ → Bool
  | .notEntered => true
  | .returned => true
  | _ => false

/-- The step is one of another thread. -/
def LoopStep.isForeign {τ : Type} : LoopStep τ → Bool
  | .foreignQueueInLoop _ _ => true
  | .foreignQuit _ => true
  | .foreignWakeUp _ => true
  | _ => false

/-- Where the new thread stands in `ThreadFunc`. -/
inductive ThreadFuncPc where
  | notStarted
  | testCallback
  | initCallback
  | testExiting
  | publish
  | callLoop
  | looping
  | reset
  | finished
  deriving DecidableEq, Repr

/-- Where the caller stands in `startLoop`: in `starting` it is inside `Thread::start`, in `testing`
and `waiting` inside `cv_.wait`. -/
inductive StartLoopPc where
  | notCalled
  | starting
  | testing
  | waiting
  | passed
  | returned (nonNull : Bool)
  deriving DecidableEq, Repr

namespace StartLoopPc

def inWait : StartLoopPc → Bool
  | .testing => true
  | .waiting => true
  | _ => false

def isReturned : StartLoopPc → Bool
  | .returned _ => true
  | _ => false

/-- `cv_.notify_one()` lets a waiting caller test its predicate again. -/
def notifyOne : StartLoopPc → StartLoopPc
  | .waiting => .testing
  | pc => pc

end StartLoopPc

/-- `callBack` says that `call_back_` is set and `published` that `loop_` is not null. -/
structure EventLoopThread (τ : Type) where
  callBack : Bool
  published : Bool
  exiting : Bool
  loop : LoopState τ
  thread : ThreadFuncPc
  start : StartLoopPc

inductive HandoffStep (τ : Type) where
  | startThread
  | startReturns
  | testLoop
  | spuriousWake
  | returnLoop
  | storeExiting
  | threadFunc
  | loopStep (a : LoopStep τ)
  deriving DecidableEq

namespace EventLoopThread

variable {τ : Type} (s : EventLoopThread τ)

/-- `EventLoopThread::EventLoopThread`. -/
def make (callBack : Bool) : EventLoopThread τ where
  callBack := callBack
  published := false
  exiting := false
  loop := LoopState.make
  thread := .notStarted
  start := .notCalled

/-- The object `loop` of `ThreadFunc` exists. -/
def alive : Bool := decide (s.thread ≠ .notStarted ∧ s.thread ≠ .finished)

/-- The new thread executes the init callback or `loop`. -/
def ownerRuns : Bool := decide (s.thread = .initCallback ∨ s.thread = .looping ∧ s.loop.pc.outside = false)

/-- The next statement of `EventLoopThread::ThreadFunc`. The callback and `loop` have returned when
the owner of the loop is outside of it. -/
def threadFunc : Option (EventLoopThread τ) :=
  match s.thread with
  | .testCallback => some { s with thread := if s.callBack then .initCallback else .testExiting }
  | .initCallback =>
    if s.loop.pc.outside ∧ s.loop.inQueueInLoop = false then some { s with thread := .testExiting } else none
  | .testExiting => some { s with thread := if s.exiting then .finished else .publish }
  | .publish => some { s with published := true, start := s.start.notifyOne, thread := .callLoop }
  | .callLoop => s.loop.enterLoop.map fun l => { s with loop := l, thread := .looping }
  | .looping => if s.loop.pc.outside then some { s with thread := .reset } else none
  | .reset => some { s with published := false, thread := .finished }
  | _ => none

end EventLoopThread

/-- The interleavings of `startLoop`, `ThreadFunc`, and the threads that know the loop. The
destructor can begin when `startLoop` has returned; its `quit` is one of another thread. -/
def handoffMachine (τ : Type) : Machine (EventLoopThread τ) (HandoffStep τ) where
  next s
    | .startThread =>
      if s.start = .notCalled then some { s with thread := .testCallback, start := .starting } else none
    | .startReturns => if s.start = .starting then some { s with start := .testing } else none
    | .testLoop =>
      if s.start = .testing then some { s with start := if s.published then .passed else .waiting } else none
    | .spuriousWake => if s.start = .waiting then some { s with start := .testing } else none
    | .returnLoop => if s.start = .passed then some { s with start := .returned s.published } else none
    | .storeExiting => if s.start.isReturned then some { s with exiting := true } else none
    | .threadFunc => s.threadFunc
    | .loopStep a =>
      if s.alive ∧ (a.isForeign ∨ s.ownerRuns) then
        ((loopMachine τ).next s.loop a).map fun l => { s with loop := l }
      else none

end MylibMuduo
