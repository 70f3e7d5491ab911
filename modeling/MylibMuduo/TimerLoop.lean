import MylibMuduo.EventLoop
import MylibMuduo.TimerQueue

/-!
# The timer queue of a loop

`TimerQueue` runs on the thread of its `EventLoop`. `addTimer` and `cancelTimer` go through
`EventLoop::runInLoop`: called on the loop thread they act at once, called on another thread they
queue a task, and `addTimer` has created the timer and returns its id in any case.
-/

namespace MylibMuduo

/-- The tasks that `TimerQueue::addTimer` and `TimerQueue::cancelTimer` queue, and those of the
application. -/
inductive TimerTask where
  | addTimerInLoop (a : Nat) (t : Timer)
  | cancelTimerInLoop (id : TimerId)
  | other (n : Nat)
  deriving DecidableEq

structure TimerLoop where
  loop : LoopState TimerTask
  timers : TimerState

inductive TimerLoopStep where
  | loop (b : LoopStep TimerTask)
  | timer (b : TimerStep)
  | foreignAddTimer (p : Nat) (a : Nat) (t : Timer)
  | foreignCancelTimer (p : Nat) (id : TimerId)
  deriving DecidableEq

/-- The application queues tasks of its own only. -/
def LoopStep.isApplication : LoopStep TimerTask → Bool
  | .queueInLoop (.other _) => true
  | .queueInLoop _ => false
  | .foreignQueueInLoop _ (.other _) => true
  | .foreignQueueInLoop _ _ => false
  | _ => true

/-- The loop thread is in the callback of a channel. -/
def LoopPc.isCallback {τ : Type} : LoopPc τ → Bool
  | .callback _ => true
  | _ => false

/-- `new` and the id that `addTimer` returns. -/
def TimerState.allocate (s : TimerState) (a : Nat) (t : Timer) : TimerState :=
  { s with
    queue := { s.queue with heap := Function.update s.queue.heap a (some t) }
    issued := s.issued ++ [⟨some a, t.sequence⟩] }

namespace TimerLoop

variable (s : TimerLoop)

def make (clock : Int) : TimerLoop := ⟨LoopState.make, TimerState.make clock⟩

/-- The loop thread executes a task. -/
def runTask : TimerTask → TimerState
  | .addTimerInLoop a t => { s.timers with queue := s.timers.queue.addTimerInLoop a t }
  | .cancelTimerInLoop id => { s.timers with queue := s.timers.queue.cancelTimerInLoop id }
  | .other _ => s.timers

/-- The timers after a step of the loop: a step that starts a task executes it. -/
def afterLoopStep : LoopStep TimerTask → TimerState
  | .advance =>
    match s.loop.pc with
    | .running _ (f :: _) => s.runTask f
    | _ => s.timers
  | _ => s.timers

/-- `handleRead` is the callback of the timerfd's channel, and a channel's callback ends when it
has returned. The rest is user code of the loop thread. -/
def OnLoopThread : TimerStep → Prop
  | .tick _ => True
  | .lag _ => True
  | .handleRead => s.loop.pc.isCallback = true ∧ s.loop.inQueueInLoop = false
  | _ => s.loop.pc.inUserCode = true ∧ s.loop.inQueueInLoop = false

instance : (b : TimerStep) → Decidable (s.OnLoopThread b)
  | .tick _ => isTrue trivial
  | .lag _ => isTrue trivial
  | .handleRead => inferInstanceAs (Decidable (_ ∧ _))
  | .addTimer _ _ => inferInstanceAs (Decidable (_ ∧ _))
  | .cancelTimer _ => inferInstanceAs (Decidable (_ ∧ _))
  | .runEntry => inferInstanceAs (Decidable (_ ∧ _))
  | .handleReadEnd => inferInstanceAs (Decidable (_ ∧ _))

end TimerLoop

/-- The loop thread and any number of other threads on one loop and its timers. -/
def timerLoopMachine : Machine TimerLoop TimerLoopStep where
  next s
    | .loop b =>
      if b.isApplication ∧ (b = .userReturns → s.timers.phase = .idle) then
        ((loopMachine TimerTask).next s.loop b).map fun l => ⟨l, s.afterLoopStep b⟩
      else none
    | .timer b =>
      if s.OnLoopThread b then (timerMachine.next s.timers b).map fun u => { s with timers := u }
      else none
    | .foreignAddTimer p a t =>
      if s.timers.queue.heap a = none ∧ ∀ id ∈ s.timers.issued, id.sequence ≠ t.sequence then
        ((loopMachine TimerTask).next s.loop (.foreignQueueInLoop p (.addTimerInLoop a t))).map fun l =>
          ⟨l, s.timers.allocate a t⟩
      else none
    | .foreignCancelTimer p id =>
      ((loopMachine TimerTask).next s.loop (.foreignQueueInLoop p (.cancelTimerInLoop id))).map fun l =>
        { s with loop := l }

end MylibMuduo
