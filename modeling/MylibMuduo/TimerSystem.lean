import Mathlib.Data.Fintype.Defs
import MylibMuduo.TimerLoop

/-!
# The timers of a process

All the timers of a process draw their numbers from `Timer::s_global_sequence_`, whatever loop they
are for and whatever thread creates them. `addTimer` constructs the timer first and passes it to its
loop in a later step, so that the numbers may reach the loops in another order than they were drawn.
-/

namespace MylibMuduo

/-- `constructed` are the timers in the hands of threads inside `addTimer`, in front of
`runInLoop`. Their addresses are named when a loop takes them over. -/
structure TimerSystem (ι : Type) where
  globalSequence : Int
  constructed : List Timer
  loops : ι → TimerLoop

inductive TimerSystemStep (ι : Type) where
  | tick (d : Nat)
  | newTimer (t : Timer)
  | addTimer (i : ι) (a : Nat) (t : Timer)
  | foreignAddTimer (i : ι) (p a : Nat) (t : Timer)
  | other (i : ι) (b : TimerLoopStep)
  deriving DecidableEq

/-- The step neither adds a timer nor moves the clock. -/
def TimerLoopStep.isOther : TimerLoopStep → Bool
  | .timer (.addTimer _ _) => false
  | .timer (.tick _) => false
  | .foreignAddTimer _ _ _ => false
  | _ => true

namespace TimerLoop

variable (s : TimerLoop)

/-- The clock of the process moves on. -/
def tick (d : Nat) : TimerLoop :=
  { s with timers := { s.timers with queue := { s.timers.queue with clock := s.timers.queue.clock + d } } }

/-- `TimerQueue::addTimer` on the loop thread, for a timer that has been constructed. -/
def addTimer (a : Nat) (t : Timer) : Option TimerLoop :=
  if s.OnLoopThread (.addTimer a t) ∧ s.timers.InUserCode then
    some { s with
      timers := { s.timers with
        queue := s.timers.queue.addTimer a t
        issued := s.timers.issued ++ [⟨some a, t.sequence⟩] } }
  else none

/-- `TimerQueue::addTimer` on another thread. -/
def foreignAddTimer (p a : Nat) (t : Timer) : Option TimerLoop :=
  ((loopMachine TimerTask).next s.loop (.foreignQueueInLoop p (.addTimerInLoop a t))).map fun l =>
    ⟨l, s.timers.allocate a t⟩

end TimerLoop

namespace TimerSystem

variable {ι : Type} (s : TimerSystem ι)

def make (clock : Int) : TimerSystem ι := ⟨0, [], fun _ => TimerLoop.make clock⟩

/-- `s_global_sequence_.fetch_add(1)`, which wraps. -/
def fetchAdd : Int := Int.bmod (s.globalSequence + 1) (2 ^ 64)

/-- The ids that `addTimer` has returned for a loop. -/
def issued (i : ι) : List TimerId := (s.loops i).timers.issued

/-- `new` may return the address: no timer of the process has it. -/
def Unused (a : Nat) : Prop := ∀ i, (s.loops i).timers.queue.heap a = none

instance [Fintype ι] (a : Nat) : Decidable (s.Unused a) := by
  unfold Unused
  infer_instance

/-- The loop takes the timer over. -/
def handOver [DecidableEq ι] (i : ι) (t : Timer) (l : TimerLoop) : TimerSystem ι :=
  { s with constructed := s.constructed.erase t, loops := Function.update s.loops i l }

end TimerSystem

/-- The interleavings of all the threads of the process on its loops and their timers. That a number
has not been given before is not tested here, as the code does not. -/
def timerSystemMachine (ι : Type) [Fintype ι] [DecidableEq ι] : Machine (TimerSystem ι) (TimerSystemStep ι) where
  next s
    | .tick d => some { s with loops := fun i => (s.loops i).tick d }
    | .newTimer t =>
      if t.sequence = s.globalSequence then
        some { s with globalSequence := s.fetchAdd, constructed := s.constructed ++ [t] }
      else none
    | .addTimer i a t =>
      if t ∈ s.constructed ∧ s.Unused a then ((s.loops i).addTimer a t).map (s.handOver i t) else none
    | .foreignAddTimer i p a t =>
      if t ∈ s.constructed ∧ s.Unused a then ((s.loops i).foreignAddTimer p a t).map (s.handOver i t)
      else none
    | .other i b =>
      if b.isOther then
        (timerLoopMachine.next (s.loops i) b).map fun l => { s with loops := Function.update s.loops i l }
      else none

end MylibMuduo
