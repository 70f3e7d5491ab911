import MylibMuduo.ThreadLife

/-!
# EventLoopThreadPool

The pool of `EventLoopThreadPool.cc` on the thread of its base loop, with the threads that it
constructs, starts and destroys. `start` starts one thread after another, while those started before
run already. The destructor of the pool is that of its vector of threads, which destroys them in
order.
-/

namespace MylibMuduo

/-- Where the owner stands: in the loop of `start` in front of round `i`, inside `startLoop` in that
round, or in the destructor of the pool with the thread `i` to be destroyed. -/
inductive PoolPc where
  | idle
  | starting (i : Nat)
  | startLoop (i : Nat)
  | destroying (i : Nat)
  | destroyed
  deriving DecidableEq, Repr

namespace PoolPc

/-- Inside `startLoop` of the thread that was constructed last. -/
def inStartLoop : PoolPc → Bool
  | .startLoop _ => true
  | _ => false

end PoolPc

/-- What `getNextLoop` returns: `base_loop_`, or an entry of `loops_`. -/
inductive LoopRef where
  | base
  | sub (p : Option Nat)
  deriving DecidableEq, Repr

/-- An entry of `loops` is null or the loop of the thread of that number. `given` are the loops that
`getNextLoop` has returned, and `indexesValid` says that it has read inside of `loops_`. -/
structure ThreadPool (τ : Type) where
  callBack : Bool
  started : Bool
  next : Nat
  numThreads : Int
  threads : List (ThreadLife τ)
  loops : List (Option Nat)
  owner : PoolPc
  given : List LoopRef
  indexesValid : Bool

inductive PoolStep (τ : Type) where
  | setNumThreads (n : Int)
  | start (callBack : Bool)
  | emplaceThread
  | emplaceLoop
  | startReturns
  | getNextLoop
  | thread (i : Nat) (a : LifeStep τ)
  | destroy
  | destroyNext
  deriving DecidableEq

namespace HandoffStep

variable {τ : Type}

/-- The step is one of a call on the loop, and not one inside `startLoop`. -/
def isCall : HandoffStep τ → Bool
  | .loopStep _ => true
  | _ => false

end HandoffStep

namespace ThreadPool

variable {τ : Type} (s : ThreadPool τ)

/-- `EventLoopThreadPool::EventLoopThreadPool`. -/
def make : ThreadPool τ where
  callBack := false
  started := false
  next := 0
  numThreads := 0
  threads := []
  loops := []
  owner := .idle
  given := []
  indexesValid := true

/-- The store of `setNumThreads`, behind its assertion. -/
def storeNumThreads (n : Int) : ThreadPool τ := { s with numThreads := n }

/-- `EventLoopThreadPool::getNextLoop`. -/
def getNextLoop : ThreadPool τ :=
  if s.loops = [] then { s with given := s.given ++ [.base] }
  else
    { s with
      next := ((s.next + 1 : Int) % s.numThreads).toNat
      given := s.given ++ [.sub (s.loops[s.next]?.getD none)]
      indexesValid := s.indexesValid && decide (s.next < s.loops.length) }

/-- `EventLoopThreadPool::getAllLoops`. -/
def getAllLoops : List LoopRef := if s.loops = [] then [.base] else s.loops.map .sub

/-- The owner is where it makes such a step for the thread `i`: inside `startLoop` of the thread that
it started last, in a call on a loop from its own code, or in the destructor of the thread. -/
def Allows (i : Nat) : LifeStep τ → Prop
  | .thread a => a.ofOwner = true →
      if a.isCall then s.owner = .idle else s.owner.inStartLoop = true ∧ i + 1 = s.threads.length
  | _ => s.owner = .destroying i

instance (i : Nat) : (a : LifeStep τ) → Decidable (s.Allows i a)
  | .thread _ => inferInstanceAs (Decidable (_ → ite _ _ _))
  | .storeExiting => inferInstanceAs (Decidable (s.owner = .destroying i))
  | .testLoop => inferInstanceAs (Decidable (s.owner = .destroying i))
  | .storeQuit => inferInstanceAs (Decidable (s.owner = .destroying i))
  | .wakeUp => inferInstanceAs (Decidable (s.owner = .destroying i))
  | .join => inferInstanceAs (Decidable (s.owner = .destroying i))

end ThreadPool

/-- The interleavings of the owner of the pool with its threads and with the other threads that know
their loops. `setNumThreads` asserts that the pool has not started, which stays so until its store, as
the owner alone starts the pool here. If there are no threads, `start` calls the init callback on the
base loop, which is user code of the owner. -/
def poolMachine (τ : Type) : Machine (ThreadPool τ) (PoolStep τ) where
  next s
    | .setNumThreads n =>
      if s.owner = .idle ∧ s.started = false then some (s.storeNumThreads n) else none
    | .start callBack =>
      if s.owner = .idle then some { s with started := true, callBack := callBack, owner := .starting 0 }
      else none
    | .emplaceThread =>
      match s.owner with
      | .starting i =>
        if (i : Int) < s.numThreads then
          some { s with threads := s.threads ++ [ThreadLife.make s.callBack], owner := .startLoop i }
        else none
      | _ => none
    | .emplaceLoop =>
      match s.owner, s.threads.getLast? with
      | .startLoop i, some t =>
        match t.thread.start with
        | .returned nonNull =>
          some { s with
            loops := s.loops ++ [if nonNull then some (s.threads.length - 1) else none]
            owner := .starting (i + 1) }
        | _ => none
      | _, _ => none
    | .startReturns =>
      match s.owner with
      | .starting i => if (i : Int) < s.numThreads then none else some { s with owner := .idle }
      | _ => none
    | .getNextLoop => if s.owner = .idle then some s.getNextLoop else none
    | .thread i a =>
      match s.threads[i]? with
      | some t =>
        if s.Allows i a then
          ((lifeMachine τ).next t a).map fun t' => { s with threads := s.threads.set i t' }
        else none
      | none => none
    | .destroy => if s.owner = .idle then some { s with owner := .destroying 0 } else none
    | .destroyNext =>
      match s.owner with
      | .destroying i =>
        match s.threads[i]? with
        | some t => if t.destructor = .destroyed then some { s with owner := .destroying (i + 1) } else none
        | none => some { s with owner := .destroyed }
      | _ => none

end MylibMuduo
