import Mathlib.Algebra.Group.Nat.Defs
import MylibMuduo.EventLoopThreadPool

/-!
# The start of a server

`TcpServer::setThreadNum` and `TcpServer::start` of `TcpServer.cc`, called by any threads, beside the
threads of the pool and the base loop, whose thread is number 0. The first call of `start` starts the
pool and passes `Acceptor::listen` to the base loop. From then on the base loop accepts connections,
and `newConnection` asks the pool for the loop of each.
-/

namespace MylibMuduo

/-- Where a thread stands: behind the assertion of `setThreadNum`, behind that of `setNumThreads`, in
front of `pool_->start`, inside of it, or behind it. -/
inductive StartPc where
  | idle
  | setThreadNum (n : Int)
  | setNumThreads (n : Int)
  | startPool
  | inPool
  | listen
  deriving DecidableEq, Repr

/-- `started` is `started_`. `listenTasks` tasks of the base loop call `Acceptor::listen`, which has
been called `listens` times; `poolStarts` calls of `start` have gone on to `pool_->start`. -/
structure ServerStart (τ : Type) where
  pool : ThreadPool τ
  started : Int
  callers : Nat → StartPc
  poolStarts : Nat
  listenTasks : Nat
  listens : Nat

inductive StartStep (τ : Type) where
  | setThreadNum (p : Nat) (n : Int)
  | setNumThreads (p : Nat) (n : Int)
  | storeNumThreads (p : Nat) (n : Int)
  | start (p : Nat)
  | startPool (p : Nat) (callBack : Bool)
  | pool (a : PoolStep τ)
  | startReturns (p : Nat)
  | runInLoop (p : Nat)
  | listen
  | accept
  deriving DecidableEq

namespace PoolStep

variable {τ : Type}

/-- A step inside of `start`, or one of a thread. -/
def isInner : PoolStep τ → Bool
  | .emplaceThread => true
  | .emplaceLoop => true
  | .thread _ _ => true
  | _ => false

end PoolStep

namespace ServerStart

variable {τ : Type} (s : ServerStart τ)

/-- `TcpServer::TcpServer`. -/
def make : ServerStart τ := ⟨ThreadPool.make, 0, fun _ => .idle, 0, 0, 0⟩

def setCaller (p : Nat) (pc : StartPc) : ServerStart τ := { s with callers := Function.update s.callers p pc }

/-- `started_.fetch_add(1)` on a 32-bit `int`, and the test of its result. -/
def fetchAdd (p : Nat) : ServerStart τ :=
  let s' := { s with started := Int.bmod (s.started + 1) (2 ^ 32) }
  if s.started = 0 then { s'.setCaller p .startPool with poolStarts := s.poolStarts + 1 } else s'

/-- A step of the pool. -/
def stepPool (a : PoolStep τ) : Option (ServerStart τ) :=
  ((poolMachine τ).next s.pool a).map fun pool => { s with pool := pool }

/-- `loop_->runInLoop` of the task that calls `Acceptor::listen`: at once on the thread of the base
loop, and by `queueInLoop` on another one. -/
def runInLoop (p : Nat) : ServerStart τ :=
  if p = 0 then { s.setCaller p .idle with listens := s.listens + 1 }
  else { s.setCaller p .idle with listenTasks := s.listenTasks + 1 }

end ServerStart

/-- The interleavings of the callers, the pool's threads and the base loop. The assertions of
`setThreadNum` and `setNumThreads` hold when they are tested, and the store of `num_threads_` comes
after them, whatever other callers do in between. The listening socket is polled from
`Acceptor::listen` on, and the thread of the base loop handles its events when it is not inside of
one of the calls itself. -/
def startMachine (τ : Type) : Machine (ServerStart τ) (StartStep τ) where
  next s
    | .setThreadNum p n =>
      if s.callers p = .idle ∧ s.started = 0 then some (s.setCaller p (.setThreadNum n)) else none
    | .setNumThreads p n =>
      if s.callers p = .setThreadNum n ∧ s.pool.started = false then some (s.setCaller p (.setNumThreads n))
      else none
    | .storeNumThreads p n =>
      if s.callers p = .setNumThreads n then
        some (ServerStart.setCaller { s with pool := s.pool.storeNumThreads n } p .idle)
      else none
    | .start p => if s.callers p = .idle then some (s.fetchAdd p) else none
    | .startPool p callBack =>
      if s.callers p = .startPool then
        (s.stepPool (.start callBack)).map fun s' => s'.setCaller p .inPool
      else none
    | .pool a => if a.isInner then s.stepPool a else none
    | .startReturns p =>
      if s.callers p = .inPool then (s.stepPool .startReturns).map fun s' => s'.setCaller p .listen else none
    | .runInLoop p => if s.callers p = .listen then some (s.runInLoop p) else none
    | .listen =>
      if s.callers 0 = .idle ∧ 0 < s.listenTasks then
        some { s with listenTasks := s.listenTasks - 1, listens := s.listens + 1 }
      else none
    | .accept =>
      if s.callers 0 = .idle ∧ 0 < s.listens then some { s with pool := s.pool.getNextLoop } else none

end MylibMuduo
