import MylibMuduo.TcpServer

/-!
# Calls on a connection from other threads

A thread other than the connection's own copies a `TcpConnectionPtr`, calls `send` or `shutdown`
with it and releases the copy. In the call the test of `state_`, the store of `shutdown` and the
critical section of `queueInLoop` are steps of their own, between any two steps of the loops.
-/

namespace MylibMuduo

/-- Where such a thread stands. Outside `idle` it holds a pointer to the connection `c`. -/
inductive CallerPoint where
  | idle
  | holding (c : Nat)
  | sendTested (c : Nat) (data : Bytes)
  | shutdownTested (c : Nat)
  | shutdownStored (c : Nat)
  | returned (c : Nat)
  deriving DecidableEq, Repr

/-- `borrowed c` of the copies `userRefs` of the pointer to `c` are in the hands of callers. -/
structure ServerThreads where
  server : TcpServer
  caller : Nat → CallerPoint
  borrowed : Nat → Nat

inductive CallerStep where
  | server (a : ServerStep)
  | acquire (p c : Nat)
  | sendTest (p : Nat) (data : Bytes)
  | sendEnqueue (p : Nat)
  | shutdownTest (p : Nat)
  | shutdownStore (p : Nat)
  | shutdownEnqueue (p : Nat)
  | release (p : Nat)
  deriving DecidableEq, Repr

namespace ServerThreads

variable (s : ServerThreads)

def make (config : ServerConfig) : ServerThreads := ⟨TcpServer.make config, fun _ => .idle, fun _ => 0⟩

def setCaller (p : Nat) (pc : CallerPoint) : ServerThreads :=
  { s with caller := Function.update s.caller p pc }

/-- The rest of the user does not release the pointers of the callers. -/
def OwnPointer : ServerStep → Prop
  | .release c => ∃ x ∈ s.server.conns c, s.borrowed c < x.userRefs
  | _ => True

instance (a : ServerStep) : Decidable (s.OwnPointer a) := by
  unfold OwnPointer
  split
  · infer_instance
  · infer_instance

/-- The test of `state_`; a connection that is not connected is left alone. -/
def test (p c : Nat) (pc : CallerPoint) : Option ServerThreads := do
  let x ← s.server.conns c
  some (s.setCaller p (if x.conn.state = .kConnected then pc else .returned c))

/-- `EventLoop::runInLoop` of the connection's loop, called on another thread. -/
def enqueue (p c : Nat) (f : Functor) : Option ServerThreads := do
  let x ← s.server.conns c
  some ({ s with server := s.server.queueInLoop x.loop (.functor c f) }.setCaller p (.returned c))

end ServerThreads

/-- The interleavings of the server's loops with any number of callers. -/
def callerMachine : Machine ServerThreads CallerStep where
  next s
    | .server a =>
      if s.OwnPointer a then (serverMachine.next s.server a).map fun t => { s with server := t } else none
    | .acquire p c =>
      if s.caller p = .idle then
        (serverMachine.next s.server (.hold c)).map fun t =>
          { s.setCaller p (.holding c) with
            server := t
            borrowed := Function.update s.borrowed c (s.borrowed c + 1) }
      else none
    | .sendTest p data =>
      match s.caller p with
      | .holding c => s.test p c (.sendTested c data)
      | _ => none
    | .sendEnqueue p =>
      match s.caller p with
      | .sendTested c data => s.enqueue p c (.sendInLoop data)
      | _ => none
    | .shutdownTest p =>
      match s.caller p with
      | .holding c => s.test p c (.shutdownTested c)
      | _ => none
    | .shutdownStore p =>
      match s.caller p with
      | .shutdownTested c => do
        let x ← s.server.conns c
        let x' := { x with conn := { x.conn with state := .kDisConnecting } }
        some ({ s with server := s.server.setConn c x' }.setCaller p (.shutdownStored c))
      | _ => none
    | .shutdownEnqueue p =>
      match s.caller p with
      | .shutdownStored c => s.enqueue p c .shutDownInLoop
      | _ => none
    | .release p =>
      match s.caller p with
      | .returned c =>
        (serverMachine.next s.server (.release c)).map fun t =>
          { s.setCaller p .idle with
            server := t
            borrowed := Function.update s.borrowed c (s.borrowed c - 1) }
      | _ => none

end MylibMuduo
