import MylibMuduo.ServerEnd
import MylibMuduo.ThreadLife

/-!
# The event loops of a server

`TcpServer.lean` takes an iteration of `EventLoop::loop` in a few steps, and `EventLoop.lean` takes it
one statement at a time, with the eventfd and with other threads between any two statements. Here both
run together. The threads of the base loop and of the io loops execute the statements of
`EventLoop.lean`, and those statements that concern connections are the steps of the server. A task
that the server queues goes into the queue of an event loop by a call of `queueInLoop`; on another
thread than that of the loop its wake-up is a step of its own.
-/

namespace MylibMuduo

/-- Thread `l` is that of loop `l`; `hosts l` is the loop as the threads see it. -/
structure ServerLoops where
  server : ServerEnd
  hosts : Nat → LoopState Task

/-- A step of the server, with the channels that its `poll` reports, or a statement on loop `l` that
the server does not see. -/
inductive ServerLoopsStep where
  | server (a : EndStep) (active : List ActiveChannel)
  | statement (l : Nat) (b : LoopStep Task)
  deriving DecidableEq

namespace EndStep

/-- The thread that makes the step; a pointer can be copied and released on any thread. -/
def thread (s : TcpServer) : EndStep → Option Nat
  | .server a => a.thread s
  | .destructor _ => some 0
  | .destroyNext => some 0

/-- Whether a thread can make the step where it stands. Connections are used in channel callbacks and
in tasks; the destructor runs outside of `loop`. -/
def standsAt : EndStep → LoopPc Task → Bool
  | .server (.poll _ _), .poll => true
  | .server (.accept _), .callback _ => true
  | .server (.handleEvent _), .dispatch (.other :: _) => true
  | .server (.handler _ _), .callback _ => true
  | .server (.swap _), .swap => true
  | .server (.runTask _ _ _), .running _ (_ :: _) => true
  | .server (.endBatch _), .destroying [] => true
  | .server (.app _ _), .callback _ => true
  | .server (.app _ _), .functor _ _ => true
  | .destructor _, .notEntered => true
  | .destructor _, .returned => true
  | .destroyNext, .notEntered => true
  | .destroyNext, .returned => true
  | _, _ => false

/-- The statement of `loop` that the step is, if it is one. -/
def statements (active : List ActiveChannel) : EndStep → List (LoopStep Task)
  | .server (.poll _ _) => [.pollReturns active]
  | .server (.handleEvent _) => [.advance]
  | .server (.swap _) => [.advance]
  | .server (.runTask _ _ _) => [.advance]
  | .server (.endBatch _) => [.advance]
  | _ => []

/-- The channels of connections are among those that `poll` reports. -/
def reports (active : List ActiveChannel) : EndStep → Bool
  | .server (.poll _ events) => decide (events.length ≤ active.count .other)
  | _ => true

end EndStep

/-- What the server has put into the queue of loop `k`. -/
def newTasks (s s' : TcpServer) (k : Nat) : List Task :=
  (s'.loops k).pendingFunctors.drop (s.loops k).pendingFunctors.length

/-- What the step `a` of the server does to the event loop `k`. -/
def hostSteps (s s' : TcpServer) (a : EndStep) (active : List ActiveChannel) (k : Nat) : List (LoopStep Task) :=
  match a.thread s with
  | some l =>
    if k = l then
      a.statements active ++ (newTasks s s' k).flatMap fun t => [.queueInLoop t, .queueInLoopWake]
    else (newTasks s s' k).map (.foreignQueueInLoop l)
  | none => []

/-- The statements that the server does not see. A channel that does not belong to a connection has a
callback of its own, and the callback of a connection returns after the last of its handlers. -/
def IoLoop.silent (L : IoLoop) (pc : LoopPc Task) : LoopStep Task → Bool
  | .enterLoop => true
  | .advance =>
    match pc with
    | .dispatch (.other :: active) => decide (L.phase.active.length ≤ active.count .other)
    | .swap => false
    | .running _ (_ :: _) => false
    | .destroying [] => false
    | _ => true
  | .userReturns => L.phase.guard.isNone
  | .quit => true
  | .foreignQuit _ => true
  | .foreignWakeUp _ => true
  | _ => false

namespace ServerLoops

variable (s : ServerLoops)

def make (config : ServerConfig) : ServerLoops := ⟨ServerEnd.make config, fun _ => LoopState.make⟩

/-- Thread `t` is not inside a call on another loop. -/
def Free (t : Nat) : Prop := ∀ k, k ≤ s.server.server.config.numThreads → (s.hosts k).foreign t = .idle

instance (t : Nat) : Decidable (s.Free t) := inferInstanceAs (Decidable (∀ k, k ≤ _ → _))

/-- The thread of the statement on loop `l` can execute it. The base loop is not entered again when its
thread destroys the server. -/
def allows (l : Nat) : LoopStep Task → Bool
  | .foreignWakeUp t => decide (t ≠ l)
  | .foreignQuit t => decide (t ≠ l ∧ s.Free t)
  | _ => decide (s.Free l ∧ (l = 0 → s.server.pc = .running))

/-- The event loops after the step `a` of the server, which leads to `e`. -/
def hostsAfter (a : EndStep) (active : List ActiveChannel) (e : ServerEnd) (k : Nat) : Option (LoopState Task) :=
  (loopMachine Task).run (s.hosts k) (hostSteps s.server.server e.server a active k)

end ServerLoops

/-- The interleavings of the threads of a server. -/
def serverLoopsMachine : Machine ServerLoops ServerLoopsStep where
  next s
    | .server a active => do
      let e ← endMachine.next s.server a
      if (∀ l ∈ a.thread s.server.server, a.standsAt (s.hosts l).pc = true ∧ s.Free l) ∧ a.reports active = true ∧
          ∀ k, k ≤ s.server.server.config.numThreads → (s.hostsAfter a active e k).isSome then
        some ⟨e, fun k => (s.hostsAfter a active e k).getD (s.hosts k)⟩
      else none
    | .statement l b =>
      if l ≤ s.server.server.config.numThreads ∧ (s.server.server.loops l).silent (s.hosts l).pc b = true ∧
          s.allows l b = true then
        ((loopMachine Task).next (s.hosts l) b).map fun h => { s with hosts := Function.update s.hosts l h }
      else none

end MylibMuduo
