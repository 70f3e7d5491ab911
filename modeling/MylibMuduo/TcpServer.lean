import Mathlib.Algebra.Group.Int.Defs
import Mathlib.Algebra.Group.Nat.Defs
import MylibMuduo.Lib.Machine
import MylibMuduo.TcpConnection

/-!
# TcpServer

The base loop with its acceptor, the io loops of the thread pool and the connections they
serve (`TcpServer.cc`, `Acceptor.cc`, `EventLoopThreadPool.cc`, and the parts of
`EventLoop.cc` and `EPollPoller.cc` that carry tasks and events). Loop `0` is the base loop.
A connection is named by its number of creation, which stands for its address. Whether it
still exists follows from the `shared_ptr` copies in the server's map, in tasks, in the
guard of `Channel::handleEvent` and in the hands of the user.
-/

namespace MylibMuduo

/-- `DefaultWaterMark`. -/
def kDefaultWaterMark : Nat := 64 * 1024 * 1024

/-- The tasks in the queues of the loops. All but the last capture a `TcpConnectionPtr`. -/
inductive Task where
  | connectionEstablished (c : Nat)
  | removeConnectionInLoop (c : Nat)
  | connectionDestroyed (c : Nat)
  | functor (c : Nat) (f : Functor)
  deriving DecidableEq, Repr

/-- The connection that the task keeps alive. -/
def Task.holder : Task → Option Nat
  | .connectionEstablished c => some c
  | .removeConnectionInLoop c => some c
  | .connectionDestroyed c => some c
  | .functor _ _ => none

/-- The callbacks of `Channel::handleEventWithGuard` in the order of their tests. -/
inductive Handler where
  | close | read | write | error
  deriving DecidableEq, Repr

def Handler.next : Handler → Option Handler
  | .close => some .read
  | .read => some .write
  | .write => some .error
  | .error => none

/-- Where a loop stands in one iteration. `handling` holds the guard of `handleEvent`;
`running` holds the whole batch until its last task has returned. -/
inductive Phase where
  | poll
  | dispatch (active : List (Nat × EventMask))
  | handling (c : Nat) (revent : EventMask) (h : Handler) (active : List (Nat × EventMask))
  | running (done rest : List Task)
  deriving DecidableEq, Repr

namespace Phase

def done : Phase → List Task
  | .running done _ => done
  | _ => []

def rest : Phase → List Task
  | .running _ rest => rest
  | _ => []

/-- The channels that are still to be dispatched. -/
def active : Phase → List Nat
  | .dispatch active => active.map Prod.fst
  | .handling _ _ _ active => active.map Prod.fst
  | _ => []

def guard : Phase → Option Nat
  | .handling c _ _ _ => some c
  | _ => none

/-- The phase after the test `h`; after the last one the guard is released. -/
def afterHandler (c : Nat) (revent : EventMask) (active : List (Nat × EventMask)) (h : Handler) : Phase :=
  match h.next with
  | some h' => .handling c revent h' active
  | none => .dispatch active

end Phase

structure IoLoop where
  poller : EPollPoller Nat
  pendingFunctors : List Task
  phase : Phase

/-- The tasks that have not run. -/
def IoLoop.todo (L : IoLoop) : List Task := L.phase.rest ++ L.pendingFunctors

/-- The tasks that have not been destroyed. -/
def IoLoop.tasks (L : IoLoop) : List Task := L.phase.done ++ L.todo

inductive LifeEvent where
  | established | dispatched | destroyed
  deriving DecidableEq, Repr

/-- A connection with its loop and name, the copies of its pointer that the user holds, and
the trace of its life. -/
structure ServerConn where
  loop : Nat
  name : List Char
  conn : TcpConnection
  sent : Bytes
  shutWr : Bool
  calls : List UserCall
  userRefs : Nat
  history : List LifeEvent

/-- The arguments of the server. The text of an IPv4 address and port has at most 21
characters. -/
structure ServerConfig where
  name : List Char
  ipPort : List Char
  ipPort_length : ipPort.length ≤ 21
  numThreads : Nat
  callbacks : Callbacks
  files : Nat → Bytes

/-- `lost` are the descriptors that the acceptor took for failures. -/
structure TcpServer where
  config : ServerConfig
  next : Nat
  nextConnId : Int
  connectionMap : List Char → Option Nat
  created : Nat
  conns : Nat → Option ServerConn
  loops : Nat → IoLoop
  lost : List Nat

namespace ConnContext

variable {κ : Type} (w : ConnContext κ)

/-- One of the four tests of `handleEventWithGuard`. -/
def runHandler (revent : EventMask) (i : EventInput) : Handler → ConnContext κ
  | .close => if revent.epollhup ∧ ¬revent.epollin then w.handleClose i.onClose else w
  | .read =>
    if revent.epollin ∨ revent.epollpri then w.handleRead i.readv i.onMessage i.onRead else w
  | .write => if revent.epollout then w.handleWrite i.write else w
  | .error => if revent.epollerr then w.handleError i.onError else w

theorem handleEventWithGuard_eq (revent : EventMask) (i : EventInput) :
    w.handleEventWithGuard revent i =
      (((w.runHandler revent i .close).runHandler revent i .read).runHandler revent i .write).runHandler
        revent i .error :=
  rfl

end ConnContext

/-- What the connection's functions see when loop `l` runs them. -/
def ServerConn.context (x : ServerConn) (c : Nat) (p : EPollPoller Nat) (files : Nat → Bytes) :
    ConnContext Nat where
  key := c
  conn := x.conn
  poller := p
  files := files
  sent := x.sent
  shutWr := x.shutWr
  pendingFunctors := []
  calls := x.calls

namespace TcpServer

variable (s : TcpServer)

/-- The server before `start`, with the loops of its pool in `poll`. -/
def make (config : ServerConfig) : TcpServer where
  config := config
  next := 0
  nextConnId := 1
  connectionMap := fun _ => none
  created := 0
  conns := fun _ => none
  loops := fun _ => ⟨EPollPoller.empty, [], .poll⟩
  lost := []

def setLoop (l : Nat) (L : IoLoop) : TcpServer := { s with loops := Function.update s.loops l L }

def setPhase (l : Nat) (ph : Phase) : TcpServer := s.setLoop l { s.loops l with phase := ph }

def setConn (c : Nat) (x : ServerConn) : TcpServer :=
  { s with conns := Function.update s.conns c (some x) }

/-- Some `shared_ptr` to the connection exists. -/
def Held (c : Nat) : Prop :=
  (∃ x ∈ s.conns c, s.connectionMap x.name = some c ∨ 0 < x.userRefs) ∨
    ∃ l, l ≤ s.config.numThreads ∧
      ((∃ t ∈ (s.loops l).tasks, t.holder = some c) ∨ (s.loops l).phase.guard = some c)

instance (c : Nat) : Decidable (s.Held c) := by
  unfold Held
  infer_instance

/-- No existing connection owns the descriptor, and the acceptor has not dropped it. -/
def Closed (fd : Nat) : Prop :=
  fd ∉ s.lost ∧ ∀ c, c < s.created → ∀ x ∈ s.conns c, s.Held c → x.conn.channel.fd ≠ fd

instance (fd : Nat) : Decidable (s.Closed fd) := by
  unfold Closed
  infer_instance

/-- `EventLoop::queueInLoop` on loop `l`. -/
def queueInLoop (l : Nat) (t : Task) : TcpServer :=
  s.setLoop l { s.loops l with pendingFunctors := (s.loops l).pendingFunctors ++ [t] }

/-- `EventLoopThreadPool::getNextLoop`. -/
def getNextLoop : Nat × Nat :=
  if s.config.numThreads = 0 then (0, s.next) else (s.next + 1, (s.next + 1) % s.config.numThreads)

/-- The name in `newConnection`; `snprintf` cuts its part at 63 characters. -/
def connName (config : ServerConfig) (id : Int) : List Char :=
  config.name ++ ('-' :: config.ipPort ++ '#' :: (toString id).toList).take 63

/-- `next_conn_id_++` on a 32-bit `int`. -/
def incrConnId (id : Int) : Int := Int.bmod (id + 1) (2 ^ 32)

/-- `TcpServer::newConnection`. -/
def newConnection (fd : Nat) : TcpServer :=
  let ioloop := s.getNextLoop.1
  let name := connName s.config s.nextConnId
  let c := s.created
  let x : ServerConn := ⟨ioloop, name,
    TcpConnection.make fd kDefaultWaterMark { s.config.callbacks with close := true },
    [], false, [], 0, []⟩
  { s with
    next := s.getNextLoop.2
    nextConnId := incrConnId s.nextConnId
    connectionMap := Function.update s.connectionMap name (some c)
    created := c + 1
    conns := Function.update s.conns c (some x) }.queueInLoop ioloop (.connectionEstablished c)

/-- `Acceptor::handleRead` with the result of `accept4`. -/
def acceptorHandleRead : Option Nat → TcpServer
  | none => s
  | some 0 => { s with lost := s.lost ++ [0] }
  | some (fd + 1) => s.newConnection (fd + 1)

/-- `TcpServer::removeConnectionInLoop`. -/
def removeConnectionInLoop (c : Nat) (x : ServerConn) : TcpServer :=
  { s with connectionMap := Function.update s.connectionMap x.name none }.queueInLoop x.loop
    (.connectionDestroyed c)

/-- `TcpServer::removeConnection`, called on loop `l`. -/
def removeConnection (l c : Nat) (x : ServerConn) : TcpServer :=
  if l = 0 then s.removeConnectionInLoop c x else s.queueInLoop 0 (.removeConnectionInLoop c)

def context (c : Nat) (x : ServerConn) : ConnContext Nat :=
  x.context c (s.loops x.loop).poller s.config.files

/-- Stores what the connection's loop has done to the connection, with the events `h` of its
life. -/
def store (c : Nat) (x : ServerConn) (w : ConnContext Nat) (h : List LifeEvent) : TcpServer :=
  let L := s.loops x.loop
  let x' : ServerConn := { x with
    conn := w.conn
    sent := w.sent
    shutWr := w.shutWr
    calls := w.calls
    history := x.history ++ h }
  let L' : IoLoop := { L with
    poller := w.poller
    pendingFunctors := L.pendingFunctors ++ w.pendingFunctors.map (Task.functor c) }
  (s.setConn c x').setLoop x.loop L'

/-- The close callback that `newConnection` installs, if `w` has called it. -/
def closeCallback (l c : Nat) (x : ServerConn) (w : ConnContext Nat) : TcpServer :=
  if x.calls.count .close < w.calls.count .close then s.removeConnection l c x else s

/-- The next test of `handleEventWithGuard` on loop `l`. -/
def runHandler (l c : Nat) (revent : EventMask) (h : Handler) (active : List (Nat × EventMask))
    (i : ConnContext.EventInput) (x : ServerConn) : TcpServer :=
  let w := (s.context c x).runHandler revent i h
  let s₁ := s.setPhase l (Phase.afterHandler c revent active h)
  (s₁.store c x w []).closeCallback l c x w

/-- Runs one task of a batch. -/
def runTask (r : SysResult) (app : List AppCall) (x : ServerConn) : Task → TcpServer
  | .connectionEstablished c =>
    s.store c x ((s.context c x).connectionEstablished app) [.established]
  | .removeConnectionInLoop c => s.removeConnectionInLoop c x
  | .connectionDestroyed c => s.store c x ((s.context c x).connectionDestroyed app) [.destroyed]
  | .functor c f => s.store c x ((s.context c x).runFunctor r app f) []

/-- `EPollPoller::fillActiveChannels`. -/
def fillActiveChannels (p : EPollPoller Nat) (events : List (Nat × EventMask)) :
    List (Nat × EventMask) :=
  events.filterMap fun e => (p.interest e.1).map fun m => (m.2, e.2)

end TcpServer

/-- The connection that a task is about. -/
def Task.conn : Task → Nat
  | .connectionEstablished c => c
  | .removeConnectionInLoop c => c
  | .connectionDestroyed c => c
  | .functor c _ => c

inductive ServerStep where
  | poll (l : Nat) (events : List (Nat × EventMask))
  | accept (r : Option Nat)
  | handleEvent (l : Nat)
  | handler (l : Nat) (i : ConnContext.EventInput)
  | swap (l : Nat)
  | runTask (l : Nat) (r : SysResult) (app : List AppCall)
  | endBatch (l : Nat)
  | app (c : Nat) (call : AppCall)
  | hold (c : Nat)
  | release (c : Nat)
  deriving DecidableEq, Repr

/-- The loop whose thread executes the step. The user calls a connection on the thread of its own loop
only; a pointer can be copied and released on any thread. -/
def ServerStep.thread (s : TcpServer) : ServerStep → Option Nat
  | .poll l _ => some l
  | .accept _ => some 0
  | .handleEvent l => some l
  | .handler l _ => some l
  | .swap l => some l
  | .runTask l _ _ => some l
  | .endBatch l => some l
  | .app c _ => (s.conns c).map ServerConn.loop
  | .hold _ => none
  | .release _ => none

/-- The interleavings of the base loop, the io loops and the user. The kernel reports each
descriptor at most once and only from the interest set; `accept4` returns a descriptor that
is not open; the user acts on a connection on its loop thread, outside `poll`. -/
def serverMachine : Machine TcpServer ServerStep where
  next s
    | .poll l events =>
      if l ≤ s.config.numThreads ∧ (s.loops l).phase = .poll ∧ (events.map Prod.fst).Nodup ∧
          ∀ e ∈ events, ((s.loops l).poller.interest e.1).isSome then
        some (s.setPhase l (.dispatch (TcpServer.fillActiveChannels (s.loops l).poller events)))
      else none
    | .accept r =>
      match (s.loops 0).phase with
      | .dispatch _ => if ∀ fd ∈ r, s.Closed fd then some (s.acceptorHandleRead r) else none
      | _ => none
    | .handleEvent l =>
      match (s.loops l).phase with
      | .dispatch ((c, revent) :: active) => do
        let x ← s.conns c
        if x.conn.channel.tied ∧ ¬s.Held c then some (s.setPhase l (.dispatch active))
        else some ((s.setPhase l (.handling c revent .close active)).setConn c
          { x with history := x.history ++ [.dispatched] })
      | _ => none
    | .handler l i =>
      match (s.loops l).phase with
      | .handling c revent h active => do
        let x ← s.conns c
        some (s.runHandler l c revent h active i x)
      | _ => none
    | .swap l =>
      match (s.loops l).phase with
      | .dispatch [] =>
        some (s.setLoop l { s.loops l with
          phase := .running [] (s.loops l).pendingFunctors, pendingFunctors := [] })
      | _ => none
    | .runTask l r app =>
      match (s.loops l).phase with
      | .running done (t :: rest) => do
        let x ← s.conns t.conn
        some ((s.setPhase l (.running (done ++ [t]) rest)).runTask r app x t)
      | _ => none
    | .endBatch l =>
      match (s.loops l).phase with
      | .running _ [] => some (s.setPhase l .poll)
      | _ => none
    | .app c call => do
      let x ← s.conns c
      if s.Held c ∧ (s.loops x.loop).phase ≠ .poll then
        some (s.store c x ((s.context c x).appCall call) [])
      else none
    | .hold c => do
      let x ← s.conns c
      if s.Held c then some (s.setConn c { x with userRefs := x.userRefs + 1 }) else none
    | .release c => do
      let x ← s.conns c
      if 0 < x.userRefs then some (s.setConn c { x with userRefs := x.userRefs - 1 }) else none

end MylibMuduo
