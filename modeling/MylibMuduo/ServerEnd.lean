import MylibMuduo.TcpServer

/-!
# The end of a server

`TcpServer::~TcpServer` on the thread of the base loop, one connection after another, while the io
loops run on. The base loop is not entered again afterwards.
-/

namespace MylibMuduo

/-- Where the thread of the base loop stands: in the loop or outside of the server, in the destructor
with the connections `left` to be visited, or behind it. -/
inductive EndPc where
  | running
  | destroying (left : List Nat)
  | destroyed
  deriving DecidableEq, Repr

structure ServerEnd where
  server : TcpServer
  pc : EndPc

inductive EndStep where
  | server (a : ServerStep)
  | destructor (order : List Nat)
  | destroyNext
  deriving DecidableEq

namespace TcpServer

variable (s : TcpServer)

/-- The connections in `connection_map_`. -/
def mapped : List Nat :=
  (List.range s.created).filter fun c => (s.conns c).any fun x => decide (s.connectionMap x.name = some c)

/-- The body of the loop of `TcpServer::~TcpServer`. -/
def destroyConnection (c : Nat) : TcpServer :=
  match s.conns c with
  | some x =>
    { s with connectionMap := Function.update s.connectionMap x.name none }.queueInLoop x.loop
      (.connectionDestroyed c)
  | none => s

end TcpServer

def ServerEnd.make (config : ServerConfig) : ServerEnd := ⟨TcpServer.make config, .running⟩

/-- The interleavings of the destructor with the io loops and the user. The connections of the
unordered map are visited in any order. -/
def endMachine : Machine ServerEnd EndStep where
  next s
    | .server a =>
      if s.pc = .running ∨ a.thread s.server ≠ some 0 then
        (serverMachine.next s.server a).map fun server => { s with server := server }
      else none
    | .destructor order =>
      if s.pc = .running ∧ order.Perm s.server.mapped then some { s with pc := .destroying order } else none
    | .destroyNext =>
      match s.pc with
      | .destroying (c :: left) => some ⟨s.server.destroyConnection c, .destroying left⟩
      | .destroying [] => some { s with pc := .destroyed }
      | _ => none

end MylibMuduo
