import MylibMuduo.Proofs.ConnectionStages

/-!
# A connection between its loop and other threads

The functions that the loop thread executes on a connection are cut at their accesses to
`state_`, so that the calls of other threads can fall between any two of them. What is left of
the functions that are under way is a list of actions. Without interruption the actions
compute the functions of `TcpConnection.cc`.
-/

namespace MylibMuduo.Proofs

variable {κ : Type}

/-- Each action reads or stores `state_` at most once. `testClosing` is the last test of
`handleWrite`; `disconnect` is the branch of `connectionDestroyed` for an open connection. -/
inductive LoopAction where
  | connectionCallback (app : List AppCall)
  | closeCallback
  | appCall (c : AppCall)
  | storeClosing
  | sendInLoop (data : Bytes) (r : SysResult)
  | sendFileInLoop (r : SysResult)
  | shutDownInLoop
  | handleRead (r : ReadvResult) (onMessage onDown : List AppCall)
  | handleWrite (r : SysResult)
  | testClosing
  | handleClose (app : List AppCall)
  | connectionDestroyed (app : List AppCall)
  | disconnect (app : List AppCall)
  | removeChannel
  deriving DecidableEq, Repr

namespace LoopAction

variable (w : ConnContext κ)

/-- The context after an action and the actions that it leads to. -/
def exec : LoopAction → ConnContext κ × List LoopAction
  | .connectionCallback app =>
    if w.conn.callbacks.connection then (w.call (.connection w.conn.connected), app.map .appCall)
    else (w, [])
  | .closeCallback => (w.closeCallback, [])
  | .appCall (.send data r) => (w, if w.conn.state = .kConnected then [.sendInLoop data r] else [])
  | .appCall (.sendFile fd offset count r) =>
    if w.conn.state = .kConnected then
      ((w.setSendingFile true).setFile ⟨fd, offset, count⟩, [.sendFileInLoop r])
    else (w, [])
  | .appCall .shutdown => (w, if w.conn.state = .kConnected then [.storeClosing] else [])
  | .appCall (.retrieve len) => (w.appCall (.retrieve len), [])
  | .storeClosing => (w.setState .kDisConnecting, [.shutDownInLoop])
  | .sendInLoop data r => (w.sendInLoop data r, [])
  | .sendFileInLoop r => (w.sendFileInLoop r, [])
  | .shutDownInLoop => (w.shutDownInLoop, [])
  | .handleRead r onMessage onDown =>
    match r with
    | .ok [] => (fillInput w r, [.handleClose onDown])
    | .ok (_ :: _) =>
      if w.conn.callbacks.message then ((fillInput w r).call .message, onMessage.map .appCall)
      else (fillInput w r, [])
    | .err _ => (fillInput w r, [.handleClose onDown])
  | .handleWrite r =>
    if w.conn.channel.isWriting ∧ w.conn.outputBuffer.readableBytes ≠ 0 then
      match r with
      | .ok (n + 1) => (drainOutput w n, [.testClosing])
      | _ => (w, [])
    else (w, if w.conn.channel.isWriting ∧ w.conn.sendingFile then [.sendFileInLoop r] else [])
  | .testClosing => (w, if w.conn.state = .kDisConnecting then [.shutDownInLoop] else [])
  | .handleClose app =>
    ((w.setState .kDisConnected).disableAll, [.connectionCallback app, .closeCallback])
  | .connectionDestroyed app =>
    (w, if w.conn.state = .kConnected ∨ w.conn.state = .kDisConnecting then [.disconnect app]
      else [.removeChannel])
  | .disconnect app =>
    ((w.setState .kDisConnected).disableAll, [.connectionCallback app, .removeChannel])
  | .removeChannel => (w.setChannel (w.conn.channel.remove w.poller w.key), [])

/-- The action in one piece, as the source's function computes it. -/
def finish : LoopAction → ConnContext κ
  | .connectionCallback app => w.connectionCallback app
  | .closeCallback => w.closeCallback
  | .appCall c => w.appCall c
  | .storeClosing => (w.setState .kDisConnecting).shutDownInLoop
  | .sendInLoop data r => w.sendInLoop data r
  | .sendFileInLoop r => w.sendFileInLoop r
  | .shutDownInLoop => w.shutDownInLoop
  | .handleRead r onMessage onDown => w.handleRead r onMessage onDown
  | .handleWrite r => w.handleWrite r
  | .testClosing => if w.conn.state = .kDisConnecting then w.shutDownInLoop else w
  | .handleClose app => w.handleClose app
  | .connectionDestroyed app => w.connectionDestroyed app
  | .disconnect app =>
    let w₁ := ((w.setState .kDisConnected).disableAll).connectionCallback app
    w₁.setChannel (w₁.conn.channel.remove w₁.poller w₁.key)
  | .removeChannel => w.setChannel (w.conn.channel.remove w.poller w.key)

/-- The call of `handleClose` and the branch of `connectionDestroyed` that closes. -/
def disconnects : LoopAction → Bool
  | .handleClose _ | .disconnect _ => true
  | _ => false

/-- The action calls `write` or `sendfile` on the descriptor. -/
def writes : LoopAction → Prop
  | .sendInLoop _ _ =>
    w.conn.state ≠ .kDisConnected ∧ w.conn.state ≠ .kDisConnecting ∧
      ¬w.conn.channel.isWriting ∧ w.conn.outputBuffer.readableBytes = 0
  | .sendFileInLoop _ =>
    w.conn.state ≠ .kDisConnected ∧ w.conn.state ≠ .kDisConnecting ∧ w.conn.sendingFile
  | .handleWrite _ => w.conn.channel.isWriting ∧ w.conn.outputBuffer.readableBytes ≠ 0
  | _ => False

/-- The actions of one event, in the order of `Channel::handleEventWithGuard`. -/
def ofEvent (revent : EventMask) (i : ConnContext.EventInput) : List LoopAction :=
  (if revent.epollhup ∧ ¬revent.epollin then [.handleClose i.onClose] else []) ++
    (if revent.epollin ∨ revent.epollpri then [.handleRead i.readv i.onMessage i.onRead] else []) ++
    (if revent.epollout then [.handleWrite i.write] else []) ++
    (if revent.epollerr then [.handleClose i.onError] else [])

/-- The actions of a queued task. -/
def ofFunctor (r : SysResult) (app : List AppCall) : Functor → List LoopAction
  | .sendInLoop data => [.sendInLoop data r]
  | .sendFileInLoop => [.sendFileInLoop r]
  | .shutDownInLoop => [.shutDownInLoop]
  | .writeComplete => app.map .appCall
  | .highWaterMark => app.map .appCall

end LoopAction

/-! ### The actions compute the functions of the source -/

lemma foldl_finish_appCalls (w : ConnContext κ) (app : List AppCall) :
    (app.map LoopAction.appCall).foldl LoopAction.finish w = w.appCalls app := by
  unfold ConnContext.appCalls
  rw [List.foldl_map]
  rfl

/-- Cutting an action does not change what it computes in the end. -/
theorem foldl_finish_exec (w : ConnContext κ) (a : LoopAction) :
    (a.exec w).2.foldl LoopAction.finish (a.exec w).1 = a.finish w := by
  cases a with
  | connectionCallback app =>
    simp only [LoopAction.exec, LoopAction.finish, ConnContext.connectionCallback]
    split
    · exact foldl_finish_appCalls _ app
    · rfl
  | appCall c =>
    cases c with
    | send data r =>
      simp only [LoopAction.exec, LoopAction.finish, ConnContext.appCall, ConnContext.send]
      split <;> rfl
    | sendFile fd offset count r =>
      simp only [LoopAction.exec, LoopAction.finish, ConnContext.appCall, ConnContext.sendFile]
      split <;> rfl
    | shutdown =>
      simp only [LoopAction.exec, LoopAction.finish, ConnContext.appCall, ConnContext.shutdown]
      split <;> rfl
    | retrieve len => rfl
  | handleRead r onMessage onDown =>
    cases r with
    | ok data =>
      cases data with
      | nil => rfl
      | cons b bs =>
        simp only [LoopAction.exec, LoopAction.finish, ConnContext.handleRead]
        split
        · exact foldl_finish_appCalls _ onMessage
        · rfl
    | err e => rfl
  | handleWrite r =>
    simp only [LoopAction.exec, LoopAction.finish, ConnContext.handleWrite]
    split
    · cases r with
      | ok n => cases n <;> rfl
      | err e => rfl
    · split <;> rfl
  | testClosing =>
    simp only [LoopAction.exec, LoopAction.finish]
    split <;> rfl
  | connectionDestroyed app =>
    simp only [LoopAction.exec, LoopAction.finish, ConnContext.connectionDestroyed]
    split <;> rfl
  | _ => rfl

theorem foldl_finish_ofEvent (w : ConnContext κ) (revent : EventMask) (i : ConnContext.EventInput) :
    (LoopAction.ofEvent revent i).foldl LoopAction.finish w = w.handleEventWithGuard revent i := by
  simp only [LoopAction.ofEvent, ConnContext.handleEventWithGuard, List.foldl_append]
  by_cases hhup : revent.epollhup = true ∧ ¬revent.epollin = true
  · simp only [if_pos hhup]
    split <;> split <;> split <;> rfl
  · simp only [if_neg hhup]
    split <;> split <;> split <;> rfl

theorem foldl_finish_ofFunctor (w : ConnContext κ) (r : SysResult) (app : List AppCall) (f : Functor) :
    (LoopAction.ofFunctor r app f).foldl LoopAction.finish w = w.runFunctor r app f := by
  cases f with
  | writeComplete => exact foldl_finish_appCalls w app
  | highWaterMark => exact foldl_finish_appCalls w app
  | _ => rfl

/-! ### Interleaving with the calls of other threads -/

/-- The point that another thread has reached in a call of `send`, `sendFile` or `shutdown`. -/
inductive CallPoint where
  | idle
  | sendTested (data : Bytes)
  | sendFileTested (file : FileToSend)
  | sendFileStored
  | shutdownTested
  | shutdownStored
  deriving DecidableEq, Repr

/-- `todo` is what the loop thread still has to do in the functions it is in, `batch` the tasks
that it has swapped out and not yet begun. -/
structure ThreadState (κ : Type) where
  w : ConnContext κ
  todo : List LoopAction
  batch : List Functor
  caller : Nat → CallPoint

inductive ThreadStep where
  | sendTest (t : Nat) (data : Bytes)
  | sendEnqueue (t : Nat)
  | sendFileTest (t : Nat) (file : FileToSend)
  | sendFileStore (t : Nat)
  | sendFileEnqueue (t : Nat)
  | shutdownTest (t : Nat)
  | shutdownStore (t : Nat)
  | shutdownEnqueue (t : Nat)
  | swap
  | runTask (r : SysResult) (app : List AppCall)
  | event (revent : EventMask) (i : ConnContext.EventInput)
  | userCall (c : AppCall)
  | connectionDestroyed (app : List AppCall)
  | advance
  deriving DecidableEq, Repr

namespace ThreadState

variable (s : ThreadState κ)

def setCaller (t : Nat) (pc : CallPoint) : ThreadState κ :=
  { s with caller := Function.update s.caller t pc }

/-- A thread that is at `pc` and sees `kConnected` passes the test of its call. -/
def test (t : Nat) (pc : CallPoint) : Option (ThreadState κ) :=
  if s.caller t = .idle ∧ s.w.conn.state = .kConnected then some (s.setCaller t pc) else none

/-- The loop thread, outside the connection's functions, starts on the actions `acts`. -/
def start (acts : List LoopAction) : Option (ThreadState κ) :=
  if s.todo = [] then some { s with todo := acts } else none

end ThreadState

/-- Events, tasks, calls of the application and `connectionDestroyed` start on the loop thread in
any order, each after the one before it has ended; the steps of the other threads fall anywhere. -/
def threadMachine : Machine (ThreadState κ) ThreadStep where
  next s
    | .sendTest t data => s.test t (.sendTested data)
    | .sendEnqueue t =>
      match s.caller t with
      | .sendTested data => some ({ s with w := s.w.queueInLoop (.sendInLoop data) }.setCaller t .idle)
      | _ => none
    | .sendFileTest t file => s.test t (.sendFileTested file)
    | .sendFileStore t =>
      match s.caller t with
      | .sendFileTested file =>
        some ({ s with w := (s.w.setSendingFile true).setFile file }.setCaller t .sendFileStored)
      | _ => none
    | .sendFileEnqueue t =>
      if s.caller t = .sendFileStored then
        some ({ s with w := s.w.queueInLoop .sendFileInLoop }.setCaller t .idle)
      else none
    | .shutdownTest t => s.test t .shutdownTested
    | .shutdownStore t =>
      if s.caller t = .shutdownTested then
        some ({ s with w := s.w.setState .kDisConnecting }.setCaller t .shutdownStored)
      else none
    | .shutdownEnqueue t =>
      if s.caller t = .shutdownStored then
        some ({ s with w := s.w.queueInLoop .shutDownInLoop }.setCaller t .idle)
      else none
    | .swap =>
      if s.todo = [] ∧ s.batch = [] then
        some { s with batch := s.w.pendingFunctors, w := { s.w with pendingFunctors := [] } }
      else none
    | .runTask r app =>
      match s.batch with
      | [] => none
      | f :: rest => { s with batch := rest }.start (LoopAction.ofFunctor r app f)
    | .event revent i => s.start (LoopAction.ofEvent revent i)
    | .userCall c => s.start [.appCall c]
    | .connectionDestroyed app => s.start [.connectionDestroyed app]
    | .advance =>
      match s.todo with
      | [] => none
      | a :: rest => some { s with w := (a.exec s.w).1, todo := (a.exec s.w).2 ++ rest }

/-- All that a step can do. -/
inductive ThreadTrans (s : ThreadState κ) : ThreadStep → ThreadState κ → Prop
  | sendTest {t data} (hstate : s.w.conn.state = .kConnected) :
    ThreadTrans s (.sendTest t data) (s.setCaller t (.sendTested data))
  | sendEnqueue {t data} (hpc : s.caller t = .sendTested data) :
    ThreadTrans s (.sendEnqueue t)
      ({ s with w := s.w.queueInLoop (.sendInLoop data) }.setCaller t .idle)
  | sendFileTest {t file} (hstate : s.w.conn.state = .kConnected) :
    ThreadTrans s (.sendFileTest t file) (s.setCaller t (.sendFileTested file))
  | sendFileStore {t file} (hpc : s.caller t = .sendFileTested file) :
    ThreadTrans s (.sendFileStore t)
      ({ s with w := (s.w.setSendingFile true).setFile file }.setCaller t .sendFileStored)
  | sendFileEnqueue {t} (hpc : s.caller t = .sendFileStored) :
    ThreadTrans s (.sendFileEnqueue t) ({ s with w := s.w.queueInLoop .sendFileInLoop }.setCaller t .idle)
  | shutdownTest {t} (hstate : s.w.conn.state = .kConnected) :
    ThreadTrans s (.shutdownTest t) (s.setCaller t .shutdownTested)
  | shutdownStore {t} (hpc : s.caller t = .shutdownTested) :
    ThreadTrans s (.shutdownStore t)
      ({ s with w := s.w.setState .kDisConnecting }.setCaller t .shutdownStored)
  | shutdownEnqueue {t} (hpc : s.caller t = .shutdownStored) :
    ThreadTrans s (.shutdownEnqueue t) ({ s with w := s.w.queueInLoop .shutDownInLoop }.setCaller t .idle)
  | swap (htodo : s.todo = []) (hbatch : s.batch = []) :
    ThreadTrans s .swap { s with batch := s.w.pendingFunctors, w := { s.w with pendingFunctors := [] } }
  | runTask {r app f rest} (htodo : s.todo = []) (hbatch : s.batch = f :: rest) :
    ThreadTrans s (.runTask r app) { s with batch := rest, todo := LoopAction.ofFunctor r app f }
  | event {revent i} (htodo : s.todo = []) :
    ThreadTrans s (.event revent i) { s with todo := LoopAction.ofEvent revent i }
  | userCall {c} (htodo : s.todo = []) : ThreadTrans s (.userCall c) { s with todo := [.appCall c] }
  | connectionDestroyed {app} (htodo : s.todo = []) :
    ThreadTrans s (.connectionDestroyed app) { s with todo := [.connectionDestroyed app] }
  | advance {a rest} (htodo : s.todo = a :: rest) :
    ThreadTrans s .advance { s with w := (a.exec s.w).1, todo := (a.exec s.w).2 ++ rest }

theorem thread_trans {s s' : ThreadState κ} {a : ThreadStep} (hnext : threadMachine.next s a = some s') :
    ThreadTrans s a s' := by
  cases a with
  | sendTest t data =>
    simp only [threadMachine, ThreadState.test, Option.ite_none_right_eq_some, Option.some.injEq] at hnext
    obtain ⟨⟨_, hstate⟩, rfl⟩ := hnext
    exact .sendTest hstate
  | sendEnqueue t =>
    simp only [threadMachine] at hnext
    split at hnext
    · rename_i data hpc
      rw [Option.some.injEq] at hnext
      exact hnext ▸ .sendEnqueue hpc
    · cases hnext
  | sendFileTest t file =>
    simp only [threadMachine, ThreadState.test, Option.ite_none_right_eq_some, Option.some.injEq] at hnext
    obtain ⟨⟨_, hstate⟩, rfl⟩ := hnext
    exact .sendFileTest hstate
  | sendFileStore t =>
    simp only [threadMachine] at hnext
    split at hnext
    · rename_i file hpc
      rw [Option.some.injEq] at hnext
      exact hnext ▸ .sendFileStore hpc
    · cases hnext
  | sendFileEnqueue t =>
    simp only [threadMachine, Option.ite_none_right_eq_some, Option.some.injEq] at hnext
    obtain ⟨hpc, rfl⟩ := hnext
    exact .sendFileEnqueue hpc
  | shutdownTest t =>
    simp only [threadMachine, ThreadState.test, Option.ite_none_right_eq_some, Option.some.injEq] at hnext
    obtain ⟨⟨_, hstate⟩, rfl⟩ := hnext
    exact .shutdownTest hstate
  | shutdownStore t =>
    simp only [threadMachine, Option.ite_none_right_eq_some, Option.some.injEq] at hnext
    obtain ⟨hpc, rfl⟩ := hnext
    exact .shutdownStore hpc
  | shutdownEnqueue t =>
    simp only [threadMachine, Option.ite_none_right_eq_some, Option.some.injEq] at hnext
    obtain ⟨hpc, rfl⟩ := hnext
    exact .shutdownEnqueue hpc
  | swap =>
    simp only [threadMachine, Option.ite_none_right_eq_some, Option.some.injEq] at hnext
    obtain ⟨⟨htodo, hbatch⟩, rfl⟩ := hnext
    exact .swap htodo hbatch
  | runTask r app =>
    simp only [threadMachine] at hnext
    split at hnext
    · cases hnext
    · rename_i f rest hbatch
      simp only [ThreadState.start, Option.ite_none_right_eq_some, Option.some.injEq] at hnext
      obtain ⟨htodo, rfl⟩ := hnext
      exact .runTask htodo hbatch
  | event revent i =>
    simp only [threadMachine, ThreadState.start, Option.ite_none_right_eq_some, Option.some.injEq] at hnext
    obtain ⟨htodo, rfl⟩ := hnext
    exact .event htodo
  | userCall c =>
    simp only [threadMachine, ThreadState.start, Option.ite_none_right_eq_some, Option.some.injEq] at hnext
    obtain ⟨htodo, rfl⟩ := hnext
    exact .userCall htodo
  | connectionDestroyed app =>
    simp only [threadMachine, ThreadState.start, Option.ite_none_right_eq_some, Option.some.injEq] at hnext
    obtain ⟨htodo, rfl⟩ := hnext
    exact .connectionDestroyed htodo
  | advance =>
    simp only [threadMachine] at hnext
    split at hnext
    · cases hnext
    · rename_i a rest htodo
      rw [Option.some.injEq] at hnext
      exact hnext ▸ .advance htodo

/-- A new connection inside `connectionEstablished`, in front of its callback. -/
def threadStart (key : κ) (fd highWaterMark : Nat) (callbacks : Callbacks) (p : EPollPoller κ)
    (files : Nat → Bytes) (app : List AppCall) : ThreadState κ where
  w := (ConnContext.make key (TcpConnection.make fd highWaterMark callbacks) p files).establish
  todo := [.connectionCallback app]
  batch := []
  caller := fun _ => .idle

/-- A loop thread that is not interrupted computes the source's functions. -/
theorem uninterrupted_run {s s' : ThreadState κ} (n : Nat)
    (hrun : threadMachine.run s (List.replicate n .advance) = some s') :
    s'.todo.foldl LoopAction.finish s'.w = s.todo.foldl LoopAction.finish s.w := by
  induction n generalizing s with
  | zero =>
    rw [List.replicate_zero, Machine.run, Option.some.injEq] at hrun
    rw [hrun]
  | succ n ih =>
    obtain ⟨s₁, hnext, hrest⟩ := (Machine.run_cons_eq_some _ _ _ _ _).mp hrun
    rw [ih hrest]
    cases thread_trans hnext with
    | advance htodo => rw [htodo, List.foldl_append, foldl_finish_exec, List.foldl_cons]

end MylibMuduo.Proofs
