import MylibMuduo.Buffer
import MylibMuduo.Channel

/-!
# TcpConnection

The functions of `TcpConnection.cc` and the event dispatch of `Channel.cc`, as the
connection's loop thread executes them. A `ConnContext` holds the connection together with
what its functions act on: the loop's poller, the kernel's side of the descriptor, the
loop's task queue and the trace of application callbacks. The results of system calls and
what the application does inside a callback are arguments.
-/

namespace MylibMuduo

inductive StateE where
  | kConnected | kConnecting | kDisConnected | kDisConnecting
  deriving DecidableEq, Repr

/-- `file_to_send`. -/
structure FileToSend where
  fdToSend : Nat
  fdOffset : Int
  count : Nat
  deriving DecidableEq, Repr

/-- Which of the callbacks of the connection are set. -/
structure Callbacks where
  connection : Bool
  close : Bool
  writeComplete : Bool
  highWaterMark : Bool
  message : Bool
  deriving DecidableEq, Repr

structure TcpConnection where
  state : StateE
  channel : Channel
  inputBuffer : Buffer
  outputBuffer : Buffer
  highWaterMark : Nat
  callbacks : Callbacks
  sendingFile : Bool
  fileToSend : FileToSend
  deriving DecidableEq, Repr

/-- The tasks that the connection and its callers put into the loop's queue. Each is a
lambda that captures the raw `this`. -/
inductive Functor where
  | sendInLoop (data : Bytes)
  | sendFileInLoop
  | shutDownInLoop
  | writeComplete
  | highWaterMark
  deriving DecidableEq, Repr

/-- The invocations of application callbacks. -/
inductive UserCall where
  | connection (connected : Bool)
  | close
  | message
  deriving DecidableEq, Repr

/-- What the application does with the connection on its loop thread, with the result of
the system call that the operation may make. -/
inductive AppCall where
  | send (data : Bytes) (r : SysResult)
  | sendFile (fd : Nat) (offset : Int) (count : Nat) (r : SysResult)
  | shutdown
  | retrieve (len : Nat)
  deriving DecidableEq, Repr

structure ConnContext (κ : Type) where
  key : κ
  conn : TcpConnection
  poller : EPollPoller κ
  files : Nat → Bytes
  sent : Bytes
  shutWr : Bool
  pendingFunctors : List Functor
  calls : List UserCall

namespace TcpConnection

/-- `TcpConnection::TcpConnection` with the callbacks that are set afterwards. -/
def make (fd highWaterMark : Nat) (callbacks : Callbacks) : TcpConnection where
  state := .kConnecting
  channel := Channel.make fd
  inputBuffer := Buffer.make kInitialSize
  outputBuffer := Buffer.make kInitialSize
  highWaterMark := highWaterMark
  callbacks := callbacks
  sendingFile := false
  fileToSend := ⟨0, 0, 0⟩

def connected (c : TcpConnection) : Bool := decide (c.state = .kConnected)

end TcpConnection

namespace ConnContext

variable {κ : Type} (w : ConnContext κ)

/-- A new connection on a loop with the given poller. -/
def make (key : κ) (conn : TcpConnection) (poller : EPollPoller κ) (files : Nat → Bytes) :
    ConnContext κ where
  key := key
  conn := conn
  poller := poller
  files := files
  sent := []
  shutWr := false
  pendingFunctors := []
  calls := []

def setState (state : StateE) : ConnContext κ := { w with conn := { w.conn with state := state } }

/-- Stores the result of a channel operation. -/
def setChannel (r : EPollPoller κ × Channel) : ConnContext κ :=
  { w with poller := r.1, conn := { w.conn with channel := r.2 } }

def setOutput (b : Buffer) : ConnContext κ := { w with conn := { w.conn with outputBuffer := b } }

def setSendingFile (sending : Bool) : ConnContext κ :=
  { w with conn := { w.conn with sendingFile := sending } }

def setFile (f : FileToSend) : ConnContext κ := { w with conn := { w.conn with fileToSend := f } }

/-- The kernel accepts `data` on the descriptor. -/
def accept (data : Bytes) : ConnContext κ := { w with sent := w.sent ++ data }

def queueInLoop (f : Functor) : ConnContext κ :=
  { w with pendingFunctors := w.pendingFunctors ++ [f] }

def call (c : UserCall) : ConnContext κ := { w with calls := w.calls ++ [c] }

/-- Queues the write-complete notification if its callback is set. -/
def notifyWriteComplete : ConnContext κ :=
  if w.conn.callbacks.writeComplete then w.queueInLoop .writeComplete else w

def enableWriting : ConnContext κ :=
  w.setChannel (w.conn.channel.enableWriting w.poller w.key)

def disableWriting : ConnContext κ :=
  w.setChannel (w.conn.channel.disableWriting w.poller w.key)

def disableAll : ConnContext κ := w.setChannel (w.conn.channel.disableAll w.poller w.key)

/-- The second half of `sendInLoop`: the bytes that `write` did not take are appended. -/
def appendRemaining (rest : Bytes) : ConnContext κ :=
  if rest.length = 0 then w
  else
    let oldLen := w.conn.outputBuffer.readableBytes
    let w₁ := if oldLen + rest.length ≥ w.conn.highWaterMark ∧ oldLen < w.conn.highWaterMark ∧
        w.conn.callbacks.highWaterMark then w.queueInLoop .highWaterMark else w
    let w₂ := w₁.setOutput (w₁.conn.outputBuffer.append rest)
    if w₂.conn.channel.isWriting then w₂ else w₂.enableWriting

/-- `TcpConnection::sendInLoop`; `r` is the result of the `write` if it makes one. -/
def sendInLoop (data : Bytes) (r : SysResult) : ConnContext κ :=
  if w.conn.state = .kDisConnected ∨ w.conn.state = .kDisConnecting then w
  else if ¬w.conn.channel.isWriting ∧ w.conn.outputBuffer.readableBytes = 0 then
    match r with
    | .ok n =>
      let w₁ := w.accept (data.take n)
      let w₂ := if data.length - n = 0 then w₁.notifyWriteComplete else w₁
      w₂.appendRemaining (data.drop n)
    | .err e => if e = .epipe ∨ e = .econnreset then w else w.appendRemaining data
  else w.appendRemaining data

/-- `TcpConnection::shutDownInLoop`. -/
def shutDownInLoop : ConnContext κ :=
  if w.conn.channel.isWriting then w else { w with shutWr := true }

/-- The last part of `sendFileInLoop`: the rest of the range waits for a write event. -/
def awaitFileWrite (remaining : Nat) : ConnContext κ :=
  if remaining = 0 then w
  else
    let w₁ := w.setFile { w.conn.fileToSend with count := remaining }
    if w₁.conn.channel.isWriting then w₁ else w₁.enableWriting

/-- `TcpConnection::sendFileInLoop`; `r` is the result of the `sendfile` if it makes one. -/
def sendFileInLoop (r : SysResult) : ConnContext κ :=
  if w.conn.state = .kDisConnected ∨ w.conn.state = .kDisConnecting then w.setSendingFile false
  else if w.conn.sendingFile then
    let file := w.conn.fileToSend
    match r with
    | .ok n =>
      let w₁ := (w.accept (((w.files file.fdToSend).drop file.fdOffset.toNat).take n)).setFile
        { file with fdOffset := file.fdOffset + n }
      if file.count - n = 0 then (w₁.notifyWriteComplete.setSendingFile false).disableWriting
      else w₁.awaitFileWrite (file.count - n)
    | .err e =>
      if e = .epipe ∨ e = .econnreset then w.setSendingFile false else w.awaitFileWrite file.count
  else w.awaitFileWrite w.conn.fileToSend.count

/-- `TcpConnection::send` on the loop thread. -/
def send (data : Bytes) (r : SysResult) : ConnContext κ :=
  if w.conn.state = .kConnected then w.sendInLoop data r else w

/-- `TcpConnection::sendFile` on the loop thread. -/
def sendFile (fd : Nat) (offset : Int) (count : Nat) (r : SysResult) : ConnContext κ :=
  if w.conn.state = .kConnected then
    ((w.setSendingFile true).setFile ⟨fd, offset, count⟩).sendFileInLoop r
  else w

/-- `TcpConnection::shutdown` on the loop thread, where `runInLoop` is a direct call. -/
def shutdown : ConnContext κ :=
  if w.conn.state = .kConnected then (w.setState .kDisConnecting).shutDownInLoop else w

def appCall : AppCall → ConnContext κ
  | .send data r => w.send data r
  | .sendFile fd offset count r => w.sendFile fd offset count r
  | .shutdown => w.shutdown
  | .retrieve len =>
    { w with conn := { w.conn with inputBuffer := w.conn.inputBuffer.retrieve len } }

/-- The application's calls inside one callback. -/
def appCalls (app : List AppCall) : ConnContext κ := app.foldl appCall w

/-- Invokes `connection_callback_` if it is set; `app` is what the application does in it. -/
def connectionCallback (app : List AppCall) : ConnContext κ :=
  if w.conn.callbacks.connection then (w.call (.connection w.conn.connected)).appCalls app else w

/-- Invokes `close_callback_` if it is set. -/
def closeCallback : ConnContext κ := if w.conn.callbacks.close then w.call .close else w

/-- The new state and the read interest of `connectionEstablished`. -/
def establish : ConnContext κ :=
  let tied := { w.conn.channel with tied := true }
  (w.setState .kConnected).setChannel (tied.enableReading w.poller w.key)

/-- `TcpConnection::connectionEstablished`. -/
def connectionEstablished (app : List AppCall) : ConnContext κ := w.establish.connectionCallback app

/-- `TcpConnection::connectionDestroyed`. -/
def connectionDestroyed (app : List AppCall) : ConnContext κ :=
  let w₁ := if w.conn.state = .kConnected ∨ w.conn.state = .kDisConnecting then
    ((w.setState .kDisConnected).disableAll).connectionCallback app else w
  w₁.setChannel (w₁.conn.channel.remove w₁.poller w₁.key)

/-- `TcpConnection::handleClose`. -/
def handleClose (app : List AppCall) : ConnContext κ :=
  (((w.setState .kDisConnected).disableAll).connectionCallback app).closeCallback

/-- `TcpConnection::handleError`; the socket error is only logged. -/
def handleError (app : List AppCall) : ConnContext κ := w.handleClose app

/-- `TcpConnection::handleRead`. -/
def handleRead (r : ReadvResult) (onMessage onDown : List AppCall) : ConnContext κ :=
  let w₁ := { w with conn := { w.conn with inputBuffer := w.conn.inputBuffer.readFd r } }
  match r with
  | .ok [] => w₁.handleClose onDown
  | .ok (_ :: _) => if w₁.conn.callbacks.message then (w₁.call .message).appCalls onMessage else w₁
  | .err _ => w₁.handleError onDown

/-- `TcpConnection::handleWrite`; `r` is the result of its `write` or `sendfile`. -/
def handleWrite (r : SysResult) : ConnContext κ :=
  if w.conn.channel.isWriting ∧ w.conn.outputBuffer.readableBytes ≠ 0 then
    match r with
    | .ok (n + 1) =>
      let w₁ := (w.accept (w.conn.outputBuffer.readable.take (n + 1))).setOutput
        (w.conn.outputBuffer.retrieve (n + 1))
      let w₂ := if w₁.conn.outputBuffer.readableBytes = 0 then
        w₁.disableWriting.notifyWriteComplete else w₁
      if w₂.conn.state = .kDisConnecting then w₂.shutDownInLoop else w₂
    | _ => w
  else if w.conn.channel.isWriting ∧ w.conn.sendingFile then w.sendFileInLoop r
  else w

/-- Runs a queued task; `r` is the result of its system call and `app` what the application
does in a notification. -/
def runFunctor (r : SysResult) (app : List AppCall) : Functor → ConnContext κ
  | .sendInLoop data => w.sendInLoop data r
  | .sendFileInLoop => w.sendFileInLoop r
  | .shutDownInLoop => w.shutDownInLoop
  | .writeComplete => w.appCalls app
  | .highWaterMark => w.appCalls app

/-- The results and application calls of one event dispatch. -/
structure EventInput where
  readv : ReadvResult
  write : SysResult
  onMessage : List AppCall
  onClose : List AppCall
  onRead : List AppCall
  onError : List AppCall
  deriving DecidableEq, Repr

/-- `Channel::handleEventWithGuard` with the callbacks of the connection. -/
def handleEventWithGuard (revent : EventMask) (i : EventInput) : ConnContext κ :=
  let w₁ := if revent.epollhup ∧ ¬revent.epollin then w.handleClose i.onClose else w
  let w₂ := if revent.epollin ∨ revent.epollpri then
    w₁.handleRead i.readv i.onMessage i.onRead else w₁
  let w₃ := if revent.epollout then w₂.handleWrite i.write else w₂
  if revent.epollerr then w₃.handleError i.onError else w₃

end ConnContext

end MylibMuduo
