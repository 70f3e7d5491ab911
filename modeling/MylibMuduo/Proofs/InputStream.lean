import MylibMuduo.Proofs.ByteQueue
import MylibMuduo.Proofs.LoopConfinement

/-!
# The input of a connection

`handleRead` appends what `readv` delivers to the input buffer, and the application retrieves from it
in its callbacks and elsewhere on the loop thread. Through every run of the server the input buffer of
a connection goes through the run of a byte queue, so the application consumes the bytes of the peer
in order and each of them once, and what it has not consumed is in the buffer.
-/

namespace MylibMuduo

/-- What a call of the application is for the input. -/
def AppCall.inputOps : AppCall → List (FifoOp UInt8)
  | .retrieve len => [.drop len]
  | _ => []

def ReadvResult.inputOps : ReadvResult → List (FifoOp UInt8)
  | .ok data => [.enqueue data]
  | .err _ => []

namespace ConnContext

variable {κ : Type} (w : ConnContext κ)

def connectionCallbackOps (app : List AppCall) : List (FifoOp UInt8) :=
  if w.conn.callbacks.connection then app.flatMap AppCall.inputOps else []

def handleReadOps (r : ReadvResult) (onMessage onDown : List AppCall) : List (FifoOp UInt8) :=
  r.inputOps ++ match r with
    | .ok (_ :: _) => if w.conn.callbacks.message then onMessage.flatMap AppCall.inputOps else []
    | _ => w.connectionCallbackOps onDown

def handlerOps (revent : EventMask) (i : EventInput) : Handler → List (FifoOp UInt8)
  | .close => if revent.epollhup ∧ ¬revent.epollin then w.connectionCallbackOps i.onClose else []
  | .read => if revent.epollin ∨ revent.epollpri then w.handleReadOps i.readv i.onMessage i.onRead else []
  | .write => []
  | .error => if revent.epollerr then w.connectionCallbackOps i.onError else []

def taskOps (app : List AppCall) : Task → List (FifoOp UInt8)
  | .connectionEstablished _ => w.connectionCallbackOps app
  | .removeConnectionInLoop _ => []
  | .connectionDestroyed _ =>
    if w.conn.state = .kConnected ∨ w.conn.state = .kDisConnecting then w.connectionCallbackOps app else []
  | .functor _ .writeComplete => app.flatMap AppCall.inputOps
  | .functor _ .highWaterMark => app.flatMap AppCall.inputOps
  | .functor _ _ => []

end ConnContext

/-- What a step of the server is for the input of the connection `c`. -/
def TcpServer.inputOps (c : Nat) (s : TcpServer) : ServerStep → List (FifoOp UInt8)
  | .handler l i =>
    match (s.loops l).phase with
    | .handling d revent h _ =>
      if d = c then (s.conns c).elim [] fun x => (s.context c x).handlerOps revent i h else []
    | _ => []
  | .runTask l _ app =>
    match (s.loops l).phase with
    | .running _ (t :: _) => if t.conn = c then (s.conns c).elim [] fun x => (s.context c x).taskOps app t else []
    | _ => []
  | .app d call => if d = c then call.inputOps else []
  | _ => []

namespace Proofs

section Frames

variable {κ : Type} (w : ConnContext κ)

@[simp] lemma input_notifyWriteComplete : w.notifyWriteComplete.conn.inputBuffer = w.conn.inputBuffer := by
  unfold ConnContext.notifyWriteComplete
  split <;> rfl

@[simp] lemma input_appendRemaining (rest : Bytes) :
    (w.appendRemaining rest).conn.inputBuffer = w.conn.inputBuffer := by
  unfold ConnContext.appendRemaining
  dsimp only
  split
  · rfl
  · split <;> split <;> rfl

lemma input_sendInLoop (data : Bytes) (r : SysResult) : (w.sendInLoop data r).conn.inputBuffer = w.conn.inputBuffer := by
  unfold ConnContext.sendInLoop
  dsimp only
  split
  · rfl
  · split
    · split
      · rw [input_appendRemaining]
        split
        · exact input_notifyWriteComplete _
        · rfl
      · split
        · rfl
        · exact input_appendRemaining _ _
    · exact input_appendRemaining _ _

lemma input_awaitFileWrite (n : Nat) : (w.awaitFileWrite n).conn.inputBuffer = w.conn.inputBuffer := by
  unfold ConnContext.awaitFileWrite
  dsimp only
  split
  · rfl
  · split <;> rfl

lemma input_sendFileInLoop (r : SysResult) : (w.sendFileInLoop r).conn.inputBuffer = w.conn.inputBuffer := by
  unfold ConnContext.sendFileInLoop
  dsimp only
  split
  · rfl
  · split
    · split
      · split
        · exact input_notifyWriteComplete _
        · exact input_awaitFileWrite _ _
      · split
        · rfl
        · exact input_awaitFileWrite _ _
    · exact input_awaitFileWrite _ _

lemma input_shutDownInLoop : w.shutDownInLoop.conn.inputBuffer = w.conn.inputBuffer := by
  unfold ConnContext.shutDownInLoop
  split <;> rfl

lemma input_handleWrite (r : SysResult) : (w.handleWrite r).conn.inputBuffer = w.conn.inputBuffer := by
  unfold ConnContext.handleWrite
  dsimp only
  split
  · split
    · have hdrained : ∀ v : ConnContext κ, (if v.conn.outputBuffer.readableBytes = 0 then
          v.disableWriting.notifyWriteComplete else v).conn.inputBuffer = v.conn.inputBuffer := by
        intro v
        split
        · exact input_notifyWriteComplete _
        · rfl
      have hclosing : ∀ v : ConnContext κ, (if v.conn.state = .kDisConnecting then
          v.shutDownInLoop else v).conn.inputBuffer = v.conn.inputBuffer := by
        intro v
        split
        · exact input_shutDownInLoop v
        · rfl
      exact (hclosing _).trans (hdrained _)
    · rfl
  · split
    · exact input_sendFileInLoop w r
    · rfl

lemma input_closeCallback : w.closeCallback.conn.inputBuffer = w.conn.inputBuffer := by
  unfold ConnContext.closeCallback
  split <;> rfl

end Frames

/-! ### The functions of the connection -/

/-- The readable part of the buffer is the queue. -/
structure Holds (b : Buffer) (q : Fifo UInt8) : Prop where
  inv : BufferInv b
  readable : b.readable = q.queue

/-- The operations `ops` take the queue along when a function leads from `w` to `w'`. -/
def Consumes {κ : Type} (w w' : ConnContext κ) (ops : List (FifoOp UInt8)) : Prop :=
  ∀ q, Holds w.conn.inputBuffer q → ∃ q', Fifo.machine.run q ops = some q' ∧ Holds w'.conn.inputBuffer q'

variable {κ : Type} {w w' : ConnContext κ}

lemma consumes_of_eq (h : w'.conn.inputBuffer = w.conn.inputBuffer) : Consumes w w' [] :=
  fun q hq => ⟨q, rfl, h ▸ hq⟩

lemma Consumes.trans {w₁ w₂ w₃ : ConnContext κ} {ops₁ ops₂ : List (FifoOp UInt8)} (h₁ : Consumes w₁ w₂ ops₁)
    (h₂ : Consumes w₂ w₃ ops₂) : Consumes w₁ w₃ (ops₁ ++ ops₂) := by
  intro q hq
  obtain ⟨q₁, hrun₁, hq₁⟩ := h₁ q hq
  obtain ⟨q₂, hrun₂, hq₂⟩ := h₂ q₁ hq₁
  exact ⟨q₂, (Fifo.machine.run_append_eq_some _ _ _ _).mpr ⟨q₁, hrun₁, hrun₂⟩, hq₂⟩

/-- A function that leaves the input alone may come first. -/
lemma Consumes.of_eq {w₁ : ConnContext κ} {ops : List (FifoOp UInt8)} (h : Consumes w₁ w' ops)
    (heq : w₁.conn.inputBuffer = w.conn.inputBuffer) : Consumes w w' ops :=
  (consumes_of_eq heq).trans h

lemma consumes_appCall (w : ConnContext κ) (c : AppCall) : Consumes w (w.appCall c) c.inputOps := by
  cases c with
  | send data r =>
    apply consumes_of_eq
    simp only [ConnContext.appCall, ConnContext.send]
    split
    · exact input_sendInLoop w data r
    · rfl
  | sendFile fd offset count r =>
    apply consumes_of_eq
    simp only [ConnContext.appCall, ConnContext.sendFile]
    split
    · exact input_sendFileInLoop _ r
    · rfl
  | shutdown =>
    apply consumes_of_eq
    simp only [ConnContext.appCall, ConnContext.shutdown]
    split
    · exact input_shutDownInLoop _
    · rfl
  | retrieve len =>
    intro q hq
    refine ⟨q.drop len, rfl, retrieve_inv _ hq.inv len, ?_⟩
    change (w.conn.inputBuffer.retrieve len).readable = q.queue.drop len
    rw [readable_retrieve _ hq.inv, hq.readable]

lemma consumes_appCalls (w : ConnContext κ) (app : List AppCall) :
    Consumes w (w.appCalls app) (app.flatMap AppCall.inputOps) := by
  induction app generalizing w with
  | nil => exact consumes_of_eq rfl
  | cons c app ih =>
    rw [List.flatMap_cons]
    exact (consumes_appCall w c).trans (ih (w.appCall c))

lemma consumes_connectionCallback (w : ConnContext κ) (app : List AppCall) :
    Consumes w (w.connectionCallback app) (w.connectionCallbackOps app) := by
  unfold ConnContext.connectionCallback ConnContext.connectionCallbackOps
  split
  · exact (consumes_appCalls _ app).of_eq rfl
  · exact consumes_of_eq rfl

lemma consumes_handleClose (w : ConnContext κ) (app : List AppCall) :
    Consumes w (w.handleClose app) (w.connectionCallbackOps app) := by
  have hdown := (consumes_connectionCallback ((w.setState .kDisConnected).disableAll) app).of_eq (w := w) rfl
  have hboth := hdown.trans (consumes_of_eq (input_closeCallback _))
  rwa [List.append_nil] at hboth

lemma consumes_fillInput (w : ConnContext κ) (r : ReadvResult) : Consumes w (fillInput w r) r.inputOps := by
  intro q hq
  cases r with
  | ok data =>
    obtain ⟨hinv, hreadable⟩ := readFd_spec w.conn.inputBuffer hq.inv data
    refine ⟨q.enqueue data, rfl, hinv, ?_⟩
    change (w.conn.inputBuffer.readFd (.ok data)).readable = q.queue ++ data
    rw [hreadable, hq.readable]
  | err e => exact ⟨q, rfl, hq⟩

lemma consumes_handleRead (w : ConnContext κ) (r : ReadvResult) (onMessage onDown : List AppCall) :
    Consumes w (w.handleRead r onMessage onDown) (w.handleReadOps r onMessage onDown) := by
  refine (consumes_fillInput w r).trans ?_
  match r with
  | .ok [] => exact consumes_handleClose _ onDown
  | .ok (_ :: _) =>
    dsimp only
    unfold ConnContext.handleRead
    dsimp only
    split
    · exact (consumes_appCalls _ onMessage).of_eq rfl
    · exact consumes_of_eq rfl
  | .err _ => exact consumes_handleClose _ onDown

lemma consumes_runHandler (w : ConnContext κ) (revent : EventMask) (i : ConnContext.EventInput) (h : Handler) :
    Consumes w (w.runHandler revent i h) (w.handlerOps revent i h) := by
  cases h with
  | close =>
    simp only [ConnContext.runHandler, ConnContext.handlerOps]
    split
    · exact consumes_handleClose w i.onClose
    · exact consumes_of_eq rfl
  | read =>
    simp only [ConnContext.runHandler, ConnContext.handlerOps]
    split
    · exact consumes_handleRead w i.readv i.onMessage i.onRead
    · exact consumes_of_eq rfl
  | write =>
    simp only [ConnContext.runHandler, ConnContext.handlerOps]
    split
    · exact consumes_of_eq (input_handleWrite w i.write)
    · exact consumes_of_eq rfl
  | error =>
    simp only [ConnContext.runHandler, ConnContext.handlerOps]
    split
    · exact consumes_handleClose w i.onError
    · exact consumes_of_eq rfl

lemma consumes_connectionEstablished (w : ConnContext κ) (app : List AppCall) :
    Consumes w (w.connectionEstablished app) (w.connectionCallbackOps app) :=
  (consumes_connectionCallback w.establish app).of_eq rfl

lemma consumes_connectionDestroyed (w : ConnContext κ) (app : List AppCall) :
    Consumes w (w.connectionDestroyed app)
      (if w.conn.state = .kConnected ∨ w.conn.state = .kDisConnecting then w.connectionCallbackOps app else []) := by
  unfold ConnContext.connectionDestroyed
  dsimp only
  split
  · exact (consumes_connectionCallback ((w.setState .kDisConnected).disableAll) app).of_eq rfl
  · exact consumes_of_eq rfl

lemma consumes_runFunctor (w : ConnContext κ) (r : SysResult) (app : List AppCall) (c : Nat) (f : Functor) :
    Consumes w (w.runFunctor r app f) (w.taskOps app (.functor c f)) := by
  cases f with
  | sendInLoop data => exact consumes_of_eq (input_sendInLoop w data r)
  | sendFileInLoop => exact consumes_of_eq (input_sendFileInLoop w r)
  | shutDownInLoop => exact consumes_of_eq (input_shutDownInLoop w)
  | writeComplete => exact consumes_appCalls w app
  | highWaterMark => exact consumes_appCalls w app

/-! ### Steps of the server -/

/-- The input of the connection `c` is the queue, which is empty before the connection exists. -/
structure InputQueue (c : Nat) (s : TcpServer) (q : Fifo UInt8) : Prop where
  spread : Spread s
  holds : ∀ x, s.conns c = some x → Holds x.conn.inputBuffer q
  unborn : s.conns c = none → q.queue = []

variable {s s' : TcpServer} {c d : Nat} {q : Fifo UInt8} {x x' : ServerConn}

lemma InputQueue.same (h : InputQueue c s q) (hspread : Spread s') (hconns : s'.conns c = s.conns c) :
    InputQueue c s' q := by
  refine ⟨hspread, ?_, ?_⟩
  · rw [hconns]
    exact h.holds
  · rw [hconns]
    exact h.unborn

/-- A step that replaces the connection `d` and takes the queue along if that is `c`. -/
lemma InputQueue.update (h : InputQueue c s q) (hspread : Spread s') (hx : s.conns d = some x)
    (hconns : s'.conns = Function.update s.conns d (some x')) {ops : List (FifoOp UInt8)}
    (hops : ∀ q, d = c → Holds x.conn.inputBuffer q →
      ∃ q', Fifo.machine.run q ops = some q' ∧ Holds x'.conn.inputBuffer q')
    (hnone : d ≠ c → ops = []) : ∃ q', Fifo.machine.run q ops = some q' ∧ InputQueue c s' q' := by
  by_cases hd : d = c
  · obtain ⟨q', hrun, hq'⟩ := hops q hd (h.holds x (hd ▸ hx))
    subst hd
    have hself : s'.conns d = some x' := by rw [hconns, Function.update_self]
    refine ⟨q', hrun, hspread, fun y hy => ?_, fun hy => ?_⟩
    · rw [hself, Option.some.injEq] at hy
      exact hy ▸ hq'
    · rw [hself] at hy
      cases hy
  · rw [hnone hd]
    refine ⟨q, rfl, h.same hspread ?_⟩
    rw [hconns, Function.update_of_ne (Ne.symm hd)]

lemma inputQueue_newConnection (h : InputQueue c s q) (hspread : Spread (s.newConnection d)) :
    InputQueue c (s.newConnection d) q := by
  by_cases hc : c = s.created
  · subst hc
    refine ⟨hspread, fun x hx => ?_, fun hx => ?_⟩
    · rw [newConnection_conns_self, Option.some.injEq] at hx
      subst hx
      exact ⟨make_inv _, (readable_make _).trans (h.unborn (h.spread.unborn _ (Nat.le_refl _))).symm⟩
    · rw [newConnection_conns_self] at hx
      cases hx
  · exact h.same hspread (newConnection_conns_of_ne d hc)

lemma inputOps_of_handling {l : Nat} {i : ConnContext.EventInput} {revent : EventMask} {hd : Handler}
    {active : List (Nat × EventMask)} (hphase : (s.loops l).phase = .handling d revent hd active)
    (hx : s.conns d = some x) :
    TcpServer.inputOps c s (.handler l i) = if d = c then (s.context d x).handlerOps revent i hd else [] := by
  simp only [TcpServer.inputOps, hphase]
  by_cases hdc : d = c
  · subst hdc
    rw [if_pos rfl, if_pos rfl, hx]
    rfl
  · rw [if_neg hdc, if_neg hdc]

lemma inputOps_of_running {l : Nat} {r : SysResult} {app : List AppCall} {done rest : List Task} {t : Task}
    (hphase : (s.loops l).phase = .running done (t :: rest)) (hx : s.conns t.conn = some x) :
    TcpServer.inputOps c s (.runTask l r app) = if t.conn = c then (s.context t.conn x).taskOps app t else [] := by
  simp only [TcpServer.inputOps, hphase]
  by_cases htc : t.conn = c
  · rw [if_pos htc, if_pos htc, ← htc, hx]
    rfl
  · rw [if_neg htc, if_neg htc]

theorem inputQueue_step {a : ServerStep} (h : InputQueue c s q) (hnext : serverMachine.next s a = some s') :
    ∃ q', Fifo.machine.run q (TcpServer.inputOps c s a) = some q' ∧ InputQueue c s' q' := by
  have hspread : Spread s' := spread_step h.spread hnext
  cases server_trans hnext with
  | poll | skip | swap | endBatch => exact ⟨q, rfl, h.same hspread rfl⟩
  | @accept r =>
    match r with
    | none => exact ⟨q, rfl, h.same hspread rfl⟩
    | some 0 => exact ⟨q, rfl, h.same hspread rfl⟩
    | some (fd + 1) => exact ⟨q, rfl, inputQueue_newConnection h hspread⟩
  | handleEvent hphase hx => exact h.update hspread hx rfl (fun q _ hq => ⟨q, rfl, hq⟩) fun _ => rfl
  | @handler l i d revent hd active hphase x hx =>
    rw [inputOps_of_handling hphase hx]
    refine h.update hspread hx (conns_closeCallback _ l d x _) (fun q hdc hq => ?_) fun hdc => if_neg hdc
    rw [if_pos hdc]
    exact consumes_runHandler (s.context d x) revent i hd q hq
  | @runTask l r app done t rest hphase x hx =>
    rw [inputOps_of_running hphase hx]
    cases t with
    | removeConnectionInLoop d => exact ⟨q, by simp [ConnContext.taskOps, Machine.run], h.same hspread rfl⟩
    | connectionEstablished d =>
      refine h.update hspread hx rfl (fun q hdc hq => ?_) fun hdc => if_neg hdc
      rw [if_pos hdc]
      exact consumes_connectionEstablished ((s.setPhase l _).context d x) app q hq
    | connectionDestroyed d =>
      refine h.update hspread hx rfl (fun q hdc hq => ?_) fun hdc => if_neg hdc
      rw [if_pos hdc]
      exact consumes_connectionDestroyed ((s.setPhase l _).context d x) app q hq
    | functor d f =>
      refine h.update hspread hx rfl (fun q hdc hq => ?_) fun hdc => if_neg hdc
      rw [if_pos hdc]
      exact consumes_runFunctor ((s.setPhase l _).context d x) r app d f q hq
  | @app d call x hx =>
    refine h.update hspread hx rfl (fun q hdc hq => ?_) fun hdc => if_neg hdc
    rw [TcpServer.inputOps, if_pos hdc]
    exact consumes_appCall (s.context d x) call q hq
  | hold hx => exact h.update hspread hx rfl (fun q _ hq => ⟨q, rfl, hq⟩) fun _ => rfl
  | release hx => exact h.update hspread hx rfl (fun q _ hq => ⟨q, rfl, hq⟩) fun _ => rfl

/-- Through every run of the server the input buffer of a connection is the queue of the reads and
retrievals that concern it: what the application has consumed, followed by what is in the buffer, is
what `readv` has delivered on the connection. -/
theorem input_stream_integrity (config : ServerConfig) (steps : List ServerStep) (s : TcpServer) (c : Nat)
    (x : ServerConn) (hrun : serverMachine.run (TcpServer.make config) steps = some s) (hx : s.conns c = some x) :
    ∃ q, Fifo.machine.run Fifo.empty
        (serverMachine.emitted (TcpServer.inputOps c) (TcpServer.make config) steps) = some q ∧
      x.conn.inputBuffer.readable = q.queue ∧
      q.gone ++ x.conn.inputBuffer.readable =
        (serverMachine.emitted (TcpServer.inputOps c) (TcpServer.make config) steps).flatMap FifoOp.entered := by
  have hmake : InputQueue c (TcpServer.make config) Fifo.empty :=
    ⟨spread_make config, by simp [TcpServer.make], fun _ => rfl⟩
  obtain ⟨q, hq, hinput⟩ := serverMachine.run_emitted (N := Fifo.machine) (R := fun s q => InputQueue c s q)
    (fun _ _ _ _ h hnext => inputQueue_step h hnext) hmake hrun
  have hqueue := (hinput.holds x hx).readable
  refine ⟨q, hq, hqueue, ?_⟩
  rw [hqueue, Fifo.gone_append_queue hq, Fifo.put_eq_entered hq]
  rfl

/-- Two reads of the first connection, of which the application takes three bytes. -/
def readTwice : List ServerStep :=
  oneLife.take 8 ++ [.poll 1 [(7, ⟨true, false, false, false, false⟩)], .handleEvent 1,
   .handler 1 ⟨.ok [1, 2], .err .ewouldblock, [.retrieve 1], [], [], []⟩,
   .handler 1 ⟨.ok [1, 2], .err .ewouldblock, [.retrieve 1], [], [], []⟩, .handler 1 noInput, .handler 1 noInput,
   .swap 1, .endBatch 1, .poll 1 [(7, ⟨true, false, false, false, false⟩)], .handleEvent 1,
   .handler 1 ⟨.ok [3, 4], .err .ewouldblock, [.retrieve 2], [], [], []⟩,
   .handler 1 ⟨.ok [3, 4], .err .ewouldblock, [.retrieve 2], [], [], []⟩]

theorem input_stream_integrity_two_reads :
    ∃ s x q, serverMachine.run (TcpServer.make sampleConfig) readTwice = some s ∧ s.conns 0 = some x ∧
      Fifo.machine.run Fifo.empty
        (serverMachine.emitted (TcpServer.inputOps 0) (TcpServer.make sampleConfig) readTwice) = some q ∧
      x.conn.inputBuffer.readable = [4] ∧ q.gone ++ x.conn.inputBuffer.readable = [1, 2, 3, 4] := by
  have hend : (serverMachine.run (TcpServer.make sampleConfig) readTwice).bind (fun s =>
      (s.conns 0).map fun x => x.conn.inputBuffer.readable) = some [4] := by
    decide +kernel
  obtain ⟨s, hrun, hend⟩ := Option.bind_eq_some_iff.mp hend
  obtain ⟨x, hx, hreadable⟩ := Option.map_eq_some_iff.mp hend
  obtain ⟨q, hq, -, hall⟩ := input_stream_integrity sampleConfig readTwice s 0 x hrun hx
  have hentered : (serverMachine.emitted (TcpServer.inputOps 0) (TcpServer.make sampleConfig) readTwice).flatMap
      FifoOp.entered = [1, 2, 3, 4] := by
    decide +kernel
  exact ⟨s, x, q, hrun, hx, hq, hreadable, hall.trans hentered⟩

end Proofs

end MylibMuduo
