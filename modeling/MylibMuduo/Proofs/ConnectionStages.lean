import MylibMuduo.Proofs.OutputStream

/-!
# Stages of a connection

A connection is fresh until `connectionEstablished`, then live, and disconnected from the
first `handleClose` or `connectionDestroyed` on. `LiveStep` is all that the functions of a
live connection outside the close path do to its registration and its notifications, and
`IdleStep` all that they do to a connection that is not established or disconnected.
-/

namespace MylibMuduo.Proofs

variable {κ : Type}

/-- The notifications of connection and close, without the messages. -/
def lifecycle (calls : List UserCall) : List UserCall := calls.filter (· ≠ .message)

lemma count_close_lifecycle (calls : List UserCall) :
    (lifecycle calls).count .close = calls.count .close := by
  unfold lifecycle
  rw [List.count_filter (by decide)]

def Open (w : ConnContext κ) : Prop := w.conn.state = .kConnected ∨ w.conn.state = .kDisConnecting

/-- Established, registered and not closed. -/
structure Live (w : ConnContext κ) : Prop where
  reg : Registered w
  opn : Open w

/-- Closed, and out of the kernel's interest set. -/
structure Dead (w : ConnContext κ) : Prop where
  state : w.conn.state = .kDisConnected
  book : Bookkept w.poller w.key w.conn.channel
  none : w.conn.channel.events = kNoneEvent
  notAdded : w.conn.channel.index ≠ .kAdd

structure LiveStep (w w' : ConnContext κ) : Prop where
  live : Live w'
  fd : w'.conn.channel.fd = w.conn.channel.fd
  key : w'.key = w.key
  callbacks : w'.conn.callbacks = w.conn.callbacks
  calls : lifecycle w'.calls = lifecycle w.calls
  elsewhere : SameElsewhere w.conn.channel.fd w.poller w'.poller
  queued : ∃ fs, w'.pendingFunctors = w.pendingFunctors ++ fs ∧ Notifications fs

structure IdleStep (w w' : ConnContext κ) : Prop where
  state : w'.conn.state = w.conn.state
  channel : w'.conn.channel = w.conn.channel
  key : w'.key = w.key
  callbacks : w'.conn.callbacks = w.conn.callbacks
  calls : lifecycle w'.calls = lifecycle w.calls
  poller : w'.poller = w.poller
  queued : w'.pendingFunctors = w.pendingFunctors

lemma LiveStep.trans {w₁ w₂ w₃ : ConnContext κ} (h₁ : LiveStep w₁ w₂) (h₂ : LiveStep w₂ w₃) :
    LiveStep w₁ w₃ := by
  have helse : SameElsewhere w₁.conn.channel.fd w₂.poller w₃.poller := h₁.fd ▸ h₂.elsewhere
  exact ⟨h₂.live, h₂.fd.trans h₁.fd, h₂.key.trans h₁.key, h₂.callbacks.trans h₁.callbacks,
    h₂.calls.trans h₁.calls, h₁.elsewhere.trans helse, Notifies.trans h₁.queued h₂.queued⟩

lemma IdleStep.trans {w₁ w₂ w₃ : ConnContext κ} (h₁ : IdleStep w₁ w₂) (h₂ : IdleStep w₂ w₃) :
    IdleStep w₁ w₃ :=
  ⟨h₂.state.trans h₁.state, h₂.channel.trans h₁.channel, h₂.key.trans h₁.key, h₂.callbacks.trans h₁.callbacks,
    h₂.calls.trans h₁.calls, h₂.poller.trans h₁.poller, h₂.queued.trans h₁.queued⟩

lemma IdleStep.dead {w w' : ConnContext κ} (h : IdleStep w w') (hd : Dead w) : Dead w' := by
  refine ⟨h.state.trans hd.state, ?_, ?_, ?_⟩
  · rw [h.poller, h.key, h.channel]
    exact hd.book
  · rw [h.channel]
    exact hd.none
  · rw [h.channel]
    exact hd.notAdded

/-! ### Live connections -/

/-- A change of the fields that the registration does not look at. -/
lemma liveStep_of_eq {w w' : ConnContext κ} (h : Live w) (hopen : Open w')
    (hchan : w'.conn.channel = w.conn.channel) (hpoll : w'.poller = w.poller) (hkey : w'.key = w.key)
    (hcb : w'.conn.callbacks = w.conn.callbacks) (hcalls : lifecycle w'.calls = lifecycle w.calls)
    (hq : ∃ fs, w'.pendingFunctors = w.pendingFunctors ++ fs ∧ Notifications fs) : LiveStep w w' := by
  have hreg : Registered w' := by
    refine ⟨?_, ?_, ?_⟩
    · rw [hpoll, hkey, hchan]
      exact h.reg.book
    · rw [hchan]
      exact h.reg.added
    · rw [hchan]
      exact h.reg.reading
  exact ⟨⟨hreg, hopen⟩, by rw [hchan], hkey, hcb, hcalls, by rw [hpoll]; exact sameElsewhere_refl _ _, hq⟩

lemma no_functors (w : ConnContext κ) : Notifies w w := notifies_of_eq rfl

lemma liveStep_refl {w : ConnContext κ} (h : Live w) : LiveStep w w :=
  liveStep_of_eq h h.opn rfl rfl rfl rfl rfl (no_functors w)

lemma liveStep_setInterest {w : ConnContext κ} (h : Live w) (e : EventMask) (he : e.epollin = true) :
    LiveStep w (setInterest w e) := by
  refine ⟨⟨setInterest_registered h.reg e he, h.opn⟩, rfl, rfl, rfl, rfl, ⟨rfl, ?_⟩, no_functors w⟩
  intro g hg
  simp [setInterest, hg]

lemma liveStep_enableWriting {w : ConnContext κ} (h : Live w) : LiveStep w w.enableWriting := by
  rw [enableWriting_registered h.reg]
  exact liveStep_setInterest h _ h.reg.reading

lemma liveStep_disableWriting {w : ConnContext κ} (h : Live w) : LiveStep w w.disableWriting := by
  rw [disableWriting_registered h.reg]
  exact liveStep_setInterest h _ h.reg.reading

lemma liveStep_notifyWriteComplete {w : ConnContext κ} (h : Live w) :
    LiveStep w w.notifyWriteComplete := by
  unfold ConnContext.notifyWriteComplete
  split
  · exact liveStep_of_eq h h.opn rfl rfl rfl rfl rfl (quiet_queueInLoop w _ (Or.inl rfl)).queued
  · exact liveStep_refl h

lemma liveStep_appendRemaining {w : ConnContext κ} (h : Live w) (rest : Bytes) :
    LiveStep w (w.appendRemaining rest) := by
  unfold ConnContext.appendRemaining
  split
  · exact liveStep_refl h
  · dsimp only
    have hset : ∀ w₁ : ConnContext κ, LiveStep w w₁ → LiveStep w
        (if (w₁.setOutput (w₁.conn.outputBuffer.append rest)).conn.channel.isWriting then
          w₁.setOutput (w₁.conn.outputBuffer.append rest)
        else (w₁.setOutput (w₁.conn.outputBuffer.append rest)).enableWriting) := by
      intro w₁ h₁
      have hout : LiveStep w (w₁.setOutput (w₁.conn.outputBuffer.append rest)) :=
        h₁.trans (liveStep_of_eq h₁.live h₁.live.opn rfl rfl rfl rfl rfl (no_functors w₁))
      split
      · exact hout
      · exact hout.trans (liveStep_enableWriting hout.live)
    split
    · exact hset _ (liveStep_of_eq h h.opn rfl rfl rfl rfl rfl
        (quiet_queueInLoop w _ (Or.inr rfl)).queued)
    · exact hset w (liveStep_refl h)

lemma liveStep_sendInLoop {w : ConnContext κ} (h : Live w) (data : Bytes) (r : SysResult) :
    LiveStep w (w.sendInLoop data r) := by
  unfold ConnContext.sendInLoop
  split
  · exact liveStep_refl h
  split
  · cases r with
    | ok n =>
      dsimp only
      have hacc : LiveStep w (w.accept (data.take n)) :=
        liveStep_of_eq h h.opn rfl rfl rfl rfl rfl (no_functors w)
      split
      · have hnotify := hacc.trans (liveStep_notifyWriteComplete hacc.live)
        exact hnotify.trans (liveStep_appendRemaining hnotify.live _)
      · exact hacc.trans (liveStep_appendRemaining hacc.live _)
    | err e =>
      dsimp only
      split
      · exact liveStep_refl h
      · exact liveStep_appendRemaining h data
  · exact liveStep_appendRemaining h data

lemma liveStep_awaitFileWrite {w : ConnContext κ} (h : Live w) (remaining : Nat) :
    LiveStep w (w.awaitFileWrite remaining) := by
  unfold ConnContext.awaitFileWrite
  split
  · exact liveStep_refl h
  · dsimp only
    have hfile : LiveStep w (w.setFile { w.conn.fileToSend with count := remaining }) :=
      liveStep_of_eq h h.opn rfl rfl rfl rfl rfl (no_functors w)
    split
    · exact hfile
    · exact hfile.trans (liveStep_enableWriting hfile.live)

lemma liveStep_setSendingFile {w : ConnContext κ} (h : Live w) (b : Bool) :
    LiveStep w (w.setSendingFile b) :=
  liveStep_of_eq h h.opn rfl rfl rfl rfl rfl (no_functors w)

lemma liveStep_sendFileInLoop {w : ConnContext κ} (h : Live w) (r : SysResult) :
    LiveStep w (w.sendFileInLoop r) := by
  unfold ConnContext.sendFileInLoop
  split
  · exact liveStep_setSendingFile h false
  split
  · dsimp only
    cases r with
    | ok n =>
      dsimp only
      have hacc : LiveStep w ((w.accept (((w.files w.conn.fileToSend.fdToSend).drop
          w.conn.fileToSend.fdOffset.toNat).take n)).setFile
          { w.conn.fileToSend with fdOffset := w.conn.fileToSend.fdOffset + n }) :=
        liveStep_of_eq h h.opn rfl rfl rfl rfl rfl (no_functors w)
      split
      · have hnotify := hacc.trans (liveStep_notifyWriteComplete hacc.live)
        have hsend := hnotify.trans (liveStep_setSendingFile hnotify.live false)
        exact hsend.trans (liveStep_disableWriting hsend.live)
      · exact hacc.trans (liveStep_awaitFileWrite hacc.live _)
    | err e =>
      dsimp only
      split
      · exact liveStep_setSendingFile h false
      · exact liveStep_awaitFileWrite h _
  · exact liveStep_awaitFileWrite h _

lemma liveStep_shutDownInLoop {w : ConnContext κ} (h : Live w) : LiveStep w w.shutDownInLoop := by
  unfold ConnContext.shutDownInLoop
  split
  · exact liveStep_refl h
  · exact liveStep_of_eq h h.opn rfl rfl rfl rfl rfl (no_functors w)

lemma liveStep_appCall {w : ConnContext κ} (h : Live w) (c : AppCall) : LiveStep w (w.appCall c) := by
  cases c with
  | send data r =>
    simp only [ConnContext.appCall, ConnContext.send]
    split
    · exact liveStep_sendInLoop h data r
    · exact liveStep_refl h
  | sendFile fd offset count r =>
    simp only [ConnContext.appCall, ConnContext.sendFile]
    split
    · have hset : LiveStep w ((w.setSendingFile true).setFile ⟨fd, offset, count⟩) :=
        liveStep_of_eq h h.opn rfl rfl rfl rfl rfl (no_functors w)
      exact hset.trans (liveStep_sendFileInLoop hset.live r)
    · exact liveStep_refl h
  | shutdown =>
    simp only [ConnContext.appCall, ConnContext.shutdown]
    split
    · have hset : LiveStep w (w.setState .kDisConnecting) :=
        liveStep_of_eq h (Or.inr rfl) rfl rfl rfl rfl rfl (no_functors w)
      exact hset.trans (liveStep_shutDownInLoop hset.live)
    · exact liveStep_refl h
  | retrieve len => exact liveStep_of_eq h h.opn rfl rfl rfl rfl rfl (no_functors w)

lemma liveStep_appCalls {w : ConnContext κ} (h : Live w) (app : List AppCall) :
    LiveStep w (w.appCalls app) := by
  induction app generalizing w with
  | nil => exact liveStep_refl h
  | cons c app ih =>
    have hc := liveStep_appCall h c
    exact hc.trans (ih hc.live)

lemma liveStep_drainOutput {w : ConnContext κ} (h : Live w) (n : Nat) : LiveStep w (drainOutput w n) := by
  unfold drainOutput
  have hset : LiveStep w ((w.accept (w.conn.outputBuffer.readable.take (n + 1))).setOutput
      (w.conn.outputBuffer.retrieve (n + 1))) :=
    liveStep_of_eq h h.opn rfl rfl rfl rfl rfl (no_functors w)
  dsimp only
  split
  · have hdis := hset.trans (liveStep_disableWriting hset.live)
    exact hdis.trans (liveStep_notifyWriteComplete hdis.live)
  · exact hset

theorem liveStep_handleWrite {w : ConnContext κ} (h : Live w) (r : SysResult) :
    LiveStep w (w.handleWrite r) := by
  rcases handleWrite_inv w r with heq | ⟨n, -, -, heq⟩ | ⟨-, heq⟩
  · rw [heq]
    exact liveStep_refl h
  · have hdrain := liveStep_drainOutput h n
    rw [heq]
    split
    · exact hdrain.trans (liveStep_shutDownInLoop hdrain.live)
    · exact hdrain
  · rw [heq]
    exact liveStep_sendFileInLoop h r

/-! ### Idle connections -/

lemma idleStep_refl (w : ConnContext κ) : IdleStep w w := ⟨rfl, rfl, rfl, rfl, rfl, rfl, rfl⟩

lemma idleStep_appCall {w : ConnContext κ} (h : w.conn.state ≠ .kConnected) (c : AppCall) :
    IdleStep w (w.appCall c) := by
  cases c with
  | send data r => simpa [ConnContext.appCall, ConnContext.send, h] using idleStep_refl w
  | sendFile fd offset count r =>
    simpa [ConnContext.appCall, ConnContext.sendFile, h] using idleStep_refl w
  | shutdown => simpa [ConnContext.appCall, ConnContext.shutdown, h] using idleStep_refl w
  | retrieve len => exact ⟨rfl, rfl, rfl, rfl, rfl, rfl, rfl⟩

lemma idleStep_appCalls {w : ConnContext κ} (h : w.conn.state ≠ .kConnected) (app : List AppCall) :
    IdleStep w (w.appCalls app) := by
  induction app generalizing w with
  | nil => exact idleStep_refl w
  | cons c app ih =>
    have hc := idleStep_appCall h c
    have hstate : (w.appCall c).conn.state ≠ .kConnected := by
      rw [hc.state]
      exact h
    exact hc.trans (ih hstate)

lemma Dead.not_connected {w : ConnContext κ} (h : Dead w) : w.conn.state ≠ .kConnected := by
  rw [h.state]
  simp

theorem idleStep_handleWrite {w : ConnContext κ} (h : Dead w) (r : SysResult) :
    IdleStep w (w.handleWrite r) := by
  have hw : w.conn.channel.isWriting = false := by
    unfold Channel.isWriting
    rw [h.none]
    rfl
  unfold ConnContext.handleWrite
  simpa [hw] using idleStep_refl w

/-! ### The close path -/

/-- The index of a channel after `disableAll`. -/
def suspendedIndex (index : ChannelIndex) : ChannelIndex := updatedIndex index kNoneEvent

/-- The connection has been taken down, with the notifications `calls`. -/
structure DownStep (w w' : ConnContext κ) (calls : List UserCall) : Prop where
  dead : Dead w'
  index : w'.conn.channel.index = suspendedIndex w.conn.channel.index
  fd : w'.conn.channel.fd = w.conn.channel.fd
  key : w'.key = w.key
  callbacks : w'.conn.callbacks = w.conn.callbacks
  calls : lifecycle w'.calls = lifecycle w.calls ++ calls
  elsewhere : SameElsewhere w.conn.channel.fd w.poller w'.poller
  queued : w'.pendingFunctors = w.pendingFunctors

lemma DownStep.trans_idle {w₁ w₂ w₃ : ConnContext κ} {calls : List UserCall}
    (h₁ : DownStep w₁ w₂ calls) (h₂ : IdleStep w₂ w₃) : DownStep w₁ w₃ calls := by
  refine ⟨h₂.dead h₁.dead, ?_, ?_, h₂.key.trans h₁.key, h₂.callbacks.trans h₁.callbacks,
    h₂.calls.trans h₁.calls, ?_, h₂.queued.trans h₁.queued⟩
  · rw [h₂.channel]
    exact h₁.index
  · rw [h₂.channel]
    exact h₁.fd
  · rw [h₂.poller]
    exact h₁.elsewhere

lemma downStep_call {w w' : ConnContext κ} {calls : List UserCall} (h : DownStep w w' calls)
    (c : UserCall) (hc : c ≠ .message) : DownStep w (w'.call c) (calls ++ [c]) := by
  refine ⟨⟨h.dead.state, h.dead.book, h.dead.none, h.dead.notAdded⟩, h.index, h.fd, h.key, h.callbacks,
    ?_, h.elsewhere, h.queued⟩
  have happ : lifecycle (w'.calls ++ [c]) = lifecycle w'.calls ++ [c] := by
    simp [lifecycle, hc]
  rw [ConnContext.call, happ, h.calls, List.append_assoc]

/-- The store of `kDisConnected` and `disableAll`. -/
lemma downStep_disableAll {w : ConnContext κ} (h : Bookkept w.poller w.key w.conn.channel) :
    DownStep w (w.setState .kDisConnected).disableAll [] := by
  obtain ⟨hch, hbook, helse⟩ := updateChannel_spec w.poller w.key w.conn.channel kNoneEvent h
  have hchan : (w.setState .kDisConnected).disableAll.conn.channel =
      { w.conn.channel with events := kNoneEvent, index := suspendedIndex w.conn.channel.index } := hch
  refine ⟨⟨rfl, hbook, ?_, ?_⟩, ?_, ?_, rfl, rfl, by rw [List.append_nil]; rfl, helse, rfl⟩
  · rw [hchan]
  · rw [hchan]
    unfold suspendedIndex updatedIndex
    cases w.conn.channel.index <;> simp
  · rw [hchan]
  · rw [hchan]

/-- The down notification, if the connection callback is set. -/
def downCall (callbacks : Callbacks) : List UserCall :=
  if callbacks.connection then [.connection false] else []

/-- The close notification, if the close callback is set. -/
def closeCall (callbacks : Callbacks) : List UserCall := if callbacks.close then [.close] else []

lemma count_close_handleClose {callbacks : Callbacks} (hclose : callbacks.close = true) :
    (downCall callbacks ++ closeCall callbacks).count .close = 1 := by
  unfold downCall closeCall
  rw [hclose]
  cases callbacks.connection <;> rfl

lemma downStep_connectionCallback {w w' : ConnContext κ} (h : DownStep w w' []) (app : List AppCall) :
    DownStep w (w'.connectionCallback app) (downCall w.conn.callbacks) := by
  unfold ConnContext.connectionCallback downCall
  rw [h.callbacks]
  split
  · have hconn : w'.conn.connected = false := by
      simp [TcpConnection.connected, h.dead.state]
    rw [hconn]
    have hcall := downStep_call h (.connection false) (by simp)
    exact hcall.trans_idle (idleStep_appCalls hcall.dead.not_connected app)
  · exact h

/-- `handleClose` takes the connection down and notifies both callbacks, each time it runs. -/
theorem downStep_handleClose {w : ConnContext κ} (h : Bookkept w.poller w.key w.conn.channel)
    (app : List AppCall) :
    DownStep w (w.handleClose app) (downCall w.conn.callbacks ++ closeCall w.conn.callbacks) := by
  have hdown := downStep_connectionCallback (downStep_disableAll h) app
  unfold ConnContext.handleClose ConnContext.closeCallback closeCall
  rw [hdown.callbacks]
  split
  · exact downStep_call hdown .close (by simp)
  · rw [List.append_nil]
    exact hdown

/-- Whether the result of the read takes the connection down. -/
def readCloses : ReadvResult → Bool
  | .ok (_ :: _) => false
  | _ => true

/-- The bytes of a read in the input buffer. -/
def fillInput (w : ConnContext κ) (r : ReadvResult) : ConnContext κ :=
  { w with conn := { w.conn with inputBuffer := w.conn.inputBuffer.readFd r } }

lemma handleRead_closes (w : ConnContext κ) (r : ReadvResult) (onMessage onDown : List AppCall)
    (hr : readCloses r = true) : w.handleRead r onMessage onDown = (fillInput w r).handleClose onDown := by
  match r with
  | .ok [] => rfl
  | .ok (_ :: _) => cases hr
  | .err _ => rfl

lemma handleRead_data (w : ConnContext κ) (r : ReadvResult) (onMessage onDown : List AppCall)
    (hr : readCloses r = false) : w.handleRead r onMessage onDown =
      if w.conn.callbacks.message then ((fillInput w r).call .message).appCalls onMessage else fillInput w r := by
  match r with
  | .ok [] => cases hr
  | .ok (_ :: _) => rfl
  | .err _ => cases hr

/-- A read of data on a live connection. -/
theorem liveStep_handleRead {w : ConnContext κ} (h : Live w) (r : ReadvResult)
    (onMessage onDown : List AppCall) (hr : readCloses r = false) :
    LiveStep w (w.handleRead r onMessage onDown) := by
  rw [handleRead_data w r onMessage onDown hr]
  split
  · have hcall : LiveStep w ((fillInput w r).call .message) :=
      liveStep_of_eq h h.opn rfl rfl rfl rfl
        (by simp [ConnContext.call, fillInput, lifecycle]) (no_functors w)
    exact hcall.trans (liveStep_appCalls hcall.live onMessage)
  · exact liveStep_of_eq h h.opn rfl rfl rfl rfl rfl (no_functors w)

theorem idleStep_handleRead {w : ConnContext κ} (h : w.conn.state ≠ .kConnected) (r : ReadvResult)
    (onMessage onDown : List AppCall) (hr : readCloses r = false) :
    IdleStep w (w.handleRead r onMessage onDown) := by
  rw [handleRead_data w r onMessage onDown hr]
  split
  · have hcall : IdleStep w ((fillInput w r).call .message) :=
      ⟨rfl, rfl, rfl, rfl, by simp [ConnContext.call, fillInput, lifecycle], rfl, rfl⟩
    have hstate : ((fillInput w r).call .message).conn.state ≠ .kConnected := h
    exact hcall.trans (idleStep_appCalls hstate onMessage)
  · exact ⟨rfl, rfl, rfl, rfl, rfl, rfl, rfl⟩

/-- The connection has left the poller, with the notifications `calls`. -/
structure RemoveStep (w w' : ConnContext κ) (calls : List UserCall) : Prop where
  dead : Dead w'
  index : w'.conn.channel.index = .kNew
  fd : w'.conn.channel.fd = w.conn.channel.fd
  key : w'.key = w.key
  callbacks : w'.conn.callbacks = w.conn.callbacks
  calls : lifecycle w'.calls = lifecycle w.calls ++ calls
  elsewhere : SameElsewhere w.conn.channel.fd w.poller w'.poller
  queued : w'.pendingFunctors = w.pendingFunctors

lemma removeStep_remove {w w' : ConnContext κ} {calls : List UserCall} (h : DownStep w w' calls) :
    RemoveStep w (w'.setChannel (w'.conn.channel.remove w'.poller w'.key)) calls := by
  obtain ⟨hch, hbook, helse⟩ := removeChannel_spec w'.poller w'.key w'.conn.channel h.dead.book
  have hchan : (w'.setChannel (w'.conn.channel.remove w'.poller w'.key)).conn.channel =
      { w'.conn.channel with index := .kNew } := hch
  rw [h.fd] at helse
  refine ⟨⟨h.dead.state, hbook, ?_, ?_⟩, ?_, ?_, h.key, h.callbacks, h.calls, h.elsewhere.trans helse,
    h.queued⟩
  · rw [hchan]
    exact h.dead.none
  · rw [hchan]
    simp
  · rw [hchan]
  · rw [hchan]
    exact h.fd

/-- `connectionDestroyed` on a connection that was not closed before. -/
theorem removeStep_live {w : ConnContext κ} (h : Live w) (app : List AppCall) :
    RemoveStep w (w.connectionDestroyed app) (downCall w.conn.callbacks) := by
  have hopen : w.conn.state = .kConnected ∨ w.conn.state = .kDisConnecting := h.opn
  unfold ConnContext.connectionDestroyed
  rw [if_pos hopen]
  exact removeStep_remove (downStep_connectionCallback (downStep_disableAll h.reg.book) app)

/-- `connectionDestroyed` on a closed connection only removes the channel. -/
theorem removeStep_dead {w : ConnContext κ} (h : Dead w) (app : List AppCall) :
    RemoveStep w (w.connectionDestroyed app) [] := by
  have hclosed : ¬(w.conn.state = .kConnected ∨ w.conn.state = .kDisConnecting) := by
    rw [h.state]
    simp
  have hindex : w.conn.channel.index = suspendedIndex w.conn.channel.index := by
    unfold suspendedIndex updatedIndex
    rw [if_pos rfl, if_neg h.notAdded]
  have hself : DownStep w w [] :=
    ⟨h, hindex, rfl, rfl, rfl, by rw [List.append_nil], sameElsewhere_refl _ _, rfl⟩
  unfold ConnContext.connectionDestroyed
  rw [if_neg hclosed]
  exact removeStep_remove hself

/-- A connection before `connectionEstablished`. -/
structure Fresh (w : ConnContext κ) : Prop where
  state : w.conn.state = .kConnecting
  book : Bookkept w.poller w.key w.conn.channel
  index : w.conn.channel.index = .kNew
  none : w.conn.channel.events = kNoneEvent

lemma IdleStep.fresh {w w' : ConnContext κ} (h : IdleStep w w') (hf : Fresh w) : Fresh w' := by
  refine ⟨h.state.trans hf.state, ?_, ?_, ?_⟩
  · rw [h.poller, h.key, h.channel]
    exact hf.book
  · rw [h.channel]
    exact hf.index
  · rw [h.channel]
    exact hf.none

lemma Fresh.not_connected {w : ConnContext κ} (h : Fresh w) : w.conn.state ≠ .kConnected := by
  rw [h.state]
  simp

/-- The connection is live, with the notifications `calls`. -/
structure UpStep (w w' : ConnContext κ) (calls : List UserCall) : Prop where
  live : Live w'
  fd : w'.conn.channel.fd = w.conn.channel.fd
  key : w'.key = w.key
  callbacks : w'.conn.callbacks = w.conn.callbacks
  calls : lifecycle w'.calls = lifecycle w.calls ++ calls
  elsewhere : SameElsewhere w.conn.channel.fd w.poller w'.poller
  queued : ∃ fs, w'.pendingFunctors = w.pendingFunctors ++ fs ∧ Notifications fs

lemma UpStep.trans_live {w₁ w₂ w₃ : ConnContext κ} {calls : List UserCall} (h₁ : UpStep w₁ w₂ calls)
    (h₂ : LiveStep w₂ w₃) : UpStep w₁ w₃ calls := by
  have helse : SameElsewhere w₁.conn.channel.fd w₂.poller w₃.poller := h₁.fd ▸ h₂.elsewhere
  exact ⟨h₂.live, h₂.fd.trans h₁.fd, h₂.key.trans h₁.key, h₂.callbacks.trans h₁.callbacks,
    h₂.calls.trans h₁.calls, h₁.elsewhere.trans helse, Notifies.trans h₁.queued h₂.queued⟩

/-- The up notification, if the connection callback is set. -/
def upCall (callbacks : Callbacks) : List UserCall :=
  if callbacks.connection then [.connection true] else []

lemma upStep_establish {w : ConnContext κ} (h : Fresh w) : UpStep w w.establish [] := by
  have hev : w.conn.channel.events = kNoneEvent := h.none
  obtain ⟨hch, hbook, helse⟩ := updateChannel_spec w.poller w.key { w.conn.channel with tied := true }
    { w.conn.channel.events with epollin := true, epollpri := true } (h.book.tie true)
  have hchan : w.establish.conn.channel = { w.conn.channel with
      tied := true
      events := { w.conn.channel.events with epollin := true, epollpri := true }
      index := .kAdd } := by
    have hne : ({ w.conn.channel.events with epollin := true, epollpri := true } : EventMask) ≠
        kNoneEvent := epollin_ne_none rfl
    have hidx := hch
    simp only [updatedIndex, hne, if_false] at hidx
    exact hidx
  refine ⟨⟨⟨hbook, ?_, ?_⟩, Or.inl rfl⟩, ?_, rfl, rfl, by rw [List.append_nil]; rfl, helse,
    no_functors w⟩
  · rw [hchan]
  · rw [hchan]
  · rw [hchan]

/-- `connectionEstablished` registers the connection and notifies once. -/
theorem upStep_connectionEstablished {w : ConnContext κ} (h : Fresh w) (app : List AppCall) :
    UpStep w (w.connectionEstablished app) (upCall w.conn.callbacks) := by
  have hup := upStep_establish h
  unfold ConnContext.connectionEstablished ConnContext.connectionCallback upCall
  rw [hup.callbacks]
  split
  · have hcall : UpStep w (w.establish.call (.connection w.establish.conn.connected)) [.connection true] := by
      refine ⟨⟨⟨hup.live.reg.book, hup.live.reg.added, hup.live.reg.reading⟩, hup.live.opn⟩, hup.fd, hup.key,
        hup.callbacks, ?_, hup.elsewhere, hup.queued⟩
      rw [ConnContext.call, ← hup.calls.trans (List.append_nil _)]
      simp [lifecycle, ConnContext.establish, ConnContext.setState, ConnContext.setChannel,
        TcpConnection.connected]
    exact hcall.trans_live (liveStep_appCalls hcall.live app)
  · exact hup

/-! ### One dispatch -/

/-- How many times one dispatch runs `handleClose`. -/
def closePaths (revent : EventMask) (r : ReadvResult) : Nat :=
  (if revent.epollhup ∧ ¬revent.epollin then 1 else 0) +
    (if (revent.epollin ∨ revent.epollpri) ∧ readCloses r then 1 else 0) +
    (if revent.epollerr then 1 else 0)

/-- The notifications of `k` runs of `handleClose`. -/
def closeCalls (callbacks : Callbacks) (k : Nat) : List UserCall :=
  (List.replicate k (downCall callbacks ++ closeCall callbacks)).flatten

/-- A dispatch that started in the live connection `w` has run `handleClose` `k` times. -/
structure DispatchStep (w w' : ConnContext κ) (k : Nat) : Prop where
  open_ : k = 0 → Live w'
  closed : k ≠ 0 → Dead w' ∧ w'.conn.channel.index = .kDelete
  fd : w'.conn.channel.fd = w.conn.channel.fd
  key : w'.key = w.key
  callbacks : w'.conn.callbacks = w.conn.callbacks
  calls : lifecycle w'.calls = lifecycle w.calls ++ closeCalls w.conn.callbacks k
  elsewhere : SameElsewhere w.conn.channel.fd w.poller w'.poller
  queued : ∃ fs, w'.pendingFunctors = w.pendingFunctors ++ fs ∧ Notifications fs

lemma closeCalls_succ (callbacks : Callbacks) (k : Nat) :
    closeCalls callbacks (k + 1) =
      closeCalls callbacks k ++ (downCall callbacks ++ closeCall callbacks) := by
  unfold closeCalls
  rw [List.replicate_succ', List.flatten_append, List.flatten_cons, List.flatten_nil, List.append_nil]

lemma dispatchStep_refl {w : ConnContext κ} (h : Live w) : DispatchStep w w 0 :=
  ⟨fun _ => h, fun hk => absurd rfl hk, rfl, rfl, rfl, by simp [closeCalls], sameElsewhere_refl _ _,
    no_functors w⟩

/-- Continues a dispatch by a step that depends on whether the connection is closed. -/
lemma DispatchStep.trans {w w₁ w₂ : ConnContext κ} {k : Nat} (h : DispatchStep w w₁ k)
    (hlive : Live w₁ → LiveStep w₁ w₂) (hdead : Dead w₁ → IdleStep w₁ w₂) : DispatchStep w w₂ k := by
  by_cases hk : k = 0
  · have hs := hlive (h.open_ hk)
    have helse : SameElsewhere w.conn.channel.fd w₁.poller w₂.poller := h.fd ▸ hs.elsewhere
    exact ⟨fun _ => hs.live, fun hne => absurd hk hne, hs.fd.trans h.fd, hs.key.trans h.key,
      hs.callbacks.trans h.callbacks, hs.calls.trans h.calls, h.elsewhere.trans helse,
      Notifies.trans h.queued hs.queued⟩
  · obtain ⟨hd, hindex⟩ := h.closed hk
    have hs := hdead hd
    refine ⟨fun h0 => absurd h0 hk, fun _ => ⟨hs.dead hd, ?_⟩, ?_, hs.key.trans h.key,
      hs.callbacks.trans h.callbacks, hs.calls.trans h.calls, ?_, ?_⟩
    · rw [hs.channel]
      exact hindex
    · rw [hs.channel]
      exact h.fd
    · rw [hs.poller]
      exact h.elsewhere
    · rw [hs.queued]
      exact h.queued

lemma DispatchStep.book {w w' : ConnContext κ} {k : Nat} (h : DispatchStep w w' k) :
    Bookkept w'.poller w'.key w'.conn.channel := by
  by_cases hk : k = 0
  · exact (h.open_ hk).reg.book
  · exact (h.closed hk).1.book

lemma dispatchStep_handleClose {w w' : ConnContext κ} {k : Nat} (h : DispatchStep w w' k)
    (app : List AppCall) : DispatchStep w (w'.handleClose app) (k + 1) := by
  have hdown := downStep_handleClose h.book app
  have hindex : suspendedIndex w'.conn.channel.index = .kDelete := by
    unfold suspendedIndex updatedIndex
    by_cases hk : k = 0
    · rw [(h.open_ hk).reg.added]
      rfl
    · rw [(h.closed hk).2]
      rfl
  have helse : SameElsewhere w.conn.channel.fd w'.poller (w'.handleClose app).poller :=
    h.fd ▸ hdown.elsewhere
  refine ⟨fun h0 => absurd h0 (Nat.succ_ne_zero k), fun _ => ⟨hdown.dead, hdown.index.trans hindex⟩,
    hdown.fd.trans h.fd, hdown.key.trans h.key, hdown.callbacks.trans h.callbacks, ?_,
    h.elsewhere.trans helse, ?_⟩
  · rw [hdown.calls, h.calls, h.callbacks, closeCalls_succ, List.append_assoc]
  · rw [hdown.queued]
    exact h.queued

lemma dispatchStep_handleRead {w w' : ConnContext κ} {k : Nat} (h : DispatchStep w w' k) (r : ReadvResult)
    (onMessage onDown : List AppCall) :
    DispatchStep w (w'.handleRead r onMessage onDown) (k + if readCloses r then 1 else 0) := by
  cases hr : readCloses r with
  | false =>
    exact h.trans (fun hl => liveStep_handleRead hl r onMessage onDown hr)
      (fun hd => idleStep_handleRead hd.not_connected r onMessage onDown hr)
  | true =>
    have hfill : DispatchStep w (fillInput w' r) k :=
      h.trans (fun hl => liveStep_of_eq hl hl.opn rfl rfl rfl rfl rfl (no_functors w'))
        (fun _ => ⟨rfl, rfl, rfl, rfl, rfl, rfl, rfl⟩)
    rw [handleRead_closes w' r onMessage onDown hr]
    exact dispatchStep_handleClose hfill onDown

/-- One dispatch of a live connection runs the close path once for each of the four places
that its event mask and its read reach. -/
theorem dispatchStep_handleEventWithGuard {w : ConnContext κ} (h : Live w) (revent : EventMask)
    (i : ConnContext.EventInput) :
    DispatchStep w (w.handleEventWithGuard revent i) (closePaths revent i.readv) := by
  have h₁ : DispatchStep w (if revent.epollhup ∧ ¬revent.epollin then w.handleClose i.onClose else w)
      (if revent.epollhup ∧ ¬revent.epollin then 1 else 0) := by
    split
    · exact dispatchStep_handleClose (dispatchStep_refl h) i.onClose
    · exact dispatchStep_refl h
  unfold ConnContext.handleEventWithGuard closePaths
  generalize (if revent.epollhup ∧ ¬revent.epollin then w.handleClose i.onClose else w) = w₁ at h₁ ⊢
  generalize (if revent.epollhup ∧ ¬revent.epollin then 1 else 0) = k₁ at h₁ ⊢
  dsimp only
  have h₂ : DispatchStep w (if revent.epollin ∨ revent.epollpri then
      w₁.handleRead i.readv i.onMessage i.onRead else w₁)
      (k₁ + if (revent.epollin ∨ revent.epollpri) ∧ readCloses i.readv then 1 else 0) := by
    by_cases hin : revent.epollin ∨ revent.epollpri
    · simp only [hin, if_true, true_and]
      exact dispatchStep_handleRead h₁ i.readv i.onMessage i.onRead
    · simp only [hin, if_false, false_and, Nat.add_zero]
      exact h₁
  generalize (if revent.epollin ∨ revent.epollpri then
      w₁.handleRead i.readv i.onMessage i.onRead else w₁) = w₂ at h₂ ⊢
  generalize (k₁ + if (revent.epollin ∨ revent.epollpri) ∧ readCloses i.readv then 1 else 0) = k₂
    at h₂ ⊢
  have h₃ : DispatchStep w (if revent.epollout then w₂.handleWrite i.write else w₂) k₂ := by
    split
    · exact h₂.trans (fun hl => liveStep_handleWrite hl i.write) (fun hd => idleStep_handleWrite hd i.write)
    · exact h₂
  split
  · exact dispatchStep_handleClose h₃ i.onError
  · exact h₃

end MylibMuduo.Proofs
