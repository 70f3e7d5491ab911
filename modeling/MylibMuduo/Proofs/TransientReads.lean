import MylibMuduo.Proofs.CloseNotification
import MylibMuduo.Proofs.StateOrder

/-!
# Transient read failures

A read on a descriptor that does not block may fail with `EAGAIN` or `EINTR` although nothing is
wrong with the connection. `handleWrite` and `sendInLoop` keep the connection on such failures;
`handleRead` takes every failure to `handleError`, which closes. So of the runs with transient
failures only, exactly those stay up in which no read fails.
-/

namespace MylibMuduo.Proofs

variable {κ : Type}

def kEINTR : Nat := 4

/-- The read returns data, or fails without an error of the connection. -/
def transientRead : ReadvResult → Bool
  | .ok data => decide (data ≠ [])
  | .err e => decide (e = .ewouldblock ∨ e = .other kEINTR)

/-- Only input, priority and output events, transient reads, no call of `shutdown` while the connection
is up, and a server that keeps the connection. The results of writes are arbitrary. -/
def transientStep : ConnStep → Bool
  | .established app => decide (.shutdown ∉ app)
  | .dispatch revent i => !revent.epollerr && !revent.epollhup && transientRead i.readv &&
      decide (.shutdown ∉ i.onMessage)
  | .app c => decide (c ≠ .shutdown)
  | .task _ _ app => decide (.shutdown ∉ app)
  | .destroyed _ => false

/-- The runs of one connection with transient failures only. -/
def transientMachine : Machine (ConnContext κ) ConnStep where
  next w a := if transientStep a then connMachine.next w a else none

/-- The connection is up, and no callback has been told otherwise. -/
structure StaysUp (w : ConnContext κ) : Prop where
  state : w.conn.state = .kConnected
  down : .connection false ∉ w.calls
  close : .close ∉ w.calls

/-- The dispatch reads. -/
def reads (revent : EventMask) : Bool := revent.epollin || revent.epollpri

/-- A read that fails leaves the buffers and the registered events as they are. -/
def failedReadKeeps (w : ConnContext κ) : ConnStep → Prop
  | .dispatch revent i => reads revent = true → ∀ e, i.readv = .err e →
      (w.handleRead i.readv i.onMessage i.onRead).conn.inputBuffer = w.conn.inputBuffer ∧
      (w.handleRead i.readv i.onMessage i.onRead).conn.outputBuffer = w.conn.outputBuffer ∧
      (w.handleRead i.readv i.onMessage i.onRead).conn.channel.events = w.conn.channel.events ∧
      (w.handleRead i.readv i.onMessage i.onRead).poller.interest = w.poller.interest
  | _ => True

/-- No read of the step fails. -/
def noReadFails (_ : ConnContext κ) : ConnStep → Prop
  | .dispatch revent i => reads revent = true → ∀ e, i.readv ≠ .err e
  | _ => True

/-! ### Steps that leave `state_` alone -/

lemma state_appCall {w : ConnContext κ} {c : AppCall} (hc : c ≠ .shutdown) :
    (w.appCall c).conn.state = w.conn.state := by
  cases c with
  | send data r =>
    simp only [ConnContext.appCall, ConnContext.send]
    split
    · exact (quiet_sendInLoop w data r).state
    · rfl
  | sendFile fd offset count r =>
    simp only [ConnContext.appCall, ConnContext.sendFile]
    split
    · exact (quiet_sendFileInLoop _ r).state
    · rfl
  | shutdown => exact absurd rfl hc
  | retrieve len => rfl

lemma state_appCalls {w : ConnContext κ} {app : List AppCall} (happ : .shutdown ∉ app) :
    (w.appCalls app).conn.state = w.conn.state := by
  unfold ConnContext.appCalls
  induction app generalizing w with
  | nil => rfl
  | cons c app ih =>
    rw [List.mem_cons, not_or] at happ
    rw [List.foldl_cons, ih happ.2, state_appCall (Ne.symm happ.1)]

lemma state_handleWrite (w : ConnContext κ) (r : SysResult) :
    (w.handleWrite r).conn.state = w.conn.state := by
  rcases handleWrite_inv w r with heq | ⟨n, -, -, heq⟩ | ⟨-, heq⟩
  · rw [heq]
  · have hdrain : (drainOutput w n).conn.state = w.conn.state := (quiet_drainOutput w n).state
    rw [heq]
    split
    · rw [state_shutDownInLoop, hdrain]
    · exact hdrain
  · rw [heq]
    exact (quiet_sendFileInLoop w r).state

lemma state_runFunctor (w : ConnContext κ) (r : SysResult) {app : List AppCall} (happ : .shutdown ∉ app)
    (f : Functor) : (w.runFunctor r app f).conn.state = w.conn.state := by
  cases f with
  | sendInLoop data => exact (quiet_sendInLoop w data r).state
  | sendFileInLoop => exact (quiet_sendFileInLoop w r).state
  | shutDownInLoop => exact state_shutDownInLoop w
  | writeComplete => exact state_appCalls happ
  | highWaterMark => exact state_appCalls happ

/-- A read of data leaves the state to the message callback. -/
lemma state_handleRead (w : ConnContext κ) {r : ReadvResult} (hr : readCloses r = false)
    {onMessage : List AppCall} (happ : .shutdown ∉ onMessage) (onDown : List AppCall) :
    (w.handleRead r onMessage onDown).conn.state = w.conn.state := by
  rw [handleRead_data w r onMessage onDown hr]
  split
  · exact state_appCalls happ
  · rfl

lemma state_handleEventWithGuard (w : ConnContext κ) {revent : EventMask} {i : ConnContext.EventInput}
    (herr : revent.epollerr = false) (hhup : revent.epollhup = false) (happ : .shutdown ∉ i.onMessage)
    (hread : reads revent = true → readCloses i.readv = false) :
    (w.handleEventWithGuard revent i).conn.state = w.conn.state := by
  have hafter : (if revent.epollin ∨ revent.epollpri then w.handleRead i.readv i.onMessage i.onRead
      else w).conn.state = w.conn.state := by
    split
    · rename_i hin
      exact state_handleRead w (hread (Bool.or_eq_true_iff.mpr hin)) happ i.onRead
    · rfl
  simp only [ConnContext.handleEventWithGuard, herr, hhup, Bool.false_eq_true, false_and, if_false]
  split
  · rw [state_handleWrite, hafter]
  · exact hafter

/-! ### Steps and runs -/

/-- A connection that is up, with the notification of its start only. -/
structure Up (w : ConnContext κ) : Prop where
  live : Live w
  state : w.conn.state = .kConnected
  calls : lifecycle w.calls = upCall w.conn.callbacks

lemma mem_lifecycle {calls : List UserCall} {c : UserCall} (hc : c ≠ .message) :
    c ∈ lifecycle calls ↔ c ∈ calls := by
  unfold lifecycle
  rw [List.mem_filter, decide_eq_true_eq]
  exact and_iff_left hc

lemma Up.staysUp {w : ConnContext κ} (h : Up w) : StaysUp w := by
  refine ⟨h.state, ?_, ?_⟩
  · rw [← mem_lifecycle (by decide), h.calls]
    unfold upCall
    split <;> simp
  · rw [← mem_lifecycle (by decide), h.calls]
    unfold upCall
    split <;> simp

lemma Up.of_live {w w' : ConnContext κ} (h : Up w) (hstep : LiveStep w w')
    (hstate : w'.conn.state = w.conn.state) : Up w' := by
  refine ⟨hstep.live, hstate.trans h.state, ?_⟩
  rw [hstep.calls, h.calls, hstep.callbacks]

lemma closePaths_transient {revent : EventMask} {r : ReadvResult} (herr : revent.epollerr = false)
    (hhup : revent.epollhup = false) :
    closePaths revent r = if reads revent = true ∧ readCloses r then 1 else 0 := by
  simp [closePaths, reads, herr, hhup]

lemma readCloses_transient {r : ReadvResult} (hr : transientRead r = true) :
    readCloses r = true ↔ ∃ e, r = .err e := by
  match r with
  | .ok [] => simp [transientRead] at hr
  | .ok (_ :: _) => simp [readCloses]
  | .err e => simp [readCloses]

/-- A dispatch leaves the connection up exactly if its read does not fail. -/
lemma Up.dispatch {w : ConnContext κ} (h : Up w) {revent : EventMask} {i : ConnContext.EventInput}
    (hstep : transientStep (.dispatch revent i) = true) :
    (StaysUp (w.handleEventWithGuard revent i) ↔ noReadFails w (.dispatch revent i)) ∧
      (StaysUp (w.handleEventWithGuard revent i) → Up (w.handleEventWithGuard revent i)) := by
  simp only [transientStep, Bool.and_eq_true, Bool.not_eq_true', decide_eq_true_eq] at hstep
  obtain ⟨⟨⟨herr, hhup⟩, hread⟩, happ⟩ := hstep
  have hdispatch := dispatchStep_handleEventWithGuard h.live revent i
  rw [closePaths_transient herr hhup] at hdispatch
  by_cases hcloses : reads revent = true ∧ readCloses i.readv = true
  · rw [if_pos hcloses] at hdispatch
    have hnot : ¬StaysUp (w.handleEventWithGuard revent i) := by
      intro hup
      exact absurd (hup.state.symm.trans (hdispatch.closed Nat.one_ne_zero).1.state) (by decide)
    obtain ⟨e, he⟩ := (readCloses_transient hread).mp hcloses.2
    exact ⟨iff_of_false hnot fun hok => hok hcloses.1 e he, fun hup => absurd hup hnot⟩
  · rw [if_neg hcloses] at hdispatch
    have hopen : reads revent = true → readCloses i.readv = false := by
      intro hreads
      rw [← Bool.not_eq_true]
      exact fun hr => hcloses ⟨hreads, hr⟩
    have hup : Up (w.handleEventWithGuard revent i) := by
      refine ⟨hdispatch.open_ rfl, ?_, ?_⟩
      · rw [state_handleEventWithGuard w herr hhup happ hopen]
        exact h.state
      · rw [hdispatch.calls, h.calls, hdispatch.callbacks]
        exact List.append_nil _
    refine ⟨iff_of_true hup.staysUp ?_, fun _ => hup⟩
    intro hreads e he
    exact hcloses ⟨hreads, (readCloses_transient hread).mpr ⟨e, he⟩⟩

theorem up_step {w w' : ConnContext κ} {a : ConnStep} (h : Up w)
    (hnext : transientMachine.next w a = some w') :
    (StaysUp w' ↔ noReadFails w a) ∧ (StaysUp w' → Up w') := by
  simp only [transientMachine, Option.ite_none_right_eq_some] at hnext
  obtain ⟨hstep, hnext⟩ := hnext
  have hkeep : Up w' → noReadFails w a → (StaysUp w' ↔ noReadFails w a) ∧ (StaysUp w' → Up w') :=
    fun hup hok => ⟨iff_of_true hup.staysUp hok, fun _ => hup⟩
  cases a with
  | established app => simp [connMachine, h.state] at hnext
  | dispatch revent i =>
    simp only [connMachine, Option.ite_none_right_eq_some, Option.some.injEq] at hnext
    rw [← hnext.2]
    exact h.dispatch hstep
  | app c =>
    simp only [connMachine, Option.some.injEq] at hnext
    rw [← hnext] at hkeep ⊢
    exact hkeep (h.of_live (liveStep_appCall h.live c) (state_appCall (of_decide_eq_true hstep))) trivial
  | task f r app =>
    simp only [connMachine, Option.ite_none_left_eq_some, Option.some.injEq] at hnext
    rw [← hnext.2] at hkeep ⊢
    exact hkeep (h.of_live (liveStep_runFunctor h.live r app f)
      (state_runFunctor w r (of_decide_eq_true hstep) f)) trivial
  | destroyed app => cases hstep

lemma failedReadKeeps_of_noReadFails {w : ConnContext κ} {a : ConnStep} (h : noReadFails w a) :
    failedReadKeeps w a := by
  cases a with
  | dispatch revent i => exact fun hreads e he => absurd he (h hreads e)
  | _ => trivial

/-- A new connection after `connectionEstablished`. -/
def establishedConnection (key : κ) (fd highWaterMark : Nat) (callbacks : Callbacks) (p : EPollPoller κ)
    (files : Nat → Bytes) (app : List AppCall) : ConnContext κ :=
  (newConnection key fd highWaterMark callbacks p files).connectionEstablished app

lemma establishedConnection_up (key : κ) (fd highWaterMark : Nat) (callbacks : Callbacks)
    (p : EPollPoller κ) (files : Nat → Bytes) {app : List AppCall} (hchannels : p.channels fd = none)
    (hinterest : p.interest fd = none) (happ : .shutdown ∉ app) :
    Up (establishedConnection key fd highWaterMark callbacks p files app) := by
  have hfresh : Fresh (newConnection key fd highWaterMark callbacks p files) :=
    ⟨rfl, bookkept_make p key fd hchannels hinterest, rfl, rfl⟩
  have hup := upStep_connectionEstablished hfresh app
  refine ⟨hup.live, ?_, ?_⟩
  · unfold establishedConnection ConnContext.connectionEstablished ConnContext.connectionCallback
    split
    · rw [state_appCalls happ]
      rfl
    · rfl
  · unfold establishedConnection
    rw [hup.calls, hup.callbacks]
    rfl

/-- In every run of an established connection with transient failures only: it stays up in all
states, and failed reads change nothing, if and only if no read fails. -/
theorem transient_reads_keep_connection_iff (key : κ) (fd highWaterMark : Nat) (callbacks : Callbacks)
    (p : EPollPoller κ) (files : Nat → Bytes) (app : List AppCall) (hchannels : p.channels fd = none)
    (hinterest : p.interest fd = none) (happ : .shutdown ∉ app) (steps : List ConnStep)
    (w : ConnContext κ) (hrun : transientMachine.run
      (establishedConnection key fd highWaterMark callbacks p files app) steps = some w) :
    (transientMachine.Always StaysUp (establishedConnection key fd highWaterMark callbacks p files app) steps ∧
      transientMachine.Meets failedReadKeeps
        (establishedConnection key fd highWaterMark callbacks p files app) steps) ↔
      transientMachine.Meets noReadFails
        (establishedConnection key fd highWaterMark callbacks p files app) steps := by
  have hup := establishedConnection_up key fd highWaterMark callbacks p files hchannels hinterest happ
  have hiff := transientMachine.always_iff_meets (I := Up)
    (fun s a s' hs _ hnext => up_step hs hnext) hup hup.staysUp hrun
  constructor
  · rintro ⟨halways, -⟩
    exact hiff.mp halways
  · intro hok
    exact ⟨hiff.mpr hok, hok.mono transientMachine fun _ _ h => failedReadKeeps_of_noReadFails h⟩

/-- An established connection on descriptor 5 whose callbacks are set as by a server. -/
def idleEstablished : ConnContext Unit :=
  establishedConnection () 5 64 ⟨true, true, true, false, true⟩ EPollPoller.empty (fun _ => []) []

instance decidableNoReadFails (w : ConnContext κ) : (a : ConnStep) → Decidable (noReadFails w a)
  | .dispatch _ ⟨.ok _, _, _, _, _, _⟩ => isTrue fun _ _ => nofun
  | .dispatch revent ⟨.err e, _, _, _, _, _⟩ =>
    decidable_of_iff (reads revent = false)
      ⟨fun h hreads => absurd (h.symm.trans hreads) Bool.false_ne_true,
        fun h => Bool.eq_false_iff.mpr fun hreads => h hreads e rfl⟩
  | .established _ | .app _ | .task _ _ _ | .destroyed _ => isTrue trivial

/-- A message that is answered in part, output events, and an error code that no read returned. -/
def echoInParts : List ConnStep :=
  [.dispatch ⟨true, true, false, false, false⟩ ⟨.ok [1, 2], .ok 0, [.send [3, 4] (.ok 1)], [], [], []⟩,
   .dispatch ⟨false, false, true, false, false⟩ ⟨.err .ewouldblock, .err .ewouldblock, [], [], [], []⟩,
   .dispatch ⟨false, false, true, false, false⟩ ⟨.err .ewouldblock, .ok 1, [], [], [], []⟩]

theorem transient_reads_keep_connection_echo :
    (∃ w, transientMachine.run idleEstablished echoInParts = some w ∧ w.sent = [3, 4]) ∧
      transientMachine.Always StaysUp idleEstablished echoInParts := by
  have hend : (transientMachine.run idleEstablished echoInParts).map (·.sent) = some [3, 4] := by
    decide +kernel
  obtain ⟨w, hrun, hsent⟩ := Option.map_eq_some_iff.mp hend
  refine ⟨⟨w, hrun, hsent⟩, ?_⟩
  exact ((transient_reads_keep_connection_iff () 5 64 ⟨true, true, true, false, true⟩ EPollPoller.empty
    (fun _ => []) [] rfl rfl (by simp) echoInParts w hrun).mpr (by decide +kernel)).1

/-- A spurious report of input: the read fails with `EWOULDBLOCK`. -/
def spuriousRead : List ConnStep :=
  [.dispatch ⟨true, false, false, false, false⟩ ⟨.err .ewouldblock, .err .ewouldblock, [], [], [], []⟩]

theorem spurious_read_closes_connection :
    ¬∀ (steps : List ConnStep) (w : ConnContext Unit), transientMachine.run idleEstablished steps = some w →
      transientMachine.Always StaysUp idleEstablished steps ∧
        transientMachine.Meets failedReadKeeps idleEstablished steps := by
  intro hall
  have hend : (transientMachine.run idleEstablished spuriousRead).map (·.conn.state) =
      some .kDisConnected := by
    decide +kernel
  obtain ⟨w, hrun, hstate⟩ := Option.map_eq_some_iff.mp hend
  obtain ⟨w', hnext, hrest⟩ := (transientMachine.run_cons_eq_some _ _ _ _).mp hrun
  rw [Machine.run, Option.some.injEq] at hrest
  subst hrest
  have hup := ((hall spuriousRead w' hrun).1.2 w' hnext).head transientMachine
  exact absurd (hup.state.symm.trans hstate) (by decide)

end MylibMuduo.Proofs
