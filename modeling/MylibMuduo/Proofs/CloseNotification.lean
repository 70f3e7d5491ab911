import MylibMuduo.Lib.Machine
import MylibMuduo.Proofs.ConnectionStages

/-!
# Notifications of one connection

A connection reports its start once and its end through `handleClose` or
`connectionDestroyed`. `handleEventWithGuard` may reach `handleClose` from the close event,
from a read that returns no data and from the error event, one after the other, and
`handleClose` does not look at the state. The notifications are therefore single exactly in
the runs in which no dispatch reaches it more than once.
-/

namespace MylibMuduo.Proofs

variable {κ : Type}

/-- The steps of the loop thread that concern one connection. -/
inductive ConnStep where
  | established (app : List AppCall)
  | dispatch (revent : EventMask) (i : ConnContext.EventInput)
  | app (c : AppCall)
  | task (f : Functor) (r : SysResult) (app : List AppCall)
  | destroyed (app : List AppCall)
  deriving DecidableEq, Repr

/-- The loop of one connection. `newConnection` queues `connectionEstablished` once, tasks
come from calls that saw the connection established, and the kernel reports the descriptor
only while it is in the interest set. -/
def connMachine : Machine (ConnContext κ) ConnStep where
  next w
    | .established app =>
      if w.conn.state = .kConnecting then some (w.connectionEstablished app) else none
    | .dispatch revent i =>
      if (w.poller.interest w.conn.channel.fd).isSome then some (w.handleEventWithGuard revent i)
      else none
    | .app c => some (w.appCall c)
    | .task f r app => if w.conn.state = .kConnecting then none else some (w.runFunctor r app f)
    | .destroyed app =>
      if w.conn.state = .kConnecting then none else some (w.connectionDestroyed app)

/-- The argument `connected()` of the calls of the connection callback. -/
def connectedFlags (calls : List UserCall) : List Bool :=
  calls.filterMap fun
    | .connection b => some b
    | _ => none

/-- One up, then at most one down, and at most one call of the close callback. -/
def NotifiedOnce (calls : List UserCall) : Prop :=
  connectedFlags calls <+: [true, false] ∧ calls.count .close ≤ 1

instance (calls : List UserCall) : Decidable (NotifiedOnce calls) := by
  unfold NotifiedOnce
  infer_instance

/-- The dispatch reaches `handleClose` at most once. -/
def closesOnce (_ : ConnContext κ) : ConnStep → Prop
  | .dispatch revent i => closePaths revent i.readv ≤ 1
  | _ => True

lemma connectedFlags_lifecycle (calls : List UserCall) :
    connectedFlags (lifecycle calls) = connectedFlags calls := by
  induction calls with
  | nil => rfl
  | cons c calls ih => cases c <;> simp_all [lifecycle, connectedFlags]

/-- Only the notifications of connection and close matter. -/
lemma notifiedOnce_lifecycle (calls : List UserCall) :
    NotifiedOnce (lifecycle calls) ↔ NotifiedOnce calls := by
  unfold NotifiedOnce
  rw [connectedFlags_lifecycle, count_close_lifecycle]

lemma count_close_closeCalls {callbacks : Callbacks} (hclose : callbacks.close = true) (k : Nat) :
    (closeCalls callbacks k).count .close = k := by
  induction k with
  | zero => rfl
  | succ k ih =>
    rw [closeCalls_succ, List.count_append, ih, count_close_handleClose hclose]

/-- The notifications of a connection that was closed `k` times. -/
lemma notifiedOnce_closeCalls {callbacks : Callbacks} (hclose : callbacks.close = true) (k : Nat) :
    NotifiedOnce (upCall callbacks ++ closeCalls callbacks k) ↔ k ≤ 1 := by
  have hup : (upCall callbacks).count .close = 0 := by
    unfold upCall
    cases callbacks.connection <;> rfl
  constructor
  · rintro ⟨-, hcount⟩
    rwa [List.count_append, hup, count_close_closeCalls hclose, Nat.zero_add] at hcount
  · intro hk
    have hcases : k = 0 ∨ k = 1 := by omega
    rcases hcases with rfl | rfl
    · have hnone : closeCalls callbacks 0 = [] := rfl
      rw [hnone, List.append_nil]
      unfold upCall
      cases callbacks.connection <;> decide
    · unfold upCall closeCalls downCall closeCall
      rw [hclose]
      cases callbacks.connection <;> decide

lemma notifiedOnce_down (callbacks : Callbacks) :
    NotifiedOnce (upCall callbacks ++ downCall callbacks) := by
  unfold upCall downCall
  cases callbacks.connection <;> decide

/-! ### Tasks -/

lemma liveStep_runFunctor {w : ConnContext κ} (h : Live w) (r : SysResult) (app : List AppCall)
    (f : Functor) : LiveStep w (w.runFunctor r app f) := by
  cases f with
  | sendInLoop data => exact liveStep_sendInLoop h data r
  | sendFileInLoop => exact liveStep_sendFileInLoop h r
  | shutDownInLoop => exact liveStep_shutDownInLoop h
  | writeComplete => exact liveStep_appCalls h app
  | highWaterMark => exact liveStep_appCalls h app

lemma idleStep_runFunctor {w : ConnContext κ} (h : w.conn.state = .kDisConnected) (r : SysResult)
    (app : List AppCall) (f : Functor) : IdleStep w (w.runFunctor r app f) := by
  have hne : w.conn.state ≠ .kConnected := by
    rw [h]
    simp
  cases f with
  | sendInLoop data => simpa [ConnContext.runFunctor, ConnContext.sendInLoop, h] using idleStep_refl w
  | sendFileInLoop =>
    simp only [ConnContext.runFunctor, ConnContext.sendFileInLoop, h, true_or, if_true]
    exact ⟨rfl, rfl, rfl, rfl, rfl, rfl, rfl⟩
  | shutDownInLoop =>
    simp only [ConnContext.runFunctor, ConnContext.shutDownInLoop]
    split
    · exact idleStep_refl w
    · exact ⟨rfl, rfl, rfl, rfl, rfl, rfl, rfl⟩
  | writeComplete => exact idleStep_appCalls hne app
  | highWaterMark => exact idleStep_appCalls hne app

/-! ### Runs -/

/-- A connection that was not closed yet. -/
inductive Running (w : ConnContext κ) : Prop where
  | fresh (h : Fresh w) (hcalls : lifecycle w.calls = [])
  | live (h : Live w) (hcalls : lifecycle w.calls = upCall w.conn.callbacks)

lemma fresh_interest {w : ConnContext κ} (h : Fresh w) : w.poller.interest w.conn.channel.fd = none := by
  rw [h.book.interest, h.index]
  rfl

lemma dead_interest {w : ConnContext κ} (h : Dead w) : w.poller.interest w.conn.channel.fd = none := by
  rw [h.book.interest, if_neg h.notAdded]

/-- A step of a closed connection adds no notification and is no dispatch. -/
lemma connMachine_dead {w w' : ConnContext κ} {a : ConnStep} (h : Dead w)
    (hnext : connMachine.next w a = some w') :
    Dead w' ∧ lifecycle w'.calls = lifecycle w.calls ∧ closesOnce w a := by
  cases a with
  | established app => simp [connMachine, h.state] at hnext
  | dispatch revent i => simp [connMachine, dead_interest h] at hnext
  | app c =>
    simp only [connMachine, Option.some.injEq] at hnext
    have hstep := idleStep_appCall h.not_connected c
    exact hnext ▸ ⟨hstep.dead h, hstep.calls, trivial⟩
  | task f r app =>
    simp only [connMachine, h.state, reduceCtorEq, if_false, Option.some.injEq] at hnext
    have hstep := idleStep_runFunctor h.state r app f
    exact hnext ▸ ⟨hstep.dead h, hstep.calls, trivial⟩
  | destroyed app =>
    simp only [connMachine, h.state, reduceCtorEq, if_false, Option.some.injEq] at hnext
    have hstep := removeStep_dead h app
    rw [← hnext]
    exact ⟨hstep.dead, hstep.calls.trans (List.append_nil _), trivial⟩

lemma connMachine_dead_run {w t : ConnContext κ} {steps : List ConnStep} (h : Dead w)
    (hrun : connMachine.run w steps = some t) :
    lifecycle t.calls = lifecycle w.calls ∧ connMachine.Meets closesOnce w steps := by
  induction steps generalizing w with
  | nil =>
    rw [Machine.run, Option.some.injEq] at hrun
    exact hrun ▸ ⟨rfl, trivial⟩
  | cons a steps ih =>
    obtain ⟨w', hnext, hrest⟩ := (connMachine.run_cons_eq_some w t a steps).mp hrun
    obtain ⟨hdead, hcalls, hok⟩ := connMachine_dead h hnext
    obtain ⟨hcalls', hmeets⟩ := ih hdead hrest
    exact ⟨hcalls'.trans hcalls, connMachine.meets_cons hok hnext hmeets⟩

/-- What one step does to a connection that was not closed yet: it stays so, or it is closed
with notifications that are single exactly if the step is a single close. -/
lemma connMachine_running {w w' : ConnContext κ} {a : ConnStep} (h : Running w)
    (hclose : w.conn.callbacks.close = true) (hnext : connMachine.next w a = some w') :
    w'.conn.callbacks.close = true ∧
      ((Running w' ∧ closesOnce w a) ∨
        (Dead w' ∧ (NotifiedOnce (lifecycle w'.calls) ↔ closesOnce w a))) := by
  cases h with
  | fresh hfresh hcalls =>
    cases a with
    | established app =>
      simp only [connMachine, hfresh.state, if_true, Option.some.injEq] at hnext
      have hup := upStep_connectionEstablished hfresh app
      rw [← hnext, hup.callbacks]
      refine ⟨hclose, Or.inl ⟨Running.live hup.live ?_, trivial⟩⟩
      rw [hup.calls, hcalls, List.nil_append, hup.callbacks]
    | dispatch revent i => simp [connMachine, fresh_interest hfresh] at hnext
    | app c =>
      simp only [connMachine, Option.some.injEq] at hnext
      have hstep := idleStep_appCall hfresh.not_connected c
      rw [← hnext, hstep.callbacks]
      exact ⟨hclose, Or.inl ⟨Running.fresh (hstep.fresh hfresh) (hstep.calls.trans hcalls), trivial⟩⟩
    | task f r app => simp [connMachine, hfresh.state] at hnext
    | destroyed app => simp [connMachine, hfresh.state] at hnext
  | live hlive hcalls =>
    have hstate : w.conn.state ≠ .kConnecting := by
      rcases hlive.opn with hs | hs <;> simp [hs]
    have hkeep : ∀ v, LiveStep w v → v.conn.callbacks.close = true ∧ Running v := by
      intro v hv
      rw [hv.callbacks]
      exact ⟨hclose, Running.live hv.live (by rw [hv.calls, hcalls, hv.callbacks])⟩
    cases a with
    | established app => simp [connMachine, hstate] at hnext
    | dispatch revent i =>
      have hsome : w.poller.interest w.conn.channel.fd = some (w.conn.channel.events, w.key) := by
        rw [hlive.reg.book.interest, if_pos hlive.reg.added]
      simp only [connMachine, hsome, Option.isSome_some, if_true, Option.some.injEq] at hnext
      have hstep := dispatchStep_handleEventWithGuard hlive revent i
      rw [hnext] at hstep
      refine ⟨by rw [hstep.callbacks]; exact hclose, ?_⟩
      by_cases hk : closePaths revent i.readv = 0
      · refine Or.inl ⟨Running.live (hstep.open_ hk) ?_, ?_⟩
        · rw [hstep.calls, hcalls, hk, hstep.callbacks]
          exact List.append_nil _
        · simp [closesOnce, hk]
      · refine Or.inr ⟨(hstep.closed hk).1, ?_⟩
        rw [hstep.calls, hcalls]
        exact notifiedOnce_closeCalls hclose _
    | app c =>
      simp only [connMachine, Option.some.injEq] at hnext
      obtain ⟨hclose', hrunning⟩ := hkeep w' (hnext ▸ liveStep_appCall hlive c)
      exact ⟨hclose', Or.inl ⟨hrunning, trivial⟩⟩
    | task f r app =>
      simp only [connMachine, hstate, if_false, Option.some.injEq] at hnext
      obtain ⟨hclose', hrunning⟩ := hkeep w' (hnext ▸ liveStep_runFunctor hlive r app f)
      exact ⟨hclose', Or.inl ⟨hrunning, trivial⟩⟩
    | destroyed app =>
      simp only [connMachine, hstate, if_false, Option.some.injEq] at hnext
      have hstep := removeStep_live hlive app
      rw [hnext] at hstep
      refine ⟨by rw [hstep.callbacks]; exact hclose, Or.inr ⟨hstep.dead, ?_⟩⟩
      rw [hstep.calls, hcalls]
      exact iff_of_true (notifiedOnce_down _) trivial

lemma connMachine_running_run {w t : ConnContext κ} {steps : List ConnStep} (h : Running w)
    (hclose : w.conn.callbacks.close = true) (hrun : connMachine.run w steps = some t) :
    NotifiedOnce t.calls ↔ connMachine.Meets closesOnce w steps := by
  induction steps generalizing w with
  | nil =>
    rw [Machine.run, Option.some.injEq] at hrun
    subst hrun
    refine iff_of_true ?_ trivial
    rw [← notifiedOnce_lifecycle]
    cases h with
    | fresh _ hcalls =>
      rw [hcalls]
      decide
    | live _ hcalls =>
      rw [hcalls]
      simpa [closeCalls] using (notifiedOnce_closeCalls hclose 0).mpr (Nat.zero_le 1)
  | cons a steps ih =>
    obtain ⟨w', hnext, hrest⟩ := (connMachine.run_cons_eq_some w t a steps).mp hrun
    obtain ⟨hclose', hcases⟩ := connMachine_running h hclose hnext
    rcases hcases with ⟨hrunning, hok⟩ | ⟨hdead, hiff⟩
    · rw [ih hrunning hclose' hrest]
      refine ⟨fun hmeets => connMachine.meets_cons hok hnext hmeets, fun hmeets => hmeets.2 w' hnext⟩
    · obtain ⟨hcalls, hmeets⟩ := connMachine_dead_run hdead hrest
      rw [← notifiedOnce_lifecycle, hcalls, hiff]
      exact ⟨fun hok => connMachine.meets_cons hok hnext hmeets, fun hmeets' => hmeets'.1⟩

/-- The connection that `TcpServer::newConnection` makes: its close callback is set, the
others as the server's user left them. -/
def newConnection (key : κ) (fd highWaterMark : Nat) (callbacks : Callbacks) (p : EPollPoller κ)
    (files : Nat → Bytes) : ConnContext κ :=
  ConnContext.make key (TcpConnection.make fd highWaterMark { callbacks with close := true }) p files

/-- In every run of a new connection the notifications are single if and only if no dispatch
reaches `handleClose` twice. -/
theorem notified_once_iff (key : κ) (fd highWaterMark : Nat) (callbacks : Callbacks)
    (p : EPollPoller κ) (files : Nat → Bytes) (hchannels : p.channels fd = none)
    (hinterest : p.interest fd = none) (steps : List ConnStep) (t : ConnContext κ)
    (hrun : connMachine.run (newConnection key fd highWaterMark callbacks p files) steps = some t) :
    NotifiedOnce t.calls ↔
      connMachine.Meets closesOnce (newConnection key fd highWaterMark callbacks p files) steps := by
  refine connMachine_running_run (Running.fresh ?_ rfl) rfl hrun
  exact ⟨rfl, bookkept_make p key fd hchannels hinterest, rfl, rfl⟩

/-- A connection with a connection and a message callback on an empty loop. -/
def sampleServerConnection : ConnContext Unit :=
  newConnection () 5 64 ⟨true, true, false, false, true⟩ EPollPoller.empty (fun _ => [])

/-- Establishment, then a reset of the peer: the kernel reports the end of input, the hangup
and the error in one mask, and the read fails. -/
def resetByPeer : List ConnStep :=
  [.established [], .dispatch ⟨true, false, false, true, true⟩
    ⟨.err .econnreset, .err .ewouldblock, [], [], [], []⟩]

/-- Establishment, a message that is answered, and an orderly end of input. -/
def endOfInput : List ConnStep :=
  [.established [], .dispatch ⟨true, false, false, false, false⟩
    ⟨.ok [1, 2], .err .ewouldblock, [.send [3] (.ok 1)], [], [], []⟩,
   .dispatch ⟨true, false, false, false, true⟩ ⟨.ok [], .err .ewouldblock, [], [], [.shutdown], []⟩,
   .destroyed []]

set_option maxRecDepth 8000 in
/-- A reset notifies the application twice of the end of the connection. -/
theorem reset_notifies_twice :
    ¬∀ (steps : List ConnStep) (t : ConnContext Unit),
      connMachine.run sampleServerConnection steps = some t → NotifiedOnce t.calls := by
  intro h
  have hcalls : (connMachine.run sampleServerConnection resetByPeer).map (·.calls) =
      some [.connection true, .connection false, .close, .connection false, .close] := by
    decide
  obtain ⟨t, hrun, ht⟩ := Option.map_eq_some_iff.mp hcalls
  have honce := h resetByPeer t hrun
  rw [ht] at honce
  exact absurd honce (by decide)

set_option maxRecDepth 8000 in
theorem notified_once_end_of_input :
    ∃ t, connMachine.run sampleServerConnection endOfInput = some t ∧ NotifiedOnce t.calls := by
  have hsome : (connMachine.run sampleServerConnection endOfInput).isSome := by decide
  obtain ⟨t, hrun⟩ := Option.isSome_iff_exists.mp hsome
  refine ⟨t, hrun, (notified_once_iff () 5 64 ⟨true, true, false, false, true⟩ EPollPoller.empty
    (fun _ => []) rfl rfl endOfInput t hrun).mpr ?_⟩
  refine ⟨trivial, fun s₁ _ => ⟨by simp [closesOnce, closePaths, readCloses], fun s₂ _ =>
    ⟨by simp [closesOnce, closePaths, readCloses], fun s₃ _ => ⟨trivial, fun _ _ => trivial⟩⟩⟩⟩

end MylibMuduo.Proofs
