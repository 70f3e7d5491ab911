import MylibMuduo.Proofs.QueuedTasks
import MylibMuduo.Proofs.TaskAnchors
import MylibMuduo.ServerThreads

/-!
# Calls from other threads and the life of the connection

A caller holds a pointer during its call, but the task that it queues captures the raw `this`.
Between the caller's test of `state_` and its enqueue the connection can be closed, removed from
the map and destroyed; the task then runs after the caller has released the last pointer. If
the connection is still in the map at the enqueue, or its `connectionDestroyed` has not been
taken out of the queue, the task finds it alive.
-/

namespace MylibMuduo.Proofs

/-! ### What the loop thread queues -/

section Notifies

variable {κ : Type}

lemma notifies_runHandler (w : ConnContext κ) (revent : EventMask) (i : ConnContext.EventInput) (h : Handler) :
    Notifies w (w.runHandler revent i h) := by
  cases h with
  | close =>
    simp only [ConnContext.runHandler]
    split
    · exact notifies_handleClose w i.onClose
    · exact notifies_of_eq rfl
  | read =>
    simp only [ConnContext.runHandler]
    split
    · exact notifies_handleRead w i.readv i.onMessage i.onRead
    · exact notifies_of_eq rfl
  | write =>
    simp only [ConnContext.runHandler]
    split
    · exact notifies_handleWrite w i.write
    · exact notifies_of_eq rfl
  | error =>
    simp only [ConnContext.runHandler]
    split
    · exact notifies_handleClose w i.onError
    · exact notifies_of_eq rfl

end Notifies

/-- In any state, a step of the server queues notifications at most. -/
theorem runs_notifies {s : TcpServer} {a : ServerStep} {c : Nat} {x : ServerConn} {w : ConnContext Nat}
    (h : Runs s a c x w) : Notifications w.pendingFunctors := by
  have hall : Notifies (s.context c x) w := by
    cases h with
    | handler hphase hx => exact notifies_runHandler _ _ _ _
    | @connectionEstablished l r app done c rest hphase x hx =>
      exact notifies_connectionCallback (s.context c x).establish app
    | connectionDestroyed hphase hx => exact notifies_connectionDestroyed _ _
    | functor hphase hx => exact notifies_runFunctor _ _ _ _
    | app hx => exact notifies_appCall _ _
  obtain ⟨fs, hfs, hn⟩ := hall
  have hqueued : w.pendingFunctors = fs := hfs
  rw [hqueued]
  exact hn

/-! ### Callers -/

/-- The connection for which the step of a caller queues a task. -/
def calledFor (s : ServerThreads) : CallerStep → Option Nat
  | .sendEnqueue p =>
    match s.caller p with
    | .sendTested c _ => some c
    | _ => none
  | .shutdownEnqueue p =>
    match s.caller p with
    | .shutdownStored c => some c
    | _ => none
  | _ => none

/-- All that a step can do to the server. -/
inductive CallerTrans (s : ServerThreads) : CallerStep → TcpServer → Prop
  | server {a t} (hnext : serverMachine.next s.server a = some t) : CallerTrans s (.server a) t
  | acquire {p c t} (hnext : serverMachine.next s.server (.hold c) = some t) : CallerTrans s (.acquire p c) t
  | release {p c t} (hnext : serverMachine.next s.server (.release c) = some t) :
      CallerTrans s (.release p) t
  | test {b} : CallerTrans s b s.server
  | store {p c} {x : ServerConn} (hx : s.server.conns c = some x) :
      CallerTrans s (.shutdownStore p)
        (s.server.setConn c { x with conn := { x.conn with state := .kDisConnecting } })
  | enqueue {b c f} {x : ServerConn} (hx : s.server.conns c = some x) (hcall : calledFor s b = some c) :
      CallerTrans s b (s.server.queueInLoop x.loop (.functor c f))

lemma test_server {s s' : ServerThreads} {p c : Nat} {pc : CallerPoint} (h : s.test p c pc = some s') :
    s'.server = s.server := by
  obtain ⟨x, -, hs⟩ := Option.bind_eq_some_iff.mp h
  rw [← Option.some.inj hs]
  rfl

lemma enqueue_server {s s' : ServerThreads} {p c : Nat} {f : Functor} (h : s.enqueue p c f = some s') :
    ∃ x, s.server.conns c = some x ∧ s'.server = s.server.queueInLoop x.loop (.functor c f) := by
  obtain ⟨x, hx, hs⟩ := Option.bind_eq_some_iff.mp h
  rw [← Option.some.inj hs]
  exact ⟨x, hx, rfl⟩

theorem caller_trans {s s' : ServerThreads} {b : CallerStep} (hnext : callerMachine.next s b = some s') :
    CallerTrans s b s'.server := by
  cases b with
  | server a =>
    simp only [callerMachine, Option.ite_none_right_eq_some] at hnext
    obtain ⟨t, ht, rfl⟩ := Option.map_eq_some_iff.mp hnext.2
    exact .server ht
  | acquire p c =>
    simp only [callerMachine, Option.ite_none_right_eq_some] at hnext
    obtain ⟨t, ht, rfl⟩ := Option.map_eq_some_iff.mp hnext.2
    exact .acquire ht
  | sendTest p data =>
    simp only [callerMachine] at hnext
    split at hnext
    · exact test_server hnext ▸ .test
    · cases hnext
  | sendEnqueue p =>
    simp only [callerMachine] at hnext
    split at hnext
    · next c data hpc =>
      obtain ⟨x, hx, hs⟩ := enqueue_server hnext
      exact hs ▸ .enqueue hx (by simp only [calledFor, hpc])
    · cases hnext
  | shutdownTest p =>
    simp only [callerMachine] at hnext
    split at hnext
    · exact test_server hnext ▸ .test
    · cases hnext
  | shutdownStore p =>
    simp only [callerMachine] at hnext
    split at hnext
    · obtain ⟨x, hx, hs⟩ := Option.bind_eq_some_iff.mp hnext
      exact Option.some.inj hs ▸ .store hx
    · cases hnext
  | shutdownEnqueue p =>
    simp only [callerMachine] at hnext
    split at hnext
    · next c hpc =>
      obtain ⟨x, hx, hs⟩ := enqueue_server hnext
      exact hs ▸ .enqueue hx (by simp only [calledFor, hpc])
    · cases hnext
  | release p =>
    simp only [callerMachine] at hnext
    split at hnext
    · obtain ⟨t, ht, rfl⟩ := Option.map_eq_some_iff.mp hnext
      exact .release ht
    · cases hnext

/-- The connection is in the map, or its `connectionDestroyed` waits in the queue of its loop. -/
def StillOwned (s : TcpServer) (c : Nat) : Prop :=
  ∃ x ∈ s.conns c, s.connectionMap x.name = some c ∨
    .connectionDestroyed c ∈ (s.loops x.loop).pendingFunctors

instance (s : TcpServer) (c : Nat) : Decidable (StillOwned s c) := by
  unfold StillOwned
  infer_instance

/-- A caller queues its task while the connection is still owned, and the numbers of the
connections do not wrap. -/
def OwnedCall (s : ServerThreads) : CallerStep → Prop
  | .server a => idsFit s.server a
  | b => ∀ c ∈ calledFor s b, StillOwned s.server c

instance (s : ServerThreads) (b : CallerStep) : Decidable (OwnedCall s b) := by
  unfold OwnedCall
  split
  · infer_instance
  · infer_instance

/-- The tasks that callers queue, in contrast to the notifications. -/
def OfCaller (f : Functor) : Prop := f = .shutDownInLoop ∨ ∃ data, f = .sendInLoop data

lemma not_mem_notifications {fs : List Functor} (h : Notifications fs) {f : Functor} (hf : OfCaller f) :
    f ∉ fs := by
  rcases hf with rfl | ⟨data, rfl⟩
  · exact h.not_mem (by simp) (by simp)
  · exact h.not_mem (by simp) (by simp)

structure CallerInv (s : TcpServer) : Prop where
  numbered : Numbered s
  anchored : Anchored OfCaller s

lemma callerInv_server {s s' : TcpServer} {a : ServerStep} (h : CallerInv s) (hok : idsFit s a)
    (hnext : serverMachine.next s a = some s') : CallerInv s' := by
  refine ⟨numbered_step h.numbered hok hnext, anchored_step h.anchored h.numbered ?_ hnext⟩
  intro c x w hruns f hf hcaller
  exact absurd hf (not_mem_notifications (runs_notifies hruns) hcaller)

lemma OwnedCall.stillOwned {s : ServerThreads} {b : CallerStep} {c : Nat} (h : OwnedCall s b)
    (hcall : calledFor s b = some c) : StillOwned s.server c := by
  cases b with
  | server a => cases hcall
  | _ => exact h c hcall

theorem callerInv_step {s s' : ServerThreads} {b : CallerStep} (h : CallerInv s.server) (hok : OwnedCall s b)
    (hnext : callerMachine.next s b = some s') : CallerInv s'.server := by
  have htrans := caller_trans hnext
  generalize s'.server = t at htrans ⊢
  cases htrans with
  | server ht => exact callerInv_server h hok ht
  | @acquire p c t ht => exact callerInv_server (a := .hold c) h trivial ht
  | @release p c t ht => exact callerInv_server (a := .release c) h trivial ht
  | test => exact h
  | store hx =>
    refine ⟨SameConns.numbered (sameConns_setConn hx ?_) h.numbered, h.anchored.setConn hx ?_⟩
    · rfl
    · rfl
  | @enqueue _ c f x hx hcall =>
    obtain ⟨y, hy, howned⟩ := hok.stillOwned hcall
    rw [hx, Option.mem_some_iff] at hy
    subst hy
    refine ⟨(sameConns_setLoop s.server x.loop _).numbered h.numbered, h.anchored.queueInLoop ?_⟩
    intro d g heq _
    obtain ⟨rfl, -⟩ := Task.functor.inj heq
    exact ⟨x, hx, rfl, howned⟩

/-- In every run in which the callers queue their tasks while the connection is still owned,
some `shared_ptr` to the connection exists whenever one of these tasks runs. -/
theorem caller_task_finds_holder (config : ServerConfig) (steps : List CallerStep) (s : ServerThreads)
    (hok : callerMachine.Meets OwnedCall (ServerThreads.make config) steps)
    (hrun : callerMachine.run (ServerThreads.make config) steps = some s) (l c : Nat) (f : Functor)
    (hf : OfCaller f) (done rest : List Task)
    (hphase : (s.server.loops l).phase = .running done (.functor c f :: rest)) : s.server.Held c := by
  have hmake : CallerInv (ServerThreads.make config).server :=
    ⟨(serverInv_make config).numbered, anchored_make config⟩
  have h := callerMachine.invariant_of_meets (I := fun u => CallerInv u.server)
    (fun _ _ _ hu hok hnext => callerInv_step hu hok hnext) hmake hok hrun
  exact h.anchored.held h.numbered hf hphase

/-- A connection is accepted and established on loop 1, and thread 0 gets a pointer to it. -/
def untilCall : List CallerStep :=
  [.server (.poll 0 []), .server (.accept (some 7)), .server (.swap 0), .server (.endBatch 0),
   .server (.poll 1 []), .server (.swap 1), .server (.runTask 1 (.ok 0) []), .server (.endBatch 1),
   .acquire 0 0, .sendTest 0 [5]]

/-- The peer closes, and the base loop removes the connection. -/
def untilRemoved : List CallerStep :=
  [.server (.poll 1 [(7, ⟨true, false, false, false, true⟩)]), .server (.handleEvent 1),
   .server (.handler 1 noInput), .server (.handler 1 noInput), .server (.handler 1 noInput),
   .server (.handler 1 noInput), .server (.poll 0 []), .server (.swap 0), .server (.runTask 0 (.ok 0) []),
   .server (.endBatch 0)]

/-- Thread 0 queues its task before the batch of `connectionDestroyed`. -/
def queuedInTime : List CallerStep :=
  untilCall ++ untilRemoved ++ [.sendEnqueue 0, .release 0, .server (.swap 1), .server (.runTask 1 (.ok 0) [])]

theorem caller_task_finds_holder_in_time :
    ∃ s x, callerMachine.run (ServerThreads.make sampleConfig) queuedInTime = some s ∧
      s.server.conns 0 = some x ∧ x.userRefs = 0 ∧
      (s.server.loops 1).phase = .running [.connectionDestroyed 0] [.functor 0 (.sendInLoop [5])] ∧
      s.server.Held 0 := by
  have hend : (callerMachine.run (ServerThreads.make sampleConfig) queuedInTime).bind
      (fun s => (s.server.conns 0).map fun x => (x.userRefs, (s.server.loops 1).phase)) =
      some (0, .running [.connectionDestroyed 0] [.functor 0 (.sendInLoop [5])]) := by
    decide +kernel
  obtain ⟨s, hrun, hs⟩ := Option.bind_eq_some_iff.mp hend
  obtain ⟨x, hx, hs⟩ := Option.map_eq_some_iff.mp hs
  obtain ⟨hrefs, hphase⟩ := Prod.mk.inj hs
  exact ⟨s, x, hrun, hx, hrefs, hphase, caller_task_finds_holder sampleConfig queuedInTime s
    (by decide +kernel) hrun 1 0 (.sendInLoop [5]) (Or.inr ⟨[5], rfl⟩) [.connectionDestroyed 0] [] hphase⟩

/-- Thread 0 queues its task after the batch of `connectionDestroyed`. -/
def queuedTooLate : List CallerStep :=
  untilCall ++ untilRemoved ++ [.server (.swap 1), .server (.runTask 1 (.ok 0) []), .server (.endBatch 1),
    .sendEnqueue 0, .release 0, .server (.poll 1 []), .server (.swap 1)]

/-- The task of thread 0 runs when no `shared_ptr` to the connection is left. -/
theorem caller_task_outlives_connection :
    ¬∀ (config : ServerConfig) (steps : List CallerStep) (s : ServerThreads),
      callerMachine.run (ServerThreads.make config) steps = some s →
      ∀ (l c : Nat) (f : Functor), OfCaller f → ∀ done rest : List Task,
        (s.server.loops l).phase = .running done (.functor c f :: rest) → s.server.Held c := by
  intro hall
  have hend : (callerMachine.run (ServerThreads.make sampleConfig) queuedTooLate).map
      (fun s => (decide (s.server.Held 0), (s.server.loops 1).phase)) =
      some (false, .running [] [.functor 0 (.sendInLoop [5])]) := by
    decide +kernel
  obtain ⟨s, hrun, hs⟩ := Option.map_eq_some_iff.mp hend
  obtain ⟨hheld, hphase⟩ := Prod.mk.inj hs
  exact of_decide_eq_false hheld
    (hall sampleConfig queuedTooLate s hrun 1 0 (.sendInLoop [5]) (Or.inr ⟨[5], rfl⟩) [] [] hphase)

end MylibMuduo.Proofs
