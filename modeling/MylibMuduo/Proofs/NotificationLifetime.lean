import MylibMuduo.Proofs.TaskAnchors

/-!
# Notifications and the life of their connection

While the connection's methods are called on its loop thread only, a function of the connection
queues a notification only if the connection is live, and then it is in the server's map. So
every notification is anchored when it is queued, and stays so until it has run.
-/

namespace MylibMuduo.Proofs

variable {s s' : TcpServer} {c l : Nat} {x : ServerConn} {w : ConnContext Nat}

lemma ConnInv.inMap_of_live (h : ConnInv s c x) (hl : Live (s.context c x)) : InMap s c x := by
  have hadd : x.conn.channel.index = .kAdd := hl.reg.added
  cases h.stage with
  | fresh _ _ inMap => exact inMap
  | live _ _ inMap => exact inMap
  | closed _ index =>
    rw [hadd] at index
    cases index
  | gone _ index =>
    rw [hadd] at index
    cases index

/-- The application's calls queue nothing for a connection that is not live. -/
lemma inMap_of_queued (h : ConnInv s c x)
    (hidle : (s.context c x).conn.state ≠ .kConnected → IdleStep (s.context c x) w) {f : Functor}
    (hf : f ∈ w.pendingFunctors) : InMap s c x := by
  by_cases hl : Live (s.context c x)
  · exact h.inMap_of_live hl
  · have hqueued : w.pendingFunctors = [] := (hidle (h.stage.not_connected hl)).queued
    rw [hqueued] at hf
    cases hf

/-- A function that queues a task runs on a connection of the map. -/
theorem runs_inMap {a : ServerStep} (h : ServerInv s) (hruns : Runs s a c x w) {f : Functor}
    (hf : f ∈ w.pendingFunctors) : InMap s c x := by
  cases hruns with
  | @handler l i c revent hd active hphase x hx =>
    have hg : GuardedIn s l c := guardedIn_of_phase hphase
    rcases (h.conn c x hx).handled hg with ⟨-, hin, -⟩ | ⟨hdead, -⟩
    · exact hin
    · have hqueued : ((s.context c x).runHandler revent i hd).pendingFunctors = [] := by
        rcases runHandler_dead hdead revent i hd with hidle | hdown
        · exact hidle.queued
        · exact hdown.queued
      rw [hqueued] at hf
      cases hf
  | @connectionEstablished l r app done c rest hphase x hx =>
    have hmem : .connectionEstablished c ∈ todoOf s l c := mem_todoOf_of_phase hphase rfl
    exact ((h.conn c x hx).fresh_of_task hmem).2.2.2.1
  | @connectionDestroyed l r app done c rest hphase x hx =>
    have hmem : .connectionDestroyed c ∈ todoOf s l c := mem_todoOf_of_phase hphase rfl
    obtain ⟨-, -, hdead, -⟩ := (h.conn c x hx).closed_of_task hmem (by simp)
    have hqueued : ((s.context c x).connectionDestroyed app).pendingFunctors = [] :=
      (removeStep_dead hdead app).queued
    rw [hqueued] at hf
    cases hf
  | @functor l r app done c g rest hphase x hx =>
    rw [h.runFunctor_eq hphase] at hf
    exact inMap_of_queued (h.conn c x hx) (fun hstate => idleStep_appCalls hstate app) hf
  | @app c call x hx =>
    exact inMap_of_queued (h.conn c x hx) (fun hstate => idleStep_appCall hstate call) hf

/-- Whenever a queued notification runs, some `shared_ptr` to its connection exists. -/
theorem notification_finds_holder (config : ServerConfig) (steps : List ServerStep) (s : TcpServer)
    (hids : serverMachine.Meets idsFit (TcpServer.make config) steps)
    (hrun : serverMachine.run (TcpServer.make config) steps = some s) (l c : Nat) (f : Functor)
    (done rest : List Task) (hphase : (s.loops l).phase = .running done (.functor c f :: rest)) :
    s.Held c := by
  have hboth := serverMachine.invariant_of_meets
    (I := fun u => ServerInv u ∧ Anchored (fun _ => True) u)
    (fun _ _ _ h hok hnext => ⟨(serverInv_step h.1 hok hnext).1, anchored_step h.2 h.1.numbered
      (fun _ _ _ hruns _ hf _ => runs_inMap h.1 hruns hf) hnext⟩)
    ⟨serverInv_make config, anchored_make config⟩ hids hrun
  exact hboth.2.held hboth.1.numbered trivial hphase

/-- A server with one io loop that wants write-complete notifications. -/
def notifyingConfig : ServerConfig := { sampleConfig with callbacks := ⟨true, true, true, false, true⟩ }

/-- The message is answered, and the connection has an error. -/
def answeredInput : ConnContext.EventInput := ⟨.ok [1], .err .ewouldblock, [.send [2] (.ok 1)], [], [], []⟩

/-- An answer is sent in one piece, then the connection is closed and leaves the map before the
notification runs. -/
def closedBeforeNotification : List ServerStep :=
  [.poll 0 [], .accept (some 7), .swap 0, .endBatch 0,
   .poll 1 [], .swap 1, .runTask 1 (.ok 0) [], .endBatch 1,
   .poll 1 [(7, ⟨true, false, false, true, false⟩)], .handleEvent 1,
   .handler 1 answeredInput, .handler 1 answeredInput, .handler 1 answeredInput, .handler 1 answeredInput,
   .poll 0 [], .swap 0, .runTask 0 (.ok 0) [], .endBatch 0, .swap 1]

theorem notification_finds_holder_closed :
    ∃ s x, serverMachine.run (TcpServer.make notifyingConfig) closedBeforeNotification = some s ∧
      s.conns 0 = some x ∧ ¬InMap s 0 x ∧ x.userRefs = 0 ∧
      (s.loops 1).phase = .running [] [.functor 0 .writeComplete, .connectionDestroyed 0] ∧ s.Held 0 := by
  have hend : (serverMachine.run (TcpServer.make notifyingConfig) closedBeforeNotification).bind
      (fun s => (s.conns 0).map fun x =>
        (s.connectionMap x.name, x.userRefs, (s.loops 1).phase)) =
      some (none, 0, .running [] [.functor 0 .writeComplete, .connectionDestroyed 0]) := by
    decide +kernel
  obtain ⟨s, hrun, hs⟩ := Option.bind_eq_some_iff.mp hend
  obtain ⟨x, hx, hs⟩ := Option.map_eq_some_iff.mp hs
  simp only [Prod.mk.injEq] at hs
  obtain ⟨hmap, hrefs, hphase⟩ := hs
  refine ⟨s, x, hrun, hx, ?_, hrefs, hphase, ?_⟩
  · unfold InMap
    rw [hmap]
    simp
  · exact notification_finds_holder notifyingConfig closedBeforeNotification s (by decide +kernel) hrun 1 0
      .writeComplete [] [.connectionDestroyed 0] hphase

end MylibMuduo.Proofs
