import MylibMuduo.Proofs.ServerSteps

/-!
# The life of a connection across the loops

Every run of the server keeps `ServerInv`. A connection therefore goes from its loop's queue
into the poller, leaves the kernel's interest set with the first close, leaves the server's
map before it leaves the poller, and loses its last holder only after that.
-/

namespace MylibMuduo.Proofs

/-! ### Runs -/

/-- The identifiers do not wrap: `next_conn_id_++` stays in the range of `int`. -/
def idsFit (s : TcpServer) : ServerStep → Prop
  | .accept (some (_ + 1)) => s.nextConnId < 2 ^ 31 - 1
  | _ => True

/-- No connection disappears from the trace, and its history is only extended. -/
def Grows (s s' : TcpServer) : Prop :=
  ∀ c x, s.conns c = some x → ∃ x', s'.conns c = some x' ∧ x.history <+: x'.history

lemma grows_of_conns {s s' : TcpServer} (h : s'.conns = s.conns) : Grows s s' :=
  fun _ x hx => ⟨x, by rw [h]; exact hx, List.prefix_refl _⟩

lemma grows_of_update {s s' : TcpServer} {c : Nat} {x x' : ServerConn} (hx : s.conns c = some x)
    (hs' : s'.conns = Function.update s.conns c (some x')) (hh : x.history <+: x'.history) :
    Grows s s' := by
  intro d y hy
  by_cases hd : d = c
  · subst hd
    rw [hx, Option.some.injEq] at hy
    subst hy
    exact ⟨x', by rw [hs', Function.update_self], hh⟩
  · exact ⟨y, by rw [hs', Function.update_of_ne hd]; exact hy, List.prefix_refl _⟩

lemma conns_closeCallback (s : TcpServer) (l c : Nat) (x : ServerConn) (w : ConnContext Nat) :
    (s.closeCallback l c x w).conns = s.conns := by
  unfold TcpServer.closeCallback TcpServer.removeConnection
  split
  · split
    · rfl
    · rfl
  · rfl

theorem serverInv_accept {s : TcpServer} (h : ServerInv s) (r : Option Nat)
    (hclosed : ∀ fd ∈ r, s.Closed fd) (hok : idsFit s (.accept r)) :
    ServerInv (s.acceptorHandleRead r) ∧ Grows s (s.acceptorHandleRead r) := by
  match r with
  | none => exact ⟨h, grows_of_conns rfl⟩
  | some 0 =>
    refine ⟨?_, grows_of_conns rfl⟩
    exact h.pass rfl rfl rfl rfl rfl rfl (fun _ => rfl) (fun _ => rfl) (fun _ _ ha => Or.inl ha)
      (fun _ _ hg => hg) (fun _ hh => hh) h.nodup
  | some (fd + 1) =>
    refine ⟨inv_newConnection h (hclosed (fd + 1) rfl) hok, ?_⟩
    intro d y hy
    exact ⟨y, (newConnection_conns_of_ne _ (ne_created h.numbered hy)).trans hy, List.prefix_refl _⟩

theorem serverInv_runTask {s : TcpServer} (h : ServerInv s) {l : Nat} {done rest : List Task} {t : Task}
    {x : ServerConn} (hphase : (s.loops l).phase = .running done (t :: rest))
    (hx : s.conns t.conn = some x) (r : SysResult) (app : List AppCall) :
    ServerInv ((s.setPhase l (.running (done ++ [t]) rest)).runTask r app x t) ∧
      Grows s ((s.setPhase l (.running (done ++ [t]) rest)).runTask r app x t) := by
  cases t with
  | connectionEstablished c =>
    refine ⟨?_, grows_of_update hx rfl (List.prefix_append _ _)⟩
    rw [TcpServer.runTask, context_setPhase]
    exact inv_connectionEstablished h hx hphase app
  | removeConnectionInLoop c =>
    exact ⟨inv_removeConnectionInLoop h hx hphase, grows_of_conns rfl⟩
  | connectionDestroyed c =>
    refine ⟨?_, grows_of_update hx rfl (List.prefix_append _ _)⟩
    rw [TcpServer.runTask, context_setPhase]
    exact inv_connectionDestroyed h hx hphase app
  | functor c f =>
    refine ⟨?_, grows_of_update hx rfl (List.prefix_append _ _)⟩
    rw [TcpServer.runTask, context_setPhase]
    exact inv_functor h hx hphase r app

theorem serverInv_step {s s' : TcpServer} {a : ServerStep} (h : ServerInv s) (hok : idsFit s a)
    (hnext : serverMachine.next s a = some s') : ServerInv s' ∧ Grows s s' := by
  cases server_trans hnext with
  | @poll l events hphase hnodup => exact ⟨inv_poll h l events hphase hnodup, grows_of_conns rfl⟩
  | @accept r hclosed => exact serverInv_accept h r hclosed hok
  | @skip l c revent active hphase x hx hlost =>
    -- The lock of the tie succeeds: an active connection is live, and so is in the map.
    have ha : ActiveIn s l c := activeIn_of_phase hphase
    exact absurd (held_of_inMap hx ((h.conn c x hx).live_of_active ha).2.2.1) hlost
  | handleEvent hphase hx =>
    exact ⟨inv_handleEvent h hx hphase, grows_of_update hx rfl (List.prefix_append _ _)⟩
  | @handler l i c revent hd active hphase x hx =>
    have hconns : (s.runHandler l c revent hd active i x).conns = Function.update s.conns c
        (some (stored x ((s.context c x).runHandler revent i hd) [])) := conns_closeCallback _ l c x _
    exact ⟨inv_handler h hx hphase i, grows_of_update hx hconns (List.prefix_append _ _)⟩
  | @swap l hphase => exact ⟨inv_swap h l hphase, grows_of_conns rfl⟩
  | @runTask l r app done t rest hphase x hx => exact serverInv_runTask h hphase hx r app
  | @endBatch l done hphase => exact ⟨inv_endBatch h l done hphase, grows_of_conns rfl⟩
  | @app c call x hx => exact ⟨inv_app h hx call, grows_of_update hx rfl (List.prefix_append _ _)⟩
  | hold hx hheld =>
    exact ⟨inv_userRefs h hx _ (fun _ => hheld), grows_of_update hx rfl (List.prefix_refl _)⟩
  | @release c x hx hpos =>
    refine ⟨inv_userRefs h hx _ (fun _ => ?_), grows_of_update hx rfl (List.prefix_refl _)⟩
    exact Or.inl ⟨x, hx, Or.inr hpos⟩

lemma serverInv_make (config : ServerConfig) : ServerInv (TcpServer.make config) := by
  refine ⟨by simp [TcpServer.make], rfl, ?_, fun c _ l => ⟨rfl, ?_, ?_⟩, by simp [TcpServer.make], ?_,
    by simp [TcpServer.make], fun l => List.nodup_nil, by simp [TcpServer.make], ?_⟩
  · change config.numThreads = 0 ∨ 0 < config.numThreads
    omega
  · simp [ActiveIn, TcpServer.make, Phase.active]
  · simp [GuardedIn, TcpServer.make, Phase.guard]
  · intro l fd c hc
    simp [TcpServer.make, EPollPoller.empty] at hc
  · intro l c f hf
    simp [TcpServer.make, IoLoop.todo, Phase.rest] at hf

lemma serverInv_run {s t : TcpServer} {steps : List ServerStep} (h : ServerInv s)
    (hids : serverMachine.Meets idsFit s steps) (hrun : serverMachine.run s steps = some t) :
    ServerInv t ∧ Grows s t := by
  refine serverMachine.invariant_of_meets (I := fun u => ServerInv u ∧ Grows s u) ?_
    ⟨h, grows_of_conns rfl⟩ hids hrun
  intro u a u' hu hok hnext
  obtain ⟨hinv, hgrow⟩ := serverInv_step hu.1 hok hnext
  refine ⟨hinv, fun c x hx => ?_⟩
  obtain ⟨y, hy, hxy⟩ := hu.2 c x hx
  obtain ⟨z, hz, hyz⟩ := hgrow c y hy
  exact ⟨z, hz, hxy.trans hyz⟩

/-- The connection is in the server's map, or a poller or the kernel knows its channel. -/
def Known (s : TcpServer) (c : Nat) : Prop :=
  (∃ name, s.connectionMap name = some c) ∨ (∃ l fd, (s.loops l).poller.channels fd = some c) ∨
    ∃ l fd e, (s.loops l).poller.interest fd = some (e, c)

/-- Nothing before the one establishment. -/
def EstablishedFirst (history : List LifeEvent) : Prop :=
  history = [] ∨ ∃ rest, history = .established :: rest ∧ .established ∉ rest

lemma not_known_of_destroyed {s : TcpServer} (h : ServerInv s) {c : Nat} {x : ServerConn}
    (hx : s.conns c = some x) (hd : .destroyed ∈ x.history) : ¬Known s c := by
  have hconn := h.conn c x hx
  have hgone : x.conn.channel.index = .kNew ∧ ¬InMap s c x := by
    cases hconn.stage with
    | fresh _ history =>
      rw [history] at hd
      simp at hd
    | live _ history =>
      obtain ⟨rest, hrest, -, hnot⟩ := history
      rw [hrest] at hd
      simp [hnot] at hd
    | closed _ _ history =>
      obtain ⟨rest, hrest, -, hnot⟩ := history
      rw [hrest] at hd
      simp [hnot] at hd
    | gone _ index _ _ _ unmapped => exact ⟨index, unmapped⟩
  have howner : ∀ l fd, ((s.loops l).poller.channels fd = some c ∨
      ∃ e, (s.loops l).poller.interest fd = some (e, c)) → False := by
    intro l fd hp
    obtain ⟨y, hy, -, -, hidx⟩ := h.owned l fd c hp
    rw [hx, Option.some.injEq] at hy
    exact hidx (hy ▸ hgone.1)
  rintro (⟨name, hm⟩ | ⟨l, fd, hc⟩ | ⟨l, fd, e, hi⟩)
  · obtain ⟨y, hy, hname⟩ := h.map name c hm
    rw [hx, Option.some.injEq] at hy
    rw [← hname, ← hy] at hm
    exact hgone.2 hm
  · exact howner l fd (Or.inl hc)
  · exact howner l fd (Or.inr ⟨e, hi⟩)

lemma ConnInv.establishedFirst {s : TcpServer} {c : Nat} {x : ServerConn} (h : ConnInv s c x) :
    EstablishedFirst x.history := by
  cases h.stage with
  | fresh _ history => exact Or.inl history
  | live _ history =>
    obtain ⟨rest, hrest, hnot, -⟩ := history
    exact Or.inr ⟨rest, hrest, hnot⟩
  | closed _ _ history =>
    obtain ⟨rest, hrest, hnot, -⟩ := history
    exact Or.inr ⟨rest, hrest, hnot⟩
  | gone _ _ _ history =>
    obtain ⟨rest, hrest, hnot, -⟩ := history
    exact Or.inr ⟨rest, hrest, hnot⟩

/-- The life of every connection, in every interleaving of the loops: it is established at
most once and before anything else happens to it, a loop dispatches it only while it is
registered and held, its last holder goes only after its channel has left the poller, and
after its destruction nothing knows it any more. -/
theorem connection_life_cycle (config : ServerConfig) (steps : List ServerStep) (s : TcpServer)
    (hids : serverMachine.Meets idsFit (TcpServer.make config) steps)
    (hrun : serverMachine.run (TcpServer.make config) steps = some s) :
    (∀ c x, s.conns c = some x → EstablishedFirst x.history) ∧
      (∀ l c revent active, (s.loops l).phase = .dispatch ((c, revent) :: active) →
        ∃ x, s.conns c = some x ∧ x.conn.channel.index ≠ .kNew ∧ s.Held c) ∧
      (∀ c x, s.conns c = some x → ¬s.Held c →
        .destroyed ∈ x.history ∧ x.conn.channel.index = .kNew ∧ ¬Known s c) ∧
      (∀ c x, s.conns c = some x → .destroyed ∈ x.history →
        ∀ more t, serverMachine.Meets idsFit s more → serverMachine.run s more = some t → ¬Known t c) := by
  have h := (serverInv_run (serverInv_make config) hids hrun).1
  refine ⟨fun c x hx => (h.conn c x hx).establishedFirst, ?_, ?_, ?_⟩
  · intro l c revent active hphase
    have ha : ActiveIn s l c := activeIn_of_phase hphase
    cases hx : s.conns c with
    | none => exact absurd ha (h.unborn c hx l).2.1
    | some x =>
      obtain ⟨hlive, -, hmap, -⟩ := (h.conn c x hx).live_of_active ha
      refine ⟨x, rfl, ?_, held_of_inMap hx hmap⟩
      rw [show x.conn.channel.index = .kAdd from hlive.reg.added]
      simp
  · intro c x hx hheld
    have hconn := h.conn c x hx
    have hindex : x.conn.channel.index = .kNew := by
      by_contra hne
      exact hheld (hconn.held hx (Or.inl hne))
    have hdes : .destroyed ∈ x.history := by
      by_contra hne
      refine hheld (hconn.held hx (Or.inr ?_))
      rintro ⟨rest, hrest, -, hd⟩
      rw [hrest] at hne
      exact hne (List.mem_cons_of_mem _ hd)
    exact ⟨hdes, hindex, not_known_of_destroyed h hx hdes⟩
  · intro c x hx hd more t hmore ht
    obtain ⟨hinv, hgrow⟩ := serverInv_run h hmore ht
    obtain ⟨y, hy, hxy⟩ := hgrow c x hx
    exact not_known_of_destroyed hinv hy (hxy.subset hd)

instance (s : TcpServer) (a : ServerStep) : Decidable (idsFit s a) := by
  unfold idsFit
  split
  · infer_instance
  · infer_instance

/-- A server with one io loop. -/
def sampleConfig : ServerConfig where
  name := ['s']
  ipPort := ['h', ':', '1']
  ipPort_length := by decide
  numThreads := 1
  callbacks := ⟨true, true, false, false, true⟩
  files := fun _ => []

/-- The read returns the end of the input. -/
def noInput : ConnContext.EventInput := ⟨.ok [], .err .ewouldblock, [], [], [], []⟩

/-- One connection from its accept on the base loop to the release of its last holder, with
an end of input on its io loop in between. -/
def oneLife : List ServerStep :=
  [.poll 0 [], .accept (some 7), .swap 0, .endBatch 0,
   .poll 1 [], .swap 1, .runTask 1 (.ok 0) [], .endBatch 1,
   .poll 1 [(7, ⟨true, false, false, false, true⟩)], .handleEvent 1,
   .handler 1 noInput, .handler 1 noInput, .handler 1 noInput, .handler 1 noInput,
   .poll 0 [], .swap 0, .runTask 0 (.ok 0) [], .endBatch 0,
   .swap 1, .runTask 1 (.ok 0) [], .endBatch 1]

theorem connection_life_cycle_one_life :
    ∃ s x, serverMachine.run (TcpServer.make sampleConfig) oneLife = some s ∧ s.conns 0 = some x ∧
      ¬s.Held 0 ∧ EstablishedFirst x.history ∧ .destroyed ∈ x.history ∧ ¬Known s 0 := by
  have hend : (serverMachine.run (TcpServer.make sampleConfig) oneLife).map
      (fun s => (decide (s.Held 0), (s.conns 0).isSome)) = some (false, true) := by
    decide +kernel
  obtain ⟨s, hrun, hs⟩ := Option.map_eq_some_iff.mp hend
  obtain ⟨hheld, hsome⟩ := Prod.mk.inj hs
  obtain ⟨x, hx⟩ := Option.isSome_iff_exists.mp hsome
  have hnot : ¬s.Held 0 := of_decide_eq_false hheld
  obtain ⟨hfirst, -, hclosed, -⟩ := connection_life_cycle sampleConfig oneLife s (by decide +kernel) hrun
  obtain ⟨hdes, -, hunknown⟩ := hclosed 0 x hx hnot
  exact ⟨s, x, hrun, hx, hnot, hfirst 0 x hx, hdes, hunknown⟩

end MylibMuduo.Proofs
