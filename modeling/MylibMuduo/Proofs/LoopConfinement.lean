import Mathlib.Data.Int.CardIntervalMod
import MylibMuduo.Proofs.NotificationLifetime

/-!
# One loop for each connection

`getNextLoop` takes the io loops in turn, so a connection's loop follows from its number. From then
on only the thread of that loop touches the connection and the poller of the loop, and only the
thread of the base loop touches the data of the server. What other threads can change is the queue of
a loop, under its mutex and at its end, and the number of pointers to a connection.
-/

namespace MylibMuduo.Proofs

variable {s s' : TcpServer}

/-! ### Placement -/

/-- The loop of the connection with the number `c` in a server with `n` io loops. -/
def homeLoop (n c : Nat) : Nat := if n = 0 then 0 else c % n + 1

/-- The connections that loop `l` has been given. -/
def assigned (s : TcpServer) (l : Nat) : Nat :=
  s.created.count fun c => (s.conns c).map ServerConn.loop = some l

/-- Every number below `created` has its connection, at its loop. -/
structure Spread (s : TcpServer) : Prop where
  next : s.next = if s.config.numThreads = 0 then 0 else s.created % s.config.numThreads
  born : ∀ c, c < s.created → (s.conns c).map ServerConn.loop = some (homeLoop s.config.numThreads c)
  unborn : ∀ c, s.created ≤ c → s.conns c = none

lemma spread_make (config : ServerConfig) : Spread (TcpServer.make config) := by
  refine ⟨?_, by simp [TcpServer.make], fun _ _ => rfl⟩
  change 0 = if config.numThreads = 0 then 0 else 0 % config.numThreads
  rw [Nat.zero_mod, ite_self]

lemma SameConns.loop_eq (h : SameConns s s') (c : Nat) :
    (s'.conns c).map ServerConn.loop = (s.conns c).map ServerConn.loop := by
  have hplace := congrArg (Option.map Prod.fst) (h.conns c)
  simpa [Option.map_map, Function.comp_def, place] using hplace

lemma SameConns.spread (h : SameConns s s') (hs : Spread s) : Spread s' := by
  refine ⟨?_, fun c hc => ?_, fun c hc => ?_⟩
  · rw [h.next, h.config, h.created]
    exact hs.next
  · rw [h.loop_eq, h.config]
    rw [h.created] at hc
    exact hs.born c hc
  · rw [h.created] at hc
    have hnone := h.conns c
    rw [hs.unborn c hc] at hnone
    exact Option.map_eq_none_iff.mp hnone

lemma spread_newConnection (h : Spread s) (fd : Nat) : Spread (s.newConnection fd) := by
  have hcreated : (s.newConnection fd).created = s.created + 1 := rfl
  have hconfig : (s.newConnection fd).config = s.config := rfl
  have hnext : (s.newConnection fd).next = s.getNextLoop.2 := rfl
  refine ⟨?_, fun c hc => ?_, fun c hc => ?_⟩
  · rw [hnext, hconfig, hcreated, TcpServer.getNextLoop, h.next]
    split
    · rfl
    · rw [Nat.mod_add_mod]
  · rw [hcreated] at hc
    by_cases hself : c = s.created
    · subst hself
      have hloop : s.getNextLoop.1 = homeLoop s.config.numThreads s.created := by
        rw [TcpServer.getNextLoop, h.next, homeLoop]
        split
        · rfl
        · rfl
      rw [newConnection_conns_self, hconfig, Option.map_some, ← hloop]
      rfl
    · rw [newConnection_conns_of_ne fd hself, hconfig]
      exact h.born c (by omega)
  · rw [hcreated] at hc
    rw [newConnection_conns_of_ne fd (by omega)]
    exact h.unborn c (by omega)

lemma spread_step {a : ServerStep} (h : Spread s) (hnext : serverMachine.next s a = some s') : Spread s' := by
  by_cases ha : ∃ fd, a = .accept (some (fd + 1))
  · obtain ⟨fd, rfl⟩ := ha
    cases server_trans hnext with
    | accept hclosed => exact spread_newConnection h (fd + 1)
  · exact (sameConns_step hnext fun fd heq => ha ⟨fd, heq⟩).spread h

/-- The count of a residue. -/
lemma Spread.assigned_eq (h : Spread s) {l : Nat} (hl : l < s.config.numThreads) :
    assigned s (l + 1) = s.created / s.config.numThreads + if l < s.created % s.config.numThreads then 1 else 0 := by
  have hpos : 0 < s.config.numThreads := Nat.zero_lt_of_lt hl
  have hcount : assigned s (l + 1) = s.created.count (· ≡ l [MOD s.config.numThreads]) := by
    have hiff : ∀ c < s.created, (s.conns c).map ServerConn.loop = some (l + 1) ↔ c ≡ l [MOD s.config.numThreads] := by
      intro c hc
      rw [h.born c hc, homeLoop, if_neg (Nat.ne_of_gt hpos), Option.some.injEq, Nat.add_right_cancel_iff,
        Nat.ModEq, Nat.mod_eq_of_lt hl]
    exact Nat.le_antisymm (Nat.count_mono_left fun c hc => (hiff c hc).mp)
      (Nat.count_mono_left fun c hc => (hiff c hc).mpr)
  rw [hcount, Nat.count_modEq_card _ hpos, Nat.mod_eq_of_lt hl]

/-- The connections come to the io loops in turn, so of all connections accepted so far any two io
loops have been given the same number, up to one. -/
theorem connections_spread_evenly (config : ServerConfig) (steps : List ServerStep) (s : TcpServer)
    (hrun : serverMachine.run (TcpServer.make config) steps = some s) :
    (∀ c x, s.conns c = some x → x.loop = homeLoop s.config.numThreads c) ∧
      ∀ l k, l < s.config.numThreads → k < s.config.numThreads → assigned s (l + 1) ≤ assigned s (k + 1) + 1 := by
  have hs : Spread s := serverMachine.invariant (fun _ _ _ => spread_step) (spread_make config) hrun
  constructor
  · intro c x hx
    by_cases hc : c < s.created
    · have hborn := hs.born c hc
      rw [hx, Option.map_some, Option.some.injEq] at hborn
      exact hborn
    · rw [hs.unborn c (by omega)] at hx
      cases hx
  · intro l k hl hk
    rw [hs.assigned_eq hl, hs.assigned_eq hk]
    split <;> split <;> omega

/-- Three connections for two io loops. -/
def threeAccepts : List ServerStep := [.poll 0 [], .accept (some 7), .accept (some 8), .accept (some 9)]

theorem connections_spread_evenly_three :
    ∃ s, serverMachine.run (TcpServer.make { sampleConfig with numThreads := 2 }) threeAccepts = some s ∧
      assigned s 1 = 2 ∧ assigned s 2 = 1 ∧ (∀ c x, s.conns c = some x → x.loop = homeLoop 2 c) := by
  have hend : (serverMachine.run (TcpServer.make { sampleConfig with numThreads := 2 }) threeAccepts).map
      (fun s => (assigned s 1, assigned s 2, s.config.numThreads)) = some (2, 1, 2) := by
    decide +kernel
  obtain ⟨s, hrun, hs⟩ := Option.map_eq_some_iff.mp hend
  simp only [Prod.mk.injEq] at hs
  obtain ⟨hone, htwo, hthreads⟩ := hs
  have hhome := (connections_spread_evenly { sampleConfig with numThreads := 2 } threeAccepts s hrun).1
  rw [hthreads] at hhome
  exact ⟨s, hrun, hone, htwo, hhome⟩

/-! ### Confinement -/

/-- A step of thread `k` changes only what belongs to `k`, and otherwise the numbers of pointers and the
ends of the queues. -/
structure Confined (k : Option Nat) (s s' : TcpServer) : Prop where
  conn : ∀ c x, s.conns c = some x → k ≠ some x.loop → ∃ refs, s'.conns c = some { x with userRefs := refs }
  loop : ∀ l, k ≠ some l →
    (s'.loops l).poller = (s.loops l).poller ∧ (s'.loops l).phase = (s.loops l).phase
  queue : ∀ l, k ≠ some l → (s.loops l).pendingFunctors <+: (s'.loops l).pendingFunctors
  base : k ≠ some 0 → s'.connectionMap = s.connectionMap ∧ s'.next = s.next ∧ s'.nextConnId = s.nextConnId ∧
    s'.created = s.created ∧ s'.lost = s.lost

lemma Confined.trans {k : Option Nat} {s₁ s₂ s₃ : TcpServer} (h₁ : Confined k s₁ s₂) (h₂ : Confined k s₂ s₃) :
    Confined k s₁ s₃ := by
  refine ⟨fun c x hx hk => ?_, fun l hk => ?_, fun l hk => (h₁.queue l hk).trans (h₂.queue l hk), fun hk => ?_⟩
  · obtain ⟨refs, hx'⟩ := h₁.conn c x hx hk
    exact h₂.conn c { x with userRefs := refs } hx' hk
  · obtain ⟨hp₁, hph₁⟩ := h₁.loop l hk
    obtain ⟨hp₂, hph₂⟩ := h₂.loop l hk
    exact ⟨hp₂.trans hp₁, hph₂.trans hph₁⟩
  · obtain ⟨hm₁, hn₁, hi₁, hc₁, hl₁⟩ := h₁.base hk
    obtain ⟨hm₂, hn₂, hi₂, hc₂, hl₂⟩ := h₂.base hk
    exact ⟨hm₂.trans hm₁, hn₂.trans hn₁, hi₂.trans hi₁, hc₂.trans hc₁, hl₂.trans hl₁⟩

lemma confined_setLoop (s : TcpServer) (l : Nat) (L : IoLoop) : Confined (some l) s (s.setLoop l L) := by
  have hother : ∀ j, some l ≠ some j → (s.setLoop l L).loops j = s.loops j := by
    intro j hj
    exact Function.update_of_ne (fun heq => hj (congrArg some heq.symm)) _ _
  refine ⟨fun c x hx _ => ⟨x.userRefs, hx⟩, fun j hj => ?_, fun j hj => ?_, fun _ => ⟨rfl, rfl, rfl, rfl, rfl⟩⟩
  · rw [hother j hj]
    exact ⟨rfl, rfl⟩
  · rw [hother j hj]

/-- Any thread may queue a task. -/
lemma confined_queueInLoop (k : Option Nat) (s : TcpServer) (l : Nat) (t : Task) :
    Confined k s (s.queueInLoop l t) := by
  refine ⟨fun c x hx _ => ⟨x.userRefs, hx⟩, fun j _ => ⟨queueInLoop_poller s l j t, queueInLoop_phase s l j t⟩,
    fun j _ => ?_, fun _ => ⟨rfl, rfl, rfl, rfl, rfl⟩⟩
  rw [queueInLoop_pending]
  exact List.prefix_append _ _

/-- The connection's own thread may change it. -/
lemma confined_setConn {c : Nat} {x : ServerConn} (x' : ServerConn) (hx : s.conns c = some x) :
    Confined (some x.loop) s (s.setConn c x') := by
  refine ⟨fun d y hy hk => ?_, fun _ _ => ⟨rfl, rfl⟩, fun _ _ => List.prefix_refl _, fun _ => ⟨rfl, rfl, rfl, rfl, rfl⟩⟩
  have hd : d ≠ c := by
    rintro rfl
    rw [hx, Option.some.injEq] at hy
    exact hk (hy ▸ rfl)
  exact ⟨y.userRefs, (Function.update_of_ne hd _ _).trans hy⟩

lemma confined_userRefs (k : Option Nat) {c : Nat} {x : ServerConn} (hx : s.conns c = some x) (refs : Nat) :
    Confined k s (s.setConn c { x with userRefs := refs }) := by
  refine ⟨fun d y hy _ => ?_, fun _ _ => ⟨rfl, rfl⟩, fun _ _ => List.prefix_refl _, fun _ => ⟨rfl, rfl, rfl, rfl, rfl⟩⟩
  by_cases hd : d = c
  · subst hd
    rw [hx, Option.some.injEq] at hy
    exact ⟨refs, hy ▸ Function.update_self _ _ _⟩
  · exact ⟨y.userRefs, (Function.update_of_ne hd _ _).trans hy⟩

lemma confined_store {c : Nat} {x : ServerConn} (hx : s.conns c = some x) (w : ConnContext Nat) (e : List LifeEvent) :
    Confined (some x.loop) s (s.store c x w e) :=
  (confined_setConn _ hx).trans (confined_setLoop _ x.loop _)

lemma confined_removeConnectionInLoop (s : TcpServer) (c : Nat) (x : ServerConn) :
    Confined (some 0) s (s.removeConnectionInLoop c x) := by
  have herase : Confined (some 0) s { s with connectionMap := Function.update s.connectionMap x.name none } :=
    ⟨fun d y hy _ => ⟨y.userRefs, hy⟩, fun _ _ => ⟨rfl, rfl⟩, fun _ _ => List.prefix_refl _, fun hk => absurd rfl hk⟩
  exact herase.trans (confined_queueInLoop _ _ _ _)

lemma confined_closeCallback (s : TcpServer) (l c : Nat) (x : ServerConn) (w : ConnContext Nat) :
    Confined (some l) s (s.closeCallback l c x w) := by
  unfold TcpServer.closeCallback TcpServer.removeConnection
  split
  · split
    · next hl => exact hl ▸ confined_removeConnectionInLoop s c x
    · exact confined_queueInLoop _ s 0 _
  · exact ⟨fun d y hy _ => ⟨y.userRefs, hy⟩, fun _ _ => ⟨rfl, rfl⟩, fun _ _ => List.prefix_refl _,
      fun _ => ⟨rfl, rfl, rfl, rfl, rfl⟩⟩

lemma confined_acceptorHandleRead (hs : Numbered s) (r : Option Nat) :
    Confined (some 0) s (s.acceptorHandleRead r) := by
  match r with
  | none => exact ⟨fun d y hy _ => ⟨y.userRefs, hy⟩, fun _ _ => ⟨rfl, rfl⟩, fun _ _ => List.prefix_refl _,
      fun _ => ⟨rfl, rfl, rfl, rfl, rfl⟩⟩
  | some 0 => exact ⟨fun d y hy _ => ⟨y.userRefs, hy⟩, fun _ _ => ⟨rfl, rfl⟩, fun _ _ => List.prefix_refl _,
      fun hk => absurd rfl hk⟩
  | some (fd + 1) =>
    refine ⟨fun d y hy _ => ⟨y.userRefs, ?_⟩, fun l _ => ⟨newConnection_poller s _ l, newConnection_phase s _ l⟩,
      fun l _ => ?_, fun hk => absurd rfl hk⟩
    · exact (newConnection_conns_of_ne (fd + 1) (ne_created hs hy)).trans hy
    · have hqueue : ((s.newConnection (fd + 1)).loops l).pendingFunctors = (s.loops l).pendingFunctors ++
          if l = s.getNextLoop.1 then [.connectionEstablished s.created] else [] := queueInLoop_pending _ _ l _
      change _ <+: ((s.newConnection (fd + 1)).loops l).pendingFunctors
      rw [hqueue]
      exact List.prefix_append _ _

/-- The loop on which a task of the connection `x` runs. -/
def taskLoop (x : ServerConn) : Task → Nat
  | .removeConnectionInLoop _ => 0
  | _ => x.loop

lemma task_home {l : Nat} {done rest : List Task} {t : Task} {x : ServerConn} (h : ServerInv s)
    (hanchor : Anchored (fun _ => True) s) (hphase : (s.loops l).phase = .running done (t :: rest))
    (hx : s.conns t.conn = some x) : l = taskLoop x t := by
  cases t with
  | connectionEstablished c => exact ((h.conn c x hx).fresh_of_task (mem_todoOf_of_phase hphase rfl)).1
  | removeConnectionInLoop c =>
    have hmem : .removeConnectionInLoop c ∈ todoOf s l c := mem_todoOf_of_phase hphase rfl
    rcases ((h.conn c x hx).closed_of_task hmem (by simp)).1 l _ hmem with ⟨-, hl⟩ | ⟨hne, -⟩
    · exact hl
    · cases hne
  | connectionDestroyed c =>
    have hmem : .connectionDestroyed c ∈ todoOf s l c := mem_todoOf_of_phase hphase rfl
    rcases ((h.conn c x hx).closed_of_task hmem (by simp)).1 l _ hmem with ⟨hne, -⟩ | ⟨-, hl⟩
    · cases hne
    · exact hl
  | functor c f =>
    obtain ⟨y, hy, hl, -⟩ := hanchor.batch l c f trivial (by rw [hphase]; exact List.mem_cons_self)
    have hxy : y = x := Option.some.inj (hy.symm.trans hx)
    exact hxy ▸ hl.symm

lemma confined_runTask {t : Task} {x : ServerConn} (hx : s.conns t.conn = some x) (r : SysResult) (app : List AppCall) :
    Confined (some (taskLoop x t)) s (s.runTask r app x t) := by
  cases t with
  | removeConnectionInLoop c => exact confined_removeConnectionInLoop s c x
  | _ => exact confined_store hx _ _

/-- Every step of every run changes only the data of the thread that executes it. -/
theorem loop_data_confined (config : ServerConfig) (steps : List ServerStep) (a : ServerStep) (s s' : TcpServer)
    (hids : serverMachine.Meets idsFit (TcpServer.make config) steps)
    (hrun : serverMachine.run (TcpServer.make config) steps = some s) (hnext : serverMachine.next s a = some s') :
    Confined (a.thread s) s s' := by
  have hboth := serverMachine.invariant_of_meets
    (I := fun u => ServerInv u ∧ Anchored (fun _ => True) u)
    (fun _ _ _ h hok hnext => ⟨(serverInv_step h.1 hok hnext).1, anchored_step h.2 h.1.numbered
      (fun _ _ _ hruns _ hf _ => runs_inMap h.1 hruns hf) hnext⟩)
    ⟨serverInv_make config, anchored_make config⟩ hids hrun
  obtain ⟨h, hanchor⟩ := hboth
  cases server_trans hnext with
  | poll => exact confined_setLoop s _ _
  | accept hclosed => exact confined_acceptorHandleRead h.numbered _
  | skip => exact confined_setLoop s _ _
  | @handleEvent l c revent active hphase x hx =>
    have hl : l = x.loop := (h.conn c x hx).home l (Or.inl (activeIn_of_phase hphase))
    subst hl
    exact (confined_setLoop s _ _).trans (confined_setConn (s := s.setPhase _ _) _ hx)
  | @handler l i c revent hd active hphase x hx =>
    have hl : l = x.loop := (h.conn c x hx).home l (Or.inr (guardedIn_of_phase hphase))
    subst hl
    exact ((confined_setLoop s _ _).trans (confined_store (s := s.setPhase _ _) hx _ _)).trans
      (confined_closeCallback _ _ _ _ _)
  | swap => exact confined_setLoop s _ _
  | @runTask l r app done t rest hphase x hx =>
    have hl := task_home h hanchor hphase hx
    subst hl
    exact (confined_setLoop s _ _).trans (confined_runTask (s := s.setPhase _ _) hx r app)
  | endBatch => exact confined_setLoop s _ _
  | @app c call x hx =>
    have hthread : ServerStep.thread s (.app c call) = some x.loop := by
      rw [ServerStep.thread, hx]
      rfl
    rw [hthread]
    exact confined_store hx _ _
  | hold hx => exact confined_userRefs _ hx _
  | release hx => exact confined_userRefs _ hx _

/-- The base loop takes a closed connection out of the map and leaves the rest to its io loop. -/
theorem loop_data_confined_removal :
    ∃ s s', serverMachine.run (TcpServer.make sampleConfig) (oneLife.take 16) = some s ∧
      serverMachine.next s (.runTask 0 (.ok 0) []) = some s' ∧ s'.connectionMap ≠ s.connectionMap ∧
      Confined (some 0) s s' := by
  have hend : (serverMachine.run (TcpServer.make sampleConfig) (oneLife.take 16)).bind (fun s =>
      (serverMachine.next s (.runTask 0 (.ok 0) [])).map fun s' =>
        (s.connectionMap (TcpServer.connName sampleConfig 1), s'.connectionMap (TcpServer.connName sampleConfig 1))) =
      some (some 0, none) := by
    decide +kernel
  obtain ⟨s, hrun, hend⟩ := Option.bind_eq_some_iff.mp hend
  obtain ⟨s', hnext, hend⟩ := Option.map_eq_some_iff.mp hend
  obtain ⟨hbefore, hafter⟩ := Prod.mk.inj hend
  refine ⟨s, s', hrun, hnext, ?_, ?_⟩
  · intro hsame
    rw [hsame, hbefore] at hafter
    cases hafter
  · exact loop_data_confined sampleConfig (oneLife.take 16) (.runTask 0 (.ok 0) []) s s' (by decide +kernel) hrun hnext

end MylibMuduo.Proofs
