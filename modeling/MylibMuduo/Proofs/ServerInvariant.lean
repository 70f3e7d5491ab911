import MylibMuduo.TcpServer
import MylibMuduo.Proofs.ConnectionStages

/-!
# The invariant of the server

A connection of the server is fresh while its `connectionEstablished` waits in the queue of
its loop, live afterwards, closed from the first `handleClose` on, and gone after its first
`connectionDestroyed`. `Stage` ties each of these to the map, the queues, the active
channels, the guard and the poller, and `ServerInv` adds what holds between connections.
-/

namespace MylibMuduo.Proofs

/-! ### Projections of the updates -/

section Projections

variable (s : TcpServer) (l k c : Nat) (ph : Phase) (t : Task) (x : ServerConn) (w : ConnContext Nat)
  (h : List LifeEvent)

@[simp] lemma setPhase_phase :
    ((s.setPhase l ph).loops k).phase = if k = l then ph else (s.loops k).phase := by
  by_cases hk : k = l <;> simp [TcpServer.setPhase, TcpServer.setLoop, hk]

@[simp] lemma setPhase_poller : ((s.setPhase l ph).loops k).poller = (s.loops k).poller := by
  by_cases hk : k = l <;> simp [TcpServer.setPhase, TcpServer.setLoop, hk]

@[simp] lemma setPhase_pending :
    ((s.setPhase l ph).loops k).pendingFunctors = (s.loops k).pendingFunctors := by
  by_cases hk : k = l <;> simp [TcpServer.setPhase, TcpServer.setLoop, hk]

@[simp] lemma queueInLoop_phase : ((s.queueInLoop l t).loops k).phase = (s.loops k).phase := by
  by_cases hk : k = l <;> simp [TcpServer.queueInLoop, TcpServer.setLoop, hk]

@[simp] lemma queueInLoop_poller : ((s.queueInLoop l t).loops k).poller = (s.loops k).poller := by
  by_cases hk : k = l <;> simp [TcpServer.queueInLoop, TcpServer.setLoop, hk]

@[simp] lemma queueInLoop_pending :
    ((s.queueInLoop l t).loops k).pendingFunctors =
      (s.loops k).pendingFunctors ++ if k = l then [t] else [] := by
  by_cases hk : k = l <;> simp [TcpServer.queueInLoop, TcpServer.setLoop, hk]

@[simp] lemma queueInLoop_map : (s.queueInLoop l t).connectionMap = s.connectionMap := rfl

@[simp] lemma store_phase : ((s.store c x w h).loops k).phase = (s.loops k).phase := by
  by_cases hk : k = x.loop <;>
    simp [TcpServer.store, TcpServer.setConn, TcpServer.setLoop, hk]

@[simp] lemma store_poller :
    ((s.store c x w h).loops k).poller = if k = x.loop then w.poller else (s.loops k).poller := by
  by_cases hk : k = x.loop <;>
    simp [TcpServer.store, TcpServer.setConn, TcpServer.setLoop, hk]

@[simp] lemma store_pending :
    ((s.store c x w h).loops k).pendingFunctors = (s.loops k).pendingFunctors ++
      if k = x.loop then w.pendingFunctors.map (Task.functor c) else [] := by
  by_cases hk : k = x.loop <;>
    simp [TcpServer.store, TcpServer.setConn, TcpServer.setLoop, hk]

@[simp] lemma setConn_loops : (s.setConn c x).loops = s.loops := rfl

@[simp] lemma setConn_map : (s.setConn c x).connectionMap = s.connectionMap := rfl

end Projections

/-! ### Steps -/

/-- Everything that a step can do. -/
inductive ServerTrans (s : TcpServer) : ServerStep → TcpServer → Prop
  | poll {l events} (hphase : (s.loops l).phase = .poll) (hnodup : (events.map Prod.fst).Nodup) :
      ServerTrans s (.poll l events)
        (s.setPhase l (.dispatch (TcpServer.fillActiveChannels (s.loops l).poller events)))
  | accept {r} (hclosed : ∀ fd ∈ r, s.Closed fd) : ServerTrans s (.accept r) (s.acceptorHandleRead r)
  | skip {l c revent active} (hphase : (s.loops l).phase = .dispatch ((c, revent) :: active))
      {x : ServerConn} (hx : s.conns c = some x) (hheld : ¬s.Held c) :
      ServerTrans s (.handleEvent l) (s.setPhase l (.dispatch active))
  | handleEvent {l c revent active} (hphase : (s.loops l).phase = .dispatch ((c, revent) :: active))
      {x : ServerConn} (hx : s.conns c = some x) :
      ServerTrans s (.handleEvent l) ((s.setPhase l (.handling c revent .close active)).setConn c
        { x with history := x.history ++ [.dispatched] })
  | handler {l i c revent h active} (hphase : (s.loops l).phase = .handling c revent h active)
      {x : ServerConn} (hx : s.conns c = some x) :
      ServerTrans s (.handler l i) (s.runHandler l c revent h active i x)
  | swap {l} (hphase : (s.loops l).phase = .dispatch []) :
      ServerTrans s (.swap l) (s.setLoop l { s.loops l with
        phase := .running [] (s.loops l).pendingFunctors, pendingFunctors := [] })
  | runTask {l r app done t rest} (hphase : (s.loops l).phase = .running done (t :: rest))
      {x : ServerConn} (hx : s.conns t.conn = some x) :
      ServerTrans s (.runTask l r app) ((s.setPhase l (.running (done ++ [t]) rest)).runTask r app x t)
  | endBatch {l done} (hphase : (s.loops l).phase = .running done []) :
      ServerTrans s (.endBatch l) (s.setPhase l .poll)
  | app {c call} {x : ServerConn} (hx : s.conns c = some x) :
      ServerTrans s (.app c call) (s.store c x ((s.context c x).appCall call) [])
  | hold {c} {x : ServerConn} (hx : s.conns c = some x) (hheld : s.Held c) :
      ServerTrans s (.hold c) (s.setConn c { x with userRefs := x.userRefs + 1 })
  | release {c} {x : ServerConn} (hx : s.conns c = some x) (hpos : 0 < x.userRefs) :
      ServerTrans s (.release c) (s.setConn c { x with userRefs := x.userRefs - 1 })

theorem server_trans {s s' : TcpServer} {a : ServerStep} (hnext : serverMachine.next s a = some s') :
    ServerTrans s a s' := by
  cases a with
  | poll l events =>
    simp only [serverMachine, Option.ite_none_right_eq_some, Option.some.injEq] at hnext
    obtain ⟨⟨-, hphase, hnodup, -⟩, rfl⟩ := hnext
    exact .poll hphase hnodup
  | accept r =>
    simp only [serverMachine] at hnext
    split at hnext
    · rw [Option.ite_none_right_eq_some, Option.some.injEq] at hnext
      obtain ⟨hclosed, rfl⟩ := hnext
      exact .accept hclosed
    · cases hnext
  | handleEvent l =>
    simp only [serverMachine] at hnext
    split at hnext
    · next c revent active hphase =>
      obtain ⟨x, hx, hnext⟩ := Option.bind_eq_some_iff.mp hnext
      split at hnext
      · next hlost => exact Option.some.inj hnext ▸ .skip hphase hx hlost.2
      · exact Option.some.inj hnext ▸ .handleEvent hphase hx
    · cases hnext
  | handler l i =>
    simp only [serverMachine] at hnext
    split at hnext
    · next hphase =>
      obtain ⟨x, hx, hnext⟩ := Option.bind_eq_some_iff.mp hnext
      exact Option.some.inj hnext ▸ .handler hphase hx
    · cases hnext
  | swap l =>
    simp only [serverMachine] at hnext
    split at hnext
    · next hphase => exact Option.some.inj hnext ▸ .swap hphase
    · cases hnext
  | runTask l r app =>
    simp only [serverMachine] at hnext
    split at hnext
    · next hphase =>
      obtain ⟨x, hx, hnext⟩ := Option.bind_eq_some_iff.mp hnext
      exact Option.some.inj hnext ▸ .runTask hphase hx
    · cases hnext
  | endBatch l =>
    simp only [serverMachine] at hnext
    split at hnext
    · next hphase => exact Option.some.inj hnext ▸ .endBatch hphase
    · cases hnext
  | app c call =>
    obtain ⟨x, hx, hnext⟩ := Option.bind_eq_some_iff.mp hnext
    rw [Option.ite_none_right_eq_some] at hnext
    exact Option.some.inj hnext.2 ▸ .app hx
  | hold c =>
    obtain ⟨x, hx, hnext⟩ := Option.bind_eq_some_iff.mp hnext
    rw [Option.ite_none_right_eq_some] at hnext
    exact Option.some.inj hnext.2 ▸ .hold hx hnext.1
  | release c =>
    obtain ⟨x, hx, hnext⟩ := Option.bind_eq_some_iff.mp hnext
    rw [Option.ite_none_right_eq_some] at hnext
    exact Option.some.inj hnext.2 ▸ .release hx hnext.1

/-! ### Stages -/

/-- The tasks that loop `l` has to run and that hold `c`. -/
def todoOf (s : TcpServer) (l c : Nat) : List Task :=
  (s.loops l).todo.filter fun t => t.holder = some c

lemma mem_todoOf {s : TcpServer} {l c : Nat} {t : Task} :
    t ∈ todoOf s l c ↔ t ∈ (s.loops l).todo ∧ t.holder = some c := by
  simp [todoOf]

def InMap (s : TcpServer) (c : Nat) (x : ServerConn) : Prop := s.connectionMap x.name = some c

def ActiveIn (s : TcpServer) (l c : Nat) : Prop := c ∈ (s.loops l).phase.active

def GuardedIn (s : TcpServer) (l c : Nat) : Prop := (s.loops l).phase.guard = some c

/-- The channel that is dispatched next is active. -/
lemma activeIn_of_phase {s : TcpServer} {l c : Nat} {revent : EventMask} {active : List (Nat × EventMask)}
    (hphase : (s.loops l).phase = .dispatch ((c, revent) :: active)) : ActiveIn s l c := by
  unfold ActiveIn
  rw [hphase]
  exact List.mem_cons_self

/-- The connection whose event is handled is guarded. -/
lemma guardedIn_of_phase {s : TcpServer} {l c : Nat} {revent : EventMask} {h : Handler}
    {active : List (Nat × EventMask)} (hphase : (s.loops l).phase = .handling c revent h active) :
    GuardedIn s l c := by
  unfold GuardedIn
  rw [hphase]
  rfl

/-- The task that runs next is still to be run. -/
lemma mem_todoOf_of_phase {s : TcpServer} {l c : Nat} {done rest : List Task} {t : Task}
    (hphase : (s.loops l).phase = .running done (t :: rest)) (ht : t.holder = some c) : t ∈ todoOf s l c := by
  rw [mem_todoOf, IoLoop.todo, hphase]
  exact ⟨List.mem_append_left _ List.mem_cons_self, ht⟩

/-- Established once, and not destroyed. -/
def Established (history : List LifeEvent) : Prop :=
  ∃ rest, history = .established :: rest ∧ .established ∉ rest ∧ .destroyed ∉ rest

/-- Established once, and destroyed later. -/
def Destroyed (history : List LifeEvent) : Prop :=
  ∃ rest, history = .established :: rest ∧ .established ∉ rest ∧ .destroyed ∈ rest

/-- After the close only tasks of the removal are left. -/
def CloseTasks (s : TcpServer) (c : Nat) (x : ServerConn) : Prop :=
  ∀ l t, t ∈ todoOf s l c →
    (t = .removeConnectionInLoop c ∧ l = 0) ∨ (t = .connectionDestroyed c ∧ l = x.loop)

inductive Stage (s : TcpServer) (c : Nat) (x : ServerConn) : Prop where
  | fresh (ctx : Fresh (s.context c x)) (history : x.history = []) (inMap : InMap s c x)
      (task : todoOf s x.loop c = [.connectionEstablished c])
      (others : ∀ l, l ≠ x.loop → todoOf s l c = [])
      (idle : ∀ l, ¬ActiveIn s l c) (free : ∀ l, ¬GuardedIn s l c)
  | live (ctx : Live (s.context c x)) (history : Established x.history) (inMap : InMap s c x)
      (task : ∀ l, todoOf s l c = [])
  | closed (ctx : Dead (s.context c x)) (index : x.conn.channel.index = .kDelete)
      (history : Established x.history) (tasks : CloseTasks s c x)
      (mapped : InMap s c x → .removeConnectionInLoop c ∈ todoOf s 0 c ∧
        ∀ l, .connectionDestroyed c ∉ todoOf s l c)
      (unmapped : ¬InMap s c x → .connectionDestroyed c ∈ todoOf s x.loop c)
      (idle : ∀ l, ¬ActiveIn s l c)
  | gone (state : x.conn.state = .kDisConnected) (index : x.conn.channel.index = .kNew)
      (none : x.conn.channel.events = kNoneEvent) (history : Destroyed x.history)
      (tasks : CloseTasks s c x) (unmapped : ¬InMap s c x)
      (idle : ∀ l, ¬ActiveIn s l c) (free : ∀ l, ¬GuardedIn s l c)
      (book : s.Held c → Bookkept (s.loops x.loop).poller c x.conn.channel)

structure ConnInv (s : TcpServer) (c : Nat) (x : ServerConn) : Prop where
  bound : c < s.created
  loop : x.loop ≤ s.config.numThreads
  name : x.name = TcpServer.connName s.config (c + 1)
  close : x.conn.callbacks.close = true
  home : ∀ l, ActiveIn s l c ∨ GuardedIn s l c → l = x.loop
  stage : Stage s c x

/-- Whatever a poller has under a descriptor is the registered owner of that descriptor. -/
def PollersOwned (s : TcpServer) : Prop :=
  ∀ l fd c, ((s.loops l).poller.channels fd = some c ∨ ∃ e, (s.loops l).poller.interest fd = some (e, c)) →
    ∃ x, s.conns c = some x ∧ x.loop = l ∧ x.conn.channel.fd = fd ∧ x.conn.channel.index ≠ .kNew

structure ServerInv (s : TcpServer) : Prop where
  conn : ∀ c x, s.conns c = some x → ConnInv s c x
  ids : s.nextConnId = s.created + 1
  pool : s.config.numThreads = 0 ∨ s.next < s.config.numThreads
  unborn : ∀ c, s.conns c = none → ∀ l, todoOf s l c = [] ∧ ¬ActiveIn s l c ∧ ¬GuardedIn s l c
  map : ∀ name c, s.connectionMap name = some c → ∃ x, s.conns c = some x ∧ x.name = name
  owned : PollersOwned s
  fds : ∀ c d x y, s.conns c = some x → s.conns d = some y → s.Held c → s.Held d →
    x.conn.channel.fd = y.conn.channel.fd → c = d
  nodup : ∀ l, ((s.loops l).phase.guard.toList ++ (s.loops l).phase.active).Nodup
  fits : s.created < 2 ^ 31
  functors : ∀ l c f, .functor c f ∈ (s.loops l).todo → f = .writeComplete ∨ f = .highWaterMark

/-- The numbers of the connections, which make up their names, and the places of their loops. -/
structure Numbered (s : TcpServer) : Prop where
  conn : ∀ c x, s.conns c = some x →
    c < s.created ∧ x.loop ≤ s.config.numThreads ∧ x.name = TcpServer.connName s.config (c + 1)
  ids : s.nextConnId = s.created + 1
  pool : s.config.numThreads = 0 ∨ s.next < s.config.numThreads
  fits : s.created < 2 ^ 31

lemma ServerInv.numbered {s : TcpServer} (h : ServerInv s) : Numbered s :=
  ⟨fun c x hx => ⟨(h.conn c x hx).bound, (h.conn c x hx).loop, (h.conn c x hx).name⟩, h.ids, h.pool, h.fits⟩

/-! ### Names -/

lemma length_connName_le (config : ServerConfig) {digits : List Char} (h : digits.length ≤ 11) :
    ('-' :: config.ipPort ++ '#' :: digits).length ≤ 63 := by
  have hip := config.ipPort_length
  simp only [List.length_append, List.length_cons]
  omega

/-- The text of a number is not cut. -/
lemma connName_digits {config : ServerConfig} {i j : Int} (hi : (toString i).toList.length ≤ 11)
    (hj : (toString j).toList.length ≤ 11) (h : TcpServer.connName config i = TcpServer.connName config j) :
    (toString i).toList = (toString j).toList := by
  unfold TcpServer.connName at h
  rw [List.take_of_length_le (length_connName_le config hi),
    List.take_of_length_le (length_connName_le config hj)] at h
  have htext := List.append_cancel_left h
  exact (List.cons.inj (List.append_cancel_left htext)).2

lemma length_repr_le {n : Nat} (h : n < 2 ^ 31) : (toString ((n : Int) + 1)).toList.length ≤ 10 := by
  have hrepr : toString ((n : Int) + 1) = Nat.repr (n + 1) := rfl
  have hlt : n + 1 < 10 ^ 10 := by omega
  rw [hrepr, String.length_toList]
  exact (Nat.length_repr_le_iff (by omega)).mpr hlt

/-- Numbers that have not wrapped give different names. -/
theorem connName_injective {config : ServerConfig} {c d : Nat} (hc : c < 2 ^ 31) (hd : d < 2 ^ 31)
    (h : TcpServer.connName config (c + 1) = TcpServer.connName config (d + 1)) : c = d := by
  have hdigits := connName_digits (Nat.le_succ_of_le (length_repr_le hc)) (Nat.le_succ_of_le (length_repr_le hd)) h
  have htext : ∀ n : Nat, (toString ((n : Int) + 1)).toList = Nat.toDigits 10 (n + 1) :=
    fun n => Nat.toList_repr
  rw [htext, htext] at hdigits
  have hnum := congrArg (fun cs => Nat.ofDigitChars 10 cs 0) hdigits
  simp only [Nat.ofDigitChars_ten_toDigits] at hnum
  omega

lemma Numbered.name_ne {s : TcpServer} (h : Numbered s) {c d : Nat} {x y : ServerConn}
    (hx : s.conns c = some x) (hy : s.conns d = some y) (hd : d ≠ c) : y.name ≠ x.name := by
  intro heq
  have hfits := h.fits
  obtain ⟨hc, -, hxname⟩ := h.conn c x hx
  obtain ⟨hd', -, hyname⟩ := h.conn d y hy
  rw [hxname, hyname] at heq
  exact hd (connName_injective (by omega) (by omega) heq)

/-! ### Holders -/

lemma mem_tasks_of_todoOf {s : TcpServer} {l c : Nat} {t : Task} (h : t ∈ todoOf s l c) :
    t ∈ (s.loops l).tasks ∧ t.holder = some c := by
  obtain ⟨htodo, hholder⟩ := mem_todoOf.mp h
  exact ⟨List.mem_append_right _ htodo, hholder⟩

lemma held_of_inMap {s : TcpServer} {c : Nat} {x : ServerConn} (hx : s.conns c = some x)
    (h : InMap s c x) : s.Held c :=
  Or.inl ⟨x, hx, Or.inl h⟩

lemma held_of_todo {s : TcpServer} {l c : Nat} {t : Task} (hl : l ≤ s.config.numThreads)
    (h : t ∈ todoOf s l c) : s.Held c := by
  obtain ⟨htask, hholder⟩ := mem_tasks_of_todoOf h
  exact Or.inr ⟨l, hl, Or.inl ⟨t, htask, hholder⟩⟩

/-- Only a connection that is gone can be without holder. -/
lemma ConnInv.held {s : TcpServer} {c : Nat} {x : ServerConn} (h : ConnInv s c x)
    (hx : s.conns c = some x) (hindex : x.conn.channel.index ≠ .kNew ∨ ¬Destroyed x.history) :
    s.Held c := by
  cases h.stage with
  | fresh _ _ inMap => exact held_of_inMap hx inMap
  | live _ _ inMap => exact held_of_inMap hx inMap
  | closed _ _ _ _ _ unmapped =>
    by_cases hmap : InMap s c x
    · exact held_of_inMap hx hmap
    · exact held_of_todo h.loop (unmapped hmap)
  | gone _ index _ history =>
    rcases hindex with hi | hi
    · exact absurd index hi
    · exact absurd history hi

/-- A step adds holders only to connections that have one. -/
lemma held_mono {s s' : TcpServer} {c : Nat} (h : s'.Held c) (hconfig : s'.config = s.config)
    (hconn : ∀ x', s'.conns c = some x' → s'.connectionMap x'.name = some c ∨ 0 < x'.userRefs → s.Held c)
    (htasks : ∀ l t, l ≤ s.config.numThreads → t ∈ (s'.loops l).tasks → t.holder = some c → s.Held c)
    (hguard : ∀ l, l ≤ s.config.numThreads → GuardedIn s' l c → s.Held c) : s.Held c := by
  rcases h with ⟨x', hx', hx⟩ | ⟨l, hl, hl'⟩
  · exact hconn x' hx' hx
  · rw [hconfig] at hl
    rcases hl' with ⟨t, ht, hholder⟩ | hg
    · exact htasks l t hl ht hholder
    · exact hguard l hl hg

lemma held_of_tasks {s : TcpServer} {l c : Nat} {t : Task} (hl : l ≤ s.config.numThreads)
    (ht : t ∈ (s.loops l).tasks) (hholder : t.holder = some c) : s.Held c :=
  Or.inr ⟨l, hl, Or.inl ⟨t, ht, hholder⟩⟩

lemma held_of_guard {s : TcpServer} {l c : Nat} (hl : l ≤ s.config.numThreads)
    (hg : GuardedIn s l c) : s.Held c :=
  Or.inr ⟨l, hl, Or.inr hg⟩

/-! ### Frames -/

/-- The queues, active channels and guards say nothing new about `d`. -/
structure SameTasks (s s' : TcpServer) (d : Nat) : Prop where
  todo : ∀ l, todoOf s' l d = todoOf s l d
  active : ∀ l, ActiveIn s' l d → ActiveIn s l d
  guard : ∀ l, GuardedIn s' l d → GuardedIn s l d

/-- Nothing that the stage of `d` depends on has changed, but for its becoming active. -/
structure SameView (s s' : TcpServer) (d : Nat) (y : ServerConn) : Prop where
  todo : ∀ l, todoOf s' l d = todoOf s l d
  active : ∀ l, ActiveIn s' l d → ActiveIn s l d ∨ (l = y.loop ∧ Live (s.context d y))
  guard : ∀ l, GuardedIn s' l d → GuardedIn s l d
  map : s'.connectionMap y.name = s.connectionMap y.name
  held : s'.Held d → s.Held d
  config : s'.config = s.config
  created : s.created ≤ s'.created
  channels : s.Held d →
    (s'.loops y.loop).poller.channels y.conn.channel.fd = (s.loops y.loop).poller.channels y.conn.channel.fd
  interest : s.Held d →
    (s'.loops y.loop).poller.interest y.conn.channel.fd = (s.loops y.loop).poller.interest y.conn.channel.fd

lemma Bookkept.congr {κ : Type} {p q : EPollPoller κ} {key : κ} {ch : Channel} (h : Bookkept p key ch)
    (hc : q.channels ch.fd = p.channels ch.fd) (hi : q.interest ch.fd = p.interest ch.fd) :
    Bookkept q key ch :=
  ⟨hc.trans h.channels, hi.trans h.interest, h.added, h.suspended⟩

lemma not_live_of_index {s : TcpServer} {d : Nat} {y : ServerConn} (h : y.conn.channel.index ≠ .kAdd) :
    ¬Live (s.context d y) := fun hl => h hl.reg.added

/-- The stage of a connection survives a step that leaves its view alone. -/
theorem ConnInv.frame {s s' : TcpServer} {d : Nat} {y : ServerConn} (h : ConnInv s d y)
    (hy : s.conns d = some y) (hv : SameView s s' d y) : ConnInv s' d y := by
  have hmap : InMap s' d y ↔ InMap s d y := by
    unfold InMap
    rw [hv.map]
  have hbook : s.Held d → Bookkept (s.loops y.loop).poller d y.conn.channel →
      Bookkept (s'.loops y.loop).poller d y.conn.channel := fun hh hb =>
    hb.congr (hv.channels hh) (hv.interest hh)
  have htasks : CloseTasks s d y → CloseTasks s' d y := by
    intro ht l t hmem
    rw [hv.todo l] at hmem
    exact ht l t hmem
  have hidle : ¬Live (s.context d y) → (∀ l, ¬ActiveIn s l d) → ∀ l, ¬ActiveIn s' l d := by
    intro hlive hi l ha
    rcases hv.active l ha with ha | ⟨-, hl⟩
    · exact hi l ha
    · exact hlive hl
  refine ⟨Nat.lt_of_lt_of_le h.bound hv.created, by rw [hv.config]; exact h.loop,
    by rw [hv.config]; exact h.name, h.close, ?_, ?_⟩
  · rintro l (ha | hg)
    · rcases hv.active l ha with ha | ⟨hl, -⟩
      · exact h.home l (Or.inl ha)
      · exact hl
    · exact h.home l (Or.inr (hv.guard l hg))
  have hheld := h.held hy
  cases h.stage with
  | fresh ctx history inMap task others idle free =>
    have hh := hheld (Or.inr (by rintro ⟨rest, hr, -⟩; rw [history] at hr; simp at hr))
    have hnew : y.conn.channel.index ≠ .kAdd := by
      rw [show y.conn.channel.index = .kNew from ctx.index]
      simp
    refine Stage.fresh ⟨ctx.state, hbook hh ctx.book, ctx.index, ctx.none⟩ history (hmap.mpr inMap)
      (by rw [hv.todo]; exact task) (fun l hl => by rw [hv.todo]; exact others l hl)
      (hidle (not_live_of_index hnew) idle) (fun l hg => free l (hv.guard l hg))
  | live ctx history inMap task =>
    have hadd : y.conn.channel.index = .kAdd := ctx.reg.added
    have hh := hheld (Or.inl (by rw [hadd]; simp))
    exact Stage.live ⟨⟨hbook hh ctx.reg.book, ctx.reg.added, ctx.reg.reading⟩, ctx.opn⟩ history
      (hmap.mpr inMap) (fun l => by rw [hv.todo]; exact task l)
  | closed ctx index history tasks mapped unmapped idle =>
    have hh := hheld (Or.inl (by rw [index]; simp))
    refine Stage.closed ⟨ctx.state, hbook hh ctx.book, ctx.none, ctx.notAdded⟩ index history
      (htasks tasks) ?_ ?_ (hidle (not_live_of_index (by rw [index]; simp)) idle)
    · intro hm
      obtain ⟨hrem, hdes⟩ := mapped (hmap.mp hm)
      exact ⟨by rw [hv.todo]; exact hrem, fun l => by rw [hv.todo]; exact hdes l⟩
    · intro hm
      rw [hv.todo]
      exact unmapped (fun hm' => hm (hmap.mpr hm'))
  | gone state index none history tasks unmapped idle free book =>
    exact Stage.gone state index none history (htasks tasks) (fun hm => unmapped (hmap.mp hm))
      (hidle (not_live_of_index (by rw [index]; simp)) idle) (fun l hg => free l (hv.guard l hg))
      (fun hh => hbook (hv.held hh) (book (hv.held hh)))

/-! ### Assembling the invariant after a step -/

/-- A step of the loops that changes no connection and no poller. -/
theorem ServerInv.pass {s s' : TcpServer} (h : ServerInv s) (hconns : s'.conns = s.conns)
    (hmap : s'.connectionMap = s.connectionMap) (hconfig : s'.config = s.config)
    (hcreated : s'.created = s.created) (hids : s'.nextConnId = s.nextConnId) (hnext : s'.next = s.next)
    (hpoller : ∀ l, (s'.loops l).poller = (s.loops l).poller)
    (htodo : ∀ l, (s'.loops l).todo = (s.loops l).todo)
    (hactive : ∀ l d, ActiveIn s' l d →
      ActiveIn s l d ∨ ∃ y, s.conns d = some y ∧ l = y.loop ∧ Live (s.context d y))
    (hguard : ∀ l d, GuardedIn s' l d → GuardedIn s l d) (hheld : ∀ d, s'.Held d → s.Held d)
    (hnodup : ∀ l, ((s'.loops l).phase.guard.toList ++ (s'.loops l).phase.active).Nodup) :
    ServerInv s' := by
  have htodoOf : ∀ l d, todoOf s' l d = todoOf s l d := by
    intro l d
    unfold todoOf
    rw [htodo]
  refine ⟨?_, by rw [hids, hcreated]; exact h.ids, by rw [hconfig, hnext]; exact h.pool, ?_, ?_, ?_, ?_,
    hnodup, by rw [hcreated]; exact h.fits, ?_⟩
  · intro c x hx
    rw [hconns] at hx
    refine (h.conn c x hx).frame hx ⟨fun l => htodoOf l c, ?_, fun l => hguard l c, by rw [hmap], hheld c, hconfig,
      Nat.le_of_eq hcreated.symm, fun _ => by rw [hpoller], fun _ => by rw [hpoller]⟩
    intro l ha
    rcases hactive l c ha with ha | ⟨y, hy, hl, hlive⟩
    · exact Or.inl ha
    · rw [hx, Option.some.injEq] at hy
      subst hy
      exact Or.inr ⟨hl, hlive⟩
  · intro c hc l
    rw [hconns] at hc
    obtain ⟨ht, ha, hg⟩ := h.unborn c hc l
    refine ⟨by rw [htodoOf]; exact ht, ?_, fun hg' => hg (hguard l c hg')⟩
    intro ha'
    rcases hactive l c ha' with ha' | ⟨y, hy, -⟩
    · exact ha ha'
    · rw [hc] at hy
      simp at hy
  · intro name c hc
    rw [hmap] at hc
    rw [hconns]
    exact h.map name c hc
  · intro l fd c hc
    rw [hpoller] at hc
    rw [hconns]
    exact h.owned l fd c hc
  · intro c d x y hx hy hhc hhd
    rw [hconns] at hx hy
    exact h.fds c d x y hx hy (hheld c hhc) (hheld d hhd)
  · intro l c f hf
    rw [htodo] at hf
    exact h.functors l c f hf

/-- What a step may do to the poller of the connection it acts on. -/
structure PollerStep (s s' : TcpServer) (c : Nat) (x x' : ServerConn) : Prop where
  others : ∀ l, l ≠ x.loop → (s'.loops l).poller = (s.loops l).poller
  loop : x'.loop = x.loop
  fd : x'.conn.channel.fd = x.conn.channel.fd
  change : ((s'.loops x.loop).poller = (s.loops x.loop).poller ∧
      x'.conn.channel.index = x.conn.channel.index) ∨
    (s.Held c ∧ SameElsewhere x.conn.channel.fd (s.loops x.loop).poller (s'.loops x.loop).poller ∧
      Bookkept (s'.loops x.loop).poller c x'.conn.channel)

/-- The pollers agree on the descriptors of all other connections. -/
lemma PollerStep.elsewhere {s s' : TcpServer} {c : Nat} {x x' : ServerConn} (h : PollerStep s s' c x x')
    (l fd : Nat) (hfd : s.Held c → l = x.loop → fd ≠ x.conn.channel.fd) :
    (s'.loops l).poller.channels fd = (s.loops l).poller.channels fd ∧
      (s'.loops l).poller.interest fd = (s.loops l).poller.interest fd := by
  by_cases hl : l = x.loop
  · subst hl
    rcases h.change with ⟨hp, -⟩ | ⟨hh, he, -⟩
    · rw [hp]
      exact ⟨rfl, rfl⟩
    · exact he.2 fd (hfd hh rfl)
  · rw [h.others l hl]
    exact ⟨rfl, rfl⟩

lemma PollerStep.owned {s s' : TcpServer} {c : Nat} {x x' : ServerConn} (h : PollerStep s s' c x x')
    (hinv : PollersOwned s) (hx : s.conns c = some x)
    (hconns : s'.conns = Function.update s.conns c (some x')) : PollersOwned s' := by
  have hold : ∀ l fd d, ((s.loops l).poller.channels fd = some d ∨
      ∃ e, (s.loops l).poller.interest fd = some (e, d)) →
      (d = c → x'.conn.channel.index = x.conn.channel.index ∨ fd ≠ x.conn.channel.fd) →
      ∃ y, s'.conns d = some y ∧ y.loop = l ∧ y.conn.channel.fd = fd ∧ y.conn.channel.index ≠ .kNew := by
    intro l fd d hd hindex
    obtain ⟨y, hy, hl, hfd, hi⟩ := hinv l fd d hd
    by_cases hdc : d = c
    · subst hdc
      rw [hx, Option.some.injEq] at hy
      subst hy
      rcases hindex rfl with hidx | hne
      · refine ⟨x', by rw [hconns, Function.update_self], h.loop.trans hl, h.fd.trans hfd, ?_⟩
        rw [hidx]
        exact hi
      · exact absurd hfd.symm hne
    · exact ⟨y, by rw [hconns, Function.update_of_ne hdc]; exact hy, hl, hfd, hi⟩
  intro l fd d hd
  by_cases hl : l = x.loop
  · subst hl
    rcases h.change with ⟨hp, hidx⟩ | ⟨-, he, hb⟩
    · rw [hp] at hd
      exact hold x.loop fd d hd (fun _ => Or.inl hidx)
    · by_cases hfd : fd = x.conn.channel.fd
      · have hd' : d = c ∧ x'.conn.channel.index ≠ .kNew := by
          rw [hfd, ← h.fd, hb.channels, hb.interest] at hd
          rcases hd with hd | ⟨e, hd⟩
          · by_cases hnew : x'.conn.channel.index = .kNew
            · simp [hnew] at hd
            · simp only [hnew, if_false, Option.some.injEq] at hd
              exact ⟨hd.symm, hnew⟩
          · by_cases hadd : x'.conn.channel.index = .kAdd
            · simp only [hadd, if_true, Option.some.injEq, Prod.mk.injEq] at hd
              exact ⟨hd.2.symm, by rw [hadd]; simp⟩
            · simp [hadd] at hd
        rw [hd'.1]
        exact ⟨x', by rw [hconns, Function.update_self], h.loop, h.fd.trans hfd.symm, hd'.2⟩
      · rw [(he.2 fd hfd).1, (he.2 fd hfd).2] at hd
        exact hold x.loop fd d hd (fun _ => Or.inr hfd)
  · have hne : d = c → False := by
      intro hdc
      rw [h.others l hl] at hd
      obtain ⟨y, hy, hl', -⟩ := hinv l fd d hd
      rw [hdc, hx, Option.some.injEq] at hy
      exact hl (hy ▸ hl').symm
    rw [h.others l hl] at hd
    exact hold l fd d hd (fun hdc => (hne hdc).elim)

/-- A step that acts on one connection leaves every other one as it was. -/
lemma PollerStep.sameView {s s' : TcpServer} {c d : Nat} {x x' y : ServerConn} (hpoll : PollerStep s s' c x x')
    (h : ServerInv s) (hx : s.conns c = some x) (hy : s.conns d = some y) (hd : d ≠ c)
    (hconfig : s'.config = s.config) (hcreated : s'.created = s.created) (htasks : SameTasks s s' d)
    (hmap : ∀ name, s'.connectionMap name = s.connectionMap name ∨
      (name = x.name ∧ s'.connectionMap name = none))
    (hheld : s'.Held d → s.Held d) : SameView s s' d y := by
  have hname : s'.connectionMap y.name = s.connectionMap y.name := by
    rcases hmap y.name with hm | ⟨hm, -⟩
    · exact hm
    · exact absurd hm (h.numbered.name_ne hx hy hd)
  have hbook : s.Held d → _ := fun hh =>
    hpoll.elsewhere y.loop y.conn.channel.fd (fun hhc _ heq => hd (h.fds d c y x hy hx hh hhc heq))
  exact ⟨htasks.todo, fun l ha => Or.inl (htasks.active l ha), htasks.guard, hname, hheld, hconfig,
    Nat.le_of_eq hcreated.symm, fun hh => (hbook hh).1, fun hh => (hbook hh).2⟩

/-- A step that acts on one connection. -/
theorem ServerInv.act {s s' : TcpServer} {c : Nat} {x x' : ServerConn} (h : ServerInv s)
    (hx : s.conns c = some x) (hconns : s'.conns = Function.update s.conns c (some x'))
    (hconfig : s'.config = s.config) (hcreated : s'.created = s.created)
    (hids : s'.nextConnId = s.nextConnId) (hnext : s'.next = s.next)
    (htasks : ∀ d, d ≠ c → SameTasks s s' d)
    (hmap : ∀ name, s'.connectionMap name = s.connectionMap name ∨
      (name = x.name ∧ s'.connectionMap name = none))
    (hname : x'.name = x.name) (hheld : ∀ d, s'.Held d → s.Held d) (hpoll : PollerStep s s' c x x')
    (hinv : ConnInv s' c x')
    (hnodup : ∀ l, ((s'.loops l).phase.guard.toList ++ (s'.loops l).phase.active).Nodup)
    (hfunctors : ∀ l d f, .functor d f ∈ (s'.loops l).todo → .functor d f ∈ (s.loops l).todo ∨
      f = .writeComplete ∨ f = .highWaterMark) : ServerInv s' := by
  have hother : ∀ d y, d ≠ c → s'.conns d = some y → s.conns d = some y := by
    intro d y hd hy
    rwa [hconns, Function.update_of_ne hd] at hy
  have hself : ∀ y, s'.conns c = some y → y = x' := by
    intro y hy
    rw [hconns, Function.update_self, Option.some.injEq] at hy
    exact hy.symm
  refine ⟨?_, by rw [hids, hcreated]; exact h.ids, by rw [hconfig, hnext]; exact h.pool, ?_, ?_,
    hpoll.owned h.owned hx hconns, ?_, hnodup, by rw [hcreated]; exact h.fits, ?_⟩
  · intro d y hy
    by_cases hd : d = c
    · subst hd
      rw [hself y hy]
      exact hinv
    · have hy' := hother d y hd hy
      exact (h.conn d y hy').frame hy'
        (hpoll.sameView h hx hy' hd hconfig hcreated (htasks d hd) hmap (hheld d))
  · intro d hd l
    have hdc : d ≠ c := by
      rintro rfl
      rw [hconns, Function.update_self] at hd
      simp at hd
    rw [hconns, Function.update_of_ne hdc] at hd
    obtain ⟨ht, ha, hg⟩ := h.unborn d hd l
    exact ⟨by rw [(htasks d hdc).todo]; exact ht, fun ha' => ha ((htasks d hdc).active l ha'),
      fun hg' => hg ((htasks d hdc).guard l hg')⟩
  · intro name d hd
    have hold : s.connectionMap name = some d := by
      rcases hmap name with hm | ⟨-, hm⟩
      · rwa [hm] at hd
      · rw [hm] at hd
        simp at hd
    obtain ⟨y, hy, hyname⟩ := h.map name d hold
    by_cases hdc : d = c
    · subst hdc
      rw [hx, Option.some.injEq] at hy
      subst hy
      exact ⟨x', by rw [hconns, Function.update_self], hname.trans hyname⟩
    · exact ⟨y, by rw [hconns, Function.update_of_ne hdc]; exact hy, hyname⟩
  · have hfd : ∀ d y, s'.conns d = some y →
        ∃ y₀, s.conns d = some y₀ ∧ y₀.conn.channel.fd = y.conn.channel.fd := by
      intro d y hy
      by_cases hdc : d = c
      · subst hdc
        rw [hself y hy]
        exact ⟨x, hx, hpoll.fd.symm⟩
      · exact ⟨y, hother d y hdc hy, rfl⟩
    intro d e y z hy hz hhd hhe heq
    obtain ⟨y₀, hy₀, hfy⟩ := hfd d y hy
    obtain ⟨z₀, hz₀, hfz⟩ := hfd e z hz
    exact h.fds d e y₀ z₀ hy₀ hz₀ (hheld d hhd) (hheld e hhe) (by rw [hfy, hfz]; exact heq)
  · intro l d f hf
    rcases hfunctors l d f hf with hf | hf
    · exact h.functors l d f hf
    · exact hf

end MylibMuduo.Proofs
