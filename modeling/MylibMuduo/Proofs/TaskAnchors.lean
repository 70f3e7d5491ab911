import MylibMuduo.Proofs.ConnectionLifecycle

/-!
# What keeps a connection alive for a queued task

The tasks that capture the raw `this` hold no reference. Their connection is anchored by the
server's map, or by a `connectionDestroyed` that is destroyed after them: one that waits in the
same queue as the task, and for a task of the running batch also one of the batch itself, which
holds its tasks until the last of them has returned. A task that is queued while its connection
is anchored in this way finds it alive.
-/

namespace MylibMuduo.Proofs

variable {P : Functor → Prop} {s s' : TcpServer}

/-! ### Connections keep their loops and names -/

def place (x : ServerConn) : Nat × List Char := (x.loop, x.name)

structure SameConns (s s' : TcpServer) : Prop where
  conns : ∀ c, (s'.conns c).map place = (s.conns c).map place
  config : s'.config = s.config
  created : s'.created = s.created
  ids : s'.nextConnId = s.nextConnId
  next : s'.next = s.next

lemma SameConns.trans {s₁ s₂ s₃ : TcpServer} (h₁ : SameConns s₁ s₂) (h₂ : SameConns s₂ s₃) :
    SameConns s₁ s₃ :=
  ⟨fun c => (h₂.conns c).trans (h₁.conns c), h₂.config.trans h₁.config, h₂.created.trans h₁.created,
    h₂.ids.trans h₁.ids, h₂.next.trans h₁.next⟩

lemma sameConns_setLoop (s : TcpServer) (l : Nat) (L : IoLoop) : SameConns s (s.setLoop l L) :=
  ⟨fun _ => rfl, rfl, rfl, rfl, rfl⟩

lemma sameConns_setConn {c : Nat} {x x' : ServerConn} (hx : s.conns c = some x) (hplace : place x' = place x) :
    SameConns s (s.setConn c x') := by
  refine ⟨?_, rfl, rfl, rfl, rfl⟩
  intro d
  by_cases hd : d = c
  · subst hd
    simp [TcpServer.setConn, hx, hplace]
  · simp [TcpServer.setConn, hd]

lemma sameConns_store {c : Nat} {x : ServerConn} (hx : s.conns c = some x) (w : ConnContext Nat)
    (e : List LifeEvent) : SameConns s (s.store c x w e) := by
  have hset : SameConns s (s.setConn c (stored x w e)) := sameConns_setConn hx rfl
  exact hset.trans (sameConns_setLoop _ _ _)

lemma sameConns_removeConnectionInLoop (s : TcpServer) (c : Nat) (x : ServerConn) :
    SameConns s (s.removeConnectionInLoop c x) :=
  ⟨fun _ => rfl, rfl, rfl, rfl, rfl⟩

lemma sameConns_closeCallback (s : TcpServer) (l c : Nat) (x : ServerConn) (w : ConnContext Nat) :
    SameConns s (s.closeCallback l c x w) := by
  unfold TcpServer.closeCallback TcpServer.removeConnection
  split
  · split
    · exact sameConns_removeConnectionInLoop s c x
    · exact sameConns_setLoop s 0 _
  · exact ⟨fun _ => rfl, rfl, rfl, rfl, rfl⟩

lemma sameConns_runTask (r : SysResult) (app : List AppCall) {t : Task} {x : ServerConn}
    (hx : s.conns t.conn = some x) : SameConns s (s.runTask r app x t) := by
  cases t with
  | removeConnectionInLoop c => exact sameConns_removeConnectionInLoop s c x
  | _ => exact sameConns_store hx _ _

lemma SameConns.exists_conn (h : SameConns s s') {c : Nat} {x : ServerConn} (hx : s.conns c = some x) :
    ∃ x', s'.conns c = some x' ∧ x'.loop = x.loop ∧ x'.name = x.name := by
  have hplace := h.conns c
  rw [hx, Option.map_some] at hplace
  obtain ⟨x', hx', heq⟩ := Option.map_eq_some_iff.mp hplace
  exact ⟨x', hx', congrArg Prod.fst heq, congrArg Prod.snd heq⟩

lemma SameConns.numbered (h : SameConns s s') (hs : Numbered s) : Numbered s' := by
  refine ⟨?_, by rw [h.ids, h.created]; exact hs.ids, by rw [h.config, h.next]; exact hs.pool,
    by rw [h.created]; exact hs.fits⟩
  intro c x' hx'
  have hplace := h.conns c
  rw [hx', Option.map_some] at hplace
  obtain ⟨x, hx, heq⟩ := Option.map_eq_some_iff.mp hplace.symm
  obtain ⟨hbound, hloop, hname⟩ := hs.conn c x hx
  rw [h.created, h.config, ← show x.loop = x'.loop from congrArg Prod.fst heq,
    ← show x.name = x'.name from congrArg Prod.snd heq]
  exact ⟨hbound, hloop, hname⟩

/-- Every step but a new connection leaves the connections at their places. -/
lemma sameConns_step {a : ServerStep} (hnext : serverMachine.next s a = some s')
    (ha : ∀ fd, a ≠ .accept (some (fd + 1))) : SameConns s s' := by
  cases server_trans hnext with
  | poll => exact sameConns_setLoop s _ _
  | @accept r =>
    match r with
    | none => exact ⟨fun _ => rfl, rfl, rfl, rfl, rfl⟩
    | some 0 => exact ⟨fun _ => rfl, rfl, rfl, rfl, rfl⟩
    | some (fd + 1) => exact absurd rfl (ha fd)
  | skip => exact sameConns_setLoop s _ _
  | handleEvent hphase hx =>
    exact (sameConns_setLoop s _ _).trans (sameConns_setConn (s := s.setPhase _ _) hx rfl)
  | handler hphase hx =>
    exact ((sameConns_setLoop s _ _).trans (sameConns_store (s := s.setPhase _ _) hx _ _)).trans
      (sameConns_closeCallback _ _ _ _ _)
  | swap => exact sameConns_setLoop s _ _
  | runTask hphase hx =>
    exact (sameConns_setLoop s _ _).trans (sameConns_runTask (s := s.setPhase _ _) _ _ hx)
  | endBatch => exact sameConns_setLoop s _ _
  | app hx => exact sameConns_store hx _ _
  | hold hx => exact sameConns_setConn hx rfl
  | release hx => exact sameConns_setConn hx rfl

lemma numbered_step {a : ServerStep} (h : Numbered s) (hok : idsFit s a)
    (hnext : serverMachine.next s a = some s') : Numbered s' := by
  by_cases ha : ∃ fd, a = .accept (some (fd + 1))
  · obtain ⟨fd, rfl⟩ := ha
    cases server_trans hnext with
    | accept hclosed => exact numbered_newConnection h (fd + 1) hok
  · exact (sameConns_step hnext fun fd heq => ha ⟨fd, heq⟩).numbered h

/-! ### Anchors -/

/-- The anchor of a task in the queue of loop `l`. -/
def PendingAnchor (s : TcpServer) (l c : Nat) : Prop :=
  ∃ x, s.conns c = some x ∧ x.loop = l ∧
    (InMap s c x ∨ .connectionDestroyed c ∈ (s.loops l).pendingFunctors)

/-- The anchor of a task in the batch of loop `l`. -/
def BatchAnchor (s : TcpServer) (l c : Nat) : Prop :=
  ∃ x, s.conns c = some x ∧ x.loop = l ∧ (InMap s c x ∨ .connectionDestroyed c ∈ (s.loops l).tasks)

/-- Every waiting task of a kind `P` is anchored. -/
structure Anchored (P : Functor → Prop) (s : TcpServer) : Prop where
  pending : ∀ l c f, P f → .functor c f ∈ (s.loops l).pendingFunctors → PendingAnchor s l c
  batch : ∀ l c f, P f → .functor c f ∈ (s.loops l).phase.rest → BatchAnchor s l c

lemma mem_tasks_of_pending {L : IoLoop} {t : Task} (h : t ∈ L.pendingFunctors) : t ∈ L.tasks :=
  List.mem_append_right _ (List.mem_append_right _ h)

/-- A step that takes a connection out of the map queues its `connectionDestroyed`. -/
def KeepsMap (s s' : TcpServer) : Prop :=
  ∀ c x, s.conns c = some x → ∃ x', s'.conns c = some x' ∧ x'.loop = x.loop ∧
    (InMap s c x → InMap s' c x' ∨ .connectionDestroyed c ∈ (s'.loops x.loop).pendingFunctors)

lemma SameConns.keepsMap (h : SameConns s s') (hmap : s'.connectionMap = s.connectionMap) : KeepsMap s s' := by
  intro c x hx
  obtain ⟨x', hx', hloop, hname⟩ := h.exists_conn hx
  refine ⟨x', hx', hloop, fun hin => Or.inl ?_⟩
  unfold InMap
  rw [hname, hmap]
  exact hin

/-- The tasks that were anchored stay so, if no `connectionDestroyed` is lost before them. -/
theorem Anchored.step (h : Anchored P s) (hmap : KeepsMap s s')
    (hpending : ∀ l c f, P f → .functor c f ∈ (s'.loops l).pendingFunctors → PendingAnchor s' l c ∨
      (.functor c f ∈ (s.loops l).pendingFunctors ∧
        ∀ t ∈ (s.loops l).pendingFunctors, t ∈ (s'.loops l).pendingFunctors))
    (hbatch : ∀ l c f, P f → .functor c f ∈ (s'.loops l).phase.rest →
      (.functor c f ∈ (s.loops l).phase.rest ∧ ∀ t ∈ (s.loops l).tasks, t ∈ (s'.loops l).tasks) ∨
      (.functor c f ∈ (s.loops l).pendingFunctors ∧
        ∀ t ∈ (s.loops l).pendingFunctors, t ∈ (s'.loops l).tasks)) : Anchored P s' := by
  have hmove : ∀ l c x (old : List Task), s.conns c = some x → x.loop = l →
      InMap s c x ∨ .connectionDestroyed c ∈ old → (∀ t ∈ old, t ∈ (s'.loops l).tasks) →
      BatchAnchor s' l c := by
    intro l c x old hx hl hanchor hold
    obtain ⟨x', hx', hloop, hin⟩ := hmap c x hx
    refine ⟨x', hx', hloop.trans hl, ?_⟩
    rcases hanchor with hin' | hd
    · rcases hin hin' with hin | hd
      · exact Or.inl hin
      · rw [hl] at hd
        exact Or.inr (mem_tasks_of_pending hd)
    · exact Or.inr (hold _ hd)
  constructor
  · intro l c f hf hmem
    rcases hpending l c f hf hmem with hnew | ⟨hold, hsub⟩
    · exact hnew
    obtain ⟨x, hx, hl, hanchor⟩ := h.pending l c f hf hold
    obtain ⟨x', hx', hloop, hin⟩ := hmap c x hx
    refine ⟨x', hx', hloop.trans hl, ?_⟩
    rcases hanchor with hin' | hd
    · rw [hl] at hin
      exact hin hin'
    · exact Or.inr (hsub _ hd)
  · intro l c f hf hmem
    rcases hbatch l c f hf hmem with ⟨hold, hsub⟩ | ⟨hold, hsub⟩
    · obtain ⟨x, hx, hl, hanchor⟩ := h.batch l c f hf hold
      exact hmove l c x _ hx hl hanchor hsub
    · obtain ⟨x, hx, hl, hanchor⟩ := h.pending l c f hf hold
      exact hmove l c x _ hx hl hanchor hsub

lemma Anchored.setPhase {l : Nat} {ph : Phase} (h : Anchored P s)
    (hrest : ∀ t ∈ ph.rest, t ∈ (s.loops l).phase.rest)
    (htasks : ph.rest ≠ [] → ∀ t ∈ (s.loops l).phase.done ++ (s.loops l).phase.rest, t ∈ ph.done ++ ph.rest) :
    Anchored P (s.setPhase l ph) := by
  have hconns : SameConns s (s.setPhase l ph) := sameConns_setLoop s l _
  apply h.step (hconns.keepsMap rfl)
  · intro k c f hf hmem
    rw [setPhase_pending] at hmem
    exact Or.inr ⟨hmem, by rw [setPhase_pending]; exact fun t ht => ht⟩
  · intro k c f hf hmem
    rw [setPhase_phase] at hmem
    left
    simp only [IoLoop.tasks, IoLoop.todo, setPhase_phase, setPhase_pending]
    by_cases hk : k = l
    · subst hk
      rw [if_pos rfl] at hmem ⊢
      refine ⟨hrest _ hmem, fun t ht => ?_⟩
      have hsub := htasks (List.ne_nil_of_mem hmem) t
      simp only [List.mem_append] at ht hsub ⊢
      rcases ht with hd | hr | hp
      · exact (hsub (Or.inl hd)).imp_right Or.inl
      · exact (hsub (Or.inr hr)).imp_right Or.inl
      · exact Or.inr (Or.inr hp)
    · rw [if_neg hk] at hmem ⊢
      exact ⟨hmem, fun t ht => ht⟩

/-- A phase without tasks. -/
lemma Anchored.setPhase_idle {l : Nat} {ph : Phase} (h : Anchored P s) (hrest : ph.rest = []) :
    Anchored P (s.setPhase l ph) :=
  h.setPhase (by simp [hrest]) (fun hne => absurd hrest hne)

lemma Anchored.setConn {c : Nat} {x x' : ServerConn} (h : Anchored P s) (hx : s.conns c = some x)
    (hplace : place x' = place x) : Anchored P (s.setConn c x') :=
  h.step ((sameConns_setConn hx hplace).keepsMap rfl)
    (fun _ _ _ _ hmem => Or.inr ⟨hmem, fun _ ht => ht⟩) (fun _ _ _ _ hmem => Or.inl ⟨hmem, fun _ ht => ht⟩)

lemma Anchored.swap {l : Nat} (h : Anchored P s) :
    Anchored P (s.setLoop l { s.loops l with
      phase := .running [] (s.loops l).pendingFunctors, pendingFunctors := [] }) := by
  apply h.step ((sameConns_setLoop s l _).keepsMap rfl)
  · intro k c f hf hmem
    by_cases hk : k = l
    · subst hk
      simp [TcpServer.setLoop] at hmem
    · simp only [TcpServer.setLoop, Function.update_of_ne hk] at hmem ⊢
      exact Or.inr ⟨hmem, fun t ht => ht⟩
  · intro k c f hf hmem
    by_cases hk : k = l
    · subst hk
      simp only [TcpServer.setLoop, Function.update_self] at hmem ⊢
      exact Or.inr ⟨hmem, fun t ht => List.mem_append_right _ (List.mem_append_left _ ht)⟩
    · simp only [TcpServer.setLoop, Function.update_of_ne hk] at hmem ⊢
      exact Or.inl ⟨hmem, fun t ht => ht⟩

/-- A step that only appends the tasks `new` to the queues, if those among them are anchored. -/
lemma Anchored.append (h : Anchored P s) (hmap : KeepsMap s s')
    (hphase : ∀ k, (s'.loops k).phase = (s.loops k).phase) (new : Nat → List Task)
    (hpending : ∀ k, (s'.loops k).pendingFunctors = (s.loops k).pendingFunctors ++ new k)
    (hnew : ∀ k c f, P f → .functor c f ∈ new k → PendingAnchor s' k c) : Anchored P s' := by
  have hgrows : ∀ k, ∀ u ∈ (s.loops k).pendingFunctors, u ∈ (s'.loops k).pendingFunctors := by
    intro k u hu
    rw [hpending]
    exact List.mem_append_left _ hu
  apply h.step hmap
  · intro k c f hf hmem
    rw [hpending, List.mem_append] at hmem
    rcases hmem with hmem | hmem
    · exact Or.inr ⟨hmem, hgrows k⟩
    · exact Or.inl (hnew k c f hf hmem)
  · intro k c f hf hmem
    rw [hphase] at hmem
    refine Or.inl ⟨hmem, fun u hu => ?_⟩
    simp only [IoLoop.tasks, IoLoop.todo, List.mem_append, hphase] at hu ⊢
    exact hu.imp_right (Or.imp_right (hgrows k u))

/-- A task may be queued if its connection is anchored. -/
lemma Anchored.queueInLoop {l : Nat} {t : Task} (h : Anchored P s)
    (ht : ∀ c f, t = .functor c f → P f → PendingAnchor s l c) : Anchored P (s.queueInLoop l t) := by
  have hconns : SameConns s (s.queueInLoop l t) := sameConns_setLoop s l _
  apply h.append (hconns.keepsMap rfl) (fun k => queueInLoop_phase s l k t)
    (fun k => if k = l then [t] else []) (fun k => queueInLoop_pending s l k t)
  intro k c f hf hmem
  split at hmem
  · next hk =>
    subst hk
    obtain ⟨x, hx, hl, hanchor⟩ := ht c f (List.mem_singleton.mp hmem).symm hf
    refine ⟨x, hx, hl, hanchor.imp_right fun hd => ?_⟩
    rw [queueInLoop_pending]
    exact List.mem_append_left _ hd
  · cases hmem

/-- What the connection's functions queue is anchored by the map. -/
lemma Anchored.store {c : Nat} {x : ServerConn} {w : ConnContext Nat} (h : Anchored P s)
    (hx : s.conns c = some x) (e : List LifeEvent) (hw : ∀ f ∈ w.pendingFunctors, P f → InMap s c x) :
    Anchored P (s.store c x w e) := by
  apply h.append ((sameConns_store hx w e).keepsMap rfl) (fun k => store_phase s k c x w e)
    (fun k => if k = x.loop then w.pendingFunctors.map (Task.functor c) else [])
    (fun k => store_pending s k c x w e)
  intro k d f hf hmem
  split at hmem
  · next hk =>
    obtain ⟨g, hg, heq⟩ := List.mem_map.mp hmem
    obtain ⟨rfl, rfl⟩ := Task.functor.inj heq
    have hin : InMap (s.store c x w e) c (stored x w e) := hw g hg hf
    have hstored : (s.store c x w e).conns c = some (stored x w e) := Function.update_self _ _ _
    exact ⟨stored x w e, hstored, hk.symm, Or.inl hin⟩
  · cases hmem

/-- The erasure from the map leaves a `connectionDestroyed` behind every waiting task. -/
lemma Anchored.removeConnectionInLoop {c : Nat} {x x₀ : ServerConn} (h : Anchored P s) (hs : Numbered s)
    (hx : s.conns c = some x₀) (hplace : place x = place x₀) : Anchored P (s.removeConnectionInLoop c x) := by
  have hpending : ∀ k, ((s.removeConnectionInLoop c x).loops k).pendingFunctors =
      (s.loops k).pendingFunctors ++ if k = x.loop then [.connectionDestroyed c] else [] :=
    fun k => queueInLoop_pending _ x.loop k _
  have hmap : KeepsMap s (s.removeConnectionInLoop c x) := by
    intro d y hy
    refine ⟨y, hy, rfl, fun hin => ?_⟩
    by_cases hd : d = c
    · subst hd
      rw [hx, Option.some.injEq] at hy
      right
      rw [hpending, show x.loop = y.loop from hy ▸ congrArg Prod.fst hplace, if_pos rfl]
      exact List.mem_append_right _ List.mem_cons_self
    · left
      have hname : y.name ≠ x.name := by
        rw [show x.name = x₀.name from congrArg Prod.snd hplace]
        exact hs.name_ne hx hy hd
      simpa [InMap, TcpServer.removeConnectionInLoop, hname] using hin
  apply h.append hmap (fun k => queueInLoop_phase _ x.loop k _) _ hpending
  intro k d f hf hmem
  split at hmem
  · simp at hmem
  · cases hmem

lemma Anchored.closeCallback {l c : Nat} {x x₀ : ServerConn} {w : ConnContext Nat} (h : Anchored P s)
    (hs : Numbered s) (hx : s.conns c = some x₀) (hplace : place x = place x₀) :
    Anchored P (s.closeCallback l c x w) := by
  unfold TcpServer.closeCallback TcpServer.removeConnection
  split
  · split
    · exact h.removeConnectionInLoop hs hx hplace
    · exact h.queueInLoop (by simp)
  · exact h

lemma Anchored.newConnection (h : Anchored P s) (hs : Numbered s) (fd : Nat) :
    Anchored P (s.newConnection fd) := by
  have hmap : KeepsMap s (s.newConnection fd) := by
    intro c x hx
    refine ⟨x, (newConnection_conns_of_ne fd (ne_created hs hx)).trans hx, rfl, fun hin => Or.inl ?_⟩
    unfold InMap
    rw [newConnection_map_of_ne fd (name_ne_new hs hx)]
    exact hin
  apply h.append hmap (newConnection_phase s fd)
    (fun k => if k = s.getNextLoop.1 then [.connectionEstablished s.created] else [])
    (fun k => queueInLoop_pending _ _ k _)
  intro k c f hf hmem
  split at hmem
  · simp at hmem
  · cases hmem

/-! ### Steps -/

/-- The step `a` runs a function of the connection `c`, which leads to `w`. -/
inductive Runs (s : TcpServer) : ServerStep → Nat → ServerConn → ConnContext Nat → Prop
  | handler {l i c revent h active} (hphase : (s.loops l).phase = .handling c revent h active)
      {x : ServerConn} (hx : s.conns c = some x) :
      Runs s (.handler l i) c x ((s.context c x).runHandler revent i h)
  | connectionEstablished {l r app done c rest}
      (hphase : (s.loops l).phase = .running done (.connectionEstablished c :: rest))
      {x : ServerConn} (hx : s.conns c = some x) :
      Runs s (.runTask l r app) c x ((s.context c x).connectionEstablished app)
  | connectionDestroyed {l r app done c rest}
      (hphase : (s.loops l).phase = .running done (.connectionDestroyed c :: rest))
      {x : ServerConn} (hx : s.conns c = some x) :
      Runs s (.runTask l r app) c x ((s.context c x).connectionDestroyed app)
  | functor {l r app done c f rest} (hphase : (s.loops l).phase = .running done (.functor c f :: rest))
      {x : ServerConn} (hx : s.conns c = some x) :
      Runs s (.runTask l r app) c x ((s.context c x).runFunctor r app f)
  | app {c call} {x : ServerConn} (hx : s.conns c = some x) :
      Runs s (.app c call) c x ((s.context c x).appCall call)

lemma anchored_runTask {l : Nat} {r : SysResult} {app : List AppCall} {done rest : List Task} {t : Task}
    {x : ServerConn} (h : Anchored P s) (hs : Numbered s)
    (hruns : ∀ c x w, Runs s (.runTask l r app) c x w → ∀ f ∈ w.pendingFunctors, P f → InMap s c x)
    (hphase : (s.loops l).phase = .running done (t :: rest)) (hx : s.conns t.conn = some x) :
    Anchored P ((s.setPhase l (.running (done ++ [t]) rest)).runTask r app x t) := by
  have hpop : Anchored P (s.setPhase l (.running (done ++ [t]) rest)) := by
    apply h.setPhase
    · intro u hu
      rw [hphase]
      exact List.mem_cons_of_mem t hu
    · intro _ u hu
      rw [hphase] at hu
      simpa [Phase.done, Phase.rest] using hu
  have hsame : SameConns s (s.setPhase l (.running (done ++ [t]) rest)) := sameConns_setLoop s l _
  cases t with
  | connectionEstablished c =>
    rw [TcpServer.runTask, context_setPhase]
    exact hpop.store hx _ (hruns c x _ (.connectionEstablished hphase hx))
  | removeConnectionInLoop c => exact hpop.removeConnectionInLoop (hsame.numbered hs) hx rfl
  | connectionDestroyed c =>
    rw [TcpServer.runTask, context_setPhase]
    exact hpop.store hx _ (hruns c x _ (.connectionDestroyed hphase hx))
  | functor c f =>
    rw [TcpServer.runTask, context_setPhase]
    exact hpop.store hx _ (hruns c x _ (.functor hphase hx))

/-- A step keeps the anchors if what it queues is anchored by the map. -/
theorem anchored_step {a : ServerStep} (h : Anchored P s) (hs : Numbered s)
    (hruns : ∀ c x w, Runs s a c x w → ∀ f ∈ w.pendingFunctors, P f → InMap s c x)
    (hnext : serverMachine.next s a = some s') : Anchored P s' := by
  cases server_trans hnext with
  | poll => exact h.setPhase_idle rfl
  | @accept r =>
    match r with
    | none => exact h
    | some 0 => exact ⟨h.pending, h.batch⟩
    | some (fd + 1) => exact h.newConnection hs (fd + 1)
  | skip => exact h.setPhase_idle rfl
  | handleEvent hphase hx => exact (h.setPhase_idle rfl).setConn hx rfl
  | @handler l i c revent hd active hphase x hx =>
    have hidle : (Phase.afterHandler c revent active hd).rest = [] := by
      unfold Phase.afterHandler
      split <;> rfl
    have hx₁ : (s.setPhase l (Phase.afterHandler c revent active hd)).conns c = some x := hx
    have hsame : SameConns s (s.setPhase l (Phase.afterHandler c revent active hd)) := sameConns_setLoop s l _
    have hstore := (h.setPhase_idle (l := l) hidle).store hx₁ [] (hruns c x _ (.handler hphase hx))
    exact hstore.closeCallback ((hsame.trans (sameConns_store hx₁ _ _)).numbered hs)
      (Function.update_self _ _ _) rfl
  | swap => exact h.swap
  | runTask hphase hx => exact anchored_runTask h hs hruns hphase hx
  | endBatch => exact h.setPhase_idle rfl
  | app hx => exact h.store hx [] (hruns _ _ _ (.app hx))
  | hold hx => exact h.setConn hx rfl
  | release hx => exact h.setConn hx rfl

lemma anchored_make (config : ServerConfig) : Anchored P (TcpServer.make config) := by
  constructor
  · intro l c f _ hmem
    simp [TcpServer.make] at hmem
  · intro l c f _ hmem
    simp [TcpServer.make, Phase.rest] at hmem

/-- A task that runs while it is anchored finds its connection alive. -/
theorem Anchored.held {l c : Nat} {f : Functor} {done rest : List Task} (h : Anchored P s) (hs : Numbered s)
    (hf : P f) (hphase : (s.loops l).phase = .running done (.functor c f :: rest)) : s.Held c := by
  obtain ⟨x, hx, hl, hanchor⟩ := h.batch l c f hf (by rw [hphase]; exact List.mem_cons_self)
  rcases hanchor with hin | hd
  · exact held_of_inMap hx hin
  · obtain ⟨-, hloop, -⟩ := hs.conn c x hx
    rw [hl] at hloop
    exact held_of_tasks hloop hd rfl

end MylibMuduo.Proofs
