import MylibMuduo.Proofs.ServerUpdates

/-!
# Steps of the server

The tasks, the dispatch of events, the user and the acceptor keep the invariant. A close may
be reported several times by one dispatch and its removal may be queued several times; the
stages `closed` and `gone` absorb the repetitions.
-/

namespace MylibMuduo.Proofs

variable {s : TcpServer} {c l : Nat} {x : ServerConn}

/-! ### Tasks -/

lemma Established.append {history : List LifeEvent} (h : Established history) (e : LifeEvent)
    (he : e = .dispatched) : Established (history ++ [e]) := by
  obtain ⟨rest, rfl, hest, hdes⟩ := h
  exact ⟨rest ++ [e], rfl, by simp [hest, he], by simp [hdes, he]⟩

lemma Established.destroy {history : List LifeEvent} (h : Established history) :
    Destroyed (history ++ [.destroyed]) := by
  obtain ⟨rest, rfl, hest, -⟩ := h
  exact ⟨rest ++ [.destroyed], rfl, by simp [hest], by simp⟩

lemma Destroyed.destroy {history : List LifeEvent} (h : Destroyed history) :
    Destroyed (history ++ [.destroyed]) := by
  obtain ⟨rest, rfl, hest, -⟩ := h
  exact ⟨rest ++ [.destroyed], rfl, by simp [hest], by simp⟩

/-- A waiting `connectionEstablished` belongs to a fresh connection of that loop. -/
lemma ConnInv.fresh_of_task (h : ConnInv s c x) (ht : .connectionEstablished c ∈ todoOf s l c) :
    l = x.loop ∧ Fresh (s.context c x) ∧ x.history = [] ∧ InMap s c x ∧
      todoOf s x.loop c = [.connectionEstablished c] ∧ ∀ k, k ≠ x.loop → todoOf s k c = [] := by
  cases h.stage with
  | fresh ctx history inMap task others =>
    by_cases hl : l = x.loop
    · exact ⟨hl, ctx, history, inMap, task, others⟩
    · rw [others l hl] at ht
      simp at ht
  | live _ _ _ task =>
    rw [task l] at ht
    simp at ht
  | closed _ _ _ tasks => simpa using tasks l _ ht
  | gone _ _ _ _ tasks => simpa using tasks l _ ht

theorem inv_connectionEstablished {done rest : List Task} (h : ServerInv s) (hx : s.conns c = some x)
    (hphase : (s.loops l).phase = .running done (.connectionEstablished c :: rest)) (app : List AppCall) :
    ServerInv ((s.setPhase l (.running (done ++ [.connectionEstablished c]) rest)).store c x
      ((s.context c x).connectionEstablished app) [.established]) := by
  have hpop := fun k => todoOf_runTask (c := c) k hphase
  have hmem : .connectionEstablished c ∈ todoOf s l c := mem_todoOf_of_phase hphase rfl
  have hconn := h.conn c x hx
  obtain ⟨rfl, hfresh, hhist, hmap, htask, hothers⟩ := hconn.fresh_of_task hmem
  have hup := upStep_connectionEstablished hfresh app
  have hph : PhaseStep s x.loop (.running (done ++ [.connectionEstablished c]) rest) c :=
    phaseStep_runTask rfl hphase
  have hheld := held_of_inMap hx hmap
  have hx₁ : (s.setPhase x.loop (.running (done ++ [.connectionEstablished c]) rest)).conns c = some x := hx
  refine inv_storeStep h hx hph (storeStep_store hx₁ _ _) (contextStep_up hup hheld) (fun _ => hheld) ?_
  refine Stage.live (live_context hup.live hup.key rfl ?_) ⟨[], ?_, by simp, by simp⟩ hmap ?_
  · change (TcpServer.loops _ x.loop).poller = _
    rw [store_poller, if_pos rfl]
  · simp [stored, hhist]
  · intro k
    rw [todoOf_store]
    have hk := hpop k
    by_cases hkl : k = x.loop
    · rw [hkl, htask, if_pos ⟨rfl, rfl⟩] at hk
      rw [hkl]
      exact (List.cons.inj hk).2.symm
    · rw [hothers k hkl, if_neg (fun hand => hkl hand.1)] at hk
      exact hk.symm

/-- What is known of a connection whose removal waits. -/
lemma ConnInv.closed_of_task (h : ConnInv s c x) {t : Task} (ht : t ∈ todoOf s l c)
    (hne : t ≠ .connectionEstablished c) :
    CloseTasks s c x ∧ (∀ k, ¬ActiveIn s k c) ∧ Dead (s.context c x) ∧ s.Held c := by
  have hlive : ∀ k, todoOf s k c = [] → l = k → False := by
    intro k hk hlk
    rw [hlk, hk] at ht
    simp at ht
  cases h.stage with
  | fresh _ _ _ task others =>
    by_cases hl : l = x.loop
    · rw [hl, task, List.mem_singleton] at ht
      exact absurd ht hne
    · exact (hlive l (others l hl) rfl).elim
  | live _ _ _ task => exact (hlive l (task l) rfl).elim
  | closed ctx _ _ tasks _ _ idle =>
    have hl : l ≤ s.config.numThreads := by
      rcases tasks l t ht with ⟨-, hl⟩ | ⟨-, hl⟩
      · omega
      · rw [hl]
        exact h.loop
    exact ⟨tasks, idle, ctx, held_of_todo hl ht⟩
  | gone state index none _ tasks _ idle _ book =>
    have hl : l ≤ s.config.numThreads := by
      rcases tasks l t ht with ⟨-, hl⟩ | ⟨-, hl⟩
      · omega
      · rw [hl]
        exact h.loop
    have hheld := held_of_todo hl ht
    have hidx : x.conn.channel.index ≠ .kAdd := by
      rw [index]
      simp
    exact ⟨tasks, idle, ⟨state, book hheld, none, hidx⟩, hheld⟩

lemma storeStep_refl (hx : s.conns c = some x) : StoreStep s s c x (s.context c x) [] := by
  have hstored : stored x (s.context c x) [] = x := by
    unfold stored
    rw [List.append_nil]
    rfl
  refine ⟨?_, rfl, rfl, rfl, rfl, fun _ => Or.inl rfl, fun _ => rfl, ?_, fun _ _ _ => rfl,
    fun _ _ hd => hd, fun _ _ _ hf => Or.inl hf⟩
  · rw [hstored, ← hx, Function.update_eq_self]
  · intro k
    split
    · next hk =>
      rw [hk]
      rfl
    · rfl

/-- Closed and not destroyed, or destroyed and off the dispatching loops. -/
def ClosedOrGone (s : TcpServer) (c : Nat) (y : ServerConn) : Prop :=
  (y.conn.channel.index = .kDelete ∧ Established y.history) ∨
    (y.conn.channel.index = .kNew ∧ Destroyed y.history ∧ ∀ k, ¬GuardedIn s k c)

lemma todoOf_removeConnectionInLoop (s : TcpServer) (c k : Nat) (x : ServerConn) :
    todoOf (s.removeConnectionInLoop c x) k c =
      todoOf s k c ++ if k = x.loop then [.connectionDestroyed c] else [] := by
  unfold TcpServer.removeConnectionInLoop
  rw [todoOf_queueInLoop]
  simp [Task.holder, todoOf]

/-- The stage after `removeConnectionInLoop`. -/
lemma Stage.removed {s : TcpServer} {c : Nat} {x y : ServerConn} (hname : y.name = x.name)
    (hloop : y.loop = x.loop) (hdead : Dead (s.context c y)) (htasks : CloseTasks s c y)
    (hidle : ∀ k, ¬ActiveIn s k c) (hstage : ClosedOrGone s c y) :
    Stage (s.removeConnectionInLoop c x) c y := by
  have hmap : ¬InMap (s.removeConnectionInLoop c x) c y := by
    simp [InMap, TcpServer.removeConnectionInLoop, hname]
  have hpoll : ((s.removeConnectionInLoop c x).loops y.loop).poller = (s.loops y.loop).poller := by
    unfold TcpServer.removeConnectionInLoop
    rw [queueInLoop_poller]
  have htasks' : CloseTasks (s.removeConnectionInLoop c x) c y := by
    intro k t ht
    rw [todoOf_removeConnectionInLoop] at ht
    rcases List.mem_append.mp ht with ht | ht
    · exact htasks k t ht
    · split at ht
      · next hk => exact Or.inr ⟨List.mem_singleton.mp ht, hk.trans hloop.symm⟩
      · simp at ht
  have hidle' : ∀ k, ¬ActiveIn (s.removeConnectionInLoop c x) k c := by
    intro k ha
    exact hidle k ((activeIn_queueInLoop _ _ _ _ _).mp ha)
  have hctx : Dead ((s.removeConnectionInLoop c x).context c y) := dead_context hdead rfl rfl hpoll
  rcases hstage with ⟨hidx, hhist⟩ | ⟨hidx, hhist, hfree⟩
  · refine Stage.closed hctx hidx hhist htasks' (fun hm => absurd hm hmap) (fun _ => ?_) hidle'
    rw [todoOf_removeConnectionInLoop, hloop, if_pos rfl]
    simp
  · refine Stage.gone hdead.state hidx hdead.none hhist htasks' hmap hidle' ?_ (fun _ => hctx.book)
    intro k hg
    exact hfree k ((guardedIn_queueInLoop _ _ _ _ _).mp hg)

lemma ConnInv.closedOrGone (h : ConnInv s c x) {t : Task} (ht : t ∈ todoOf s l c)
    (hne : t ≠ .connectionEstablished c) : ClosedOrGone s c x := by
  cases h.stage with
  | fresh _ _ _ task others =>
    by_cases hl : l = x.loop
    · rw [hl, task, List.mem_singleton] at ht
      exact absurd ht hne
    · rw [others l hl] at ht
      simp at ht
  | live _ _ _ task =>
    rw [task l] at ht
    simp at ht
  | closed _ index history => exact Or.inl ⟨index, history⟩
  | gone _ index _ history _ _ _ free => exact Or.inr ⟨index, history, free⟩

lemma closeTasks_of_subset {s' : TcpServer} {y : ServerConn} (h : CloseTasks s c x) (hloop : y.loop = x.loop)
    (hsub : ∀ k t, t ∈ todoOf s' k c → t ∈ todoOf s k c) : CloseTasks s' c y := by
  intro k t ht
  rw [hloop]
  exact h k t (hsub k t ht)

theorem inv_removeConnectionInLoop {done rest : List Task} (h : ServerInv s) (hx : s.conns c = some x)
    (hphase : (s.loops l).phase = .running done (.removeConnectionInLoop c :: rest)) :
    ServerInv ((s.setPhase l (.running (done ++ [.removeConnectionInLoop c]) rest)).removeConnectionInLoop
      c x) := by
  have hpop := fun k => todoOf_runTask (c := c) k hphase
  have hmem : .removeConnectionInLoop c ∈ todoOf s l c := mem_todoOf_of_phase hphase rfl
  have hconn := h.conn c x hx
  obtain ⟨htasks, hidle, hdead, hheld⟩ := hconn.closed_of_task hmem (by simp)
  have hph : PhaseStep s l (.running (done ++ [.removeConnectionInLoop c]) rest) c :=
    phaseStep_runTask rfl hphase
  have hx₁ : (s.setPhase l (.running (done ++ [.removeConnectionInLoop c]) rest)).conns c = some x := hx
  have hstore := (storeStep_refl hx₁).removeConnectionInLoop
  rw [context_setPhase] at hstore
  refine inv_storeStep h hx hph hstore (contextStep_idle (idleStep_refl _)) (fun _ => hheld) ?_
  have hhist : (stored x (s.context c x) []).history = x.history := List.append_nil _
  refine Stage.removed rfl rfl ?_ (closeTasks_of_subset htasks rfl ?_) (fun k ha => hidle k (hph.activeIn ha)) ?_
  · exact dead_context hdead rfl rfl (setPhase_poller s l x.loop _)
  · intro k t ht
    rw [hpop k]
    exact List.mem_append_right _ ht
  · unfold ClosedOrGone
    rw [hhist]
    rcases hconn.closedOrGone hmem (by simp) with hc | ⟨hidx, hd, hfree⟩
    · exact Or.inl hc
    · exact Or.inr ⟨hidx, hd, fun k hg => hfree k (hph.guardedIn hg)⟩

lemma ConnInv.not_inMap_of_destroyed (h : ConnInv s c x) (hmem : .connectionDestroyed c ∈ todoOf s l c) :
    ¬InMap s c x := by
  obtain ⟨htasks, -⟩ := h.closed_of_task hmem (by simp)
  have hl : l = x.loop := by
    rcases htasks l _ hmem with ⟨heq, -⟩ | ⟨-, hl⟩
    · simp at heq
    · exact hl
  cases h.stage with
  | fresh _ _ _ task others =>
    rw [hl, task] at hmem
    simp at hmem
  | live _ _ _ task =>
    rw [task l] at hmem
    simp at hmem
  | closed _ _ _ _ mapped => exact fun hm => (mapped hm).2 l hmem
  | gone _ _ _ _ _ unmapped => exact unmapped

theorem inv_connectionDestroyed {done rest : List Task} (h : ServerInv s) (hx : s.conns c = some x)
    (hphase : (s.loops l).phase = .running done (.connectionDestroyed c :: rest)) (app : List AppCall) :
    ServerInv ((s.setPhase l (.running (done ++ [.connectionDestroyed c]) rest)).store c x
      ((s.context c x).connectionDestroyed app) [.destroyed]) := by
  have hpop := fun k => todoOf_runTask (c := c) k hphase
  have hmem : .connectionDestroyed c ∈ todoOf s l c := mem_todoOf_of_phase hphase rfl
  have hconn := h.conn c x hx
  obtain ⟨htasks, hidle, hdead, hheld⟩ := hconn.closed_of_task hmem (by simp)
  have hl : l = x.loop := by
    rcases htasks l _ hmem with ⟨heq, -⟩ | ⟨-, hl⟩
    · simp at heq
    · exact hl
  have hstep := removeStep_dead hdead app
  have hph : PhaseStep s l (.running (done ++ [.connectionDestroyed c]) rest) c :=
    phaseStep_runTask rfl hphase
  have hx₁ : (s.setPhase l (.running (done ++ [.connectionDestroyed c]) rest)).conns c = some x := hx
  refine inv_storeStep h hx hph (storeStep_store hx₁ _ _) (contextStep_remove hstep hheld) (fun _ => hheld) ?_
  refine Stage.gone hstep.dead.state hstep.index hstep.dead.none ?_ (closeTasks_of_subset htasks rfl ?_)
    (hconn.not_inMap_of_destroyed hmem) ?_ ?_ ?_
  · change Destroyed (x.history ++ [.destroyed])
    rcases hconn.closedOrGone hmem (by simp) with ⟨-, he⟩ | ⟨-, hd, -⟩
    · exact he.destroy
    · exact hd.destroy
  · intro k t ht
    rw [todoOf_store] at ht
    rw [hpop k]
    exact List.mem_append_right _ ht
  · intro k ha
    rw [activeIn_store] at ha
    exact hidle k (hph.activeIn ha)
  · intro k hg
    rw [guardedIn_store] at hg
    -- The loop of the connection is running tasks, so no dispatch of it is under way.
    have hk : k = x.loop := hconn.home k (Or.inr (hph.guardedIn hg))
    unfold GuardedIn at hg
    rw [hk, ← hl, setPhase_phase, if_pos rfl] at hg
    simp [Phase.guard] at hg
  · intro _
    have hkey : ((s.context c x).connectionDestroyed app).key = c := hstep.key
    have hbook := hstep.dead.book
    rw [hkey] at hbook
    change Bookkept (TcpServer.loops _ x.loop).poller c _
    rw [store_poller, if_pos rfl]
    exact hbook

/-- The raw tasks of a connection are its notifications, and run the application's code only. -/
lemma ServerInv.runFunctor_eq {done rest : List Task} {f : Functor} (h : ServerInv s)
    (hphase : (s.loops l).phase = .running done (.functor c f :: rest)) (r : SysResult) (app : List AppCall) :
    (s.context c x).runFunctor r app f = (s.context c x).appCalls app := by
  have hmem : .functor c f ∈ (s.loops l).todo := by
    rw [IoLoop.todo, hphase]
    exact List.mem_append_left _ List.mem_cons_self
  rcases h.functors l c f hmem with rfl | rfl
  · rfl
  · rfl

theorem inv_functor {done rest : List Task} {f : Functor} (h : ServerInv s) (hx : s.conns c = some x)
    (hphase : (s.loops l).phase = .running done (.functor c f :: rest)) (r : SysResult)
    (app : List AppCall) :
    ServerInv ((s.setPhase l (.running (done ++ [.functor c f]) rest)).store c x
      ((s.context c x).runFunctor r app f) []) := by
  rw [h.runFunctor_eq hphase]
  refine inv_appCalls h hx (phaseStep_runTask rfl hphase) (fun k => ?_) app
  rw [todoOf_runTask (c := c) k hphase]
  simp [Task.holder]

/-! ### Dispatch -/

/-- What one of the four tests of `handleEventWithGuard` does to a live connection. -/
lemma runHandler_live {w : ConnContext Nat} (h : Live w) (revent : EventMask) (i : ConnContext.EventInput)
    (hd : Handler) :
    LiveStep w (w.runHandler revent i hd) ∨
      DownStep w (w.runHandler revent i hd) (downCall w.conn.callbacks ++ closeCall w.conn.callbacks) := by
  cases hd with
  | close =>
    simp only [ConnContext.runHandler]
    split
    · exact Or.inr (downStep_handleClose h.reg.book i.onClose)
    · exact Or.inl (liveStep_refl h)
  | read =>
    simp only [ConnContext.runHandler]
    split
    · cases hr : readCloses i.readv with
      | false => exact Or.inl (liveStep_handleRead h i.readv i.onMessage i.onRead hr)
      | true =>
        rw [handleRead_closes w i.readv i.onMessage i.onRead hr]
        have hbook : Bookkept (fillInput w i.readv).poller (fillInput w i.readv).key
          (fillInput w i.readv).conn.channel := h.reg.book
        have hdown := downStep_handleClose hbook i.onRead
        exact Or.inr ⟨hdown.dead, hdown.index, hdown.fd, hdown.key, hdown.callbacks, hdown.calls,
          hdown.elsewhere, hdown.queued⟩
    · exact Or.inl (liveStep_refl h)
  | write =>
    simp only [ConnContext.runHandler]
    split
    · exact Or.inl (liveStep_handleWrite h i.write)
    · exact Or.inl (liveStep_refl h)
  | error =>
    simp only [ConnContext.runHandler]
    split
    · exact Or.inr (downStep_handleClose h.reg.book i.onError)
    · exact Or.inl (liveStep_refl h)

lemma runHandler_dead {w : ConnContext Nat} (h : Dead w) (revent : EventMask) (i : ConnContext.EventInput)
    (hd : Handler) :
    IdleStep w (w.runHandler revent i hd) ∨
      DownStep w (w.runHandler revent i hd) (downCall w.conn.callbacks ++ closeCall w.conn.callbacks) := by
  cases hd with
  | close =>
    simp only [ConnContext.runHandler]
    split
    · exact Or.inr (downStep_handleClose h.book i.onClose)
    · exact Or.inl (idleStep_refl w)
  | read =>
    simp only [ConnContext.runHandler]
    split
    · cases hr : readCloses i.readv with
      | false => exact Or.inl (idleStep_handleRead h.not_connected i.readv i.onMessage i.onRead hr)
      | true =>
        rw [handleRead_closes w i.readv i.onMessage i.onRead hr]
        have hbook : Bookkept (fillInput w i.readv).poller (fillInput w i.readv).key
          (fillInput w i.readv).conn.channel := h.book
        have hdown := downStep_handleClose hbook i.onRead
        exact Or.inr ⟨hdown.dead, hdown.index, hdown.fd, hdown.key, hdown.callbacks, hdown.calls,
          hdown.elsewhere, hdown.queued⟩
    · exact Or.inl (idleStep_refl w)
  | write =>
    simp only [ConnContext.runHandler]
    split
    · exact Or.inl (idleStep_handleWrite h i.write)
    · exact Or.inl (idleStep_refl w)
  | error =>
    simp only [ConnContext.runHandler]
    split
    · exact Or.inr (downStep_handleClose h.book i.onError)
    · exact Or.inl (idleStep_refl w)

/-- The stage after the close callback has queued the removal on the base loop. -/
lemma Stage.queued {s : TcpServer} {c : Nat} {y : ServerConn} (hdead : Dead (s.context c y))
    (hidx : y.conn.channel.index = .kDelete) (hhist : Established y.history) (htasks : CloseTasks s c y)
    (hidle : ∀ k, ¬ActiveIn s k c)
    (hmapped : InMap s c y → ∀ k, .connectionDestroyed c ∉ todoOf s k c)
    (hunmapped : ¬InMap s c y → .connectionDestroyed c ∈ todoOf s y.loop c) :
    Stage (s.queueInLoop 0 (.removeConnectionInLoop c)) c y := by
  have htodo : ∀ k, todoOf (s.queueInLoop 0 (.removeConnectionInLoop c)) k c =
      todoOf s k c ++ if k = 0 then [.removeConnectionInLoop c] else [] := by
    intro k
    rw [todoOf_queueInLoop]
    simp [Task.holder]
  have hpoll : ((s.queueInLoop 0 (.removeConnectionInLoop c)).loops y.loop).poller =
      (s.loops y.loop).poller := queueInLoop_poller s 0 y.loop _
  refine Stage.closed (dead_context hdead rfl rfl hpoll) hidx hhist ?_ ?_ ?_ ?_
  · intro k t ht
    rw [htodo k] at ht
    rcases List.mem_append.mp ht with ht | ht
    · exact htasks k t ht
    · split at ht
      · next hk => exact Or.inl ⟨List.mem_singleton.mp ht, hk⟩
      · simp at ht
  · intro hm
    refine ⟨by simp [htodo], fun k hk => ?_⟩
    rw [htodo k] at hk
    rcases List.mem_append.mp hk with hk | hk
    · exact hmapped hm k hk
    · split at hk
      · simp at hk
      · simp at hk
  · intro hm
    rw [htodo]
    exact List.mem_append_left _ (hunmapped hm)
  · intro k ha
    exact hidle k ((activeIn_queueInLoop _ _ _ _ _).mp ha)

/-- While its event is handled, a connection is live, or closed by this dispatch. -/
lemma ConnInv.handled (h : ConnInv s c x) (hg : GuardedIn s l c) :
    (Live (s.context c x) ∧ InMap s c x ∧ ∀ k, todoOf s k c = []) ∨
      (Dead (s.context c x) ∧ x.conn.channel.index = .kDelete ∧ CloseTasks s c x ∧
        (InMap s c x → ∀ k, .connectionDestroyed c ∉ todoOf s k c) ∧
        (¬InMap s c x → .connectionDestroyed c ∈ todoOf s x.loop c) ∧ ∀ k, ¬ActiveIn s k c) := by
  cases h.stage with
  | fresh _ _ _ _ _ _ free => exact absurd hg (free l)
  | live ctx _ inMap task => exact Or.inl ⟨ctx, inMap, task⟩
  | closed ctx index _ tasks mapped unmapped idle =>
    exact Or.inr ⟨ctx, index, tasks, fun hm => (mapped hm).2, unmapped, idle⟩
  | gone _ _ _ _ _ _ _ free => exact absurd hg (free l)

lemma ConnInv.established (h : ConnInv s c x) (hg : GuardedIn s l c) : Established x.history := by
  cases h.stage with
  | fresh _ _ _ _ _ _ free => exact absurd hg (free l)
  | live _ history => exact history
  | closed _ _ history => exact history
  | gone _ _ _ _ _ _ _ free => exact absurd hg (free l)

/-- The channel whose event is handled is not active any more. -/
lemma not_active_of_guarded (h : ServerInv s) (hconn : ConnInv s c x) (hg : GuardedIn s l c) (k : Nat) :
    ¬ActiveIn s k c := by
  intro ha
  have hk : k = l := (hconn.home k (Or.inl ha)).trans (hconn.home l (Or.inr hg)).symm
  subst hk
  have hnodup := h.nodup k
  rw [show (s.loops k).phase.guard = some c from hg] at hnodup
  exact (List.nodup_cons.mp hnodup).1 ha

lemma suspendedIndex_kDelete {index : ChannelIndex} (h : index ≠ .kNew) : suspendedIndex index = .kDelete := by
  unfold suspendedIndex updatedIndex
  cases index with
  | kNew => exact absurd rfl h
  | kAdd => rfl
  | kDelete => rfl

/-- A close of the connection in the course of a dispatch. -/
lemma inv_close {ph : Phase} {w : ConnContext Nat} (h : ServerInv s) (hx : s.conns c = some x)
    (hg : GuardedIn s l c) (hph : PhaseStep s l ph c)
    (htodo : ∀ k, todoOf (s.setPhase l ph) k c = todoOf s k c)
    (hw : DownStep (s.context c x) w (downCall x.conn.callbacks ++ closeCall x.conn.callbacks)) :
    ServerInv (((s.setPhase l ph).store c x w []).removeConnection l c x) := by
  have hconn := h.conn c x hx
  have hheld := h.held_of_guardedIn hg
  have hx₁ : (s.setPhase l ph).conns c = some x := hx
  have hstore := storeStep_store hx₁ w []
  have hidx : w.conn.channel.index = .kDelete := by
    rw [hw.index]
    apply suspendedIndex_kDelete
    change x.conn.channel.index ≠ .kNew
    rcases hconn.handled hg with ⟨hl, -⟩ | ⟨-, hi, -⟩
    · rw [show x.conn.channel.index = .kAdd from hl.reg.added]
      simp
    · rw [hi]
      simp
  have htasks : CloseTasks s c x := by
    rcases hconn.handled hg with ⟨-, -, ht⟩ | ⟨-, -, ht, -⟩
    · intro k t hmem
      rw [ht k] at hmem
      simp at hmem
    · exact ht
  have hpoll : (((s.setPhase l ph).store c x w []).loops x.loop).poller = w.poller := by
    rw [store_poller, if_pos rfl]
  have hdead : Dead (((s.setPhase l ph).store c x w []).context c (stored x w [])) :=
    dead_context hw.dead hw.key rfl hpoll
  have htodo' : ∀ k, todoOf ((s.setPhase l ph).store c x w []) k c = todoOf s k c := by
    intro k
    rw [todoOf_store, htodo]
  have htasks' : CloseTasks ((s.setPhase l ph).store c x w []) c (stored x w []) := by
    refine closeTasks_of_subset htasks rfl ?_
    intro k t ht
    rwa [htodo' k] at ht
  have hidle : ∀ k, ¬ActiveIn ((s.setPhase l ph).store c x w []) k c := by
    intro k ha
    rw [activeIn_store] at ha
    exact not_active_of_guarded h hconn hg k (hph.activeIn ha)
  have hhist : Established (stored x w []).history := by
    rw [show (stored x w []).history = x.history from List.append_nil _]
    exact hconn.established hg
  unfold TcpServer.removeConnection
  split
  · refine inv_storeStep h hx hph hstore.removeConnectionInLoop (contextStep_down hw hheld)
      (fun _ => hheld) ?_
    exact Stage.removed rfl rfl hdead htasks' hidle (Or.inl ⟨hidx, hhist⟩)
  · refine inv_storeStep h hx hph (hstore.queueInLoop 0 rfl) (contextStep_down hw hheld) (fun _ => hheld) ?_
    refine Stage.queued hdead hidx hhist htasks' hidle ?_ ?_
    · intro hm k hk
      rw [htodo' k] at hk
      rcases hconn.handled hg with ⟨-, -, ht⟩ | ⟨-, -, -, hmapped, -⟩
      · rw [ht k] at hk
        simp at hk
      · exact hmapped hm k hk
    · intro hm
      rw [htodo']
      rcases hconn.handled hg with ⟨-, hmap, -⟩ | ⟨-, -, -, -, hunmapped, -⟩
      · exact absurd hmap hm
      · exact hunmapped hm

theorem inv_handler {revent : EventMask} {hd : Handler} {active : List (Nat × EventMask)}
    (h : ServerInv s) (hx : s.conns c = some x)
    (hphase : (s.loops l).phase = .handling c revent hd active) (i : ConnContext.EventInput) :
    ServerInv (s.runHandler l c revent hd active i x) := by
  have hg : GuardedIn s l c := guardedIn_of_phase hphase
  have hconn := h.conn c x hx
  have hph := phaseStep_handler h hphase
  unfold TcpServer.runHandler
  dsimp only
  generalize hnext : Phase.afterHandler c revent active hd = ph at hph ⊢
  have hrest : ph.rest = (s.loops l).phase.rest := by
    rw [← hnext, hphase]
    cases hd <;> rfl
  have htodo : ∀ k, todoOf (s.setPhase l ph) k c = todoOf s k c := by
    intro k
    unfold todoOf
    rw [todo_setPhase_same s l k ph hrest]
  have hdown : ∀ w, DownStep (s.context c x) w (downCall x.conn.callbacks ++ closeCall x.conn.callbacks) →
      ServerInv (((s.setPhase l ph).store c x w []).closeCallback l c x w) := by
    intro w hw
    have hcount : x.calls.count .close < w.calls.count .close := by
      have hcalls := congrArg (List.count .close) hw.calls
      rw [List.count_append, count_close_lifecycle, count_close_lifecycle,
        count_close_handleClose hconn.close] at hcalls
      change _ = x.calls.count .close + 1 at hcalls
      omega
    unfold TcpServer.closeCallback
    rw [if_pos hcount]
    exact inv_close h hx hg hph htodo hw
  have hquiet : ∀ w, lifecycle w.calls = lifecycle x.calls →
      (Live (s.context c x) → LiveStep (s.context c x) w) →
      (¬Live (s.context c x) → IdleStep (s.context c x) w) →
      ServerInv (((s.setPhase l ph).store c x w []).closeCallback l c x w) := by
    intro w hcalls hlive hidle
    have hcount : ¬x.calls.count .close < w.calls.count .close := by
      rw [← count_close_lifecycle w.calls, hcalls, count_close_lifecycle]
      exact Nat.lt_irrefl _
    unfold TcpServer.closeCallback
    rw [if_neg hcount]
    exact inv_quiet h hx hph htodo hlive hidle
  rcases hconn.handled hg with ⟨hl, -⟩ | ⟨hd', hi, -⟩
  · rcases runHandler_live hl revent i hd with hw | hw
    · exact hquiet _ hw.calls (fun _ => hw) (fun hnl => absurd hl hnl)
    · exact hdown _ hw
  · rcases runHandler_dead hd' revent i hd with hw | hw
    · exact hquiet _ hw.calls (fun hl => absurd hl (not_live_of_index (by rw [hi]; simp))) (fun _ => hw)
    · exact hdown _ hw

/-- An active channel belongs to a live connection. -/
lemma ConnInv.live_of_active (h : ConnInv s c x) (ha : ActiveIn s l c) :
    Live (s.context c x) ∧ Established x.history ∧ InMap s c x ∧ ∀ k, todoOf s k c = [] := by
  cases h.stage with
  | fresh _ _ _ _ _ idle => exact absurd ha (idle l)
  | live ctx history inMap task => exact ⟨ctx, history, inMap, task⟩
  | closed _ _ _ _ _ _ idle => exact absurd ha (idle l)
  | gone _ _ _ _ _ _ idle => exact absurd ha (idle l)

lemma activeIn_handling {k d : Nat} {revent : EventMask} {active : List (Nat × EventMask)}
    (hphase : (s.loops l).phase = .dispatch ((c, revent) :: active))
    (hd : ActiveIn (s.setPhase l (.handling c revent .close active)) k d) : ActiveIn s k d := by
  unfold ActiveIn at hd ⊢
  rw [setPhase_phase] at hd
  split at hd
  · next hk =>
    rw [hk, hphase]
    exact List.mem_cons_of_mem _ hd
  · exact hd

lemma guardedIn_handling {k d : Nat} {revent : EventMask} {active : List (Nat × EventMask)}
    (hd : GuardedIn (s.setPhase l (.handling c revent .close active)) k d) :
    (k = l ∧ d = c) ∨ GuardedIn s k d := by
  unfold GuardedIn at hd ⊢
  rw [setPhase_phase] at hd
  split at hd
  · next hk => exact Or.inl ⟨hk, (Option.some.inj hd).symm⟩
  · exact Or.inr hd

lemma held_handling {d : Nat} {revent : EventMask} {active : List (Nat × EventMask)} (hx : s.conns c = some x)
    (hheld : s.Held c) (e : LifeEvent)
    (hd : ((s.setPhase l (.handling c revent .close active)).setConn c
      { x with history := x.history ++ [e] }).Held d) : s.Held d := by
  have hd' : (s.setPhase l (.handling c revent .close active)).Held d := by
    apply held_setConn _ _ _ hd
    · exact x
    · exact hx
    · rfl
    · exact fun hr => Or.inl ⟨x, hx, Or.inr hr⟩
  refine held_setPhase (by simp [Phase.done, Phase.rest]) (fun hg => ?_) hd'
  rw [← Option.some.inj hg]
  exact hheld

theorem inv_handleEvent {revent : EventMask} {active : List (Nat × EventMask)} (h : ServerInv s)
    (hx : s.conns c = some x) (hphase : (s.loops l).phase = .dispatch ((c, revent) :: active)) :
    ServerInv ((s.setPhase l (.handling c revent .close active)).setConn c
      { x with history := x.history ++ [.dispatched] }) := by
  have ha : ActiveIn s l c := activeIn_of_phase hphase
  have hconn := h.conn c x hx
  obtain ⟨hlive, hhist, hmap, htask⟩ := hconn.live_of_active ha
  have hheld := held_of_inMap hx hmap
  have htodo : ∀ k, ((s.setPhase l (.handling c revent .close active)).loops k).todo = (s.loops k).todo :=
    fun k => todo_setPhase_same s l k _ (by rw [hphase]; rfl)
  refine h.act hx rfl rfl rfl rfl rfl ?_ (fun _ => Or.inl rfl) rfl (fun _ => held_handling hx hheld _) ⟨?_, rfl, rfl, ?_⟩
    ⟨hconn.bound, hconn.loop, hconn.name, hconn.close, ?_, ?_⟩ ?_ ?_
  · intro d hd
    refine ⟨fun k => ?_, fun k => activeIn_handling hphase, fun k hg => ?_⟩
    · rw [todoOf_setConn]
      unfold todoOf
      rw [htodo]
    · rcases guardedIn_handling hg with ⟨-, hdc⟩ | hg
      · exact absurd hdc hd
      · exact hg
  · intro k _
    exact setPhase_poller s l k _
  · exact Or.inl ⟨setPhase_poller s l x.loop _, rfl⟩
  · rintro k (hk | hk)
    · exact hconn.home k (Or.inl (activeIn_handling hphase hk))
    · rcases guardedIn_handling hk with ⟨hkl, -⟩ | hg
      · rw [hkl]
        exact hconn.home l (Or.inl ha)
      · exact hconn.home k (Or.inr hg)
  · refine Stage.live (live_context hlive rfl rfl (setPhase_poller s l x.loop _))
      (hhist.append .dispatched rfl) hmap (fun k => ?_)
    have hk := htask k
    unfold todoOf at hk ⊢
    rwa [setConn_loops, htodo]
  · intro k
    rw [setConn_loops, setPhase_phase]
    split
    · have hnodup := h.nodup l
      rw [hphase] at hnodup
      exact hnodup
    · exact h.nodup k
  · intro k d f hf
    rw [setConn_loops, htodo] at hf
    exact Or.inl hf

/-! ### The user -/

lemma setPhase_same (l : Nat) : s.setPhase l (s.loops l).phase = s := by
  unfold TcpServer.setPhase TcpServer.setLoop
  rw [Function.update_eq_self]

theorem inv_app (h : ServerInv s) (hx : s.conns c = some x) (call : AppCall) :
    ServerInv (s.store c x ((s.context c x).appCall call) []) := by
  have happ := inv_appCalls h hx (phaseStep_same (l := x.loop) h) (fun k => by rw [setPhase_same]) [call]
  rwa [setPhase_same] at happ

/-- A change of the user's copies of the pointer, which only a holder can make. -/
theorem inv_userRefs (h : ServerInv s) (hx : s.conns c = some x) (refs : Nat)
    (hrefs : 0 < refs → s.Held c) : ServerInv (s.setConn c { x with userRefs := refs }) := by
  have hconn := h.conn c x hx
  have hheld : ∀ d, (s.setConn c { x with userRefs := refs }).Held d → s.Held d := by
    intro d hd
    apply held_setConn hx _ _ hd
    · rfl
    · exact hrefs
  refine h.act hx rfl rfl rfl rfl rfl (fun d _ => ⟨fun _ => rfl, fun _ ha => ha, fun _ hg => hg⟩)
    (fun _ => Or.inl rfl) rfl hheld ⟨fun _ _ => rfl, rfl, rfl, Or.inl ⟨rfl, rfl⟩⟩
    ⟨hconn.bound, hconn.loop, hconn.name, hconn.close, hconn.home, ?_⟩ h.nodup (fun _ _ _ hf => Or.inl hf)
  cases hconn.stage with
  | fresh ctx history inMap task others idle free =>
    exact Stage.fresh ⟨ctx.state, ctx.book, ctx.index, ctx.none⟩ history inMap task others idle free
  | live ctx history inMap task =>
    exact Stage.live ⟨⟨ctx.reg.book, ctx.reg.added, ctx.reg.reading⟩, ctx.opn⟩ history inMap task
  | closed ctx index history tasks mapped unmapped idle =>
    exact Stage.closed ⟨ctx.state, ctx.book, ctx.none, ctx.notAdded⟩ index history tasks mapped unmapped idle
  | gone state index none history tasks unmapped idle free book =>
    exact Stage.gone state index none history tasks unmapped idle free (fun hh => book (hheld c hh))

/-! ### New connections -/

lemma incrConnId_eq {n : Nat} (h : n + 1 < 2 ^ 31) : TcpServer.incrConnId n = n + 1 := by
  unfold TcpServer.incrConnId Int.bmod
  dsimp only
  split
  · omega
  · omega

lemma getNextLoop_le (h : Numbered s) : s.getNextLoop.1 ≤ s.config.numThreads := by
  unfold TcpServer.getNextLoop
  split
  · exact Nat.zero_le _
  · next hn =>
    rcases h.pool with hp | hp
    · exact absurd hp hn
    · exact hp

lemma getNextLoop_next :
    s.config.numThreads = 0 ∨ s.getNextLoop.2 < s.config.numThreads := by
  unfold TcpServer.getNextLoop
  split
  · next hn => exact Or.inl hn
  · next hn => exact Or.inr (Nat.mod_lt _ (Nat.pos_of_ne_zero hn))

/-- A descriptor that is not open is in no poller. -/
lemma not_polled_of_closed (h : ServerInv s) {fd : Nat} (hclosed : s.Closed fd) (l : Nat) :
    (s.loops l).poller.channels fd = none ∧ (s.loops l).poller.interest fd = none := by
  have hnone : ∀ d, ¬((s.loops l).poller.channels fd = some d ∨
      ∃ e, (s.loops l).poller.interest fd = some (e, d)) := by
    intro d hd
    obtain ⟨y, hy, -, hfd, hidx⟩ := h.owned l fd d hd
    have hyinv := h.conn d y hy
    exact hclosed.2 d hyinv.bound y hy (hyinv.held hy (Or.inl hidx)) hfd
  constructor
  · cases hc : (s.loops l).poller.channels fd with
    | none => rfl
    | some d => exact absurd (Or.inl hc) (hnone d)
  · cases hi : (s.loops l).poller.interest fd with
    | none => rfl
    | some m => exact absurd (Or.inr ⟨m.1, hi⟩) (hnone m.2)

/-- The connection that `newConnection` makes. -/
def freshConn (s : TcpServer) (fd : Nat) : ServerConn :=
  ⟨s.getNextLoop.1, TcpServer.connName s.config s.nextConnId,
    TcpConnection.make fd kDefaultWaterMark { s.config.callbacks with close := true }, [], false, [], 0, []⟩

lemma newConnection_conns_self (s : TcpServer) (fd : Nat) :
    (s.newConnection fd).conns s.created = some (freshConn s fd) :=
  Function.update_self _ _ _

lemma newConnection_conns_of_ne {d : Nat} (fd : Nat) (hd : d ≠ s.created) :
    (s.newConnection fd).conns d = s.conns d :=
  Function.update_of_ne hd _ _

lemma newConnection_map_self (s : TcpServer) (fd : Nat) :
    (s.newConnection fd).connectionMap (TcpServer.connName s.config s.nextConnId) = some s.created :=
  Function.update_self _ _ _

lemma newConnection_map_of_ne {name : List Char} (fd : Nat)
    (hn : name ≠ TcpServer.connName s.config s.nextConnId) :
    (s.newConnection fd).connectionMap name = s.connectionMap name :=
  Function.update_of_ne hn _ _

lemma newConnection_phase (s : TcpServer) (fd l : Nat) :
    ((s.newConnection fd).loops l).phase = (s.loops l).phase :=
  queueInLoop_phase _ _ _ _

lemma newConnection_poller (s : TcpServer) (fd l : Nat) :
    ((s.newConnection fd).loops l).poller = (s.loops l).poller :=
  queueInLoop_poller _ _ _ _

lemma activeIn_newConnection {fd l d : Nat} (h : ActiveIn (s.newConnection fd) l d) : ActiveIn s l d := by
  unfold ActiveIn at h
  rwa [newConnection_phase] at h

lemma guardedIn_newConnection {fd l d : Nat} (h : GuardedIn (s.newConnection fd) l d) : GuardedIn s l d := by
  unfold GuardedIn at h
  rwa [newConnection_phase] at h

lemma todoOf_newConnection (s : TcpServer) (fd l d : Nat) :
    todoOf (s.newConnection fd) l d = todoOf s l d ++
      if l = s.getNextLoop.1 ∧ some s.created = some d then [.connectionEstablished s.created] else [] :=
  todoOf_queueInLoop _ _ _ _ _

lemma todoOf_newConnection_of_ne {d : Nat} (fd l : Nat) (hd : d ≠ s.created) :
    todoOf (s.newConnection fd) l d = todoOf s l d := by
  rw [todoOf_newConnection, if_neg (fun hand => hd (Option.some.inj hand.2).symm), List.append_nil]

lemma created_unborn (h : Numbered s) : s.conns s.created = none := by
  cases hx : s.conns s.created with
  | none => rfl
  | some x => exact absurd (h.conn s.created x hx).1 (Nat.lt_irrefl _)

lemma ne_created (h : Numbered s) {d : Nat} {y : ServerConn} (hy : s.conns d = some y) : d ≠ s.created := by
  rintro rfl
  rw [created_unborn h] at hy
  simp at hy

lemma newConnection_name (h : Numbered s) :
    TcpServer.connName s.config s.nextConnId = TcpServer.connName s.config (s.created + 1) := by
  rw [h.ids]

/-- No connection has the name of the new one. -/
lemma name_ne_new (h : Numbered s) {d : Nat} {y : ServerConn} (hy : s.conns d = some y) :
    y.name ≠ TcpServer.connName s.config s.nextConnId := by
  intro heq
  obtain ⟨hbound, -, hname⟩ := h.conn d y hy
  have hfits := h.fits
  rw [hname, newConnection_name h] at heq
  have := connName_injective (by omega) hfits heq
  omega

theorem numbered_newConnection (h : Numbered s) (fd : Nat) (hid : s.nextConnId < 2 ^ 31 - 1) :
    Numbered (s.newConnection fd) := by
  have hids := h.ids
  refine ⟨?_, ?_, getNextLoop_next (s := s), ?_⟩
  · intro d y hy
    change d < s.created + 1 ∧ y.loop ≤ s.config.numThreads ∧ y.name = TcpServer.connName s.config (d + 1)
    by_cases hd : d = s.created
    · subst hd
      rw [newConnection_conns_self, Option.some.injEq] at hy
      subst hy
      exact ⟨Nat.lt_succ_self _, getNextLoop_le h, newConnection_name h⟩
    · rw [newConnection_conns_of_ne fd hd] at hy
      obtain ⟨hbound, hloop, hname⟩ := h.conn d y hy
      exact ⟨Nat.lt_succ_of_lt hbound, hloop, hname⟩
  · change TcpServer.incrConnId s.nextConnId = ((s.created + 1 : Nat) : Int) + 1
    rw [hids]
    exact incrConnId_eq (n := s.created + 1) (by omega)
  · change s.created + 1 < 2 ^ 31
    omega

lemma held_newConnection (h : ServerInv s) {fd d : Nat} (hd : d ≠ s.created)
    (hh : (s.newConnection fd).Held d) : s.Held d := by
  have hholder : (Task.connectionEstablished s.created).holder = some d → False :=
    fun heq => hd (Option.some.inj heq).symm
  have hq := held_queueInLoop (fun heq => (hholder heq).elim) hh
  refine held_mono hq rfl ?_ (fun l t hl ht hh => held_of_tasks hl ht hh)
    (fun l hl hg => held_of_guard hl hg)
  intro y hy hor
  have hy' : s.conns d = some y := by
    rw [← newConnection_conns_of_ne fd hd]
    exact hy
  refine Or.inl ⟨y, hy', hor.imp_left fun hm => ?_⟩
  rw [← newConnection_map_of_ne fd (name_ne_new h.numbered hy')]
  exact hm

lemma connInv_fresh (h : ServerInv s) {fd : Nat} (hclosed : s.Closed fd) :
    ConnInv (s.newConnection fd) s.created (freshConn s fd) := by
  have hunborn := h.unborn s.created (created_unborn h.numbered)
  have hidle : ∀ l, ¬ActiveIn (s.newConnection fd) l s.created :=
    fun l ha => (hunborn l).2.1 (activeIn_newConnection ha)
  have hfree : ∀ l, ¬GuardedIn (s.newConnection fd) l s.created :=
    fun l hg => (hunborn l).2.2 (guardedIn_newConnection hg)
  refine ⟨Nat.lt_succ_self _, getNextLoop_le h.numbered, newConnection_name h.numbered, rfl, ?_, ?_⟩
  · rintro l (ha | hg)
    · exact absurd ha (hidle l)
    · exact absurd hg (hfree l)
  · obtain ⟨hc, hi⟩ := not_polled_of_closed h hclosed s.getNextLoop.1
    rw [← newConnection_poller s fd] at hc hi
    refine Stage.fresh ⟨rfl, bookkept_make _ _ fd hc hi, rfl, rfl⟩ rfl (newConnection_map_self s fd) ?_ ?_
      hidle hfree
    · rw [todoOf_newConnection, (hunborn _).1, if_pos ⟨rfl, rfl⟩, List.nil_append]
    · intro l hl
      rw [todoOf_newConnection, (hunborn l).1, if_neg (fun hand => hl hand.1), List.nil_append]

lemma sameView_newConnection (h : ServerInv s) (fd : Nat) {d : Nat} {y : ServerConn}
    (hy : s.conns d = some y) : SameView s (s.newConnection fd) d y := by
  have hd := ne_created h.numbered hy
  exact ⟨fun l => todoOf_newConnection_of_ne fd l hd, fun l ha => Or.inl (activeIn_newConnection ha),
    fun l => guardedIn_newConnection, newConnection_map_of_ne fd (name_ne_new h.numbered hy), held_newConnection h hd,
    rfl, Nat.le_succ _, fun _ => by rw [newConnection_poller], fun _ => by rw [newConnection_poller]⟩

/-- Held connections have different descriptors, since a new descriptor is not open. -/
lemma fds_newConnection (h : ServerInv s) {fd : Nat} (hclosed : s.Closed fd) {d e : Nat} {y z : ServerConn}
    (hy : (s.newConnection fd).conns d = some y) (hz : (s.newConnection fd).conns e = some z)
    (hhd : (s.newConnection fd).Held d) (hhe : (s.newConnection fd).Held e)
    (heq : y.conn.channel.fd = z.conn.channel.fd) : d = e := by
  have hother : ∀ d y, d ≠ s.created → (s.newConnection fd).conns d = some y →
      (s.newConnection fd).Held d → y.conn.channel.fd ≠ fd := by
    intro d y hd hy hh
    rw [newConnection_conns_of_ne fd hd] at hy
    exact hclosed.2 d (h.conn d y hy).bound y hy (held_newConnection h hd hh)
  have hfresh : ∀ y, (s.newConnection fd).conns s.created = some y → y.conn.channel.fd = fd := by
    intro y hy
    rw [newConnection_conns_self, Option.some.injEq] at hy
    rw [← hy]
    rfl
  by_cases hd : d = s.created
  · by_cases he : e = s.created
    · exact hd.trans he.symm
    · rw [hd] at hy
      exact absurd (heq.symm.trans (hfresh y hy)) (hother e z he hz hhe)
  · by_cases he : e = s.created
    · rw [he] at hz
      exact absurd (heq.trans (hfresh z hz)) (hother d y hd hy hhd)
    · rw [newConnection_conns_of_ne fd hd] at hy
      rw [newConnection_conns_of_ne fd he] at hz
      exact h.fds d e y z hy hz (held_newConnection h hd hhd) (held_newConnection h he hhe) heq

lemma functor_of_newConnection {fd l d : Nat} {f : Functor}
    (hf : .functor d f ∈ ((s.newConnection fd).loops l).todo) : .functor d f ∈ (s.loops l).todo := by
  unfold IoLoop.todo at hf ⊢
  rw [newConnection_phase] at hf
  unfold TcpServer.newConnection at hf
  rw [queueInLoop_pending, ← List.append_assoc] at hf
  rcases List.mem_append.mp hf with hf | hf
  · exact hf
  · split at hf
    · simp at hf
    · simp at hf

theorem inv_newConnection (h : ServerInv s) {fd : Nat} (hclosed : s.Closed fd)
    (hid : s.nextConnId < 2 ^ 31 - 1) : ServerInv (s.newConnection fd) := by
  have hnumbered := numbered_newConnection h.numbered fd hid
  have hkeeps : ∀ d y, s.conns d = some y → (s.newConnection fd).conns d = some y := by
    intro d y hy
    rw [newConnection_conns_of_ne fd (ne_created h.numbered hy)]
    exact hy
  refine ⟨?_, hnumbered.ids, hnumbered.pool, ?_, ?_, ?_, ?_, ?_, hnumbered.fits, ?_⟩
  · intro d y hy
    by_cases hd : d = s.created
    · subst hd
      rw [newConnection_conns_self, Option.some.injEq] at hy
      subst hy
      exact connInv_fresh h hclosed
    · rw [newConnection_conns_of_ne fd hd] at hy
      exact (h.conn d y hy).frame hy (sameView_newConnection h fd hy)
  · intro d hd l
    have hdc : d ≠ s.created := by
      rintro rfl
      rw [newConnection_conns_self] at hd
      simp at hd
    rw [newConnection_conns_of_ne fd hdc] at hd
    obtain ⟨ht, ha, hg⟩ := h.unborn d hd l
    rw [todoOf_newConnection_of_ne fd l hdc]
    exact ⟨ht, fun ha' => ha (activeIn_newConnection ha'), fun hg' => hg (guardedIn_newConnection hg')⟩
  · intro name d hd
    by_cases hn : name = TcpServer.connName s.config s.nextConnId
    · rw [hn, newConnection_map_self, Option.some.injEq] at hd
      rw [← hd, hn]
      exact ⟨_, newConnection_conns_self s fd, rfl⟩
    · rw [newConnection_map_of_ne fd hn] at hd
      obtain ⟨y, hy, hyname⟩ := h.map name d hd
      exact ⟨y, hkeeps d y hy, hyname⟩
  · intro l g d hd
    rw [newConnection_poller] at hd
    obtain ⟨y, hy, hrest⟩ := h.owned l g d hd
    exact ⟨y, hkeeps d y hy, hrest⟩
  · intro d e y z hy hz hhd hhe heq
    exact fds_newConnection h hclosed hy hz hhd hhe heq
  · intro l
    rw [newConnection_phase]
    exact h.nodup l
  · intro l d f hf
    exact h.functors l d f (functor_of_newConnection hf)

end MylibMuduo.Proofs
