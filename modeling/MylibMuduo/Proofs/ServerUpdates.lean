import MylibMuduo.Proofs.ServerInvariant

/-!
# Updates of the server

What the primitive updates of the server do to queues, holders, active channels and guards,
and from it the invariant after the steps that concern no connection or that leave the stage
of a connection as it is.
-/

namespace MylibMuduo.Proofs

/-! ### What the updates do to queues and holders -/

section Updates

variable (s : TcpServer) (l k c d : Nat) (ph : Phase) (t : Task) (x : ServerConn) (w : ConnContext Nat)
  (h : List LifeEvent)

lemma todo_setPhase :
    ((s.setPhase l ph).loops k).todo =
      if k = l then ph.rest ++ (s.loops l).pendingFunctors else (s.loops k).todo := by
  by_cases hk : k = l
  · simp [IoLoop.todo, hk]
  · simp [IoLoop.todo, hk]

lemma todo_setPhase_same (hrest : ph.rest = (s.loops l).phase.rest) :
    ((s.setPhase l ph).loops k).todo = (s.loops k).todo := by
  rw [todo_setPhase]
  split
  · next hk => rw [hrest, hk, IoLoop.todo]
  · rfl

@[simp] lemma todoOf_setConn : todoOf (s.setConn c x) l d = todoOf s l d := rfl

@[simp] lemma todoOf_store : todoOf (s.store c x w h) l d = todoOf s l d := by
  have hnone : ∀ fs : List Functor,
      (fs.map (Task.functor c)).filter (fun t => t.holder = some d) = [] := by
    intro fs
    rw [List.filter_eq_nil_iff]
    simp [Task.holder]
  unfold todoOf IoLoop.todo
  rw [store_phase, store_pending]
  split
  · rw [← List.append_assoc, List.filter_append, hnone, List.append_nil]
  · rw [List.append_nil]

lemma todoOf_queueInLoop :
    todoOf (s.queueInLoop k t) l d =
      todoOf s l d ++ if l = k ∧ t.holder = some d then [t] else [] := by
  unfold todoOf IoLoop.todo
  rw [queueInLoop_phase, queueInLoop_pending, ← List.append_assoc, List.filter_append]
  by_cases hl : l = k
  · by_cases ht : t.holder = some d
    · simp [hl, ht]
    · simp [hl, ht]
  · simp [hl]

@[simp] lemma activeIn_store : ActiveIn (s.store c x w h) l d ↔ ActiveIn s l d := by
  unfold ActiveIn
  rw [store_phase]

@[simp] lemma guardedIn_store : GuardedIn (s.store c x w h) l d ↔ GuardedIn s l d := by
  unfold GuardedIn
  rw [store_phase]

@[simp] lemma activeIn_queueInLoop : ActiveIn (s.queueInLoop k t) l d ↔ ActiveIn s l d := by
  unfold ActiveIn
  rw [queueInLoop_phase]

@[simp] lemma guardedIn_queueInLoop : GuardedIn (s.queueInLoop k t) l d ↔ GuardedIn s l d := by
  unfold GuardedIn
  rw [queueInLoop_phase]

end Updates

section HeldUpdates

variable {s : TcpServer} {d : Nat}

lemma held_setPhase {l : Nat} {ph : Phase}
    (htasks : ∀ t ∈ ph.done ++ ph.rest, t ∈ (s.loops l).phase.done ++ (s.loops l).phase.rest)
    (hguard : ph.guard = some d → s.Held d) (h : (s.setPhase l ph).Held d) : s.Held d := by
  refine held_mono h rfl (fun x' hx' hx => Or.inl ⟨x', hx', hx⟩) ?_ ?_
  · intro k t hk ht hholder
    refine held_of_tasks hk ?_ hholder
    simp only [IoLoop.tasks, IoLoop.todo, setPhase_phase, setPhase_pending] at ht ⊢
    by_cases hkl : k = l
    · subst hkl
      rw [if_pos rfl, ← List.append_assoc, List.mem_append] at ht
      rw [← List.append_assoc, List.mem_append]
      exact ht.imp_left (htasks t)
    · rwa [if_neg hkl] at ht
  · intro k hk hg
    unfold GuardedIn at hg
    rw [setPhase_phase] at hg
    split at hg
    · exact hguard hg
    · exact held_of_guard hk hg

lemma held_queueInLoop {k : Nat} {t : Task} (ht : t.holder = some d → s.Held d)
    (h : (s.queueInLoop k t).Held d) : s.Held d := by
  refine held_mono h rfl (fun x' hx' hx => Or.inl ⟨x', hx', hx⟩) ?_ ?_
  · intro l u hl hu hholder
    simp only [IoLoop.tasks, IoLoop.todo, queueInLoop_phase, queueInLoop_pending, ← List.append_assoc] at hu
    rcases List.mem_append.mp hu with hu | hu
    · refine held_of_tasks hl ?_ hholder
      rwa [IoLoop.tasks, IoLoop.todo, ← List.append_assoc]
    · split at hu
      · rw [List.mem_singleton] at hu
        exact ht (hu ▸ hholder)
      · simp at hu
  · intro l hl hg
    exact held_of_guard hl ((guardedIn_queueInLoop s l k d t).mp hg)

lemma held_setConn {c : Nat} {x x' : ServerConn} (hx : s.conns c = some x) (hname : x'.name = x.name)
    (hrefs : 0 < x'.userRefs → s.Held c) (h : (s.setConn c x').Held d) : s.Held d := by
  refine held_mono h rfl ?_ (fun l t hl ht hh => held_of_tasks hl ht hh) (fun l hl hg => held_of_guard hl hg)
  intro y hy hor
  rw [setConn_map] at hor
  by_cases hdc : d = c
  · subst hdc
    have hyx : y = x' := by
      simpa [TcpServer.setConn] using hy.symm
    rw [hyx, hname] at hor
    rcases hor with hm | hr
    · exact held_of_inMap hx hm
    · exact hrefs hr
  · have hy' : s.conns d = some y := by
      simpa [TcpServer.setConn, Function.update_of_ne hdc] using hy
    exact Or.inl ⟨y, hy', hor⟩

lemma held_store {c : Nat} {x : ServerConn} {w : ConnContext Nat} {e : List LifeEvent}
    (hx : s.conns c = some x) (h : (s.store c x w e).Held d) : s.Held d := by
  refine held_mono h rfl ?_ ?_ ?_
  · intro y hy hor
    have hset : (s.setConn c { x with
        conn := w.conn
        sent := w.sent
        shutWr := w.shutWr
        calls := w.calls
        history := x.history ++ e }).Held d := Or.inl ⟨y, hy, hor⟩
    apply held_setConn hx _ _ hset
    · rfl
    · exact fun hr => Or.inl ⟨x, hx, Or.inr hr⟩
  · intro l t hl ht hholder
    refine held_of_tasks hl ?_ hholder
    simp only [IoLoop.tasks, IoLoop.todo, store_phase, store_pending, ← List.append_assoc] at ht ⊢
    rcases List.mem_append.mp ht with ht | ht
    · exact ht
    · split at ht
      · obtain ⟨f, -, rfl⟩ := List.mem_map.mp ht
        simp [Task.holder] at hholder
      · simp at ht
  · intro l hl hg
    exact held_of_guard hl ((guardedIn_store s l c d x w e).mp hg)

end HeldUpdates

/-! ### Steps without a connection -/

lemma setPhase_pass {s : TcpServer} (h : ServerInv s) {l : Nat} {ph : Phase}
    (hrest : ph.rest = (s.loops l).phase.rest)
    (htasks : ∀ t ∈ ph.done ++ ph.rest, t ∈ (s.loops l).phase.done ++ (s.loops l).phase.rest)
    (hactive : ∀ d, d ∈ ph.active → ActiveIn s l d ∨
      ∃ y, s.conns d = some y ∧ l = y.loop ∧ Live (s.context d y))
    (hguard : ph.guard = none) (hnodup : ph.active.Nodup) : ServerInv (s.setPhase l ph) := by
  refine h.pass rfl rfl rfl rfl rfl rfl (fun k => setPhase_poller s l k ph)
    (fun k => todo_setPhase_same s l k ph hrest) ?_ ?_ ?_ ?_
  · intro k d ha
    unfold ActiveIn at ha
    rw [setPhase_phase] at ha
    split at ha
    · next hk =>
      subst hk
      exact hactive d ha
    · exact Or.inl ha
  · intro k d hg
    unfold GuardedIn at hg
    rw [setPhase_phase] at hg
    split at hg
    · rw [hguard] at hg
      simp at hg
    · exact hg
  · intro d hd
    exact held_setPhase htasks (by rw [hguard]; simp) hd
  · intro k
    rw [setPhase_phase]
    split
    · rw [hguard]
      exact hnodup
    · exact h.nodup k

lemma mem_fillActiveChannels {p : EPollPoller Nat} {events : List (Nat × EventMask)} {a : Nat × EventMask}
    (h : a ∈ TcpServer.fillActiveChannels p events) :
    ∃ e ∈ events, ∃ m, p.interest e.1 = some (m, a.1) := by
  obtain ⟨e, he, ha⟩ := List.mem_filterMap.mp h
  obtain ⟨m, hm, rfl⟩ := Option.map_eq_some_iff.mp ha
  exact ⟨e, he, m.1, hm⟩

lemma nodup_fillActiveChannels {p : EPollPoller Nat}
    (hinj : ∀ f g m n c, p.interest f = some (m, c) → p.interest g = some (n, c) → f = g)
    (events : List (Nat × EventMask)) (h : (events.map Prod.fst).Nodup) :
    ((TcpServer.fillActiveChannels p events).map Prod.fst).Nodup := by
  induction events with
  | nil => exact List.nodup_nil
  | cons e events ih =>
    obtain ⟨hnot, hrest⟩ := List.nodup_cons.mp h
    have htail := ih hrest
    cases hm : p.interest e.1 with
    | none => simpa [TcpServer.fillActiveChannels, hm] using htail
    | some m =>
      have hcons : TcpServer.fillActiveChannels p (e :: events) =
          (m.2, e.2) :: TcpServer.fillActiveChannels p events := by
        simp [TcpServer.fillActiveChannels, hm]
      rw [hcons, List.map_cons, List.nodup_cons]
      refine ⟨?_, htail⟩
      intro hmem
      obtain ⟨a, ha, hac⟩ := List.mem_map.mp hmem
      obtain ⟨e', he', n, hn⟩ := mem_fillActiveChannels ha
      rw [hac] at hn
      have heq := hinj e.1 e'.1 m.1 n m.2 hm hn
      exact hnot (heq ▸ List.mem_map_of_mem he')

/-- What the kernel reports is live, and is reported once. -/
theorem inv_poll {s : TcpServer} (h : ServerInv s) (l : Nat) (events : List (Nat × EventMask))
    (hphase : (s.loops l).phase = .poll) (hnodup : (events.map Prod.fst).Nodup) :
    ServerInv (s.setPhase l (.dispatch (TcpServer.fillActiveChannels (s.loops l).poller events))) := by
  refine setPhase_pass h (by rw [hphase]; rfl) (by simp [Phase.done, Phase.rest]) ?_ rfl
    (nodup_fillActiveChannels ?_ events hnodup)
  · intro d hd
    obtain ⟨a, ha, rfl⟩ := List.mem_map.mp hd
    obtain ⟨e, -, m, hm⟩ := mem_fillActiveChannels ha
    obtain ⟨y, hy, hloop, hfd, hidx⟩ := h.owned l e.1 a.1 (Or.inr ⟨m, hm⟩)
    refine Or.inr ⟨y, hy, hloop.symm, ?_⟩
    subst hloop
    rw [← hfd] at hm
    cases (h.conn a.1 y hy).stage with
    | fresh ctx => exact absurd ctx.index hidx
    | live ctx => exact ctx
    | closed ctx index =>
      have hnone := ctx.book.interest
      rw [if_neg ctx.notAdded] at hnone
      change (s.loops y.loop).poller.interest y.conn.channel.fd = none at hnone
      rw [hnone] at hm
      simp at hm
    | gone _ index => exact absurd index hidx
  · intro f g m n c hf hg
    obtain ⟨y, hy, -, hyf, -⟩ := h.owned l f c (Or.inr ⟨m, hf⟩)
    obtain ⟨z, hz, -, hzg, -⟩ := h.owned l g c (Or.inr ⟨n, hg⟩)
    rw [hy, Option.some.injEq] at hz
    rw [← hyf, ← hzg, hz]

theorem inv_endBatch {s : TcpServer} (h : ServerInv s) (l : Nat) (done : List Task)
    (hphase : (s.loops l).phase = .running done []) : ServerInv (s.setPhase l .poll) :=
  setPhase_pass h (by rw [hphase]; rfl) (by simp [Phase.done, Phase.rest]) (by simp [Phase.active]) rfl
    List.nodup_nil

section Swap

variable (s : TcpServer) (l k : Nat)

lemma loops_swap : (s.setLoop l { s.loops l with
      phase := .running [] (s.loops l).pendingFunctors, pendingFunctors := [] }).loops k =
    if k = l then { s.loops l with
      phase := .running [] (s.loops l).pendingFunctors, pendingFunctors := [] } else s.loops k := by
  simp only [TcpServer.setLoop, Function.update_apply]

lemma todo_swap (hphase : (s.loops l).phase = .dispatch []) :
    ((s.setLoop l { s.loops l with
      phase := .running [] (s.loops l).pendingFunctors, pendingFunctors := [] }).loops k).todo =
      (s.loops k).todo := by
  rw [loops_swap]
  split
  · next hk => simp [IoLoop.todo, Phase.rest, hk, hphase]
  · rfl

lemma guardedIn_swap {d : Nat} (hg : GuardedIn (s.setLoop l { s.loops l with
      phase := .running [] (s.loops l).pendingFunctors, pendingFunctors := [] }) k d) : GuardedIn s k d := by
  unfold GuardedIn at hg
  rw [loops_swap] at hg
  split at hg
  · simp [Phase.guard] at hg
  · exact hg

/-- The swapped tasks hold what they held in the queue. -/
lemma held_swap (hphase : (s.loops l).phase = .dispatch []) {d : Nat} (h : (s.setLoop l { s.loops l with
      phase := .running [] (s.loops l).pendingFunctors, pendingFunctors := [] }).Held d) : s.Held d := by
  refine held_mono h rfl (fun x' hx' hx => Or.inl ⟨x', hx', hx⟩) ?_
    (fun k hk hg => held_of_guard hk (guardedIn_swap s l k hg))
  intro k t hk ht hholder
  refine held_of_tasks hk ?_ hholder
  rw [IoLoop.tasks, todo_swap s l k hphase] at ht
  rw [IoLoop.tasks]
  rcases List.mem_append.mp ht with ht | ht
  · rw [loops_swap] at ht
    split at ht
    · simp [Phase.done] at ht
    · exact List.mem_append_left _ ht
  · exact List.mem_append_right _ ht

end Swap

theorem inv_swap {s : TcpServer} (h : ServerInv s) (l : Nat) (hphase : (s.loops l).phase = .dispatch []) :
    ServerInv (s.setLoop l { s.loops l with
      phase := .running [] (s.loops l).pendingFunctors, pendingFunctors := [] }) := by
  refine h.pass rfl rfl rfl rfl rfl rfl ?_ (fun k => todo_swap s l k hphase) ?_
    (fun k d hg => guardedIn_swap s l k hg) (fun d hd => held_swap s l hphase hd) ?_
  · intro k
    rw [loops_swap]
    split
    · next hk => rw [hk]
    · rfl
  · intro k d ha
    unfold ActiveIn at ha
    rw [loops_swap] at ha
    split at ha
    · simp [Phase.active] at ha
    · exact Or.inl ha
  · intro k
    rw [loops_swap]
    split
    · exact List.nodup_nil
    · exact h.nodup k

/-! ### Steps on one connection -/

/-- The record that `TcpServer.store` writes. -/
def stored (x : ServerConn) (w : ConnContext Nat) (e : List LifeEvent) : ServerConn := { x with
  conn := w.conn
  sent := w.sent
  shutWr := w.shutWr
  calls := w.calls
  history := x.history ++ e }

/-- The phase of loop `l` moves on by a step that concerns `c`. -/
structure PhaseStep (s : TcpServer) (l : Nat) (ph : Phase) (c : Nat) : Prop where
  todo : ∀ d, d ≠ c → ph.rest.filter (fun t => t.holder = some d) =
    (s.loops l).phase.rest.filter (fun t => t.holder = some d)
  active : ∀ d, d ∈ ph.active → ActiveIn s l d
  guard : ∀ d, ph.guard = some d → GuardedIn s l d
  tasks : ∀ t ∈ ph.done ++ ph.rest, t ∈ (s.loops l).phase.done ++ (s.loops l).phase.rest
  functors : ∀ d f, .functor d f ∈ ph.rest → .functor d f ∈ (s.loops l).phase.rest
  nodup : (ph.guard.toList ++ ph.active).Nodup

lemma PhaseStep.activeIn {s : TcpServer} {l c k d : Nat} {ph : Phase} (h : PhaseStep s l ph c)
    (ha : ActiveIn (s.setPhase l ph) k d) : ActiveIn s k d := by
  unfold ActiveIn at ha
  rw [setPhase_phase] at ha
  split at ha
  · next hk =>
    subst hk
    exact h.active d ha
  · exact ha

lemma PhaseStep.guardedIn {s : TcpServer} {l c k d : Nat} {ph : Phase} (h : PhaseStep s l ph c)
    (hg : GuardedIn (s.setPhase l ph) k d) : GuardedIn s k d := by
  unfold GuardedIn at hg
  rw [setPhase_phase] at hg
  split at hg
  · next hk =>
    subst hk
    exact h.guard d hg
  · exact hg

lemma PhaseStep.todoOf_eq {s : TcpServer} {l c d : Nat} {ph : Phase} (h : PhaseStep s l ph c) (hd : d ≠ c)
    (k : Nat) : todoOf (s.setPhase l ph) k d = todoOf s k d := by
  unfold todoOf
  rw [todo_setPhase]
  split
  · next hk => rw [hk, IoLoop.todo, List.filter_append, List.filter_append, h.todo d hd]
  · rfl

lemma PhaseStep.functor {s : TcpServer} {l c k d : Nat} {f : Functor} {ph : Phase} (h : PhaseStep s l ph c)
    (hf : .functor d f ∈ ((s.setPhase l ph).loops k).todo) : .functor d f ∈ (s.loops k).todo := by
  rw [todo_setPhase] at hf
  split at hf
  · next hk =>
    rw [hk, IoLoop.todo]
    rcases List.mem_append.mp hf with hf | hf
    · exact List.mem_append_left _ (h.functors d f hf)
    · exact List.mem_append_right _ hf
  · exact hf

lemma PhaseStep.nodup_loops {s : TcpServer} {l c : Nat} {ph : Phase} (h : PhaseStep s l ph c)
    (hs : ServerInv s) (k : Nat) : (((s.setPhase l ph).loops k).phase.guard.toList ++
      ((s.setPhase l ph).loops k).phase.active).Nodup := by
  rw [setPhase_phase]
  split
  · exact h.nodup
  · exact hs.nodup k

/-- `s'` is `s` after `c` has become `w` and tasks that hold `c` have been queued. -/
structure StoreStep (s s' : TcpServer) (c : Nat) (x : ServerConn) (w : ConnContext Nat)
    (e : List LifeEvent) : Prop where
  conns : s'.conns = Function.update s.conns c (some (stored x w e))
  config : s'.config = s.config
  created : s'.created = s.created
  ids : s'.nextConnId = s.nextConnId
  next : s'.next = s.next
  map : ∀ name, s'.connectionMap name = s.connectionMap name ∨
    (name = x.name ∧ s'.connectionMap name = none)
  phase : ∀ k, (s'.loops k).phase = (s.loops k).phase
  poller : ∀ k, (s'.loops k).poller = if k = x.loop then w.poller else (s.loops k).poller
  todo : ∀ k d, d ≠ c → todoOf s' k d = todoOf s k d
  held : ∀ d, d ≠ c → s'.Held d → s.Held d
  functors : ∀ k d f, .functor d f ∈ (s'.loops k).todo →
    .functor d f ∈ (s.loops k).todo ∨ f ∈ w.pendingFunctors

lemma storeStep_store {s : TcpServer} {c : Nat} {x : ServerConn} (hx : s.conns c = some x)
    (w : ConnContext Nat) (e : List LifeEvent) : StoreStep s (s.store c x w e) c x w e := by
  refine ⟨rfl, rfl, rfl, rfl, rfl, fun _ => Or.inl rfl, fun k => store_phase s k c x w e,
    fun k => store_poller s k c x w e, fun k d _ => todoOf_store s k c d x w e,
    fun d _ hd => held_store hx hd, ?_⟩
  intro k d f hf
  rw [IoLoop.todo, store_phase, store_pending, ← List.append_assoc] at hf
  rcases List.mem_append.mp hf with hf | hf
  · exact Or.inl hf
  · split at hf
    · obtain ⟨g, hg, heq⟩ := List.mem_map.mp hf
      simp only [Task.functor.injEq] at heq
      exact Or.inr (heq.2 ▸ hg)
    · simp at hf

lemma StoreStep.queueInLoop {s s' : TcpServer} {c : Nat} {x : ServerConn} {w : ConnContext Nat}
    {e : List LifeEvent} (h : StoreStep s s' c x w e) (k : Nat) {t : Task} (ht : t.holder = some c) :
    StoreStep s (s'.queueInLoop k t) c x w e := by
  have hne : ∀ d, d ≠ c → t.holder ≠ some d := by
    intro d hd heq
    rw [ht, Option.some.injEq] at heq
    exact hd heq.symm
  refine ⟨h.conns, h.config, h.created, h.ids, h.next, h.map, ?_, ?_, ?_, ?_, ?_⟩
  · intro l
    rw [queueInLoop_phase]
    exact h.phase l
  · intro l
    rw [queueInLoop_poller]
    exact h.poller l
  · intro l d hd
    rw [todoOf_queueInLoop, if_neg (fun hand => hne d hd hand.2), List.append_nil]
    exact h.todo l d hd
  · intro d hd hh
    exact h.held d hd (held_queueInLoop (fun heq => absurd heq (hne d hd)) hh)
  · intro l d f hf
    rw [IoLoop.todo, queueInLoop_phase, queueInLoop_pending, ← List.append_assoc] at hf
    rcases List.mem_append.mp hf with hf | hf
    · exact h.functors l d f hf
    · split at hf
      · rw [List.mem_singleton] at hf
        rw [← hf] at ht
        simp [Task.holder] at ht
      · simp at hf

lemma held_eraseMap {s : TcpServer} {d : Nat} {name : List Char}
    (h : TcpServer.Held { s with connectionMap := Function.update s.connectionMap name none } d) :
    s.Held d := by
  refine held_mono h rfl ?_ (fun l t hl ht hh => held_of_tasks hl ht hh) (fun l hl hg => held_of_guard hl hg)
  intro x hx hor
  refine Or.inl ⟨x, hx, hor.imp_left ?_⟩
  intro hm
  by_cases hname : x.name = name
  · simp [hname] at hm
  · simpa [hname] using hm

lemma StoreStep.removeConnectionInLoop {s s' : TcpServer} {c : Nat} {x : ServerConn}
    {w : ConnContext Nat} {e : List LifeEvent} (h : StoreStep s s' c x w e) :
    StoreStep s (s'.removeConnectionInLoop c x) c x w e := by
  have herase : StoreStep s
      { s' with connectionMap := Function.update s'.connectionMap x.name none } c x w e := by
    refine ⟨h.conns, h.config, h.created, h.ids, h.next, ?_, h.phase, h.poller, h.todo,
      fun d hd hh => h.held d hd (held_eraseMap hh), h.functors⟩
    intro name
    by_cases hname : name = x.name
    · subst hname
      exact Or.inr ⟨rfl, by simp⟩
    · rcases h.map name with hm | ⟨hm, -⟩
      · exact Or.inl (by simpa [hname] using hm)
      · exact absurd hm hname
  exact herase.queueInLoop x.loop rfl

/-- What the functions of a connection do to the parts of it that the server looks at. -/
structure ContextStep (s : TcpServer) (c : Nat) (x : ServerConn) (w : ConnContext Nat) : Prop where
  key : w.key = c
  fd : w.conn.channel.fd = x.conn.channel.fd
  callbacks : w.conn.callbacks = x.conn.callbacks
  queued : Notifications w.pendingFunctors
  change : (w.poller = (s.loops x.loop).poller ∧ w.conn.channel.index = x.conn.channel.index) ∨
    (s.Held c ∧ SameElsewhere x.conn.channel.fd (s.loops x.loop).poller w.poller ∧
      Bookkept w.poller c w.conn.channel)

section ContextSteps

variable {s : TcpServer} {c : Nat} {x : ServerConn} {w : ConnContext Nat}

lemma contextStep_live (h : LiveStep (s.context c x) w) (hh : s.Held c) : ContextStep s c x w := by
  obtain ⟨fs, hfs, hn⟩ := h.queued
  have hw : w.pendingFunctors = fs := hfs
  have hkey : w.key = c := h.key
  refine ⟨hkey, h.fd, h.callbacks, hw ▸ hn, Or.inr ⟨hh, h.elsewhere, ?_⟩⟩
  rw [← hkey]
  exact h.live.reg.book

lemma contextStep_up {calls : List UserCall} (h : UpStep (s.context c x) w calls) (hh : s.Held c) :
    ContextStep s c x w := by
  obtain ⟨fs, hfs, hn⟩ := h.queued
  have hw : w.pendingFunctors = fs := hfs
  have hkey : w.key = c := h.key
  refine ⟨hkey, h.fd, h.callbacks, hw ▸ hn, Or.inr ⟨hh, h.elsewhere, ?_⟩⟩
  rw [← hkey]
  exact h.live.reg.book

lemma contextStep_down {calls : List UserCall} (h : DownStep (s.context c x) w calls) (hh : s.Held c) :
    ContextStep s c x w := by
  have hw : w.pendingFunctors = [] := h.queued
  have hkey : w.key = c := h.key
  refine ⟨hkey, h.fd, h.callbacks, by rw [hw]; simp [Notifications], Or.inr ⟨hh, h.elsewhere, ?_⟩⟩
  rw [← hkey]
  exact h.dead.book

lemma contextStep_remove {calls : List UserCall} (h : RemoveStep (s.context c x) w calls) (hh : s.Held c) :
    ContextStep s c x w := by
  have hw : w.pendingFunctors = [] := h.queued
  have hkey : w.key = c := h.key
  refine ⟨hkey, h.fd, h.callbacks, by rw [hw]; simp [Notifications], Or.inr ⟨hh, h.elsewhere, ?_⟩⟩
  rw [← hkey]
  exact h.dead.book

lemma contextStep_idle (h : IdleStep (s.context c x) w) : ContextStep s c x w := by
  have hw : w.pendingFunctors = [] := h.queued
  refine ⟨h.key, by rw [h.channel]; rfl, h.callbacks, by rw [hw]; simp [Notifications], Or.inl ⟨h.poller, ?_⟩⟩
  rw [h.channel]
  rfl

end ContextSteps

lemma ServerInv.held_of_guardedIn {s : TcpServer} (h : ServerInv s) {l d : Nat} (hg : GuardedIn s l d) :
    s.Held d := by
  cases hy : s.conns d with
  | none => exact absurd hg (h.unborn d hy l).2.2
  | some y =>
    have hyinv := h.conn d y hy
    have hl := hyinv.home l (Or.inr hg)
    exact held_of_guard (hl ▸ hyinv.loop) hg

theorem inv_storeStep {s s' : TcpServer} {c l : Nat} {x : ServerConn} {w : ConnContext Nat}
    {e : List LifeEvent} {ph : Phase} (h : ServerInv s) (hx : s.conns c = some x)
    (hph : PhaseStep s l ph c) (hs : StoreStep (s.setPhase l ph) s' c x w e) (hw : ContextStep s c x w)
    (hheld : s'.Held c → s.Held c) (hstage : Stage s' c (stored x w e)) : ServerInv s' := by
  have hactive : ∀ k d, ActiveIn s' k d → ActiveIn s k d := by
    intro k d ha
    unfold ActiveIn at ha
    rw [hs.phase] at ha
    exact hph.activeIn ha
  have hguard : ∀ k d, GuardedIn s' k d → GuardedIn s k d := by
    intro k d hg
    unfold GuardedIn at hg
    rw [hs.phase] at hg
    exact hph.guardedIn hg
  have hxinv := h.conn c x hx
  have hheldAll : ∀ d, s'.Held d → s.Held d := by
    intro d hd
    by_cases hdc : d = c
    · rw [hdc] at hd ⊢
      exact hheld hd
    · refine held_setPhase hph.tasks (fun hg => ?_) (hs.held d hdc hd)
      exact h.held_of_guardedIn (hph.guard d hg)
  refine h.act hx hs.conns hs.config hs.created hs.ids hs.next ?_ hs.map rfl hheldAll
    ⟨?_, rfl, hw.fd, ?_⟩ ⟨?_, ?_, ?_, ?_, ?_, hstage⟩ ?_ ?_
  · intro d hd
    exact ⟨fun k => (hs.todo k d hd).trans (hph.todoOf_eq hd k), fun k => hactive k d, fun k => hguard k d⟩
  · intro k hk
    rw [hs.poller, if_neg hk, setPhase_poller]
  · rw [hs.poller, if_pos rfl]
    exact hw.change
  · rw [hs.created]
    exact hxinv.bound
  · rw [hs.config]
    exact hxinv.loop
  · rw [hs.config]
    exact hxinv.name
  · change w.conn.callbacks.close = true
    rw [hw.callbacks]
    exact hxinv.close
  · intro k hk
    exact hxinv.home k (hk.imp (hactive k c) (hguard k c))
  · intro k
    rw [hs.phase]
    exact hph.nodup_loops h k
  · intro k d f hf
    rcases hs.functors k d f hf with hf | hf
    · exact Or.inl (hph.functor hf)
    · exact Or.inr (hw.queued f hf)

section StageSteps

variable {s : TcpServer} {c l : Nat} {x : ServerConn}

lemma context_setPhase (ph : Phase) : (s.setPhase l ph).context c x = s.context c x := by
  unfold TcpServer.context
  rw [setPhase_poller]
  rfl

lemma Task.conn_of_holder {t : Task} {d : Nat} (h : t.holder = some d) : t.conn = d := by
  cases t <;> simp_all [Task.holder, Task.conn]

lemma phaseStep_same (h : ServerInv s) : PhaseStep s l (s.loops l).phase c :=
  ⟨fun _ _ => rfl, fun _ ha => ha, fun _ hg => hg, fun _ ht => ht, fun _ _ hf => hf, h.nodup l⟩

lemma phaseStep_runTask {done rest : List Task} {t : Task} (ht : t.conn = c)
    (hphase : (s.loops l).phase = .running done (t :: rest)) :
    PhaseStep s l (.running (done ++ [t]) rest) c := by
  refine ⟨?_, by simp [Phase.active], by simp [Phase.guard], ?_, ?_, by simp [Phase.active, Phase.guard]⟩
  · intro d hd
    have hne : t.holder ≠ some d := fun heq => hd ((Task.conn_of_holder heq).symm.trans ht)
    rw [hphase]
    simp [Phase.rest, hne]
  · intro u hu
    rw [hphase]
    simpa [Phase.done, Phase.rest] using hu
  · intro d f hf
    rw [hphase]
    exact List.mem_cons_of_mem _ hf

lemma phaseStep_handler (h : ServerInv s) {revent : EventMask} {hd : Handler}
    {active : List (Nat × EventMask)} (hphase : (s.loops l).phase = .handling c revent hd active) :
    PhaseStep s l (Phase.afterHandler c revent active hd) c := by
  have hnodup := h.nodup l
  rw [hphase] at hnodup
  unfold Phase.afterHandler
  cases hd.next with
  | none =>
    refine ⟨by simp [hphase, Phase.rest], ?_, by simp [Phase.guard], by simp [Phase.done, Phase.rest],
      by simp [Phase.rest], ?_⟩
    · intro d hd
      unfold ActiveIn
      rw [hphase]
      exact hd
    · exact (List.nodup_append.mp hnodup).2.1
  | some hd' =>
    refine ⟨by simp [hphase, Phase.rest], ?_, ?_, by simp [Phase.done, Phase.rest],
      by simp [Phase.rest], hnodup⟩
    · intro d hd
      unfold ActiveIn
      rw [hphase]
      exact hd
    · intro d hd
      unfold GuardedIn
      rw [hphase]
      exact hd

lemma todoOf_runTask {done rest : List Task} {t : Task} (k : Nat)
    (hphase : (s.loops l).phase = .running done (t :: rest)) :
    todoOf s k c = (if k = l ∧ t.holder = some c then [t] else []) ++
      todoOf (s.setPhase l (.running (done ++ [t]) rest)) k c := by
  unfold todoOf
  rw [todo_setPhase]
  by_cases hk : k = l
  · subst hk
    rw [if_pos rfl, IoLoop.todo, hphase]
    by_cases ht : t.holder = some c
    · simp [Phase.rest, ht]
    · simp [Phase.rest, ht]
  · simp [hk]

lemma live_context {s' : TcpServer} {x' : ServerConn} {w : ConnContext Nat} (h : Live w) (hkey : w.key = c)
    (hconn : x'.conn = w.conn) (hpoll : (s'.loops x'.loop).poller = w.poller) :
    Live (s'.context c x') := by
  have hbook := h.reg.book
  rw [hkey, ← hpoll, ← hconn] at hbook
  refine ⟨⟨hbook, ?_, ?_⟩, ?_⟩
  · change x'.conn.channel.index = .kAdd
    rw [hconn]
    exact h.reg.added
  · change x'.conn.channel.events.epollin = true
    rw [hconn]
    exact h.reg.reading
  · change x'.conn.state = .kConnected ∨ x'.conn.state = .kDisConnecting
    rw [hconn]
    exact h.opn

lemma dead_context {s' : TcpServer} {x' : ServerConn} {w : ConnContext Nat} (h : Dead w) (hkey : w.key = c)
    (hconn : x'.conn = w.conn) (hpoll : (s'.loops x'.loop).poller = w.poller) :
    Dead (s'.context c x') := by
  have hbook := h.book
  rw [hkey, ← hpoll, ← hconn] at hbook
  refine ⟨?_, hbook, ?_, ?_⟩
  · change x'.conn.state = .kDisConnected
    rw [hconn]
    exact h.state
  · change x'.conn.channel.events = kNoneEvent
    rw [hconn]
    exact h.none
  · change x'.conn.channel.index ≠ .kAdd
    rw [hconn]
    exact h.notAdded

lemma fresh_context {s' : TcpServer} {x' : ServerConn} {w : ConnContext Nat} (h : Fresh w) (hkey : w.key = c)
    (hconn : x'.conn = w.conn) (hpoll : (s'.loops x'.loop).poller = w.poller) :
    Fresh (s'.context c x') := by
  have hbook := h.book
  rw [hkey, ← hpoll, ← hconn] at hbook
  refine ⟨?_, hbook, ?_, ?_⟩
  · change x'.conn.state = .kConnecting
    rw [hconn]
    exact h.state
  · change x'.conn.channel.index = .kNew
    rw [hconn]
    exact h.index
  · change x'.conn.channel.events = kNoneEvent
    rw [hconn]
    exact h.none

/-- A step that keeps a live connection live, does nothing to another one, and leaves its
tasks alone, keeps the stage. -/
lemma Stage.quiet {s' : TcpServer} {w : ConnContext Nat} (h : Stage s c x)
    (hlive : Live (s.context c x) → LiveStep (s.context c x) w)
    (hidle : ¬Live (s.context c x) → IdleStep (s.context c x) w)
    (htodo : ∀ k, todoOf s' k c = todoOf s k c)
    (hmap : s'.connectionMap x.name = s.connectionMap x.name)
    (hactive : ∀ k, ActiveIn s' k c → ActiveIn s k c) (hguard : ∀ k, GuardedIn s' k c → GuardedIn s k c)
    (hheld : s'.Held c → s.Held c) (hpoll : (s'.loops x.loop).poller = w.poller) :
    Stage s' c (stored x w []) := by
  have hmap' : InMap s' c (stored x w []) ↔ InMap s c x := by
    unfold InMap
    rw [show (stored x w []).name = x.name from rfl, hmap]
  have htasks : CloseTasks s c x → CloseTasks s' c (stored x w []) := by
    intro ht k t hmem
    rw [htodo k] at hmem
    exact ht k t hmem
  have hhist : (stored x w []).history = x.history := List.append_nil _
  cases h with
  | fresh ctx history inMap task others idle free =>
    have hw := hidle (not_live_of_index (by rw [show x.conn.channel.index = .kNew from ctx.index]; simp))
    exact Stage.fresh (fresh_context (hw.fresh ctx) hw.key rfl hpoll) (hhist.trans history)
      (hmap'.mpr inMap) ((htodo x.loop).trans task) (fun k hk => (htodo k).trans (others k hk))
      (fun k ha => idle k (hactive k ha)) (fun k hg => free k (hguard k hg))
  | live ctx history inMap task =>
    have hw := hlive ctx
    refine Stage.live (live_context hw.live hw.key rfl hpoll) ?_ (hmap'.mpr inMap)
      (fun k => (htodo k).trans (task k))
    rw [hhist]
    exact history
  | closed ctx index history tasks mapped unmapped idle =>
    have hw := hidle (not_live_of_index (by rw [index]; simp))
    refine Stage.closed (dead_context (hw.dead ctx) hw.key rfl hpoll) ?_ (by rw [hhist]; exact history)
      (htasks tasks) ?_ ?_ (fun k ha => idle k (hactive k ha))
    · change w.conn.channel.index = .kDelete
      rw [hw.channel]
      exact index
    · intro hm
      obtain ⟨hrem, hdes⟩ := mapped (hmap'.mp hm)
      exact ⟨by rw [htodo]; exact hrem, fun k => by rw [htodo]; exact hdes k⟩
    · intro hm
      rw [htodo]
      exact unmapped (fun hm' => hm (hmap'.mpr hm'))
  | gone state index none history tasks unmapped idle free book =>
    have hw := hidle (not_live_of_index (by rw [index]; simp))
    have hchan : w.conn.channel = x.conn.channel := hw.channel
    refine Stage.gone (hw.state.trans state) ?_ ?_ (by rw [hhist]; exact history) (htasks tasks)
      (fun hm => unmapped (hmap'.mp hm)) (fun k ha => idle k (hactive k ha))
      (fun k hg => free k (hguard k hg)) ?_
    · change w.conn.channel.index = .kNew
      rw [hchan]
      exact index
    · change w.conn.channel.events = kNoneEvent
      rw [hchan]
      exact none
    · intro hh
      change Bookkept (s'.loops x.loop).poller c w.conn.channel
      rw [hpoll, hw.poller, hchan]
      exact book (hheld hh)

lemma ConnInv.held_of_live (h : ConnInv s c x) (hx : s.conns c = some x) (hl : Live (s.context c x)) :
    s.Held c := by
  have hadd : x.conn.channel.index = .kAdd := hl.reg.added
  exact h.held hx (Or.inl (by rw [hadd]; simp))

theorem inv_quiet {ph : Phase} {w : ConnContext Nat} (h : ServerInv s) (hx : s.conns c = some x)
    (hph : PhaseStep s l ph c) (htodo : ∀ k, todoOf (s.setPhase l ph) k c = todoOf s k c)
    (hlive : Live (s.context c x) → LiveStep (s.context c x) w)
    (hidle : ¬Live (s.context c x) → IdleStep (s.context c x) w) :
    ServerInv ((s.setPhase l ph).store c x w []) := by
  have hw : ContextStep s c x w := by
    by_cases hl : Live (s.context c x)
    · exact contextStep_live (hlive hl) ((h.conn c x hx).held_of_live hx hl)
    · exact contextStep_idle (hidle hl)
  have hheld : ((s.setPhase l ph).store c x w []).Held c → s.Held c := by
    intro hh
    have hh' : (s.setPhase l ph).Held c := held_store hx hh
    exact held_setPhase hph.tasks (fun hg => h.held_of_guardedIn (hph.guard c hg)) hh'
  have hx₁ : (s.setPhase l ph).conns c = some x := hx
  refine inv_storeStep h hx hph (storeStep_store hx₁ w []) hw hheld ?_
  refine (h.conn c x hx).stage.quiet hlive hidle (fun k => by rw [todoOf_store, htodo]) rfl ?_ ?_ hheld ?_
  · intro k ha
    exact hph.activeIn ((activeIn_store _ k c c x w []).mp ha)
  · intro k hg
    exact hph.guardedIn ((guardedIn_store _ k c c x w []).mp hg)
  · rw [store_poller, if_pos rfl]

/-- A connection that is not live does not take output. -/
lemma Stage.not_connected (h : Stage s c x) (hl : ¬Live (s.context c x)) :
    (s.context c x).conn.state ≠ .kConnected := by
  cases h with
  | fresh ctx => exact ctx.not_connected
  | live ctx => exact absurd ctx hl
  | closed ctx => exact ctx.not_connected
  | gone state =>
    change x.conn.state ≠ .kConnected
    rw [state]
    simp

theorem inv_appCalls {ph : Phase} (h : ServerInv s) (hx : s.conns c = some x) (hph : PhaseStep s l ph c)
    (htodo : ∀ k, todoOf (s.setPhase l ph) k c = todoOf s k c) (app : List AppCall) :
    ServerInv ((s.setPhase l ph).store c x ((s.context c x).appCalls app) []) :=
  inv_quiet h hx hph htodo (fun hl => liveStep_appCalls hl app)
    (fun hl => idleStep_appCalls ((h.conn c x hx).stage.not_connected hl) app)

end StageSteps

end MylibMuduo.Proofs
