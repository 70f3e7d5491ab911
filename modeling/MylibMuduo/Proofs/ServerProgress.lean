import MylibMuduo.Proofs.LoopConfinement
import MylibMuduo.Proofs.LoopProgress

/-!
# Progress of connections

A task in the queue of a loop of the server is run within a number of steps of that loop that can be
read off the loop. So an accepted connection is established within a number of steps of its io loop,
and a closed one is destroyed within a number of steps of the base loop, which takes it out of the
map, and after that of its io loop.
-/

namespace MylibMuduo

/-- The step is a step of loop `l` through its iteration. -/
def ServerStep.turns (l : Nat) : ServerStep → Bool
  | .poll k _ => decide (k = l)
  | .handleEvent k => decide (k = l)
  | .handler k _ => decide (k = l)
  | .swap k => decide (k = l)
  | .runTask k _ _ => decide (k = l)
  | .endBatch k => decide (k = l)
  | _ => false

namespace Proofs

/-- `poll` fills `event_list_` at most. -/
def serverFits (_ : TcpServer) : ServerStep → Prop
  | .poll _ events => events.length ≤ kEpollEventListSize
  | _ => True

instance (s : TcpServer) (a : ServerStep) : Decidable (serverFits s a) := by
  unfold serverFits
  split
  · infer_instance
  · infer_instance

/-! ### What a step does to a loop -/

/-- What the steps of loop `l` other than the swap do to its phase. -/
inductive LoopTurn (l : Nat) (L : IoLoop) : ServerStep → Phase → Prop
  | poll {events active : List (Nat × EventMask)} (hphase : L.phase = .poll)
      (hlength : active.length ≤ events.length) : LoopTurn l L (.poll l events) (.dispatch active)
  | skip {c : Nat} {revent : EventMask} {active : List (Nat × EventMask)}
      (hphase : L.phase = .dispatch ((c, revent) :: active)) : LoopTurn l L (.handleEvent l) (.dispatch active)
  | handleEvent {c : Nat} {revent : EventMask} {active : List (Nat × EventMask)}
      (hphase : L.phase = .dispatch ((c, revent) :: active)) :
      LoopTurn l L (.handleEvent l) (.handling c revent .close active)
  | handler {i : ConnContext.EventInput} {c : Nat} {revent : EventMask} {h : Handler}
      {active : List (Nat × EventMask)} (hphase : L.phase = .handling c revent h active) :
      LoopTurn l L (.handler l i) (Phase.afterHandler c revent active h)
  | runTask {r : SysResult} {app : List AppCall} {done rest : List Task} {t : Task}
      (hphase : L.phase = .running done (t :: rest)) : LoopTurn l L (.runTask l r app) (.running (done ++ [t]) rest)
  | endBatch {done : List Task} (hphase : L.phase = .running done []) : LoopTurn l L (.endBatch l) .poll

variable {s s' : TcpServer} {l : Nat}

/-- Loop `l` stays where it is, and its queue may have grown. -/
structure LoopGrows (l : Nat) (s s' : TcpServer) : Prop where
  phase : (s'.loops l).phase = (s.loops l).phase
  queue : (s.loops l).pendingFunctors <+: (s'.loops l).pendingFunctors

lemma LoopGrows.trans {s₁ s₂ s₃ : TcpServer} (h₁ : LoopGrows l s₁ s₂) (h₂ : LoopGrows l s₂ s₃) : LoopGrows l s₁ s₃ :=
  ⟨h₂.phase.trans h₁.phase, h₁.queue.trans h₂.queue⟩

lemma loopGrows_of_eq (h : s'.loops l = s.loops l) : LoopGrows l s s' :=
  ⟨by rw [h], by rw [h]⟩

lemma loopGrows_queueInLoop (s : TcpServer) (k : Nat) (t : Task) : LoopGrows l s (s.queueInLoop k t) :=
  ⟨queueInLoop_phase s k l t, by rw [queueInLoop_pending]; exact List.prefix_append _ _⟩

lemma loopGrows_store (s : TcpServer) (c : Nat) (x : ServerConn) (w : ConnContext Nat) (e : List LifeEvent) :
    LoopGrows l s (s.store c x w e) :=
  ⟨store_phase s l c x w e, by rw [store_pending]; exact List.prefix_append _ _⟩

lemma loopGrows_removeConnectionInLoop (s : TcpServer) (c : Nat) (x : ServerConn) :
    LoopGrows l s (s.removeConnectionInLoop c x) := by
  have herased := loopGrows_queueInLoop (l := l)
    { s with connectionMap := Function.update s.connectionMap x.name none } x.loop (.connectionDestroyed c)
  exact ⟨herased.phase, herased.queue⟩

lemma loopGrows_closeCallback (s : TcpServer) (k c : Nat) (x : ServerConn) (w : ConnContext Nat) :
    LoopGrows l s (s.closeCallback k c x w) := by
  unfold TcpServer.closeCallback TcpServer.removeConnection
  split
  · split
    · exact loopGrows_removeConnectionInLoop s c x
    · exact loopGrows_queueInLoop s 0 _
  · exact loopGrows_of_eq rfl

lemma loopGrows_acceptorHandleRead (s : TcpServer) (r : Option Nat) : LoopGrows l s (s.acceptorHandleRead r) := by
  match r with
  | none => exact loopGrows_of_eq rfl
  | some 0 => exact loopGrows_of_eq rfl
  | some (fd + 1) =>
    refine ⟨newConnection_phase s (fd + 1) l, ?_⟩
    have hqueue : ((s.newConnection (fd + 1)).loops l).pendingFunctors = (s.loops l).pendingFunctors ++
        if l = s.getNextLoop.1 then [.connectionEstablished s.created] else [] := queueInLoop_pending _ _ l _
    change _ <+: ((s.newConnection (fd + 1)).loops l).pendingFunctors
    rw [hqueue]
    exact List.prefix_append _ _

lemma loopGrows_runTask (s : TcpServer) (r : SysResult) (app : List AppCall) (x : ServerConn) (t : Task) :
    LoopGrows l s (s.runTask r app x t) := by
  cases t with
  | removeConnectionInLoop c => exact loopGrows_removeConnectionInLoop s c x
  | _ => exact loopGrows_store s _ x _ _

/-- A step of another loop, or of no loop, leaves loop `l` where it is. A step of loop `l` takes it
through its iteration. -/
theorem loop_turn {a : ServerStep} (l : Nat) (htrans : ServerTrans s a s') :
    (a.turns l = false ∧ LoopGrows l s s') ∨
    (∃ ph, LoopTurn l (s.loops l) a ph ∧ LoopGrows l (s.setPhase l ph) s') ∨
    (a = .swap l ∧ (s.loops l).phase = .dispatch [] ∧ (s'.loops l).phase = .running [] (s.loops l).pendingFunctors) := by
  have hother : ∀ {k : Nat} {L : IoLoop}, l ≠ k → LoopGrows l s (s.setLoop k L) := fun hk =>
    loopGrows_of_eq (Function.update_of_ne hk _ _)
  cases htrans with
  | @poll k events hphase hnodup =>
    by_cases hk : l = k
    · subst hk
      exact Or.inr (Or.inl ⟨_, .poll hphase (List.length_filterMap_le _ _), loopGrows_of_eq rfl⟩)
    · exact Or.inl ⟨decide_eq_false (Ne.symm hk), hother hk⟩
  | accept hclosed => exact Or.inl ⟨rfl, loopGrows_acceptorHandleRead s _⟩
  | @skip k c revent active hphase x hx hheld =>
    by_cases hk : l = k
    · subst hk
      exact Or.inr (Or.inl ⟨_, .skip hphase, loopGrows_of_eq rfl⟩)
    · exact Or.inl ⟨decide_eq_false (Ne.symm hk), hother hk⟩
  | @handleEvent k c revent active hphase x hx =>
    by_cases hk : l = k
    · subst hk
      exact Or.inr (Or.inl ⟨_, .handleEvent hphase, loopGrows_of_eq rfl⟩)
    · exact Or.inl ⟨decide_eq_false (Ne.symm hk), (hother hk).trans (loopGrows_of_eq rfl)⟩
  | @handler k i c revent hd active hphase x hx =>
    have hrest := (loopGrows_store (l := l) (s.setPhase k (Phase.afterHandler c revent active hd)) c x
      ((s.context c x).runHandler revent i hd) []).trans
      (loopGrows_closeCallback _ k c x ((s.context c x).runHandler revent i hd))
    by_cases hk : l = k
    · subst hk
      exact Or.inr (Or.inl ⟨_, .handler hphase, hrest⟩)
    · exact Or.inl ⟨decide_eq_false (Ne.symm hk), (hother hk).trans hrest⟩
  | @swap k hphase =>
    by_cases hk : l = k
    · subst hk
      exact Or.inr (Or.inr ⟨rfl, hphase, by simp [TcpServer.setLoop]⟩)
    · exact Or.inl ⟨decide_eq_false (Ne.symm hk), hother hk⟩
  | @runTask k r app done t rest hphase x hx =>
    have hrest := loopGrows_runTask (l := l) (s.setPhase k (.running (done ++ [t]) rest)) r app x t
    by_cases hk : l = k
    · subst hk
      exact Or.inr (Or.inl ⟨_, .runTask hphase, hrest⟩)
    · exact Or.inl ⟨decide_eq_false (Ne.symm hk), (hother hk).trans hrest⟩
  | @endBatch k done hphase =>
    by_cases hk : l = k
    · subst hk
      exact Or.inr (Or.inl ⟨_, .endBatch hphase, loopGrows_of_eq rfl⟩)
    · exact Or.inl ⟨decide_eq_false (Ne.symm hk), hother hk⟩
  | app hx => exact Or.inl ⟨rfl, loopGrows_store s _ _ _ _⟩
  | hold hx => exact Or.inl ⟨rfl, loopGrows_of_eq rfl⟩
  | release hx => exact Or.inl ⟨rfl, loopGrows_of_eq rfl⟩

/-! ### The wait of a task -/

/-- The tests of `handleEventWithGuard` from `h` on. -/
def handlerSteps : Handler → Nat
  | .close => 4
  | .read => 3
  | .write => 2
  | .error => 1

/-- The steps of a loop until its queue has become its batch, with a full `event_list_` in each `poll`. -/
def stepsToBatch : Phase → Nat
  | .poll => 5 * kEpollEventListSize + 2
  | .dispatch active => 5 * active.length + 1
  | .handling _ _ h active => handlerSteps h + 5 * active.length + 1
  | .running _ rest => rest.length + 5 * kEpollEventListSize + 3

/-- The steps of the loop until it has run the task `t`. -/
def stepsToRun (t : Task) (L : IoLoop) : Nat :=
  if t ∈ L.phase.rest then L.phase.rest.idxOf t + 1 else stepsToBatch L.phase + L.pendingFunctors.idxOf t + 1

lemma stepsToRun_pos (t : Task) (L : IoLoop) : 0 < stepsToRun t L := by
  unfold stepsToRun
  split
  · exact Nat.succ_pos _
  · exact Nat.succ_pos _

lemma stepsToRun_of_batch {t : Task} {L : IoLoop} {b : List Task} (hrest : L.phase.rest = b) (h : t ∈ b) :
    stepsToRun t L = b.idxOf t + 1 := by
  subst hrest
  exact if_pos h

lemma stepsToRun_of_queue {t : Task} {L : IoLoop} {b : List Task} (hrest : L.phase.rest = b) (h : t ∉ b) :
    stepsToRun t L = stepsToBatch L.phase + L.pendingFunctors.idxOf t + 1 := by
  subst hrest
  exact if_neg h

/-- New tasks come after the ones that wait. -/
lemma LoopGrows.stepsToRun {t : Task} (h : LoopGrows l s s') (ht : t ∈ (s.loops l).todo) :
    t ∈ (s'.loops l).todo ∧ Proofs.stepsToRun t (s'.loops l) = Proofs.stepsToRun t (s.loops l) := by
  obtain ⟨new, hnew⟩ := h.queue
  unfold IoLoop.todo at ht ⊢
  refine ⟨?_, ?_⟩
  · rw [h.phase, ← hnew, ← List.append_assoc]
    exact List.mem_append_left _ ht
  · by_cases hrest : t ∈ (s.loops l).phase.rest
    · rw [stepsToRun_of_batch (by rw [h.phase]) hrest, stepsToRun_of_batch rfl hrest]
    · have hpending := (List.mem_append.mp ht).resolve_left hrest
      rw [stepsToRun_of_queue (by rw [h.phase]) hrest, stepsToRun_of_queue rfl hrest, h.phase, ← hnew,
        List.idxOf_append_of_mem hpending]

/-- A phase without batch that is nearer to the swap. -/
lemma stepsToRun_idle {t : Task} {L : IoLoop} {ph : Phase} (hrest : L.phase.rest = []) (hrest' : ph.rest = [])
    (hless : stepsToBatch ph + 1 ≤ stepsToBatch L.phase) (ht : t ∈ L.todo) :
    t ∈ IoLoop.todo { L with phase := ph } ∧ stepsToRun t { L with phase := ph } + 1 ≤ stepsToRun t L := by
  have hqueue : t ∈ L.pendingFunctors := by
    unfold IoLoop.todo at ht
    rwa [hrest, List.nil_append] at ht
  refine ⟨List.mem_append_right _ hqueue, ?_⟩
  have hbefore := stepsToRun_of_queue hrest (List.not_mem_nil (a := t))
  have hafter := stepsToRun_of_queue (L := { L with phase := ph }) hrest' (List.not_mem_nil (a := t))
  rw [hbefore, hafter]
  dsimp only
  omega

lemma stepsToBatch_afterHandler (c : Nat) (revent : EventMask) (active : List (Nat × EventMask)) (h : Handler) :
    stepsToBatch (Phase.afterHandler c revent active h) + 1 ≤ stepsToBatch (.handling c revent h active) := by
  cases h with
  | error => simp only [Phase.afterHandler, Handler.next, stepsToBatch, handlerSteps]; omega
  | _ => simp only [Phase.afterHandler, Handler.next, stepsToBatch, handlerSteps]; omega

/-- A step of the loop runs the task or brings it nearer. -/
lemma LoopTurn.stepsToRun {t : Task} {a : ServerStep} {ph : Phase} (h : LoopTurn l (s.loops l) a ph)
    (hfits : serverFits s a) (ht : t ∈ (s.loops l).todo) :
    (∃ done rest, (s.loops l).phase = .running done (t :: rest)) ∨
      t ∈ IoLoop.todo { s.loops l with phase := ph } ∧
        Proofs.stepsToRun t { s.loops l with phase := ph } + 1 ≤ Proofs.stepsToRun t (s.loops l) := by
  cases h with
  | @poll events active hphase hlength =>
    have hevents : events.length ≤ kEpollEventListSize := hfits
    refine Or.inr (stepsToRun_idle (by rw [hphase]; rfl) rfl ?_ ht)
    rw [hphase]
    simp only [stepsToBatch]
    omega
  | skip hphase =>
    refine Or.inr (stepsToRun_idle (by rw [hphase]; rfl) rfl ?_ ht)
    rw [hphase]
    simp only [stepsToBatch, List.length_cons]
    omega
  | handleEvent hphase =>
    refine Or.inr (stepsToRun_idle (by rw [hphase]; rfl) rfl ?_ ht)
    rw [hphase]
    simp only [stepsToBatch, handlerSteps, List.length_cons]
    omega
  | @handler i c revent hd active hphase =>
    have hidle : (Phase.afterHandler c revent active hd).rest = [] := by
      unfold Phase.afterHandler
      split <;> rfl
    refine Or.inr (stepsToRun_idle (by rw [hphase]; rfl) hidle ?_ ht)
    rw [hphase]
    exact stepsToBatch_afterHandler c revent active hd
  | @runTask r app done rest u hphase =>
    by_cases hu : u = t
    · exact Or.inl ⟨done, rest, hu ▸ hphase⟩
    · right
      have hmem : t ∈ rest ++ (s.loops l).pendingFunctors := by
        unfold IoLoop.todo at ht
        rw [hphase] at ht
        exact (List.mem_cons.mp ht).resolve_left (Ne.symm hu)
      refine ⟨hmem, ?_⟩
      by_cases hrest : t ∈ rest
      · have hbefore := stepsToRun_of_batch (L := s.loops l) (by rw [hphase]; rfl) (List.mem_cons_of_mem u hrest)
        have hafter := stepsToRun_of_batch (b := rest)
          (L := { s.loops l with phase := .running (done ++ [u]) rest }) rfl hrest
        rw [hbefore, hafter, List.idxOf_cons_ne _ hu]
      · have hbefore := stepsToRun_of_queue (t := t) (L := s.loops l) (b := u :: rest) (by rw [hphase]; rfl)
          (by simp [hrest, Ne.symm hu])
        have hafter := stepsToRun_of_queue (b := rest)
          (L := { s.loops l with phase := .running (done ++ [u]) rest }) rfl hrest
        rw [hbefore, hafter, hphase]
        simp only [stepsToBatch, List.length_cons]
        omega
  | endBatch hphase =>
    refine Or.inr (stepsToRun_idle (by rw [hphase]; rfl) rfl ?_ ht)
    rw [hphase]
    simp only [stepsToBatch, List.length_nil]
    omega

/-- The task comes into the batch at its place in the queue. -/
lemma stepsToRun_swap {t : Task} (hphase : (s.loops l).phase = .dispatch [])
    (hphase' : (s'.loops l).phase = .running [] (s.loops l).pendingFunctors) (ht : t ∈ (s.loops l).todo) :
    t ∈ (s'.loops l).todo ∧ stepsToRun t (s'.loops l) + 1 ≤ stepsToRun t (s.loops l) := by
  have hqueue : t ∈ (s.loops l).pendingFunctors := by
    unfold IoLoop.todo at ht
    rwa [hphase] at ht
  have hrest' : (s'.loops l).phase.rest = (s.loops l).pendingFunctors := by rw [hphase']; rfl
  refine ⟨List.mem_append_left _ (hrest' ▸ hqueue), ?_⟩
  have hbefore := stepsToRun_of_queue (L := s.loops l) (by rw [hphase]; rfl) (List.not_mem_nil (a := t))
  rw [stepsToRun_of_batch hrest' hqueue, hbefore, hphase]
  simp only [stepsToBatch, List.length_nil]
  omega

theorem task_progress {t : Task} {a : ServerStep} (htrans : ServerTrans s a s') (hfits : serverFits s a)
    (ht : t ∈ (s.loops l).todo) :
    (a.turns l = true ∧ ∃ done rest, (s.loops l).phase = .running done (t :: rest)) ∨
      t ∈ (s'.loops l).todo ∧
        stepsToRun t (s'.loops l) + (if a.turns l then 1 else 0) ≤ stepsToRun t (s.loops l) := by
  rcases loop_turn l htrans with ⟨hother, hgrows⟩ | ⟨ph, hturn, hgrows⟩ | ⟨rfl, hphase, hphase'⟩
  · obtain ⟨hmem, heq⟩ := hgrows.stepsToRun ht
    right
    rw [hother]
    exact ⟨hmem, Nat.le_of_eq heq⟩
  · have hown : a.turns l = true := by
      cases hturn <;> exact decide_eq_true rfl
    rcases hturn.stepsToRun hfits ht with hruns | ⟨hmem, hless⟩
    · exact Or.inl ⟨hown, hruns⟩
    · right
      have hloop : (s.setPhase l ph).loops l = { s.loops l with phase := ph } := Function.update_self _ _ _
      rw [← hloop] at hmem hless
      obtain ⟨hmem', heq⟩ := hgrows.stepsToRun hmem
      rw [hown, if_pos rfl, heq]
      exact ⟨hmem', hless⟩
  · obtain ⟨hmem, hless⟩ := stepsToRun_swap hphase hphase' ht
    right
    rw [show ServerStep.turns l (.swap l) = true from decide_eq_true rfl, if_pos rfl]
    exact ⟨hmem, hless⟩

/-- The step of the loop whose next task is `t` runs `t`. -/
lemma runTask_of_turn {t : Task} {a : ServerStep} {done rest : List Task} (htrans : ServerTrans s a s')
    (hturn : a.turns l = true) (hphase : (s.loops l).phase = .running done (t :: rest)) :
    ∃ r app x, s.conns t.conn = some x ∧ s' = (s.setPhase l (.running (done ++ [t]) rest)).runTask r app x t := by
  cases htrans with
  | @runTask k r app done' u rest' hphase' x hx =>
    obtain rfl : k = l := of_decide_eq_true hturn
    rw [hphase, Phase.running.injEq, List.cons.injEq] at hphase'
    obtain ⟨rfl, rfl, rfl⟩ := hphase'
    exact ⟨r, app, x, hx, rfl⟩
  | poll hphase' hnodup | skip hphase' hx hheld | handleEvent hphase' hx | handler hphase' hx | swap hphase'
  | endBatch hphase' =>
    obtain rfl := of_decide_eq_true hturn
    rw [hphase] at hphase'
    cases hphase'
  | _ => cases hturn

/-- A task in the queue of loop `l` is run within its number of steps of the loop. -/
theorem reaches_of_task {goal : TcpServer → Prop} {t : Task}
    (hruns : ∀ (v : TcpServer) done rest r app x, v.conns t.conn = some x →
      goal ((v.setPhase l (.running (done ++ [t]) rest)).runTask r app x t))
    {steps : List ServerStep} {u : TcpServer} (ht : t ∈ (s.loops l).todo)
    (hfits : serverMachine.Meets serverFits s steps) (hrun : serverMachine.run s steps = some u)
    (hcount : stepsToRun t (s.loops l) ≤ steps.countP (ServerStep.turns l)) : serverMachine.Reaches goal s steps := by
  refine serverMachine.reaches_of_le_countP (I := fun v => goal v ∨ t ∈ (v.loops l).todo)
    (ServerStep.turns l) (fun _ => 0) (fun v => stepsToRun t (v.loops l)) ?_ (fun v _ _ => stepsToRun_pos t (v.loops l))
    (Or.inr ht) hfits hrun (by rw [Machine.sum_map_zero]; exact hcount)
  intro v a v' hmem hgoal hfit hnext
  have htrans := server_trans hnext
  rcases task_progress htrans hfit (hmem.resolve_left hgoal) with ⟨hturn, done, rest, hphase⟩ | ⟨hmem', hless⟩
  · obtain ⟨r, app, x, hx, rfl⟩ := runTask_of_turn htrans hturn hphase
    have hdone := hruns v done rest r app x hx
    exact ⟨Or.inl hdone, Or.inl hdone⟩
  · exact ⟨Or.inr hmem', Or.inr hless⟩

/-! ### Connections -/

/-- The life of the connection `c` has come to the event `e`. -/
def Lived (c : Nat) (e : LifeEvent) (s : TcpServer) : Prop := ∃ x, s.conns c = some x ∧ e ∈ x.history

lemma lived_store {c : Nat} {x : ServerConn} {w : ConnContext Nat} {e : LifeEvent} :
    Lived c e (s.store c x w [e]) :=
  ⟨stored x w [e], Function.update_self _ _ _, List.mem_append_right _ List.mem_cons_self⟩

/-- A connection that has been accepted is established within its number of steps of its io loop. -/
theorem accepted_connection_is_established (config : ServerConfig) (before steps : List ServerStep) (s u : TcpServer)
    (c : Nat) (x : ServerConn) (hids : serverMachine.Meets idsFit (TcpServer.make config) before)
    (hrun : serverMachine.run (TcpServer.make config) before = some s) (hx : s.conns c = some x)
    (hok : serverMachine.Meets (fun v a => idsFit v a ∧ serverFits v a) s steps)
    (hmore : serverMachine.run s steps = some u)
    (hcount : stepsToRun (.connectionEstablished c) (s.loops x.loop) ≤ steps.countP (ServerStep.turns x.loop)) :
    serverMachine.Reaches (Lived c .established) s steps := by
  have hinv := (serverInv_run (serverInv_make config) hids hrun).1
  by_cases hnew : x.history = []
  · have hmem : .connectionEstablished c ∈ todoOf s x.loop c := by
      cases (hinv.conn c x hx).stage with
      | fresh _ _ _ task =>
        rw [task]
        exact List.mem_cons_self
      | live _ history | closed _ _ history =>
        obtain ⟨rest, hrest, -⟩ := history
        rw [hnew] at hrest
        cases hrest
      | gone _ _ _ history =>
        obtain ⟨rest, hrest, -⟩ := history
        rw [hnew] at hrest
        cases hrest
    refine reaches_of_task ?_ (mem_todoOf.mp hmem).1 (hok.mono serverMachine fun _ _ h => h.2) hmore hcount
    intro v done rest r app y hy
    exact lived_store
  · refine serverMachine.reaches_of_goal steps ⟨x, hx, ?_⟩
    obtain hnil | ⟨rest, hrest, -⟩ := (hinv.conn c x hx).establishedFirst
    · exact absurd hnil hnew
    · rw [hrest]
      exact List.mem_cons_self

/-- Iterations of loop `l` without events and tasks. -/
def idleTurns (l n : Nat) : List ServerStep := (List.replicate n [.poll l [], .swap l, .endBatch l]).flatten

/-- The io loop establishes its connection and goes on. -/
def establishing : List ServerStep := [.poll 1 [], .swap 1, .runTask 1 (.ok 0) [], .endBatch 1] ++ idleTurns 1 27

theorem accepted_connection_is_established_first :
    ∃ s u, serverMachine.run (TcpServer.make sampleConfig) (oneLife.take 2) = some s ∧
      serverMachine.run s establishing = some u ∧ serverMachine.Reaches (Lived 0 .established) s establishing := by
  have hend : (serverMachine.run (TcpServer.make sampleConfig) (oneLife.take 2)).bind (fun s =>
      (s.conns 0).bind fun x => (serverMachine.run s establishing).map fun _ =>
        (x.loop, decide (stepsToRun (.connectionEstablished 0) (s.loops 1) ≤ establishing.countP (ServerStep.turns 1)),
          decide (serverMachine.Meets (fun v a => idsFit v a ∧ serverFits v a) s establishing))) =
      some (1, true, true) := by
    decide +kernel
  obtain ⟨s, hrun, hend⟩ := Option.bind_eq_some_iff.mp hend
  obtain ⟨x, hx, hend⟩ := Option.bind_eq_some_iff.mp hend
  obtain ⟨u, hmore, hend⟩ := Option.map_eq_some_iff.mp hend
  simp only [Prod.mk.injEq, decide_eq_true_eq] at hend
  obtain ⟨hloop, hcount, hok⟩ := hend
  rw [← hloop] at hcount
  exact ⟨s, u, hrun, hmore, accepted_connection_is_established sampleConfig (oneLife.take 2) establishing s u 0 x
    (by decide +kernel) hrun hx hok hmore hcount⟩

/-- The connection has left the map. -/
def Unmapped (c : Nat) (s : TcpServer) : Prop := ∃ x, s.conns c = some x ∧ ¬InMap s c x

/-- A connection stays at its loop. -/
lemma loop_step {a : ServerStep} {c : Nat} {x : ServerConn} (hs : Numbered s)
    (hnext : serverMachine.next s a = some s') (hx : s.conns c = some x) :
    ∃ x', s'.conns c = some x' ∧ x'.loop = x.loop := by
  by_cases ha : ∃ fd, a = .accept (some (fd + 1))
  · obtain ⟨fd, rfl⟩ := ha
    cases server_trans hnext with
    | accept hclosed => exact ⟨x, (newConnection_conns_of_ne _ (ne_created hs hx)).trans hx, rfl⟩
  · obtain ⟨x', hx', hloop, -⟩ := (sameConns_step hnext fun fd heq => ha ⟨fd, heq⟩).exists_conn hx
    exact ⟨x', hx', hloop⟩

lemma loop_run {c : Nat} {x : ServerConn} {steps : List ServerStep} {u : TcpServer} (hs : ServerInv s)
    (hx : s.conns c = some x) (hids : serverMachine.Meets idsFit s steps) (hrun : serverMachine.run s steps = some u) :
    ServerInv u ∧ ∃ y, u.conns c = some y ∧ y.loop = x.loop := by
  refine serverMachine.invariant_of_meets (I := fun v => ServerInv v ∧ ∃ y, v.conns c = some y ∧ y.loop = x.loop)
    ?_ ⟨hs, x, hx, rfl⟩ hids hrun
  rintro v a v' ⟨hv, y, hy, hloop⟩ hid hnext
  obtain ⟨y', hy', hloop'⟩ := loop_step hv.numbered hnext hy
  exact ⟨(serverInv_step hv hid hnext).1, y', hy', hloop'.trans hloop⟩

/-- The removal of a closed connection of the map waits on the base loop. -/
lemma removal_waits {c : Nat} {x : ServerConn} (h : ConnInv s c x) (hclosed : x.conn.state = .kDisConnected)
    (hmap : InMap s c x) : .removeConnectionInLoop c ∈ (s.loops 0).todo := by
  cases h.stage with
  | fresh ctx =>
    have hstate : x.conn.state = .kConnecting := ctx.state
    rw [hclosed] at hstate
    cases hstate
  | live ctx =>
    have hstate : x.conn.state = .kConnected ∨ x.conn.state = .kDisConnecting := ctx.opn
    rw [hclosed] at hstate
    rcases hstate with hstate | hstate <;> cases hstate
  | closed _ _ _ _ mapped => exact (mem_todoOf.mp (mapped hmap).1).1
  | gone _ _ _ _ _ unmapped => exact absurd hmap unmapped

/-- A connection that has left the map is destroyed, or its destruction waits on its loop. -/
lemma destruction_waits {c : Nat} {x : ServerConn} (h : ConnInv s c x) (hmap : ¬InMap s c x) :
    .destroyed ∈ x.history ∨ .connectionDestroyed c ∈ (s.loops x.loop).todo := by
  cases h.stage with
  | fresh _ _ inMap | live _ _ inMap => exact absurd inMap hmap
  | closed _ _ _ _ _ unmapped => exact Or.inr (mem_todoOf.mp (unmapped hmap)).1
  | gone _ _ _ history =>
    obtain ⟨rest, hrest, -, hdestroyed⟩ := history
    exact Or.inl (hrest ▸ List.mem_cons_of_mem _ hdestroyed)

/-- A closed connection leaves the map within its number of steps of the base loop, and from then on it
is destroyed within its number of steps of its io loop. -/
theorem closed_connection_is_destroyed (config : ServerConfig) (before steps : List ServerStep) (s u : TcpServer)
    (c : Nat) (x : ServerConn) (hids : serverMachine.Meets idsFit (TcpServer.make config) before)
    (hrun : serverMachine.run (TcpServer.make config) before = some s) (hx : s.conns c = some x)
    (hclosed : x.conn.state = .kDisConnected)
    (hok : serverMachine.Meets (fun v a => idsFit v a ∧ serverFits v a) s steps)
    (hmore : serverMachine.run s steps = some u) :
    (stepsToRun (.removeConnectionInLoop c) (s.loops 0) ≤ steps.countP (ServerStep.turns 0) →
      serverMachine.Reaches (Unmapped c) s steps) ∧
    ∀ as bs v, steps = as ++ bs → serverMachine.run s as = some v → Unmapped c v →
      stepsToRun (.connectionDestroyed c) (v.loops x.loop) ≤ bs.countP (ServerStep.turns x.loop) →
      serverMachine.Reaches (Lived c .destroyed) v bs := by
  have hinv := (serverInv_run (serverInv_make config) hids hrun).1
  constructor
  · intro hcount
    by_cases hmap : InMap s c x
    · refine reaches_of_task ?_ (removal_waits (hinv.conn c x hx) hclosed hmap)
        (hok.mono serverMachine fun _ _ h => h.2) hmore hcount
      intro v done rest r app y hy
      refine ⟨y, hy, ?_⟩
      simp [InMap, TcpServer.runTask, TcpServer.removeConnectionInLoop]
    · exact serverMachine.reaches_of_goal steps ⟨x, hx, hmap⟩
  · rintro as bs v rfl has hv hcount
    obtain ⟨v', hv', hbs⟩ := (serverMachine.run_append_eq_some s u as bs).mp hmore
    rw [has, Option.some.injEq] at hv'
    subst hv'
    have hids' : serverMachine.Meets idsFit s as :=
      (hok.left_of_append serverMachine).mono serverMachine fun _ _ h => h.1
    obtain ⟨hvinv, y, hy, hloop⟩ := loop_run hinv hx hids' has
    obtain ⟨y', hy', hmap⟩ := hv
    rw [hy, Option.some.injEq] at hy'
    subst hy'
    rcases destruction_waits (hvinv.conn c y hy) hmap with hdestroyed | hwaits
    · exact serverMachine.reaches_of_goal bs ⟨y, hy, hdestroyed⟩
    · rw [hloop] at hwaits
      have hfits := (hok.of_append serverMachine has).mono serverMachine fun _ _ h => h.2
      refine reaches_of_task ?_ hwaits hfits hbs hcount
      intro w done rest r app z hz
      exact lived_store

/-- The base loop takes the closed connection out of the map and goes on. -/
def removing : List ServerStep := [.poll 0 [], .swap 0, .runTask 0 (.ok 0) [], .endBatch 0] ++ idleTurns 0 27

/-- The io loop then destroys it. -/
def destroying : List ServerStep := [.swap 1, .runTask 1 (.ok 0) [], .endBatch 1]

theorem closed_connection_is_destroyed_first :
    ∃ s v, serverMachine.run (TcpServer.make sampleConfig) (oneLife.take 14) = some s ∧
      serverMachine.run s removing = some v ∧ serverMachine.Reaches (Unmapped 0) s (removing ++ destroying) ∧
      serverMachine.Reaches (Lived 0 .destroyed) v destroying := by
  have hend : (serverMachine.run (TcpServer.make sampleConfig) (oneLife.take 14)).bind (fun s =>
      (s.conns 0).bind fun x => (serverMachine.run s (removing ++ destroying)).map fun _ =>
        (x.conn.state, x.loop,
          decide (stepsToRun (.removeConnectionInLoop 0) (s.loops 0) ≤ removing.countP (ServerStep.turns 0)),
          decide (serverMachine.Meets (fun v a => idsFit v a ∧ serverFits v a) s (removing ++ destroying)))) =
      some (.kDisConnected, 1, true, true) := by
    decide +kernel
  have hmid : (serverMachine.run (TcpServer.make sampleConfig) (oneLife.take 14)).bind (fun s =>
      (serverMachine.run s removing).bind fun v => (v.conns 0).map fun y =>
        (v.connectionMap y.name,
          decide (stepsToRun (.connectionDestroyed 0) (v.loops 1) ≤ destroying.countP (ServerStep.turns 1)))) =
      some (none, true) := by
    decide +kernel
  obtain ⟨s, hrun, hend⟩ := Option.bind_eq_some_iff.mp hend
  obtain ⟨x, hx, hend⟩ := Option.bind_eq_some_iff.mp hend
  obtain ⟨u, hmore, hend⟩ := Option.map_eq_some_iff.mp hend
  rw [hrun, Option.bind_some] at hmid
  obtain ⟨v, hv, hmid⟩ := Option.bind_eq_some_iff.mp hmid
  obtain ⟨y, hy, hmid⟩ := Option.map_eq_some_iff.mp hmid
  simp only [Prod.mk.injEq, decide_eq_true_eq] at hend hmid
  obtain ⟨hclosed, hloop, hcount, hok⟩ := hend
  obtain ⟨hnone, hcount'⟩ := hmid
  obtain ⟨hremoved, hdestroyed⟩ := closed_connection_is_destroyed sampleConfig (oneLife.take 14)
    (removing ++ destroying) s u 0 x (by decide +kernel) hrun hx hclosed hok hmore
  refine ⟨s, v, hrun, hv, hremoved ?_, hdestroyed removing destroying v rfl hv ⟨y, hy, ?_⟩ ?_⟩
  · rw [List.countP_append]
    omega
  · simp [InMap, hnone]
  · rw [hloop]
    exact hcount'

end Proofs

end MylibMuduo
