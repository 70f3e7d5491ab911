import MylibMuduo.Proofs.ServerWakeups
import MylibMuduo.Proofs.TaskHomes

/-!
# No loop waits for another

A thread of the server that is inside `loop` can always go on, whatever the other threads have done and
whatever its system calls return: the connection of every event and of every task exists, and a thread
queues at most one task on another loop before its next statement. So a connection that has been accepted
is established by the steps of the thread of its loop alone.
-/

namespace MylibMuduo

/-- What the environment decides: what `poll` reports, the results of the system calls and what the
application does. -/
structure Outcome where
  events : List (Nat × EventMask)
  active : List ActiveChannel
  input : ConnContext.EventInput
  result : SysResult
  app : List AppCall

/-- What the thread of loop `l` does next inside of `loop`. The callbacks of channels that belong to no
connection return at once. -/
def ServerLoops.nextStep (s : ServerLoops) (l : Nat) (o : Outcome) : ServerLoopsStep :=
  match (s.hosts l).pc with
  | .poll => .server (.server (.poll l o.events)) o.active
  | .dispatch (.other :: active) =>
    if (s.server.server.loops l).phase.active.length ≤ active.count .other then .statement l .advance
    else .server (.server (.handleEvent l)) []
  | .callback _ =>
    if (s.server.server.loops l).phase.guard.isNone then .statement l .userReturns
    else .server (.server (.handler l o.input)) []
  | .swap => .server (.server (.swap l)) []
  | .running _ (_ :: _) => .server (.server (.runTask l o.result o.app)) []
  | .destroying [] => .server (.server (.endBatch l)) []
  | .functor _ _ => .statement l .userReturns
  | .destroying (_ :: _) => .statement l .userReturns
  | _ => .statement l .advance

/-- The next step of the thread of loop `l`; a call on another loop is finished first. -/
def ServerLoops.ownStep (s : ServerLoops) (l : Nat) (o : Outcome) : ServerLoopsStep :=
  match (List.range (s.server.server.config.numThreads + 1)).find? fun k => decide ((s.hosts k).foreign l ≠ .idle) with
  | some k => .statement k (.foreignWakeUp l)
  | none => s.nextStep l o

/-- The thread other than that of the loop that makes the step. -/
def LoopStep.caller {τ : Type} : LoopStep τ → Option Nat
  | .foreignQueueInLoop t _ => some t
  | .foreignQuit t => some t
  | .foreignWakeUp t => some t
  | _ => none

namespace Proofs

/-- What `poll` can return: descriptors of the interest set, each once, and the eventfd if it is
readable. -/
structure PollReturns (s : ServerLoops) (l : Nat) (o : Outcome) : Prop where
  nodup : (o.events.map Prod.fst).Nodup
  interest : ∀ e ∈ o.events, ((s.server.server.loops l).poller.interest e.1).isSome
  reported : o.events.length ≤ o.active.count .other
  readable : .wakeup ∈ o.active → 0 < (s.hosts l).loop.wakeupFd

/-! ### What a step queues -/

/-- At most one task has been queued on loop `j`. -/
def QueuesOne (j : Nat) (s s' : TcpServer) : Prop :=
  ∃ ts, ts.length ≤ 1 ∧ (s'.loops j).pendingFunctors = (s.loops j).pendingFunctors ++ ts

lemma queuesOne_of_eq {s s' : TcpServer} {j : Nat} (h : (s'.loops j).pendingFunctors = (s.loops j).pendingFunctors) :
    QueuesOne j s s' :=
  ⟨[], Nat.zero_le _, by rw [h, List.append_nil]⟩

lemma queuesOne_queueInLoop (s : TcpServer) (l j : Nat) (t : Task) : QueuesOne j s (s.queueInLoop l t) := by
  refine ⟨if j = l then [t] else [], ?_, queueInLoop_pending _ _ j _⟩
  split
  · exact Nat.le_refl _
  · exact Nat.zero_le _

lemma QueuesOne.of_pending {s₁ s₂ s' : TcpServer} {j : Nat} (h : QueuesOne j s₂ s')
    (hpending : (s₂.loops j).pendingFunctors = (s₁.loops j).pendingFunctors) : QueuesOne j s₁ s' := by
  obtain ⟨ts, hlength, hts⟩ := h
  exact ⟨ts, hlength, hpending ▸ hts⟩

lemma queuesOne_removeConnectionInLoop (s : TcpServer) (c j : Nat) (x : ServerConn) :
    QueuesOne j s (s.removeConnectionInLoop c x) :=
  queuesOne_queueInLoop _ x.loop j _

lemma queuesOne_closeCallback (s : TcpServer) (l c j : Nat) (x : ServerConn) (w : ConnContext Nat) :
    QueuesOne j s (s.closeCallback l c x w) := by
  unfold TcpServer.closeCallback TcpServer.removeConnection
  split
  · split
    · exact queuesOne_removeConnectionInLoop s c j x
    · exact queuesOne_queueInLoop s 0 j _
  · exact queuesOne_of_eq rfl

lemma store_pending_other (s : TcpServer) (c : Nat) {j : Nat} (x : ServerConn) (w : ConnContext Nat)
    (e : List LifeEvent) (hj : j ≠ x.loop) :
    ((s.store c x w e).loops j).pendingFunctors = (s.loops j).pendingFunctors := by
  change (Function.update s.loops x.loop _ j).pendingFunctors = _
  rw [Function.update_of_ne hj]

/-- A thread queues at most one task on another loop in one step. -/
lemma newTasks_other {s s' : TcpServer} {a : ServerStep} {k j : Nat} (h : Homed s) (htrans : ServerTrans s a s')
    (hthread : a.thread s = some k) (hj : j ≠ k) : (newTasks s s' j).length ≤ 1 := by
  have hqueues : QueuesOne j s s' := by
    cases htrans with
    | poll hphase hnodup | skip hphase hx hheld | endBatch hphase => exact queuesOne_of_eq (setPhase_pending _ _ _ _)
    | handleEvent hphase hx => exact queuesOne_of_eq (setPhase_pending _ _ _ _)
    | @swap l hphase =>
      obtain rfl := Option.some.inj hthread
      refine queuesOne_of_eq ?_
      change (Function.update s.loops l _ j).pendingFunctors = _
      rw [Function.update_of_ne hj]
    | @accept r hclosed =>
      match r with
      | none => exact queuesOne_of_eq rfl
      | some 0 => exact queuesOne_of_eq rfl
      | some (fd + 1) => exact queuesOne_queueInLoop _ _ j _
    | @handler l i c revent hd active hphase x hx =>
      obtain rfl := Option.some.inj hthread
      obtain ⟨y, hy, hl⟩ := (h.loops l).events c (Or.inr (by rw [hphase]; rfl))
      obtain rfl := Option.some.inj (hx.symm.trans hy)
      refine (queuesOne_closeCallback _ l c j x _).of_pending ?_
      rw [store_pending_other _ c x _ _ (hl ▸ hj), setPhase_pending]
    | @runTask l r app done t rest hphase x hx =>
      obtain rfl := Option.some.inj hthread
      obtain ⟨y, hy, hl⟩ := (h.loops l).tasks t (by rw [IoLoop.todo, hphase]; exact List.mem_cons_self)
      obtain rfl := Option.some.inj (hx.symm.trans hy)
      have hstore (c : Nat) (w : ConnContext Nat) (e : List LifeEvent) (hloop : x.loop = l) :
          QueuesOne j s ((s.setPhase l (.running (done ++ [t]) rest)).store c x w e) :=
        queuesOne_of_eq (by rw [store_pending_other _ c x w e (hloop ▸ hj), setPhase_pending])
      cases t with
      | removeConnectionInLoop c =>
        exact (queuesOne_removeConnectionInLoop _ c j x).of_pending (setPhase_pending _ _ _ _)
      | _ => exact hstore _ _ _ hl
    | @app c call x hx =>
      rw [ServerStep.thread, hx] at hthread
      obtain rfl := Option.some.inj hthread
      exact queuesOne_of_eq (store_pending_other _ c x _ _ hj)
    | hold hx | release hx => cases hthread
  obtain ⟨ts, hlength, hts⟩ := hqueues
  rw [newTasks, hts, List.drop_left]
  exact hlength

/-! ### Enabled runs -/

lemma foreign_step {τ : Type} {v v' : LoopState τ} {b : LoopStep τ} {t : Nat}
    (hnext : (loopMachine τ).next v b = some v') (hcaller : b.caller ≠ some t) : v'.foreign t = v.foreign t := by
  have hset (u : Nat) (pc : ForeignPc) (hu : some u ≠ some t) : (v.setForeign u pc).foreign t = v.foreign t :=
    Function.update_of_ne (fun heq => hu (congrArg some heq.symm)) _ _
  cases loop_trans hnext with
  | foreignQueueInLoop u f hidle | foreignQuit u hidle | foreignWakeUp u hbusy => exact hset u _ hcaller
  | _ => rfl

lemma foreign_run {τ : Type} {v v' : LoopState τ} {steps : List (LoopStep τ)} {t : Nat}
    (hcaller : ∀ b ∈ steps, b.caller ≠ some t) (hrun : (loopMachine τ).run v steps = some v') :
    v'.foreign t = v.foreign t := by
  induction steps generalizing v with
  | nil => rw [Option.some.inj hrun]
  | cons b steps ih =>
    obtain ⟨v₁, hnext, hrun⟩ := ((loopMachine τ).run_cons_eq_some _ _ _ _).mp hrun
    rw [ih (fun a ha => hcaller a (List.mem_cons_of_mem _ ha)) hrun]
    exact foreign_step hnext (hcaller b List.mem_cons_self)

lemma inUserCode_of_inCallback {τ : Type} {pc : LoopPc τ} (h : pc.inCallback = true) : pc.inUserCode = true := by
  cases pc with
  | callback acts | functor done rest => rfl
  | destroying tasks => 
    cases tasks with
    | nil => cases h
    | cons t tasks => rfl
  | _ => cases h

lemma run_one {v v' : LoopState Task} {b : LoopStep Task} (hnext : (loopMachine Task).next v b = some v') :
    (loopMachine Task).run v [b] = some v' :=
  ((loopMachine Task).run_cons_eq_some _ _ _ _).mpr ⟨v', hnext, rfl⟩

/-- The calls of `queueInLoop` on the thread of the loop are possible in user code. -/
lemma exists_run_own {ts : List Task} {v : LoopState Task} (huser : ts ≠ [] → v.pc.inUserCode = true)
    (hin : v.inQueueInLoop = false) :
    ∃ v', (loopMachine Task).run v (ts.flatMap fun t => [.queueInLoop t, .queueInLoopWake]) = some v' := by
  induction ts generalizing v with
  | nil => exact ⟨v, rfl⟩
  | cons t ts ih =>
    have hpc := huser (List.cons_ne_nil _ _)
    obtain ⟨v₁, hqueue⟩ : ∃ v₁, (loopMachine Task).next v (.queueInLoop t) = some v₁ := ⟨_, if_pos ⟨hpc, hin⟩⟩
    have hin₁ : v₁.inQueueInLoop = true := by
      cases loop_trans hqueue with
      | queueInLoop f huser hnot => rfl
    obtain ⟨v₂, hwake⟩ : ∃ v₂, (loopMachine Task).next v₁ .queueInLoopWake = some v₂ := ⟨_, if_pos hin₁⟩
    have hone : TasksQueued [t] v v₂ := by
      refine tasksQueued_own (((loopMachine Task).run_cons_eq_some _ _ _ _).mpr ⟨v₁, hqueue, ?_⟩)
      exact ((loopMachine Task).run_cons_eq_some _ _ _ _).mpr ⟨v₂, hwake, rfl⟩
    obtain ⟨v', hrun⟩ := ih (v := v₂) (fun _ => hone.pc ▸ hpc) (hone.returned.trans hin)
    refine ⟨v', ((loopMachine Task).run_cons_eq_some _ _ _ _).mpr ⟨v₁, hqueue, ?_⟩⟩
    exact ((loopMachine Task).run_cons_eq_some _ _ _ _).mpr ⟨v₂, hwake, hrun⟩

/-- One call of `queueInLoop` on another thread is possible. -/
lemma exists_run_foreign {ts : List Task} {v : LoopState Task} {l : Nat} (hlength : ts.length ≤ 1)
    (hidle : v.foreign l = .idle) : ∃ v', (loopMachine Task).run v (ts.map (.foreignQueueInLoop l)) = some v' := by
  match ts with
  | [] => exact ⟨v, rfl⟩
  | [t] => exact ⟨_, ((loopMachine Task).run_cons_eq_some _ _ _ _).mpr ⟨_, if_pos hidle, rfl⟩⟩
  | _ :: _ :: _ => simp at hlength

lemma returned_of_statements {a : ServerStep} {active : List ActiveChannel} {v v₁ : LoopState Task}
    (hrun : (loopMachine Task).run v ((EndStep.server a).statements active) = some v₁) :
    v₁.inQueueInLoop = v.inQueueInLoop := by
  cases a with
  | poll k events =>
    cases loop_trans (run_singleton hrun) with
    | pollReturns acts hpc => rfl
  | handleEvent k | swap k | runTask k r app | endBatch k =>
    cases loop_trans (run_singleton hrun) with
    | _ => rfl
  | _ => rw [Option.some.inj hrun]

/-! ### Reachable states -/

/-- What the threads rely on to go on. -/
structure GoOnInv (s : ServerLoops) : Prop where
  hosted : Hosted s
  homed : Homed s.server.server
  base : BaseOutside s
  own : ∀ k, k ≤ s.server.server.config.numThreads → (s.hosts k).foreign k = .idle

lemma goOnInv_make (config : ServerConfig) : GoOnInv (ServerLoops.make config) :=
  ⟨hosted_make config, homed_make config, baseOutside_make config, fun _ _ => rfl⟩

/-- A thread makes no call on its own loop as on that of another. -/
lemma caller_of_hostSteps {s s' : TcpServer} {a : EndStep} {active : List ActiveChannel} {k : Nat} :
    ∀ b ∈ hostSteps s s' a active k, b.caller ≠ some k := by
  intro b hb
  unfold hostSteps at hb
  split at hb
  · next l hl =>
    split at hb
    · rcases List.mem_append.mp hb with hb | hb
      · cases a with
        | server a => cases a <;> simp_all [EndStep.statements, LoopStep.caller]
        | _ => cases hb
      · obtain ⟨t, -, hb⟩ := List.mem_flatMap.mp hb
        simp only [List.mem_cons, List.not_mem_nil, or_false] at hb
        rcases hb with rfl | rfl
        · simp [LoopStep.caller]
        · simp [LoopStep.caller]
    · next hk =>
      obtain ⟨t, -, rfl⟩ := List.mem_map.mp hb
      exact fun heq => hk (Option.some.inj heq).symm
  · cases hb

theorem goOnInv_step {s s' : ServerLoops} {a : ServerLoopsStep} (h : GoOnInv s)
    (hnext : serverLoopsMachine.next s a = some s') : GoOnInv s' := by
  have hhosted := hosted_step h.hosted hnext
  have hbase := baseOutside_step h.base hnext
  cases serverLoops_trans hnext with
  | @server a active e hosts hend hstands hreports hhosts =>
    refine ⟨hhosted, homed_endStep h.homed hend, hbase, fun k hk => ?_⟩
    change k ≤ e.server.config.numThreads at hk
    rw [end_config hend] at hk
    exact (foreign_run caller_of_hostSteps (hhosts k hk)).trans (h.own k hk)
  | @statement l b v hl hsilent hallows hstatement =>
    refine ⟨hhosted, h.homed, hbase, ?_⟩
    refine (Function.forall_update_iff s.hosts (p := fun k w => k ≤ s.server.server.config.numThreads →
      w.foreign k = .idle)).mpr ⟨fun hk => ?_, fun k _ hk => h.own k hk⟩
    refine (foreign_step hstatement ?_).trans (h.own l hk)
    cases b with
    | foreignQueueInLoop t f => cases hsilent
    | foreignQuit t => exact fun heq => (of_decide_eq_true hallows).1 (Option.some.inj heq)
    | foreignWakeUp t => exact fun heq => of_decide_eq_true hallows (Option.some.inj heq)
    | _ => simp [LoopStep.caller]

/-! ### Going on -/

/-- The base loop is inside of `loop` only before the destructor. -/
lemma GoOnInv.running {s : ServerLoops} (h : GoOnInv s) {l : Nat} (hinside : (s.hosts l).pc.outside = false)
    (hzero : l = 0) : s.server.pc = .running := by
  subst hzero
  by_contra hpc
  have hout := h.base hpc
  rw [hinside] at hout
  cases hout

/-- A statement that the server does not see. -/
lemma GoOnInv.statement_isSome {s : ServerLoops} (h : GoOnInv s) {l : Nat} {b : LoopStep Task}
    (hl : l ≤ s.server.server.config.numThreads) (hinside : (s.hosts l).pc.outside = false) (hfree : s.Free l)
    (hown : b.caller = none) (hsilent : (s.server.server.loops l).silent (s.hosts l).pc b = true)
    (hnext : ((loopMachine Task).next (s.hosts l) b).isSome) : (serverLoopsMachine.next s (.statement l b)).isSome := by
  have hallows : s.allows l b = true := by
    cases b with
    | foreignQueueInLoop t f | foreignQuit t | foreignWakeUp t => cases hown
    | _ => exact decide_eq_true ⟨hfree, h.running hinside⟩
  change (if _ then _ else none : Option ServerLoops).isSome = true
  rw [if_pos ⟨hl, hsilent, hallows⟩, Option.isSome_map]
  exact hnext

/-- A step of the server that its loop can make. -/
lemma GoOnInv.server_isSome {s : ServerLoops} (h : GoOnInv s) {l : Nat} {a : ServerStep} {active : List ActiveChannel}
    {v : LoopState Task} (hl : l ≤ s.server.server.config.numThreads) (hinside : (s.hosts l).pc.outside = false)
    (hfree : s.Free l) (hthread : a.thread s.server.server = some l)
    (hnext : (serverMachine.next s.server.server a).isSome)
    (hstands : (EndStep.server a).standsAt (s.hosts l).pc = true) (hreports : (EndStep.server a).reports active = true)
    (hstatement : (loopMachine Task).run (s.hosts l) ((EndStep.server a).statements active) = some v) :
    (serverLoopsMachine.next s (.server (.server a) active)).isSome := by
  obtain ⟨s', hs'⟩ := Option.isSome_iff_exists.mp hnext
  have hend : endMachine.next s.server (.server a) = some { s.server with server := s' } := by
    refine (if_pos ?_).trans (by rw [hs', Option.map_some])
    by_cases hzero : l = 0
    · exact Or.inl (h.running hinside hzero)
    · exact Or.inr fun heq => hzero (Option.some.inj (hthread.symm.trans heq))
  have hhosts (k : Nat) (hk : k ≤ s.server.server.config.numThreads) :
      (s.hostsAfter (.server a) active { s.server with server := s' } k).isSome := by
    have htrans := server_trans hs'
    have hend : (EndStep.server a).thread s.server.server = some l := hthread
    unfold ServerLoops.hostsAfter hostSteps
    rw [hend]
    dsimp only
    split
    · next hkl =>
      subst hkl
      have hin : v.inQueueInLoop = false := (returned_of_statements hstatement).trans (h.hosted k hk).returned
      have huser (hnew : newTasks s.server.server s' k ≠ []) : v.pc.inUserCode = true :=
        inUserCode_of_inCallback (inCallback_of_newTasks htrans hthread hstands hstatement hnew)
      obtain ⟨v', hrun⟩ := exists_run_own huser hin
      exact Option.isSome_iff_exists.mpr ⟨v', ((loopMachine Task).run_append_eq_some _ _ _ _).mpr ⟨v, hstatement, hrun⟩⟩
    · next hkl =>
      exact Option.isSome_iff_exists.mpr (exists_run_foreign (newTasks_other h.homed htrans hthread hkl) (hfree k hk))
  refine Option.isSome_iff_exists.mpr ⟨_, Option.bind_eq_some_iff.mpr ⟨_, hend, if_pos ⟨?_, hreports, hhosts⟩⟩⟩
  intro k hk
  obtain rfl := Option.some.inj (hthread.symm.trans hk)
  exact ⟨hstands, hfree⟩

/-- A thread that is inside of a call on another loop can finish it. -/
lemma GoOnInv.wakeUp_isSome {s : ServerLoops} (h : GoOnInv s) {l k : Nat} (hl : l ≤ s.server.server.config.numThreads)
    (hk : k ≤ s.server.server.config.numThreads) (hbusy : (s.hosts k).foreign l ≠ .idle) :
    (serverLoopsMachine.next s (.statement k (.foreignWakeUp l))).isSome := by
  have hne : l ≠ k := by
    rintro rfl
    exact hbusy (h.own l hl)
  change (if _ then _ else none : Option ServerLoops).isSome = true
  rw [if_pos ⟨hk, rfl, decide_eq_true hne⟩, Option.isSome_map]
  cases hpc : (s.hosts k).foreign l with
  | idle => exact absurd hpc hbusy
  | enqueued | quitStored => simp [loopMachine, hpc]

/-- The next step of a thread inside of `loop` is possible. -/
lemma GoOnInv.nextStep_isSome {s : ServerLoops} (h : GoOnInv s) {l : Nat} (hl : l ≤ s.server.server.config.numThreads)
    (hinside : (s.hosts l).pc.outside = false) (hfree : s.Free l) (o : Outcome)
    (hpoll : (s.hosts l).pc = .poll → PollReturns s l o) : (serverLoopsMachine.next s (s.nextStep l o)).isSome := by
  have hmatches := h.hosted l hl
  have hplace := hmatches.place
  have hin := hmatches.returned
  have hstatement {b : LoopStep Task} (hown : b.caller = none)
      (hsilent : (s.server.server.loops l).silent (s.hosts l).pc b = true)
      (hnext : ((loopMachine Task).next (s.hosts l) b).isSome) : (serverLoopsMachine.next s (.statement l b)).isSome :=
    h.statement_isSome hl hinside hfree hown hsilent hnext
  unfold ServerLoops.nextStep
  cases hpc : (s.hosts l).pc with
  | notEntered | returned =>
    rw [hpc] at hinside
    cases hinside
  | entryTest | setLooping | resetQuit | whileTest | setCalling | clearLooping =>
    exact hstatement rfl (by rw [hpc]; rfl) (by simp [loopMachine, LoopState.advance, hpc])
  | poll =>
    have hreturns := hpoll hpc
    have hnext : (loopMachine Task).next (s.hosts l) (.pollReturns o.active) =
        some { s.hosts l with pc := .dispatch o.active } := by
      simp only [loopMachine, LoopState.pollReturns, hpc]
      exact if_pos hreturns.readable
    rw [hpc] at hplace
    refine h.server_isSome hl hinside hfree rfl ?_ (by rw [hpc]; rfl) (decide_eq_true hreturns.reported) (run_one hnext)
    change (if _ then _ else none : Option TcpServer).isSome = true
    rw [if_pos ⟨hl, hplace, hreturns.nodup, hreturns.interest⟩]
    rfl
  | dispatch acts =>
    rw [hpc] at hplace
    obtain ⟨active, hphase, hcount⟩ := hplace
    cases acts with
    | nil => exact hstatement rfl (by rw [hpc]; rfl) (by simp [loopMachine, LoopState.advance, hpc])
    | cons ch acts =>
      cases ch with
      | wakeup => exact hstatement rfl (by rw [hpc]; rfl) (by simp [loopMachine, LoopState.advance, hpc])
      | other =>
        dsimp only
        split
        · next hless =>
          refine hstatement rfl ?_ (by simp [loopMachine, LoopState.advance, hpc])
          rw [hpc]
          exact decide_eq_true hless
        · next hmore =>
          -- More connections than channels are left, so the channel is that of a connection.
          rw [hphase, Phase.active, List.length_map] at hmore
          cases active with
          | nil => exact absurd (Nat.zero_le _) hmore
          | cons reported active =>
            obtain ⟨x, hx, -⟩ := (h.homed.loops l).events reported.1 (Or.inl (by rw [hphase]; exact List.mem_cons_self))
            refine h.server_isSome hl hinside hfree rfl ?_ (by rw [hpc]; rfl) rfl
              (run_one (by simp only [loopMachine, LoopState.advance, hpc]; rfl))
            simp only [serverMachine, hphase, hx, Option.bind_eq_bind, Option.bind_some]
            split
            · rfl
            · rfl
  | callback acts =>
    rw [hpc] at hplace
    dsimp only
    split
    · next hguard =>
      refine hstatement rfl ?_ (by simp [loopMachine, LoopState.userReturns, hpc, hin])
      rw [hpc]
      exact hguard
    · next hguard =>
      obtain ⟨-, ⟨active, hphase⟩ | ⟨c, revent, hd, active, hphase⟩⟩ := hplace
      · exact absurd (by rw [hphase]; rfl) hguard
      · obtain ⟨x, hx, -⟩ := (h.homed.loops l).events c (Or.inr (by rw [hphase]; rfl))
        refine h.server_isSome (v := s.hosts l) hl hinside hfree rfl ?_ (by rw [hpc]; rfl) rfl rfl
        simp [serverMachine, hphase, hx]
  | swap =>
    rw [hpc] at hplace
    have hphase : (s.server.server.loops l).phase = .dispatch [] := hplace
    refine h.server_isSome hl hinside hfree rfl ?_ (by rw [hpc]; rfl) rfl
      (run_one (by simp only [loopMachine, LoopState.advance, hpc]; rfl))
    simp [serverMachine, hphase]
  | running done rest =>
    rw [hpc] at hplace
    have hphase : (s.server.server.loops l).phase = .running done rest := hplace
    cases rest with
    | nil => exact hstatement rfl (by rw [hpc]; rfl) (by simp [loopMachine, LoopState.advance, hpc])
    | cons t rest =>
      obtain ⟨x, hx, -⟩ := (h.homed.loops l).tasks t (by rw [IoLoop.todo, hphase]; exact List.mem_cons_self)
      refine h.server_isSome hl hinside hfree rfl ?_ (by rw [hpc]; rfl) rfl
        (run_one (by simp only [loopMachine, LoopState.advance, hpc]; rfl))
      simp [serverMachine, hphase, hx]
  | functor done rest =>
    rw [hpc] at hplace
    have hphase : (s.server.server.loops l).phase = .running done rest := hplace
    refine hstatement rfl ?_ (by simp [loopMachine, LoopState.userReturns, hpc, hin])
    simp [IoLoop.silent, hphase, Phase.guard]
  | destroying tasks =>
    rw [hpc] at hplace
    obtain ⟨done, hphase⟩ := hplace
    cases tasks with
    | nil =>
      refine h.server_isSome hl hinside hfree rfl ?_ (by rw [hpc]; rfl) rfl
        (run_one (by simp only [loopMachine, LoopState.advance, hpc]; rfl))
      simp [serverMachine, hphase]
    | cons t tasks =>
      refine hstatement rfl ?_ (by simp [loopMachine, LoopState.userReturns, hpc, hin])
      simp [IoLoop.silent, hphase, Phase.guard]

lemma mem_range_loops {s : ServerLoops} {k : Nat} :
    k ∈ List.range (s.server.server.config.numThreads + 1) ↔ k ≤ s.server.server.config.numThreads :=
  List.mem_range.trans Nat.lt_succ_iff

/-- The own step of a thread finishes a call on another loop, or the thread is in none. -/
lemma ownStep_cases (s : ServerLoops) (l : Nat) (o : Outcome) :
    (∃ k, k ≤ s.server.server.config.numThreads ∧ (s.hosts k).foreign l ≠ .idle ∧
      s.ownStep l o = .statement k (.foreignWakeUp l)) ∨ s.Free l ∧ s.ownStep l o = s.nextStep l o := by
  unfold ServerLoops.ownStep
  split
  · next k hfind =>
    exact Or.inl ⟨k, mem_range_loops.mp (List.mem_of_find?_eq_some hfind), by simpa using List.find?_some hfind, rfl⟩
  · next hfind =>
    refine Or.inr ⟨fun k hk => ?_, rfl⟩
    simpa using List.find?_eq_none.mp hfind k (mem_range_loops.mpr hk)

/-- The own step of a thread inside of `loop` is possible. -/
lemma GoOnInv.ownStep_isSome {s : ServerLoops} (h : GoOnInv s) {l : Nat} (hl : l ≤ s.server.server.config.numThreads)
    (hinside : (s.hosts l).pc.outside = false) (o : Outcome) (hpoll : (s.hosts l).pc = .poll → PollReturns s l o) :
    (serverLoopsMachine.next s (s.ownStep l o)).isSome := by
  rcases ownStep_cases s l o with ⟨k, hk, hbusy, hstep⟩ | ⟨hfree, hstep⟩
  · rw [hstep]
    exact h.wakeUp_isSome hl hk hbusy
  · rw [hstep]
    exact h.nextStep_isSome hl hinside hfree o hpoll

/-- A thread of the server inside of `loop` can always go on, whatever the other threads have done and
whatever its system calls return. -/
theorem loops_go_on (config : ServerConfig) (steps : List ServerLoopsStep) (s : ServerLoops) (l : Nat) (o : Outcome)
    (hrun : serverLoopsMachine.run (ServerLoops.make config) steps = some s)
    (hl : l ≤ s.server.server.config.numThreads) (hinside : (s.hosts l).pc.outside = false)
    (hpoll : (s.hosts l).pc = .poll → PollReturns s l o) : (serverLoopsMachine.next s (s.ownStep l o)).isSome := by
  have h := serverLoopsMachine.invariant (fun _ _ _ => goOnInv_step) (goOnInv_make config) hrun
  exact h.ownStep_isSome hl hinside o hpoll

/-- `poll` reports the eventfd if it is readable, and nothing else happens. -/
def idleOutcome (s : ServerLoops) (l : Nat) : Outcome where
  events := []
  active := if 0 < (s.hosts l).loop.wakeupFd then [.wakeup] else []
  input := ⟨.ok [], .ok 0, [], [], [], []⟩
  result := .ok 0
  app := []

lemma idleOutcome_pollReturns (s : ServerLoops) (l : Nat) : PollReturns s l (idleOutcome s l) := by
  refine ⟨List.nodup_nil, fun e he => absurd he List.not_mem_nil, Nat.zero_le _, fun hmem => ?_⟩
  change ActiveChannel.wakeup ∈ (if 0 < (s.hosts l).loop.wakeupFd then [.wakeup] else []) at hmem
  split at hmem
  · next hreadable => exact hreadable
  · cases hmem

theorem loops_go_on_poll :
    ∃ s, serverLoopsMachine.run (ServerLoops.make sampleConfig) acceptsOne = some s ∧ (s.hosts 1).pc = .poll ∧
      (serverLoopsMachine.next s (s.ownStep 1 (idleOutcome s 1))).isSome := by
  have hend : (serverLoopsMachine.run (ServerLoops.make sampleConfig) acceptsOne).map
      (fun s => (s.server.server.config.numThreads, (s.hosts 1).pc)) = some (1, .poll) := by
    decide +kernel
  obtain ⟨s, hrun, hend⟩ := Option.map_eq_some_iff.mp hend
  obtain ⟨hthreads, hpc⟩ := Prod.mk.inj hend
  exact ⟨s, hrun, hpc, loops_go_on sampleConfig acceptsOne s 1 _ hrun (Nat.le_of_eq hthreads.symm) (by rw [hpc]; rfl)
    fun _ => idleOutcome_pollReturns s 1⟩

end Proofs

end MylibMuduo
