import MylibMuduo.Proofs.LoopRefinement

/-!
# Wake-ups in the server

A connection that has been accepted waits in the queue of its event loop. As long as it waits, a loop
that sleeps in `poll` is woken, and the connection is established within a number of statements of
the loop that can be read off it, whatever the other threads do.
-/

namespace MylibMuduo

/-- The step is a statement of the thread of loop `l` inside `loop`. -/
def ServerLoopsStep.turns (l : Nat) : ServerLoopsStep → Bool
  | .statement k b => decide (k = l) && b.ofLoop
  | .server (.server (.poll k _)) _ => decide (k = l)
  | .server (.server (.handleEvent k)) _ => decide (k = l)
  | .server (.server (.swap k)) _ => decide (k = l)
  | .server (.server (.runTask k _ _)) _ => decide (k = l)
  | .server (.server (.endBatch k)) _ => decide (k = l)
  | _ => false

namespace Proofs

/-! ### Wake-ups -/

lemma wakeInv_own {ts : List Task} {v v' : LoopState Task} (h : WakeInv v)
    (hcallback : ts ≠ [] → v.pc.inCallback = true)
    (hrun : (loopMachine Task).run v (ts.flatMap fun t => [.queueInLoop t, .queueInLoopWake]) = some v') :
    WakeInv v' := by
  induction ts generalizing v with
  | nil => exact Option.some.inj hrun ▸ h
  | cons t ts ih =>
    rw [List.flatMap_cons, List.cons_append, List.singleton_append] at hrun
    obtain ⟨v₁, hqueue, hrun⟩ := ((loopMachine Task).run_cons_eq_some _ _ _ _).mp hrun
    obtain ⟨v₂, hwake, hrun⟩ := ((loopMachine Task).run_cons_eq_some _ _ _ _).mp hrun
    have hin := hcallback (List.cons_ne_nil _ _)
    have hpc : v₂.pc = v.pc := by
      cases loop_trans hqueue with
      | queueInLoop t huser hnot =>
        cases loop_trans hwake with
        | queueInLoopWake hin' => rfl
    have hqueued : WakeInv v₁ := wakeInv_step (a := .queueInLoop t) h hin hqueue
    refine ih (wakeInv_step (a := .queueInLoopWake) hqueued trivial hwake) (fun _ => ?_) hrun
    rw [hpc]
    exact hin

lemma wakeInv_foreign {l : Nat} {ts : List Task} {v v' : LoopState Task} (h : WakeInv v)
    (hrun : (loopMachine Task).run v (ts.map (.foreignQueueInLoop l)) = some v') : WakeInv v' := by
  induction ts generalizing v with
  | nil => exact Option.some.inj hrun ▸ h
  | cons t ts ih =>
    rw [List.map_cons] at hrun
    obtain ⟨v₁, hqueue, hrun⟩ := ((loopMachine Task).run_cons_eq_some _ _ _ _).mp hrun
    exact ih (wakeInv_step (a := .foreignQueueInLoop l t) h trivial hqueue) hrun

/-- What a loop queues on itself it queues from a callback or a task. -/
lemma inCallback_of_newTasks {s s' : TcpServer} {a : ServerStep} {active : List ActiveChannel} {k : Nat}
    {v v' : LoopState Task} (htrans : ServerTrans s a s') (hthread : a.thread s = some k)
    (hstands : (EndStep.server a).standsAt v.pc = true)
    (hrun : (loopMachine Task).run v ((EndStep.server a).statements active) = some v')
    (hnew : newTasks s s' k ≠ []) : v'.pc.inCallback = true := by
  cases htrans with
  | poll hphase hnodup | endBatch hphase => exact absurd (newTasks_of_eq (setPhase_pending _ _ _ _)) hnew
  | @swap l hphase =>
    obtain rfl := Option.some.inj hthread
    refine absurd ?_ hnew
    rw [newTasks, setLoop_loops, List.drop_nil]
  | skip hphase hx hheld | handleEvent hphase hx =>
    cases loop_trans (run_singleton hrun) with
    | callback acts hpc => rfl
    | _ => simp_all [EndStep.standsAt]
  | runTask hphase hx =>
    cases loop_trans (run_singleton hrun) with
    | functor done t rest hpc => rfl
    | _ => simp_all [EndStep.standsAt]
  | accept hclosed | handler hphase hx | app hx | hold hx hheld | release hx hpos =>
    obtain rfl := Option.some.inj hrun
    exact inCallback_of_standsAt active hstands rfl

/-- Wake-ups are not lost: in the whole run of an io loop, and in that of the base loop until the
destructor. -/
def Woken (s : ServerLoops) : Prop :=
  ∀ k, k ≤ s.server.server.config.numThreads → (k = 0 → s.server.pc = .running) → WakeInv (s.hosts k)

lemma woken_make (config : ServerConfig) : Woken (ServerLoops.make config) := fun _ _ _ => wakeInv_make

theorem woken_step {s s' : ServerLoops} {a : ServerLoopsStep} (h : Woken s)
    (hnext : serverLoopsMachine.next s a = some s') : Woken s' := by
  cases serverLoops_trans hnext with
  | @server a active e hosts hend hstands hreports hhosts =>
    intro k hk hbase
    change k ≤ e.server.config.numThreads at hk
    rw [end_config hend] at hk
    have hrun := hhosts k hk
    have hrunning : k = 0 → s.server.pc = .running := by
      intro hzero
      have hpc := hbase hzero
      cases end_trans hend with
      | server hpc' hv => exact hpc
      | _ => cases hpc
    have hwake := h k hk hrunning
    by_cases hthread : a.thread s.server.server = some k
    · obtain ⟨v₁, hstatement, hqueue⟩ := run_hostSteps hthread hrun
      cases end_trans hend with
      | @server a v hpc hv =>
        have hwake₁ : WakeInv v₁ := by
          cases a with
          | poll l events | handleEvent l | swap l | runTask l r app | endBatch l =>
            refine wakeInv_step hwake ?_ (run_singleton hstatement)
            trivial
          | _ => exact Option.some.inj hstatement ▸ hwake
        exact wakeInv_own hwake₁
          (inCallback_of_newTasks (server_trans hv) hthread (hstands k hthread) hstatement) hqueue
      | destructor hpc hperm | visit hpc | destroyed hpc =>
        cases hbase (Option.some.inj hthread).symm
    · unfold hostSteps at hrun
      split at hrun
      · next l hl =>
        rw [if_neg fun heq : k = l => hthread (heq ▸ hl)] at hrun
        exact wakeInv_foreign hwake hrun
      · have hsame : s.hosts k = hosts k := Option.some.inj hrun
        change WakeInv (hosts k)
        rw [← hsame]
        exact hwake
  | @statement l b v hl hsilent hallows hstatement =>
    refine (Function.forall_update_iff s.hosts (p := fun k w => k ≤ s.server.server.config.numThreads →
      (k = 0 → s.server.pc = .running) → WakeInv w)).mpr ⟨fun hk hbase => ?_, fun k _ hk hbase => h k hk hbase⟩
    refine wakeInv_step (h l hk hbase) ?_ hstatement
    cases b with
    | queueInLoop f => cases hsilent
    | _ => trivial

/-! ### The base loop -/

/-- The thread that destroys the server is outside of its loop. -/
def BaseOutside (s : ServerLoops) : Prop := s.server.pc ≠ .running → (s.hosts 0).pc.outside = true

lemma baseOutside_make (config : ServerConfig) : BaseOutside (ServerLoops.make config) := fun hpc => absurd rfl hpc

/-- A step of the server that is no statement of loop `k` leaves its thread where it is. -/
lemma pc_of_hostSteps {s s' : ServerEnd} {a : EndStep} {active : List ActiveChannel} {k : Nat} {v v' : LoopState Task}
    (hnext : endMachine.next s a = some s') (hown : a.thread s.server = some k → a.statements active = [])
    (hrun : (loopMachine Task).run v (hostSteps s.server s'.server a active k) = some v') : v'.pc = v.pc :=
  (tasksQueued_of_hostSteps hown (fun hnone => end_newTasks hnext hnone k) hrun).pc

theorem baseOutside_step {s s' : ServerLoops} {a : ServerLoopsStep} (h : BaseOutside s)
    (hnext : serverLoopsMachine.next s a = some s') : BaseOutside s' := by
  cases serverLoops_trans hnext with
  | @server a active e hosts hend hstands hreports hhosts =>
    intro hpc
    have hrun := hhosts 0 (Nat.zero_le _)
    change (hosts 0).pc.outside = true
    cases end_trans hend with
    | server hguard hv =>
      have hbase := hguard.resolve_left hpc
      rw [pc_of_hostSteps hend (fun hthread => absurd hthread hbase) hrun]
      exact h hpc
    | destructor hrunning hperm =>
      rw [pc_of_hostSteps hend (fun _ => rfl) hrun]
      have hstands := hstands 0 rfl
      cases hpc0 : (s.hosts 0).pc with
      | notEntered => rfl
      | returned => rfl
      | _ =>
        rw [hpc0] at hstands
        cases hstands
    | visit hdestroying | destroyed hdestroying =>
      rw [pc_of_hostSteps hend (fun _ => rfl) hrun]
      exact h (by simp [hdestroying])
  | @statement l b v hl hsilent hallows hstatement =>
    intro hpc
    have hout := h hpc
    by_cases hbase : 0 = l
    · subst hbase
      change (Function.update s.hosts 0 v 0).pc.outside = true
      rw [Function.update_self]
      cases b with
      | foreignQuit t =>
        cases loop_trans hstatement with
        | foreignQuit t hidle => exact hout
      | foreignWakeUp t =>
        cases loop_trans hstatement with
        | foreignWakeUp t hbusy => exact hout
      | foreignQueueInLoop t f => cases hsilent
      | _ => exact absurd ((of_decide_eq_true hallows).2 rfl) hpc
    · change (Function.update s.hosts l v 0).pc.outside = true
      rw [Function.update_of_ne hbase]
      exact hout

/-! ### Progress -/

/-- `poll` fills `event_list_` at most. -/
def hostedFits (_ : ServerLoops) : ServerLoopsStep → Prop
  | .server _ active => active.length ≤ kEpollEventListSize
  | .statement _ _ => True

instance (s : ServerLoops) : (a : ServerLoopsStep) → Decidable (hostedFits s a)
  | .server _ active => inferInstanceAs (Decidable (active.length ≤ kEpollEventListSize))
  | .statement _ _ => isTrue trivial

lemma TasksQueued.stepsToStart {ts : List Task} {v v' : LoopState Task} (h : TasksQueued ts v v') (k : Nat) :
    Proofs.stepsToStart k v' = Proofs.stepsToStart k v := by
  unfold Proofs.stepsToStart
  rw [h.pc, h.started]

lemma TasksQueued.startedOrReturned {ts : List Task} {v v' : LoopState Task} (h : TasksQueued ts v v') {k : Nat}
    (hgoal : StartedOrReturned k v) : StartedOrReturned k v' := by
  unfold StartedOrReturned
  rw [h.pc, h.started]
  exact hgoal

/-- A step of the server is a statement of loop `l`, or it leaves the thread of the loop where it is. -/
lemma host_cases {s s' : ServerEnd} {a : EndStep} {active : List ActiveChannel} {l : Nat} {v v' : LoopState Task}
    (hnext : endMachine.next s a = some s')
    (hrun : (loopMachine Task).run v (hostSteps s.server s'.server a active l) = some v') :
    (ServerLoopsStep.turns l (.server a active) = false ∧ ∃ ts, TasksQueued ts v v') ∨
    ∃ b v₁ ts, b.ofLoop = true ∧ a.statements active = [b] ∧ (loopMachine Task).next v b = some v₁ ∧
      TasksQueued ts v₁ v' := by
  by_cases hthread : a.thread s.server = some l
  · obtain ⟨v₁, hstatement, hqueue⟩ := run_hostSteps hthread hrun
    have hqueued := tasksQueued_own hqueue
    cases a with
    | server a =>
      cases a with
      | poll k events | handleEvent k | swap k | runTask k r app | endBatch k =>
        exact Or.inr ⟨_, v₁, _, rfl, rfl, run_singleton hstatement, hqueued⟩
      | _ =>
        obtain rfl := Option.some.inj hstatement
        exact Or.inl ⟨rfl, _, hqueued⟩
    | _ =>
      obtain rfl := Option.some.inj hstatement
      exact Or.inl ⟨rfl, _, hqueued⟩
  · refine Or.inl ⟨?_, _, tasksQueued_of_hostSteps (fun heq => absurd heq hthread)
      (fun hnone => end_newTasks hnext hnone l) hrun⟩
    cases a with
    | server a =>
      cases a with
      | poll k events | handleEvent k | swap k | runTask k r app | endBatch k =>
        exact decide_eq_false fun heq => hthread (congrArg some heq)
      | _ => rfl
    | _ => rfl

/-- A statement of loop `l` brings a task of its queue nearer, and no other step takes it away. -/
theorem stepsToStart_hosted {s s' : ServerLoops} {a : ServerLoopsStep} {l k : Nat} (h : HostedInv s)
    (hl : l ≤ s.server.server.config.numThreads) (hk : k < (s.hosts l).enqueued.length)
    (hgoal : ¬StartedOrReturned k (s.hosts l)) (hfits : hostedFits s a)
    (hnext : serverLoopsMachine.next s a = some s') :
    StartedOrReturned k (s'.hosts l) ∨
      stepsToStart k (s'.hosts l) + (if a.turns l then 1 else 0) ≤ stepsToStart k (s.hosts l) := by
  have horder := h.order l hl
  have hone (p : Bool) : (if p then 1 else 0) ≤ 1 := by split <;> omega
  cases serverLoops_trans hnext with
  | @server a active e hosts hend hstands hreports hhosts =>
    change StartedOrReturned k (hosts l) ∨ stepsToStart k (hosts l) + _ ≤ _
    rcases host_cases hend (hhosts l hl) with ⟨hnot, ts, hqueued⟩ | ⟨b, v₁, ts, hloop, hstatement, hb, hqueued⟩
    · right
      rw [hnot, hqueued.stepsToStart]
      exact Nat.le_refl _
    · have hfit : pollFits (s.hosts l) b := by
        cases b with
        | pollReturns reported =>
          cases a with
          | server a => cases a <;> simp_all [EndStep.statements, hostedFits, pollFits]
          | _ => cases hstatement
        | _ => trivial
      rw [hqueued.stepsToStart]
      rcases stepsToStart_control horder hk hgoal hfit hloop (loop_trans hb) with hstarted | hless
      · exact Or.inl (hqueued.startedOrReturned hstarted)
      · exact Or.inr (Nat.le_trans (Nat.add_le_add_left (hone _) _) hless)
  | @statement j b v hj hsilent hallows hstatement =>
    by_cases hjl : l = j
    · subst hjl
      change StartedOrReturned k (Function.update s.hosts l v l) ∨
        stepsToStart k (Function.update s.hosts l v l) + _ ≤ _
      rw [Function.update_self]
      have hfit : pollFits (s.hosts l) b := by
        cases b with
        | pollReturns reported => cases hsilent
        | _ => trivial
      cases hloop : b.ofLoop with
      | true =>
        rcases stepsToStart_control horder hk hgoal hfit hloop (loop_trans hstatement) with hstarted | hless
        · exact Or.inl hstarted
        · exact Or.inr (Nat.le_trans (Nat.add_le_add_left (hone _) _) hless)
      | false =>
        right
        simp only [ServerLoopsStep.turns, hloop, Bool.and_false, Bool.false_eq_true, if_false, Nat.add_zero]
        exact stepsToStart_other hgoal hloop (loop_trans hstatement)
    · right
      change stepsToStart k (Function.update s.hosts j v l) + _ ≤ _
      rw [Function.update_of_ne hjl]
      simp [ServerLoopsStep.turns, Ne.symm hjl]

lemma HostedInv.lived_of_started {s : ServerLoops} (h : HostedInv s) {l k c : Nat}
    (hl : l ≤ s.server.server.config.numThreads)
    (htask : (s.hosts l).enqueued[k]? = some (.connectionEstablished c)) (hstarted : k < (s.hosts l).started.length) :
    Lived c .established s.server.server := by
  refine h.ran l hl (.connectionEstablished c) ?_
  have horder := h.order l hl
  unfold TasksInOrder at horder
  rw [horder, List.append_assoc, List.getElem?_append_left hstarted] at htask
  exact List.mem_of_getElem? htask

/-- The task `k` of loop `l` establishes the connection `c`. -/
structure EstablishesAt (l k c : Nat) (s : ServerLoops) : Prop where
  inv : HostedInv s
  woken : Woken s
  base : BaseOutside s
  place : l ≤ s.server.server.config.numThreads
  task : (s.hosts l).enqueued[k]? = some (.connectionEstablished c)

lemma establishesAt_step {s s' : ServerLoops} {a : ServerLoopsStep} {l k c : Nat} (h : EstablishesAt l k c s)
    (hids : hostedIdsFit s a) (hnext : serverLoopsMachine.next s a = some s') : EstablishesAt l k c s' := by
  refine ⟨hostedInv_step h.inv hids hnext, woken_step h.woken hnext, baseOutside_step h.base hnext, ?_, ?_⟩
  · rw [hosted_config hnext]
    exact h.place
  · obtain ⟨steps, hrun⟩ := host_run hnext h.place
    have hprefix := (loopMachine Task).invariant (I := fun v => (s.hosts l).enqueued <+: v.enqueued)
      (fun _ _ _ hv hb => hv.trans (enqueued_grows_step hb)) (List.prefix_refl _) hrun
    obtain ⟨more, hmore⟩ := hprefix
    rw [← hmore, List.getElem?_append_left (List.getElem?_eq_some_iff.mp h.task).1]
    exact h.task

/-- A loop that sleeps while the connection waits is woken. -/
lemma EstablishesAt.poll {s : ServerLoops} {l k c : Nat} (h : EstablishesAt l k c s) (hpoll : (s.hosts l).pc = .poll)
    (hwaits : ¬Lived c .established s.server.server) :
    0 < (s.hosts l).loop.wakeupFd ∨ ∃ t, (s.hosts l).foreign t = .enqueued := by
  have hbase : l = 0 → s.server.pc = .running := by
    rintro rfl
    by_contra hpc
    have hout := h.base hpc
    rw [hpoll] at hout
    cases hout
  have hwake := h.woken l h.place hbase
  have hstarted : (s.hosts l).started.length ≤ k :=
    Nat.le_of_not_lt fun hlt => hwaits (h.inv.lived_of_started h.place h.task hlt)
  have hpending := pending_of_poll (h.inv.order l h.place) (List.getElem?_eq_some_iff.mp h.task).1 hpoll hstarted
  rcases hwake.covered hpending with hc | hc | hc | hc
  · rw [hpoll] at hc
    cases hc
  · exact Or.inl hc
  · exact Or.inr hc
  · rw [not_queueing hwake hpoll rfl] at hc
    cases hc

/-- A connection has been established, or a task of its loop is still to establish it. -/
lemma HostedInv.establishesAt {config : ServerConfig} {before : List ServerLoopsStep} {s : ServerLoops} {c : Nat}
    {x : ServerConn} (hs : HostedInv s) (hrun : serverLoopsMachine.run (ServerLoops.make config) before = some s)
    (hx : s.server.server.conns c = some x) : Lived c .established s.server.server ∨
      EstablishesAt x.loop ((s.hosts x.loop).enqueued.idxOf (.connectionEstablished c)) c s := by
  rcases hs.server.establishmentWaits hx with hdone | ⟨-, pre, post, htodo, -⟩
  · exact Or.inl ⟨x, hx, hdone⟩
  have hplace := hs.server.place hx
  have hqueued : .connectionEstablished c ∈ (s.hosts x.loop).enqueued := by
    refine hs.mem_enqueued hplace ?_
    rw [htodo]
    exact List.mem_append_right _ List.mem_cons_self
  have hboth := serverLoopsMachine.invariant (I := fun v => Woken v ∧ BaseOutside v)
    (fun _ _ _ hv hnext => ⟨woken_step hv.1 hnext, baseOutside_step hv.2 hnext⟩)
    ⟨woken_make config, baseOutside_make config⟩ hrun
  exact Or.inr ⟨hs, hboth.1, hboth.2, hplace, List.getElem?_idxOf hqueued⟩

/-- A connection that has been accepted is established, or its loop returns, by the time the thread of
its loop has made `stepsToStart` statements; and as long as the connection waits, every `poll` of the
loop is woken. -/
theorem accepted_connection_wakes_loop (config : ServerConfig) (before steps : List ServerLoopsStep) (s u : ServerLoops)
    (c : Nat) (x : ServerConn) (hids : serverLoopsMachine.Meets hostedIdsFit (ServerLoops.make config) before)
    (hrun : serverLoopsMachine.run (ServerLoops.make config) before = some s) (hx : s.server.server.conns c = some x)
    (hok : serverLoopsMachine.Meets (fun v a => hostedIdsFit v a ∧ hostedFits v a) s steps)
    (hmore : serverLoopsMachine.run s steps = some u) :
    (stepsToStart ((s.hosts x.loop).enqueued.idxOf (.connectionEstablished c)) (s.hosts x.loop) ≤
        steps.countP (ServerLoopsStep.turns x.loop) →
      serverLoopsMachine.Reaches
        (fun v => Lived c .established v.server.server ∨ (v.hosts x.loop).pc = .returned) s steps) ∧
    ((u.hosts x.loop).pc = .poll → Lived c .established u.server.server ∨
      0 < (u.hosts x.loop).loop.wakeupFd ∨ ∃ t, (u.hosts x.loop).foreign t = .enqueued) := by
  have hs := hostedInv_run hids hrun
  have hids' := hok.mono serverLoopsMachine fun _ _ h => h.1
  rcases hs.establishesAt hrun hx with hlived | hat
  · exact ⟨fun _ => serverLoopsMachine.reaches_of_goal steps (Or.inl hlived),
      fun _ => Or.inl (hs.lived_run hlived hids' hmore)⟩
  constructor
  · intro hcount
    refine serverLoopsMachine.reaches_of_le_countP (ServerLoopsStep.turns x.loop) (fun _ => 0)
      (fun v => stepsToStart _ (v.hosts x.loop)) ?_ (fun v _ _ => stepsToStart_pos _ (v.hosts x.loop)) hat hok hmore
      (by rw [Machine.sum_map_zero]; exact hcount)
    intro v a v' hv hgoal hfit hnext
    have hv' := establishesAt_step hv hfit.1 hnext
    refine ⟨hv', ?_⟩
    have hnot : ¬StartedOrReturned _ (v.hosts x.loop) := fun hreached =>
      hgoal (hreached.imp_left (hv.inv.lived_of_started hv.place hv.task))
    rcases stepsToStart_hosted hv.inv hv.place (List.getElem?_eq_some_iff.mp hv.task).1 hnot hfit.2 hnext with
      hreached | hless
    · exact Or.inl (hreached.imp_left (hv'.inv.lived_of_started hv'.place hv'.task))
    · exact Or.inr hless
  · intro hpoll
    have hu := serverLoopsMachine.invariant_of_meets (fun _ _ _ => establishesAt_step) hat hids' hmore
    by_cases hlived : Lived c .established u.server.server
    · exact Or.inl hlived
    · exact Or.inr (hu.poll hpoll hlived)

/-- A full `event_list_` comes in front of the connection. -/
def establishesLast : List ServerLoopsStep :=
  .server (.server (.poll 1 [])) (List.replicate 16 .other) ::
    (List.replicate 16 [.statement 1 .advance, .statement 1 .userReturns]).flatten ++ loopAdvances 1 2 ++
    [.server (.server (.swap 1)) [], .server (.server (.runTask 1 (.ok 0) [])) []]

theorem accepted_connection_wakes_loop_last :
    ∃ s u, serverLoopsMachine.run (ServerLoops.make sampleConfig) acceptsOne = some s ∧
      serverLoopsMachine.run s establishesLast = some u ∧
      stepsToStart 0 (s.hosts 1) = establishesLast.countP (ServerLoopsStep.turns 1) ∧
      serverLoopsMachine.Reaches
        (fun v => Lived 0 .established v.server.server ∨ (v.hosts 1).pc = .returned) s establishesLast := by
  have hend : (serverLoopsMachine.run (ServerLoops.make sampleConfig) acceptsOne).bind (fun s =>
      (s.server.server.conns 0).bind fun x => (serverLoopsMachine.run s establishesLast).map fun _ =>
        (x.loop, (s.hosts 1).enqueued,
          decide (stepsToStart 0 (s.hosts 1) = establishesLast.countP (ServerLoopsStep.turns 1)),
          decide (serverLoopsMachine.Meets (fun v a => hostedIdsFit v a ∧ hostedFits v a) s establishesLast))) =
      some (1, [.connectionEstablished 0], true, true) := by
    decide +kernel
  obtain ⟨s, hrun, hend⟩ := Option.bind_eq_some_iff.mp hend
  obtain ⟨x, hx, hend⟩ := Option.bind_eq_some_iff.mp hend
  obtain ⟨u, hmore, hend⟩ := Option.map_eq_some_iff.mp hend
  simp only [Prod.mk.injEq, decide_eq_true_eq] at hend
  obtain ⟨hloop, hqueue, hcount, hok⟩ := hend
  have hreach := (accepted_connection_wakes_loop sampleConfig acceptsOne establishesLast s u 0 x (by decide +kernel) hrun
    hx hok hmore).1
  rw [hloop, hqueue, List.idxOf_cons_self] at hreach
  exact ⟨s, u, hrun, hmore, hcount, hreach (Nat.le_of_eq hcount)⟩

end Proofs

end MylibMuduo
