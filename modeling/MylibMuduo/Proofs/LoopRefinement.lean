import MylibMuduo.ServerLoops
import MylibMuduo.Proofs.Destruction
import MylibMuduo.Proofs.QueuedBeforeQuit

/-!
# The server on its event loops

The loops of `TcpServer.lean` and the statements of `EventLoop.lean` describe the same code. In every
interleaving of the threads each loop of the server has the queue of its event loop and stands where
the thread of the event loop stands. So the results about event loops and about the server hold
together: a connection that waits for its establishment wakes its loop and is established within a
number of statements, and the end of an io loop leaves no connection behind that was to be destroyed
when the loop was idle.
-/

namespace MylibMuduo.Proofs

/-! ### Steps -/

/-- Everything that a step can do. -/
inductive ServerLoopsTrans (s : ServerLoops) : ServerLoopsStep → ServerLoops → Prop
  | server {a : EndStep} {active : List ActiveChannel} {e : ServerEnd} {hosts : Nat → LoopState Task}
      (hnext : endMachine.next s.server a = some e)
      (hstands : ∀ l, a.thread s.server.server = some l → a.standsAt (s.hosts l).pc = true)
      (hreports : a.reports active = true)
      (hhosts : ∀ k, k ≤ s.server.server.config.numThreads →
        (loopMachine Task).run (s.hosts k) (hostSteps s.server.server e.server a active k) = some (hosts k)) :
      ServerLoopsTrans s (.server a active) ⟨e, hosts⟩
  | statement {l : Nat} {b : LoopStep Task} {v : LoopState Task} (hl : l ≤ s.server.server.config.numThreads)
      (hsilent : (s.server.server.loops l).silent (s.hosts l).pc b = true) (hallows : s.allows l b = true)
      (hnext : (loopMachine Task).next (s.hosts l) b = some v) :
      ServerLoopsTrans s (.statement l b) { s with hosts := Function.update s.hosts l v }

theorem serverLoops_trans {s s' : ServerLoops} {a : ServerLoopsStep} (hnext : serverLoopsMachine.next s a = some s') :
    ServerLoopsTrans s a s' := by
  cases a with
  | server a active =>
    obtain ⟨e, he, hnext⟩ := Option.bind_eq_some_iff.mp hnext
    rw [Option.ite_none_right_eq_some, Option.some.injEq] at hnext
    obtain ⟨⟨hstands, hreports, hhosts⟩, rfl⟩ := hnext
    refine .server he (fun l hl => (hstands l hl).1) hreports fun k hk => ?_
    exact (Option.some_get (hhosts k hk)).symm.trans (congrArg some (Option.get_eq_getD _))
  | statement l b =>
    simp only [serverLoopsMachine, Option.ite_none_right_eq_some, Option.map_eq_some_iff] at hnext
    obtain ⟨⟨hl, hsilent, hallows⟩, v, hv, rfl⟩ := hnext
    exact .statement hl hsilent hallows hv

/-! ### Places -/

/-- The phase of a loop of the server and the place of its thread in `EventLoop::loop`. -/
def Matches (ph : Phase) : LoopPc Task → Prop
  | .dispatch acts => ∃ active, ph = .dispatch active ∧ active.length ≤ acts.count .other
  | .callback acts => ph.active.length ≤ acts.count .other ∧
      ((∃ active, ph = .dispatch active) ∨ ∃ c revent h active, ph = .handling c revent h active)
  | .setCalling => ph = .dispatch []
  | .swap => ph = .dispatch []
  | .running done rest => ph = .running done rest
  | .functor done rest => ph = .running done rest
  | .destroying _ => ∃ done, ph = .running done []
  | _ => ph = .poll

structure LoopMatches (L : IoLoop) (v : LoopState Task) : Prop where
  place : Matches L.phase v.pc
  queue : v.loop.pendingFunctors = L.pendingFunctors
  returned : v.inQueueInLoop = false

lemma Matches.rest {ph : Phase} {pc : LoopPc Task} (h : Matches ph pc) : ph.rest = pc.rest := by
  cases pc with
  | dispatch acts =>
    obtain ⟨active, rfl, -⟩ := h
    rfl
  | callback acts =>
    obtain ⟨-, ⟨active, rfl⟩ | ⟨c, revent, hd, active, rfl⟩⟩ := h
    · rfl
    · rfl
  | destroying tasks =>
    obtain ⟨done, rfl⟩ := h
    rfl
  | _ =>
    subst h
    rfl

/-- The tasks that a loop has to run are those of its event loop. -/
lemma LoopMatches.todo {L : IoLoop} {v : LoopState Task} (h : LoopMatches L v) :
    L.todo = v.pc.rest ++ v.loop.pendingFunctors := by
  rw [IoLoop.todo, h.place.rest, h.queue]

/-- A statement that the server does not see. -/
lemma LoopMatches.silent {L : IoLoop} {v v' : LoopState Task} {b : LoopStep Task} (h : LoopMatches L v)
    (hsilent : L.silent v.pc b = true) (hnext : (loopMachine Task).next v b = some v') : LoopMatches L v' := by
  have hplace := h.place
  cases loop_trans hnext with
  | enterLoop hpc hin =>
    rcases hpc with hpc | hpc
    · rw [hpc] at hplace
      exact ⟨hplace, h.queue, h.returned⟩
    · rw [hpc] at hplace
      exact ⟨hplace, h.queue, h.returned⟩
  | entryQuit hpc hquit | entryPass hpc hquit | setLooping hpc | resetQuit hpc | whileQuit hpc hquit
  | whilePass hpc hquit | clearLooping hpc | setCalling hpc | functorReturns done rest hpc hin =>
    rw [hpc] at hplace
    exact ⟨hplace, h.queue, h.returned⟩
  | handleRead active hpc =>
    rw [hpc] at hplace
    obtain ⟨acts, hph, hcount⟩ := hplace
    exact ⟨⟨acts, hph, by simpa using hcount⟩, h.queue, h.returned⟩
  | callback active hpc =>
    rw [hpc] at hplace hsilent
    obtain ⟨acts, hph, -⟩ := hplace
    exact ⟨⟨of_decide_eq_true hsilent, Or.inl ⟨acts, hph⟩⟩, h.queue, h.returned⟩
  | callbackReturns active hpc hin =>
    rw [hpc] at hplace
    obtain ⟨hcount, ⟨acts, hph⟩ | ⟨c, revent, hd, acts, hph⟩⟩ := hplace
    · rw [hph] at hcount
      exact ⟨⟨acts, hph, by simpa [Phase.active] using hcount⟩, h.queue, h.returned⟩
    · -- The handlers of the connection are still to run.
      simp [IoLoop.silent, hph, Phase.guard] at hsilent
  | dispatched hpc =>
    rw [hpc] at hplace
    obtain ⟨acts, hph, hcount⟩ := hplace
    rw [List.count_nil, Nat.le_zero, List.length_eq_zero_iff] at hcount
    rw [hcount] at hph
    exact ⟨hph, h.queue, h.returned⟩
  | clearCalling done hpc =>
    rw [hpc] at hplace
    exact ⟨⟨done, hplace⟩, h.queue, h.returned⟩
  | destructorReturns f tasks hpc hin =>
    rw [hpc] at hplace
    exact ⟨hplace, h.queue, h.returned⟩
  | swap hpc | functor done f rest hpc | destroyed hpc =>
    rw [hpc] at hsilent
    cases hsilent
  | queueInLoop f huser hin | queueInLoopWake hin | pollReturns active hpc | foreignQueueInLoop t f hidle =>
    cases hsilent
  | quit huser | foreignQuit t hidle => exact ⟨hplace, h.queue, h.returned⟩
  | foreignWakeUp t hbusy => exact ⟨hplace, by simpa [LoopState.setForeign] using h.queue, h.returned⟩

/-! ### Queues -/

/-- The event loop after the tasks `ts` have been queued. -/
structure TasksQueued (ts : List Task) (v v' : LoopState Task) : Prop where
  pc : v'.pc = v.pc
  queue : v'.loop.pendingFunctors = v.loop.pendingFunctors ++ ts
  enqueued : v'.enqueued = v.enqueued ++ ts
  started : v'.started = v.started
  returned : v'.inQueueInLoop = v.inQueueInLoop

lemma tasksQueued_nil (v : LoopState Task) : TasksQueued [] v v :=
  ⟨rfl, (List.append_nil _).symm, (List.append_nil _).symm, rfl, rfl⟩

lemma TasksQueued.cons {t : Task} {ts : List Task} {v v₁ v' : LoopState Task} (h : TasksQueued [t] v v₁)
    (h' : TasksQueued ts v₁ v') : TasksQueued (t :: ts) v v' := by
  refine ⟨h'.pc.trans h.pc, ?_, ?_, h'.started.trans h.started, h'.returned.trans h.returned⟩
  · rw [h'.queue, h.queue, List.append_assoc, List.singleton_append]
  · rw [h'.enqueued, h.enqueued, List.append_assoc, List.singleton_append]

/-- The calls of `queueInLoop` on the thread of the loop. -/
lemma tasksQueued_own {ts : List Task} {v v' : LoopState Task}
    (hrun : (loopMachine Task).run v (ts.flatMap fun t => [.queueInLoop t, .queueInLoopWake]) = some v') :
    TasksQueued ts v v' := by
  induction ts generalizing v with
  | nil =>
    rw [List.flatMap_nil, Machine.run, Option.some.injEq] at hrun
    exact hrun ▸ tasksQueued_nil v
  | cons t ts ih =>
    rw [List.flatMap_cons, List.cons_append, List.singleton_append] at hrun
    obtain ⟨v₁, hqueue, hrun⟩ := ((loopMachine Task).run_cons_eq_some _ _ _ _).mp hrun
    obtain ⟨v₂, hwake, hrun⟩ := ((loopMachine Task).run_cons_eq_some _ _ _ _).mp hrun
    refine TasksQueued.cons ?_ (ih hrun)
    cases loop_trans hqueue with
    | queueInLoop t huser hin =>
      cases loop_trans hwake with
      | queueInLoopWake hin' => exact ⟨rfl, queueInLoopWake_pendingFunctors _ true, rfl, rfl, hin.symm⟩

/-- The calls of `queueInLoop` on another thread. -/
lemma tasksQueued_foreign {l : Nat} {ts : List Task} {v v' : LoopState Task}
    (hrun : (loopMachine Task).run v (ts.map (.foreignQueueInLoop l)) = some v') : TasksQueued ts v v' := by
  induction ts generalizing v with
  | nil =>
    rw [List.map_nil, Machine.run, Option.some.injEq] at hrun
    exact hrun ▸ tasksQueued_nil v
  | cons t ts ih =>
    rw [List.map_cons] at hrun
    obtain ⟨v₁, hqueue, hrun⟩ := ((loopMachine Task).run_cons_eq_some _ _ _ _).mp hrun
    refine TasksQueued.cons ?_ (ih hrun)
    cases loop_trans hqueue with
    | foreignQueueInLoop l t hidle => exact ⟨rfl, rfl, rfl, rfl, rfl⟩

lemma LoopGrows.newTasks {l : Nat} {s s' : TcpServer} (h : LoopGrows l s s') :
    (s'.loops l).pendingFunctors = (s.loops l).pendingFunctors ++ MylibMuduo.newTasks s s' l :=
  (List.prefix_iff_eq_append.mp h.queue).symm

/-- The loop and its event loop after the same tasks have been queued. -/
lemma LoopMatches.grow {l : Nat} {s s' : TcpServer} {v v' : LoopState Task} (h : LoopMatches (s.loops l) v)
    (hgrows : LoopGrows l s s') (hqueued : TasksQueued (newTasks s s' l) v v') : LoopMatches (s'.loops l) v' := by
  refine ⟨?_, ?_, hqueued.returned.trans h.returned⟩
  · rw [hgrows.phase, hqueued.pc]
    exact h.place
  · rw [hqueued.queue, h.queue, hgrows.newTasks]

/-! ### Steps of the server -/

lemma run_singleton {v v' : LoopState Task} {b : LoopStep Task} (hrun : (loopMachine Task).run v [b] = some v') :
    (loopMachine Task).next v b = some v' := by
  obtain ⟨v₁, hnext, hrun⟩ := ((loopMachine Task).run_cons_eq_some v v' b []).mp hrun
  obtain rfl := Option.some.inj hrun
  exact hnext

/-- A step of the server that is no statement of `loop` belongs to a callback or to a task. -/
lemma inCallback_of_standsAt {a : ServerStep} (active : List ActiveChannel) {pc : LoopPc Task}
    (hstands : (EndStep.server a).standsAt pc = true) (hnone : (EndStep.server a).statements active = []) :
    pc.inCallback = true := by
  cases a with
  | accept r | handler l i | app c call =>
    cases pc with
    | callback acts => rfl
    | functor done rest => rfl
    | _ => cases hstands
  | hold c | release c => cases hstands
  | _ => cases hnone

/-- The channel of a connection is taken from those that `poll` has reported. -/
lemma Matches.dispatch_other {c : Nat} {revent : EventMask} {active : List (Nat × EventMask)}
    {acts : List ActiveChannel} (h : Matches (.dispatch ((c, revent) :: active)) (.dispatch (.other :: acts))) :
    active.length ≤ acts.count .other := by
  obtain ⟨dispatched, hdispatch, hcount⟩ := h
  obtain rfl := Phase.dispatch.inj hdispatch
  rw [List.length_cons, List.count_cons_self, Nat.add_le_add_iff_right] at hcount
  exact hcount

/-- The statement that takes a loop to its next phase. -/
lemma LoopMatches.turn {l : Nat} {L : IoLoop} {a : ServerStep} {ph : Phase} {active : List ActiveChannel}
    {v v' : LoopState Task} (h : LoopMatches L v) (hturn : LoopTurn l L a ph)
    (hstands : (EndStep.server a).standsAt v.pc = true) (hreports : (EndStep.server a).reports active = true)
    (hrun : (loopMachine Task).run v ((EndStep.server a).statements active) = some v') :
    LoopMatches { L with phase := ph } v' := by
  have hplace := h.place
  cases hturn with
  | poll hphase hlength =>
    cases loop_trans (run_singleton hrun) with
    | pollReturns acts hpc =>
      exact ⟨⟨_, rfl, Nat.le_trans hlength (of_decide_eq_true hreports)⟩, h.queue, h.returned⟩
  | skip hphase =>
    cases loop_trans (run_singleton hrun) with
    | callback acts hpc =>
      rw [hpc, hphase] at hplace
      exact ⟨⟨by simpa [Phase.active] using hplace.dispatch_other, Or.inl ⟨_, rfl⟩⟩, h.queue, h.returned⟩
    | _ => simp_all [EndStep.standsAt]
  | handleEvent hphase =>
    cases loop_trans (run_singleton hrun) with
    | callback acts hpc =>
      rw [hpc, hphase] at hplace
      exact ⟨⟨by simpa [Phase.active] using hplace.dispatch_other, Or.inr ⟨_, _, _, _, rfl⟩⟩, h.queue, h.returned⟩
    | _ => simp_all [EndStep.standsAt]
  | @handler i c revent hd acts hphase =>
    obtain rfl := Option.some.inj hrun
    have hcallback := inCallback_of_standsAt active hstands rfl
    rw [hphase] at hplace
    refine ⟨?_, h.queue, h.returned⟩
    cases hpc : v.pc with
    | callback reported =>
      rw [hpc] at hplace
      cases hd with
      | error => exact ⟨hplace.1, Or.inl ⟨_, rfl⟩⟩
      | _ => exact ⟨hplace.1, Or.inr ⟨_, _, _, _, rfl⟩⟩
    | functor done rest =>
      rw [hpc] at hplace
      cases hplace
    | _ =>
      rw [hpc] at hcallback
      cases hcallback
  | runTask hphase =>
    cases loop_trans (run_singleton hrun) with
    | functor done t rest hpc =>
      rw [hpc, hphase] at hplace
      obtain ⟨rfl, hcons⟩ := Phase.running.inj hplace
      obtain ⟨rfl, rfl⟩ := List.cons.inj hcons
      exact ⟨rfl, h.queue, h.returned⟩
    | _ => simp_all [EndStep.standsAt]
  | endBatch hphase =>
    cases loop_trans (run_singleton hrun) with
    | destroyed hpc => exact ⟨rfl, h.queue, h.returned⟩
    | _ => simp_all [EndStep.standsAt]

/-- A step of a loop is made by its thread. -/
lemma LoopTurn.thread {l : Nat} {L : IoLoop} {a : ServerStep} {ph : Phase} (h : LoopTurn l L a ph) (s : TcpServer) :
    a.thread s = some l := by
  cases h with
  | _ => rfl

/-- A step of the thread `l` that does not turn its loop is no statement of `loop`. -/
lemma statements_of_not_turns {s : TcpServer} {l : Nat} {a : ServerStep} (active : List ActiveChannel)
    (hthread : a.thread s = some l) (hturns : a.turns l = false) : (EndStep.server a).statements active = [] := by
  cases a with
  | poll k events | handleEvent k | swap k | runTask k r app | endBatch k =>
    exact absurd (Option.some.inj hthread) (of_decide_eq_false hturns)
  | _ => rfl

lemma newTasks_of_eq {s s' : TcpServer} {k : Nat} (h : (s'.loops k).pendingFunctors = (s.loops k).pendingFunctors) :
    newTasks s s' k = [] := by
  rw [newTasks, h, List.drop_length]

/-- On no thread in particular nothing is queued. -/
lemma newTasks_of_thread {s s' : TcpServer} {a : ServerStep} (htrans : ServerTrans s a s') (hthread : a.thread s = none)
    (k : Nat) : newTasks s s' k = [] := by
  cases htrans with
  | app hx =>
    rw [ServerStep.thread, hx] at hthread
    cases hthread
  | hold hx | release hx => exact newTasks_of_eq rfl
  | _ => cases hthread

/-- The event loop of a loop that stays where it is. -/
lemma tasksQueued_of_hostSteps {s s' : TcpServer} {a : EndStep} {active : List ActiveChannel} {k : Nat}
    {v v' : LoopState Task} (hown : a.thread s = some k → a.statements active = [])
    (hnone : a.thread s = none → newTasks s s' k = [])
    (hrun : (loopMachine Task).run v (hostSteps s s' a active k) = some v') : TasksQueued (newTasks s s' k) v v' := by
  unfold hostSteps at hrun
  split at hrun
  · next l hl =>
    split at hrun
    · next hk =>
      rw [hown (hk ▸ hl), List.nil_append] at hrun
      exact tasksQueued_own hrun
    · exact tasksQueued_foreign hrun
  · next hthread =>
    rw [hnone hthread]
    exact Option.some.inj hrun ▸ tasksQueued_nil v

/-- The event loop of the loop that makes a statement. -/
lemma run_hostSteps {s s' : TcpServer} {a : EndStep} {active : List ActiveChannel} {k : Nat} {v v' : LoopState Task}
    (hthread : a.thread s = some k) (hrun : (loopMachine Task).run v (hostSteps s s' a active k) = some v') :
    ∃ v₁, (loopMachine Task).run v (a.statements active) = some v₁ ∧
      (loopMachine Task).run v₁ ((newTasks s s' k).flatMap fun t => [.queueInLoop t, .queueInLoopWake]) = some v' := by
  unfold hostSteps at hrun
  rw [hthread] at hrun
  simp only [if_true] at hrun
  exact ((loopMachine Task).run_append_eq_some v v' _ _).mp hrun

/-- The swap of the event loop is that of the server. -/
lemma LoopMatches.swap {l : Nat} {s : TcpServer} {active : List ActiveChannel} {v v' : LoopState Task}
    (h : LoopMatches (s.loops l) v) (hstands : (EndStep.server (.swap l)).standsAt v.pc = true)
    (hrun : (loopMachine Task).run v ((EndStep.server (.swap l)).statements active) = some v') :
    LoopMatches { s.loops l with phase := .running [] (s.loops l).pendingFunctors, pendingFunctors := [] } v' := by
  cases loop_trans (run_singleton hrun) with
  | swap hpc => exact ⟨congrArg (Phase.running []) h.queue.symm, rfl, h.returned⟩
  | _ => simp_all [EndStep.standsAt]

lemma setLoop_loops (s : TcpServer) (l : Nat) (L : IoLoop) : (s.setLoop l L).loops l = L := Function.update_self _ _ _

/-- A step of the server keeps a loop and its event loop together. -/
theorem LoopMatches.step {s s' : TcpServer} {a : ServerStep} {active : List ActiveChannel} {k : Nat}
    {v v' : LoopState Task} (h : LoopMatches (s.loops k) v) (htrans : ServerTrans s a s')
    (hstands : a.thread s = some k → (EndStep.server a).standsAt v.pc = true)
    (hreports : (EndStep.server a).reports active = true)
    (hrun : (loopMachine Task).run v (hostSteps s s' (.server a) active k) = some v') :
    LoopMatches (s'.loops k) v' := by
  rcases loop_turn k htrans with ⟨hturns, hgrows⟩ | ⟨ph, hturn, hgrows⟩ | ⟨rfl, -, -⟩
  · exact h.grow hgrows (tasksQueued_of_hostSteps (fun hthread => statements_of_not_turns active hthread hturns)
      (fun hthread => newTasks_of_thread htrans hthread k) hrun)
  · have hthread := hturn.thread s
    obtain ⟨v₁, hstatement, hqueue⟩ := run_hostSteps (a := .server a) hthread hrun
    have hturned := h.turn hturn (hstands hthread) hreports hstatement
    rw [← setLoop_loops s k { s.loops k with phase := ph }] at hturned
    have hsame : newTasks (s.setPhase k ph) s' k = newTasks s s' k := by rw [newTasks, setPhase_pending, newTasks]
    refine hturned.grow hgrows ?_
    change TasksQueued (newTasks (s.setPhase k ph) s' k) v₁ v'
    rw [hsame]
    exact tasksQueued_own hqueue
  · cases htrans with
    | swap hphase =>
      obtain ⟨v₁, hstatement, hqueue⟩ := run_hostSteps (a := .server (.swap k)) rfl hrun
      have hnone (L : IoLoop) (hL : L.pendingFunctors = []) : newTasks s (s.setLoop k L) k = [] := by
        rw [newTasks, setLoop_loops, hL, List.drop_nil]
      rw [hnone _ rfl] at hqueue
      obtain rfl := Option.some.inj hqueue
      rw [setLoop_loops]
      exact h.swap (hstands rfl) hstatement

/-! ### Runs -/

lemma config_step {s s' : TcpServer} {a : ServerStep} (hnext : serverMachine.next s a = some s') :
    s'.config = s.config := by
  by_cases ha : ∃ fd, a = .accept (some (fd + 1))
  · obtain ⟨fd, rfl⟩ := ha
    cases server_trans hnext with
    | accept hclosed => rfl
  · exact (sameConns_step hnext fun fd heq => ha ⟨fd, heq⟩).config

lemma destroyConnection_config (s : TcpServer) (c : Nat) : (s.destroyConnection c).config = s.config := by
  unfold TcpServer.destroyConnection
  split
  · rfl
  · rfl

lemma end_config {s s' : ServerEnd} {a : EndStep} (hnext : endMachine.next s a = some s') :
    s'.server.config = s.server.config := by
  cases end_trans hnext with
  | server hpc hv => exact config_step hv
  | destructor hpc hperm => rfl
  | visit hpc => exact destroyConnection_config s.server _
  | destroyed hpc => rfl

lemma loopGrows_destroyConnection (s : TcpServer) (c l : Nat) : LoopGrows l s (s.destroyConnection c) := by
  unfold TcpServer.destroyConnection
  split
  · next x hx => exact loopGrows_removeConnectionInLoop s c x
  · exact loopGrows_of_eq rfl

/-- Every loop of the server stands where its event loop stands. -/
def Hosted (s : ServerLoops) : Prop :=
  ∀ k, k ≤ s.server.server.config.numThreads → LoopMatches (s.server.server.loops k) (s.hosts k)

lemma hosted_make (config : ServerConfig) : Hosted (ServerLoops.make config) := fun _ _ => ⟨rfl, rfl, rfl⟩

theorem hosted_step {s s' : ServerLoops} {a : ServerLoopsStep} (h : Hosted s)
    (hnext : serverLoopsMachine.next s a = some s') : Hosted s' := by
  cases serverLoops_trans hnext with
  | @server a active e hosts hend hstands hreports hhosts =>
    intro k hk
    change k ≤ e.server.config.numThreads at hk
    rw [end_config hend] at hk
    have hmatches := h k hk
    have hrun := hhosts k hk
    cases end_trans hend with
    | server hpc hv => exact hmatches.step (server_trans hv) (hstands k) hreports hrun
    | destructor hpc hperm =>
      exact hmatches.grow (loopGrows_of_eq rfl)
        (tasksQueued_of_hostSteps (fun _ => rfl) (fun hnone => by cases hnone) hrun)
    | visit hpc =>
      exact hmatches.grow (loopGrows_destroyConnection _ _ k)
        (tasksQueued_of_hostSteps (fun _ => rfl) (fun hnone => by cases hnone) hrun)
    | destroyed hpc =>
      exact hmatches.grow (loopGrows_of_eq rfl)
        (tasksQueued_of_hostSteps (fun _ => rfl) (fun hnone => by cases hnone) hrun)
  | @statement l b v hl hsilent hallows hstatement =>
    exact (Function.forall_update_iff s.hosts
      (p := fun k w => k ≤ s.server.server.config.numThreads → LoopMatches (s.server.server.loops k) w)).mpr
      ⟨fun hk => (h l hk).silent hsilent hstatement, fun k _ hk => h k hk⟩

/-- A step of the threads is a run of each event loop. -/
lemma host_run {s s' : ServerLoops} {a : ServerLoopsStep} (hnext : serverLoopsMachine.next s a = some s') {k : Nat}
    (hk : k ≤ s.server.server.config.numThreads) :
    ∃ steps, (loopMachine Task).run (s.hosts k) steps = some (s'.hosts k) := by
  cases serverLoops_trans hnext with
  | server hend hstands hreports hhosts => exact ⟨_, hhosts k hk⟩
  | @statement l b v hl hsilent hallows hstatement =>
    by_cases hkl : k = l
    · subst hkl
      refine ⟨[b], ?_⟩
      change (loopMachine Task).run (s.hosts k) [b] = some (Function.update s.hosts k v k)
      rw [Function.update_self, Machine.run_cons_eq_some]
      exact ⟨v, hstatement, rfl⟩
    · refine ⟨[], ?_⟩
      change some (s.hosts k) = some (Function.update s.hosts l v k)
      rw [Function.update_of_ne hkl]

/-! ### Tasks that have been started -/

lemma Lived.grows {c : Nat} {e : LifeEvent} {s s' : TcpServer} (h : Lived c e s) (hgrows : Grows s s') :
    Lived c e s' := by
  obtain ⟨x, hx, he⟩ := h
  obtain ⟨x', hx', hprefix⟩ := hgrows c x hx
  exact ⟨x', hx', hprefix.subset he⟩

lemma IoStep.grows {ran : Option (Nat × Task)} {s s' : TcpServer} (h : IoStep ran s s') : Grows s s' := by
  intro c x hx
  obtain ⟨x', hx', -, -, e, he, -⟩ := h.conns c x hx
  exact ⟨x', hx', he ▸ List.prefix_append _ _⟩

lemma conns_destroyConnection (s : TcpServer) (c : Nat) : (s.destroyConnection c).conns = s.conns := by
  unfold TcpServer.destroyConnection
  split
  · rfl
  · rfl

lemma Ending.grows {left : List Nat} {s s' : TcpServer} {a : ServerStep} (h : Ending left s)
    (hbase : a.thread s ≠ some 0) (hnext : serverMachine.next s a = some s') : Grows s s' := by
  obtain ⟨ran, hio⟩ := io_step (server_trans hnext) hbase h.removal
  exact hio.grows

lemma end_grows {s s' : ServerEnd} {a : EndStep} (h : EndInv s) (hids : endIdsFit s a)
    (hnext : endMachine.next s a = some s') : Grows s.server s'.server := by
  unfold EndInv at h
  cases end_trans hnext with
  | server hpc hv =>
    cases hphase : s.pc with
    | running =>
      rw [hphase] at h
      exact (serverInv_step h hids hv).2
    | destroying left =>
      rw [hphase] at h
      exact h.grows (hpc.resolve_left (by simp [hphase])) hv
    | destroyed =>
      rw [hphase] at h
      exact h.grows (hpc.resolve_left (by simp [hphase])) hv
  | destructor hpc hperm => exact grows_of_conns rfl
  | visit hpc => exact grows_of_conns (conns_destroyConnection s.server _)
  | destroyed hpc => exact grows_of_conns rfl

/-- The task has done to its connection what it was queued for. -/
def TaskRan (s : TcpServer) : Task → Prop
  | .connectionEstablished c => Lived c .established s
  | .connectionDestroyed c => Lived c .destroyed s
  | _ => True

lemma TaskRan.grows {s s' : TcpServer} {t : Task} (h : TaskRan s t) (hgrows : Grows s s') : TaskRan s' t := by
  cases t with
  | connectionEstablished c | connectionDestroyed c => exact Lived.grows h hgrows
  | _ => trivial

lemma taskRan_runTask (s : TcpServer) (r : SysResult) (app : List AppCall) (x : ServerConn) (t : Task) :
    TaskRan (s.runTask r app x t) t := by
  cases t with
  | connectionEstablished c | connectionDestroyed c => exact lived_store
  | _ => trivial

/-- An event loop starts a task when the server runs it. -/
lemma started_hostSteps {s s' : TcpServer} {a : EndStep} {active : List ActiveChannel} {k : Nat}
    {v v' : LoopState Task} (h : LoopMatches (s.loops k) v) (hstands : a.thread s = some k → a.standsAt v.pc = true)
    (hnone : a.thread s = none → newTasks s s' k = [])
    (hrun : (loopMachine Task).run v (hostSteps s s' a active k) = some v') :
    v'.started = v.started ∨ ∃ r app done t rest, a = .server (.runTask k r app) ∧
      (s.loops k).phase = .running done (t :: rest) ∧ v'.started = v.started ++ [t] := by
  by_cases hthread : a.thread s = some k
  · obtain ⟨v₁, hstatement, hqueue⟩ := run_hostSteps hthread hrun
    have hstands := hstands hthread
    rw [(tasksQueued_own hqueue).started]
    cases a with
    | server a =>
      cases a with
      | poll l events =>
        cases loop_trans (run_singleton hstatement) with
        | pollReturns acts hpc => exact Or.inl rfl
      | runTask l r app =>
        obtain rfl := Option.some.inj hthread
        cases loop_trans (run_singleton hstatement) with
        | functor done t rest hpc =>
          have hplace := h.place
          rw [hpc] at hplace
          exact Or.inr ⟨r, app, done, t, rest, rfl, hplace, rfl⟩
        | _ => exact Or.inl rfl
      | handleEvent l | swap l | endBatch l =>
        cases loop_trans (run_singleton hstatement) with
        | functor done t rest hpc =>
          rw [hpc] at hstands
          cases hstands
        | _ => exact Or.inl rfl
      | _ => exact Or.inl (congrArg LoopState.started (Option.some.inj hstatement).symm)
    | _ => exact Or.inl (congrArg LoopState.started (Option.some.inj hstatement).symm)
  · exact Or.inl (tasksQueued_of_hostSteps (fun heq => absurd heq hthread) hnone hrun).started

/-- The server and its event loops: what has been started has been run. -/
structure HostedInv (s : ServerLoops) : Prop where
  hosted : Hosted s
  server : EndInv s.server
  order : ∀ k, k ≤ s.server.server.config.numThreads → TasksInOrder (s.hosts k)
  ran : ∀ k, k ≤ s.server.server.config.numThreads → ∀ t ∈ (s.hosts k).started, TaskRan s.server.server t

lemma hostedInv_make (config : ServerConfig) : HostedInv (ServerLoops.make config) :=
  ⟨hosted_make config, serverInv_make config, fun _ _ => tasksInOrder_make, fun _ _ _ ht => absurd ht List.not_mem_nil⟩

/-- Connection numbers fit. -/
def hostedIdsFit (s : ServerLoops) : ServerLoopsStep → Prop
  | .server a _ => endIdsFit s.server a
  | .statement _ _ => True

instance (s : ServerLoops) : (a : ServerLoopsStep) → Decidable (hostedIdsFit s a)
  | .server a _ => inferInstanceAs (Decidable (endIdsFit s.server a))
  | .statement _ _ => isTrue trivial

lemma started_silent {L : IoLoop} {v v' : LoopState Task} {b : LoopStep Task} (hsilent : L.silent v.pc b = true)
    (hnext : (loopMachine Task).next v b = some v') : v'.started = v.started := by
  cases loop_trans hnext with
  | functor done t rest hpc =>
    rw [hpc] at hsilent
    cases hsilent
  | _ => rfl

lemma end_newTasks {s s' : ServerEnd} {a : EndStep} (hnext : endMachine.next s a = some s')
    (hthread : a.thread s.server = none) (k : Nat) : newTasks s.server s'.server k = [] := by
  cases end_trans hnext with
  | server hpc hv => exact newTasks_of_thread (server_trans hv) hthread k
  | _ => cases hthread

/-- A step of the server runs the task that an event loop starts. -/
lemma HostedInv.ran_server {s : ServerLoops} {e : ServerEnd} {a : EndStep} {active : List ActiveChannel} {k : Nat}
    {v : LoopState Task} (h : HostedInv s) (hids : endIdsFit s.server a) (hend : endMachine.next s.server a = some e)
    (hstands : a.thread s.server.server = some k → a.standsAt (s.hosts k).pc = true)
    (hk : k ≤ s.server.server.config.numThreads)
    (hrun : (loopMachine Task).run (s.hosts k) (hostSteps s.server.server e.server a active k) = some v) :
    ∀ t ∈ v.started, TaskRan e.server t := by
  have hgrows := end_grows h.server hids hend
  rcases started_hostSteps (h.hosted k hk) hstands (fun hnone => end_newTasks hend hnone k) hrun with
    hsame | ⟨r, app, done, t, rest, rfl, hphase, hmore⟩
  · rw [hsame]
    exact fun t ht => (h.ran k hk t ht).grows hgrows
  · rw [hmore]
    intro u hu
    rcases List.mem_append.mp hu with hold | hnew
    · exact (h.ran k hk u hold).grows hgrows
    · obtain rfl := List.mem_singleton.mp hnew
      cases end_trans hend with
      | server hpc hv =>
        obtain ⟨r', app', x, hx, heq⟩ := runTask_of_turn (server_trans hv) (decide_eq_true rfl) hphase
        dsimp only
        rw [heq]
        exact taskRan_runTask _ r' app' x u

theorem hostedInv_step {s s' : ServerLoops} {a : ServerLoopsStep} (h : HostedInv s) (hids : hostedIdsFit s a)
    (hnext : serverLoopsMachine.next s a = some s') : HostedInv s' := by
  have horder (k : Nat) (hk : k ≤ s.server.server.config.numThreads) : TasksInOrder (s'.hosts k) := by
    obtain ⟨steps, hrun⟩ := host_run hnext hk
    exact (loopMachine Task).invariant (fun _ _ _ => tasksInOrder_step) (h.order k hk) hrun
  have hhosted := hosted_step h.hosted hnext
  cases serverLoops_trans hnext with
  | @server a active e hosts hend hstands hreports hhosts =>
    have hconfig := end_config hend
    refine ⟨hhosted, endInv_step h.server hids hend, fun k hk => horder k ?_, fun k hk => ?_⟩
    · rw [← hconfig]
      exact hk
    · change k ≤ e.server.config.numThreads at hk
      rw [hconfig] at hk
      exact h.ran_server hids hend (hstands k) hk (hhosts k hk)
  | @statement l b v hl hsilent hallows hstatement =>
    refine ⟨hhosted, h.server, horder, ?_⟩
    refine (Function.forall_update_iff s.hosts (p := fun k w => k ≤ s.server.server.config.numThreads →
      ∀ t ∈ w.started, TaskRan s.server.server t)).mpr ⟨fun hk t ht => h.ran l hk t ?_, fun k _ hk => h.ran k hk⟩
    rw [← started_silent hsilent hstatement]
    exact ht

lemma hosted_config {s s' : ServerLoops} {a : ServerLoopsStep} (hnext : serverLoopsMachine.next s a = some s') :
    s'.server.server.config = s.server.server.config := by
  cases serverLoops_trans hnext with
  | server hend hstands hreports hhosts => exact end_config hend
  | statement hl hsilent hallows hstatement => rfl

lemma hosted_config_run {s u : ServerLoops} {steps : List ServerLoopsStep}
    (hrun : serverLoopsMachine.run s steps = some u) : u.server.server.config = s.server.server.config :=
  serverLoopsMachine.invariant (I := fun v => v.server.server.config = s.server.server.config)
    (fun _ _ _ hv hnext => (hosted_config hnext).trans hv) rfl hrun

theorem hostedInv_run {config : ServerConfig} {steps : List ServerLoopsStep} {s : ServerLoops}
    (hids : serverLoopsMachine.Meets hostedIdsFit (ServerLoops.make config) steps)
    (hrun : serverLoopsMachine.run (ServerLoops.make config) steps = some s) : HostedInv s :=
  serverLoopsMachine.invariant_of_meets (fun _ _ _ => hostedInv_step) (hostedInv_make config) hids hrun

/-- What has happened to a connection stays. -/
lemma HostedInv.lived_run {s u : ServerLoops} (h : HostedInv s) {c : Nat} {e : LifeEvent} {steps : List ServerLoopsStep}
    (hlived : Lived c e s.server.server) (hids : serverLoopsMachine.Meets hostedIdsFit s steps)
    (hrun : serverLoopsMachine.run s steps = some u) : Lived c e u.server.server := by
  have hboth : HostedInv u ∧ Lived c e u.server.server := by
    refine serverLoopsMachine.invariant_of_meets (I := fun v => HostedInv v ∧ Lived c e v.server.server) ?_
      ⟨h, hlived⟩ hids hrun
    rintro v a v' ⟨hv, hl⟩ hid hnext
    refine ⟨hostedInv_step hv hid hnext, ?_⟩
    cases serverLoops_trans hnext with
    | server hend hstands hreports hhosts => exact hl.grows (end_grows hv.server hid hend)
    | statement hk hsilent hallows hstatement => exact hl
  exact hboth.2

/-- What every step of an event loop keeps, the threads of the server keep. -/
lemma host_invariant {I : LoopState Task → Prop}
    (hstep : ∀ v b v', I v → (loopMachine Task).next v b = some v' → I v') {s u : ServerLoops}
    {steps : List ServerLoopsStep} {k : Nat} (hk : k ≤ s.server.server.config.numThreads) (h : I (s.hosts k))
    (hrun : serverLoopsMachine.run s steps = some u) : I (u.hosts k) := by
  have hboth : k ≤ u.server.server.config.numThreads ∧ I (u.hosts k) := by
    refine serverLoopsMachine.invariant (I := fun v => k ≤ v.server.server.config.numThreads ∧ I (v.hosts k)) ?_
      ⟨hk, h⟩ hrun
    rintro v a v' ⟨hv, hI⟩ hnext
    obtain ⟨labels, hlabels⟩ := host_run hnext hv
    rw [hosted_config hnext]
    exact ⟨hv, (loopMachine Task).invariant hstep hI hlabels⟩
  exact hboth.2

/-- The tasks that a loop has to run have been queued on its event loop. -/
lemma HostedInv.mem_enqueued {s : ServerLoops} (h : HostedInv s) {k : Nat}
    (hk : k ≤ s.server.server.config.numThreads) {t : Task} (ht : t ∈ (s.server.server.loops k).todo) :
    t ∈ (s.hosts k).enqueued := by
  rw [(h.hosted k hk).todo] at ht
  have horder := h.order k hk
  unfold TasksInOrder at horder
  rw [horder, List.append_assoc]
  exact List.mem_append_right _ ht

/-! ### The end of the loops -/

/-- When the io loop of a connection has returned after the destructor of the server, the connection
has been destroyed or its destruction is left behind in the queue of the loop. If the loop was between
the test of its `while` and the swap when the destructor was done, or had nothing in its queue, the
connection has been destroyed. -/
theorem shutdown_destroys_connections (config : ServerConfig) (before after : List ServerLoopsStep) (s u : ServerLoops)
    (c : Nat) (x : ServerConn) (hids : serverLoopsMachine.Meets hostedIdsFit (ServerLoops.make config) (before ++ after))
    (hrun : serverLoopsMachine.run (ServerLoops.make config) before = some s) (hpc : s.server.pc = .destroyed)
    (hx : s.server.server.conns c = some x) (hmore : serverLoopsMachine.run s after = some u)
    (hreturned : (u.hosts x.loop).pc = .returned) :
    (Lived c .destroyed u.server.server ∨ .connectionDestroyed c ∈ (u.hosts x.loop).loop.pendingFunctors) ∧
    ((s.hosts x.loop).pc.beforeSwap = true ∨ (s.hosts x.loop).loop.pendingFunctors = [] →
      Lived c .destroyed u.server.server) := by
  have hs := hostedInv_run (hids.left_of_append serverLoopsMachine) hrun
  have hids' := hids.of_append serverLoopsMachine hrun
  have hu : HostedInv u := serverLoopsMachine.invariant_of_meets (fun _ _ _ => hostedInv_step) hs hids' hmore
  have hending : Ending [] s.server.server := by
    have hend := hs.server
    unfold EndInv at hend
    rw [hpc] at hend
    exact hend
  have hk := hending.place c x hx
  have hk' : x.loop ≤ u.server.server.config.numThreads := by
    rw [hosted_config_run hmore]
    exact hk
  rcases hending.waits c x hx List.not_mem_nil with hdone | hwaits
  · have hlived := hs.lived_run ⟨x, hx, hdone⟩ hids' hmore
    exact ⟨Or.inl hlived, fun _ => hlived⟩
  have hqueued := hs.mem_enqueued hk hwaits
  have horder := hu.order x.loop hk'
  have hrest := rest_of_outside (Or.inr hreturned)
  unfold TasksInOrder at horder
  rw [hrest, List.append_nil] at horder
  constructor
  · have hkept := host_invariant (I := fun v => (s.hosts x.loop).enqueued <+: v.enqueued)
      (fun _ _ _ hv hnext => hv.trans (enqueued_grows_step hnext)) hk (List.prefix_refl _) hmore
    have hmem := hkept.subset hqueued
    rw [horder] at hmem
    exact (List.mem_append.mp hmem).imp_left (hu.ran x.loop hk' _)
  · intro hidle
    have hbefore : RunsBeforeReturn (s.hosts x.loop).enqueued (s.hosts x.loop) := by
      rcases hidle with hswap | hempty
      · exact Or.inr ⟨hswap, List.prefix_refl _⟩
      · have hall := hs.order x.loop hk
        unfold TasksInOrder at hall
        rw [hempty, List.append_nil] at hall
        exact Or.inl (by rw [hall])
    have hruns := host_invariant (I := fun v => TasksInOrder v ∧ RunsBeforeReturn (s.hosts x.loop).enqueued v)
      (fun _ _ _ hv hnext => ⟨tasksInOrder_step hv.1 hnext, runsBeforeReturn_step hv.1 hv.2 hnext⟩) hk
      ⟨hs.order x.loop hk, hbefore⟩ hmore
    rcases hruns.2 with hstarted | ⟨hswap, -⟩
    · rw [hrest, List.append_nil] at hstarted
      exact hu.ran x.loop hk' _ (hstarted.subset hqueued)
    · rw [hreturned] at hswap
      cases hswap

/-- `n` statements of loop `l`. -/
def loopAdvances (l n : Nat) : List ServerLoopsStep := List.replicate n (.statement l .advance)

/-- The base loop accepts a connection for the io loop, which waits in `poll`. -/
def acceptsOne : List ServerLoopsStep :=
  .statement 0 .enterLoop :: loopAdvances 0 4 ++ .statement 1 .enterLoop :: loopAdvances 1 4 ++
    [.server (.server (.poll 0 [])) [.other], .statement 0 .advance, .server (.server (.accept (some 7))) [],
     .statement 1 (.foreignWakeUp 0)]

/-- The io loop is woken and runs the task in its queue. -/
def runsOne : List ServerLoopsStep :=
  .server (.server (.poll 1 [])) [.wakeup] :: loopAdvances 1 3 ++
    [.server (.server (.swap 1)) [], .server (.server (.runTask 1 (.ok 0) [])) [], .statement 1 .userReturns,
     .statement 1 .advance, .statement 1 .userReturns, .server (.server (.endBatch 1)) [], .statement 1 .advance]

/-- The base loop returns, and its thread destroys the server. -/
def destroysServer : List ServerLoopsStep :=
  [.statement 0 .quit, .statement 0 .userReturns] ++ loopAdvances 0 2 ++
    [.server (.server (.swap 0)) [], .statement 0 .advance, .server (.server (.endBatch 0)) []] ++ loopAdvances 0 2 ++
    [.server (.destructor [0]) [], .server .destroyNext [], .statement 1 (.foreignWakeUp 0), .server .destroyNext []]

/-- The io loop is told to quit; it runs the task in its queue and returns. -/
def quitsLoop : List ServerLoopsStep :=
  [.statement 1 (.foreignQuit 0), .statement 1 (.foreignWakeUp 0)] ++ runsOne ++ [.statement 1 .advance]

theorem shutdown_destroys_connections_idle :
    ∃ s u, serverLoopsMachine.run (ServerLoops.make sampleConfig) (acceptsOne ++ runsOne ++ destroysServer) = some s ∧
      serverLoopsMachine.run s quitsLoop = some u ∧ (u.hosts 1).pc = .returned ∧ Lived 0 .destroyed u.server.server := by
  have hend : (serverLoopsMachine.run (ServerLoops.make sampleConfig) (acceptsOne ++ runsOne ++ destroysServer)).bind
      (fun s => (s.server.server.conns 0).bind fun x => (serverLoopsMachine.run s quitsLoop).map fun u =>
        (s.server.pc, x.loop, (s.hosts 1).pc, (u.hosts 1).pc)) = some (.destroyed, 1, .poll, .returned) := by
    decide +kernel
  obtain ⟨s, hrun, hend⟩ := Option.bind_eq_some_iff.mp hend
  obtain ⟨x, hx, hend⟩ := Option.bind_eq_some_iff.mp hend
  obtain ⟨u, hmore, hend⟩ := Option.map_eq_some_iff.mp hend
  simp only [Prod.mk.injEq] at hend
  obtain ⟨hpc, hloop, hpoll, hreturned⟩ := hend
  rw [← hloop] at hpoll hreturned
  have hdestroyed := (shutdown_destroys_connections sampleConfig _ quitsLoop s u 0 x (by decide +kernel) hrun hpc hx
    hmore hreturned).2 (Or.inl (by rw [hpoll]; rfl))
  exact ⟨s, u, hrun, hmore, hloop ▸ hreturned, hdestroyed⟩

end MylibMuduo.Proofs
