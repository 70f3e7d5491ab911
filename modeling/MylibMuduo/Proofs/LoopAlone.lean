import Mathlib.Data.Finset.Card
import MylibMuduo.Proofs.OwnSteps

/-!
# A loop on its own

An accepted connection needs no other thread than that of its loop. When all other threads have
stopped somewhere, even before the `wakeUp` of their `queueInLoop`, the thread of the loop establishes
the connection within a number of its own steps that can be read off the state.
-/

namespace MylibMuduo

/-- The state after `n` own steps of the thread of loop `l`, with the outcomes that `env` decides. -/
def ServerLoops.alone (env : ServerLoops → Outcome) (l : Nat) : Nat → ServerLoops → ServerLoops
  | 0, s => s
  | n + 1, s =>
    match serverLoopsMachine.next s (s.ownStep l (env s)) with
    | some s' => ServerLoops.alone env l n s'
    | none => s

namespace Proofs

/-! ### The number of steps -/

/-- The tests of `handleEventWithGuard` that are still to be made. -/
def handlersLeft : Phase → Nat
  | .handling _ _ h _ => handlerSteps h
  | _ => 0

lemma handlersLeft_le (ph : Phase) : handlersLeft ph ≤ 4 := by
  cases ph with
  | handling c revent h active => cases h <;> simp [handlersLeft, handlerSteps]
  | _ => exact Nat.zero_le _

/-- The loops on which thread `l` is inside of a call. -/
def busyOn (l : Nat) (s : ServerLoops) : Finset Nat :=
  (Finset.range (s.server.server.config.numThreads + 1)).filter fun k => (s.hosts k).foreign l ≠ .idle

lemma card_busyOn_le (l : Nat) (s : ServerLoops) : (busyOn l s).card ≤ s.server.server.config.numThreads + 1 :=
  (Finset.card_filter_le _ _).trans (Finset.card_range _).le

/-- The own steps of the thread of loop `l` until the task `k` of its queue has been started: five for
a statement of the loop and its handlers, each with a wake-up of every other loop. -/
def ownSteps (k l : Nat) (s : ServerLoops) : Nat :=
  (s.server.server.config.numThreads + 2) *
    (5 * stepsToStart k (s.hosts l) + handlersLeft (s.server.server.loops l).phase) + (busyOn l s).card

lemma nextStep_cases (s : ServerLoops) (l : Nat) (o : Outcome) :
    (s.nextStep l o).turns l = true ∨ s.nextStep l o = .server (.server (.handler l o.input)) [] := by
  have hown (b : LoopStep Task) (hb : b.ofLoop = true) : (ServerLoopsStep.statement l b).turns l = true := by
    simp [ServerLoopsStep.turns, hb]
  have hserver : decide (l = l) = true := decide_eq_true rfl
  unfold ServerLoops.nextStep
  split
  · exact Or.inl hserver
  · split
    · exact Or.inl (hown _ rfl)
    · exact Or.inl hserver
  · split
    · exact Or.inl (hown _ rfl)
    · exact Or.inr rfl
  · exact Or.inl hserver
  · exact Or.inl hserver
  · exact Or.inl hserver
  · exact Or.inl (hown _ rfl)
  · exact Or.inl (hown _ rfl)
  · exact Or.inl (hown _ rfl)

/-- The outcome of a step of the thread, with at most a full `event_list_`. -/
structure Returns (s : ServerLoops) (l : Nat) (o : Outcome) : Prop where
  poll : PollReturns s l o
  fits : o.active.length ≤ kEpollEventListSize

lemma ownStep_fits {s : ServerLoops} {l : Nat} {o : Outcome} (h : (s.hosts l).pc = .poll → Returns s l o) :
    hostedIdsFit s (s.ownStep l o) ∧ hostedFits s (s.ownStep l o) := by
  rcases ownStep_cases s l o with ⟨k, -, -, hstep⟩ | ⟨-, hstep⟩
  · rw [hstep]
    exact ⟨trivial, trivial⟩
  · rw [hstep]
    unfold ServerLoops.nextStep
    split
    · next hpc => exact ⟨trivial, (h hpc).fits⟩
    · split
      · exact ⟨trivial, trivial⟩
      · exact ⟨trivial, Nat.zero_le _⟩
    · split
      · exact ⟨trivial, trivial⟩
      · exact ⟨trivial, Nat.zero_le _⟩
    · exact ⟨trivial, Nat.zero_le _⟩
    · exact ⟨trivial, Nat.zero_le _⟩
    · exact ⟨trivial, Nat.zero_le _⟩
    · exact ⟨trivial, trivial⟩
    · exact ⟨trivial, trivial⟩
    · exact ⟨trivial, trivial⟩

/-- A handler takes the thread to the next test. -/
lemma handlersLeft_handler {s s' : ServerLoops} {l : Nat} {i : ConnContext.EventInput}
    (hnext : serverLoopsMachine.next s (.server (.server (.handler l i)) []) = some s') :
    handlersLeft (s'.server.server.loops l).phase < handlersLeft (s.server.server.loops l).phase := by
  cases serverLoops_trans hnext with
  | server hend hstands hreports hhosts =>
    cases end_trans hend with
    | server hpc hv =>
      rcases loop_turn l (server_trans hv) with ⟨hturns, -⟩ | ⟨ph, hturn, hgrows⟩ | ⟨hswap, -, -⟩
      · exact absurd rfl (of_decide_eq_false hturns)
      · dsimp only
        rw [hgrows.phase, setPhase_phase, if_pos rfl]
        cases hturn with
        | @handler i c revent hd active hphase =>
          rw [hphase]
          cases hd with
          | _ => exact Nat.lt_succ_self _
      · cases hswap

/-- A finished call leaves one loop less. -/
lemma card_busyOn_wakeUp {s s' : ServerLoops} {l k : Nat} (hk : k ≤ s.server.server.config.numThreads)
    (hbusy : (s.hosts k).foreign l ≠ .idle)
    (hnext : serverLoopsMachine.next s (.statement k (.foreignWakeUp l)) = some s') :
    (busyOn l s').card < (busyOn l s).card := by
  cases serverLoops_trans hnext with
  | @statement k b v hl hsilent hallows hstatement =>
    have hidle : v.foreign l = .idle := by
      cases loop_trans hstatement with
      | foreignWakeUp t hpc => exact Function.update_self _ _ _
    have hself : Function.update s.hosts k v k = v := Function.update_self _ _ _
    refine Finset.card_lt_card ((Finset.ssubset_iff_of_subset fun j hj => ?_).mpr ⟨k, ?_, ?_⟩)
    · obtain ⟨hmem, hj⟩ := Finset.mem_filter.mp hj
      refine Finset.mem_filter.mpr ⟨hmem, ?_⟩
      by_cases hjk : j = k
      · exact hjk ▸ hbusy
      · change (Function.update s.hosts k v j).foreign l ≠ .idle at hj
        rw [Function.update_of_ne hjk] at hj
        exact hj
    · exact Finset.mem_filter.mpr ⟨Finset.mem_range.mpr (Nat.lt_succ_of_le hk), hbusy⟩
    · intro hmem
      have hstill : (Function.update s.hosts k v k).foreign l ≠ .idle := (Finset.mem_filter.mp hmem).2
      rw [hself] at hstill
      exact hstill hidle

/-- Every own step of a thread brings a task of its queue nearer. -/
theorem ownSteps_step {s s' : ServerLoops} {l k : Nat} {o : Outcome} (h : HostedInv s)
    (hl : l ≤ s.server.server.config.numThreads) (hk : k < (s.hosts l).enqueued.length)
    (hgoal : ¬StartedOrReturned k (s.hosts l)) (ho : (s.hosts l).pc = .poll → Returns s l o)
    (hnext : serverLoopsMachine.next s (s.ownStep l o) = some s') :
    StartedOrReturned k (s'.hosts l) ∨ ownSteps k l s' < ownSteps k l s := by
  have hstart := stepsToStart_hosted h hl hk hgoal (ownStep_fits ho).2 hnext
  have hconfig := hosted_config hnext
  have hbusy := card_busyOn_le l s'
  have hleft := handlersLeft_le (s'.server.server.loops l).phase
  rw [hconfig] at hbusy
  refine hstart.imp_right fun hless => ?_
  have hle : stepsToStart k (s'.hosts l) ≤ stepsToStart k (s.hosts l) := Nat.le_trans (Nat.le_add_right _ _) hless
  unfold ownSteps
  rw [hconfig]
  have hdrop (a a' : Nat) (ha : a' < a) : (s.server.server.config.numThreads + 2) * a' + (busyOn l s').card <
      (s.server.server.config.numThreads + 2) * a + (busyOn l s).card := by
    have hmul := Nat.mul_le_mul_left (s.server.server.config.numThreads + 2) ha
    rw [Nat.mul_succ] at hmul
    omega
  rcases ownStep_cases s l o with ⟨j, hj, hcall, hstep⟩ | ⟨-, hstep⟩
  · rw [hstep] at hnext hless
    have hcard := card_busyOn_wakeUp hj hcall hnext
    have hsame : s'.server = s.server := by
      cases serverLoops_trans hnext with
      | statement hl hsilent hallows hstatement => rfl
    rw [hsame]
    have hmul := Nat.mul_le_mul_left (s.server.server.config.numThreads + 2)
      (Nat.add_le_add_right (Nat.mul_le_mul_left 5 hle) (handlersLeft (s.server.server.loops l).phase))
    exact Nat.add_lt_add_of_le_of_lt hmul hcard
  · rw [hstep] at hnext hless
    apply hdrop
    rcases nextStep_cases s l o with hturns | hhandler
    · rw [hturns, if_pos rfl] at hless
      omega
    · rw [hhandler] at hnext
      have hlower := handlersLeft_handler hnext
      omega

/-! ### Runs of one thread -/

lemma entered_step {v v' : LoopState Task} {b : LoopStep Task} (h : v.pc ≠ .notEntered)
    (hnext : (loopMachine Task).next v b = some v') : v'.pc ≠ .notEntered := by
  cases loop_trans hnext with
  | queueInLoop f huser hin | queueInLoopWake hin | quit huser | foreignQueueInLoop t f hidle | foreignQuit t hidle
  | foreignWakeUp t hbusy => exact h
  | _ => simp

lemma inside_of_entered {v : LoopState Task} (h : v.pc ≠ .notEntered) (hreturned : v.pc ≠ .returned) :
    v.pc.outside = false := by
  cases hpc : v.pc with
  | notEntered => exact absurd hpc h
  | returned => exact absurd hpc hreturned
  | _ => rfl

/-- The thread of a loop on its own starts the task `k` of its queue. -/
lemma EstablishesAt.alone {env : ServerLoops → Outcome} {l k c : Nat}
    (henv : ∀ v : ServerLoops, (v.hosts l).pc = .poll → Returns v l (env v)) (bound : Nat) {s : ServerLoops}
    (h : EstablishesAt l k c s) (hgo : GoOnInv s) (hentered : (s.hosts l).pc ≠ .notEntered)
    (hbound : ownSteps k l s ≤ bound) :
    ∃ n, n ≤ bound ∧ (Lived c .established (s.alone env l n).server.server ∨
      ((s.alone env l n).hosts l).pc = .returned) := by
  by_cases hgoal : StartedOrReturned k (s.hosts l)
  · exact ⟨0, Nat.zero_le _, hgoal.imp_left (h.inv.lived_of_started h.place h.task)⟩
  induction bound generalizing s with
  | zero =>
    have hpos := stepsToStart_pos k (s.hosts l)
    have hmul : 2 * 1 ≤ (s.server.server.config.numThreads + 2) *
        (5 * stepsToStart k (s.hosts l) + handlersLeft (s.server.server.loops l).phase) :=
      Nat.mul_le_mul (by omega) (by omega)
    unfold ownSteps at hbound
    omega
  | succ bound ih =>
    have hinside := inside_of_entered hentered fun hreturned => hgoal (Or.inr hreturned)
    obtain ⟨s', hnext⟩ := Option.isSome_iff_exists.mp
      (hgo.ownStep_isSome h.place hinside (env s) fun hpc => (henv s hpc).poll)
    have h' := establishesAt_step h (ownStep_fits (henv s)).1 hnext
    have halone (n : Nat) : s.alone env l (n + 1) = s'.alone env l n := by
      simp only [ServerLoops.alone, hnext]
    have hentered' : (s'.hosts l).pc ≠ .notEntered := by
      obtain ⟨steps, hrun⟩ := host_run hnext h.place
      exact (loopMachine Task).invariant (fun _ _ _ => entered_step) hentered hrun
    by_cases hgoal' : StartedOrReturned k (s'.hosts l)
    · refine ⟨1, Nat.le_add_left _ _, ?_⟩
      rw [halone]
      exact hgoal'.imp_left (h'.inv.lived_of_started h'.place h'.task)
    · have hk := (List.getElem?_eq_some_iff.mp h.task).1
      have hless := (ownSteps_step h.inv h.place hk hgoal (henv s) hnext).resolve_left hgoal'
      obtain ⟨n, hn, hreached⟩ := ih h' (goOnInv_step hgo hnext) hentered' (by omega) hgoal'
      refine ⟨n + 1, Nat.succ_le_succ hn, ?_⟩
      rw [halone]
      exact hreached

/-- An accepted connection needs no other thread: whatever the threads have done before, the thread of
its loop on its own establishes it or returns from the loop within `ownSteps` steps. -/
theorem connection_established_alone (config : ServerConfig) (before : List ServerLoopsStep) (s : ServerLoops) (c : Nat)
    (x : ServerConn) (env : ServerLoops → Outcome)
    (hids : serverLoopsMachine.Meets hostedIdsFit (ServerLoops.make config) before)
    (hrun : serverLoopsMachine.run (ServerLoops.make config) before = some s) (hx : s.server.server.conns c = some x)
    (hentered : (s.hosts x.loop).pc ≠ .notEntered)
    (henv : ∀ v : ServerLoops, (v.hosts x.loop).pc = .poll → Returns v x.loop (env v)) :
    ∃ n, n ≤ ownSteps ((s.hosts x.loop).enqueued.idxOf (.connectionEstablished c)) x.loop s ∧
      (Lived c .established (s.alone env x.loop n).server.server ∨
        ((s.alone env x.loop n).hosts x.loop).pc = .returned) := by
  have hs := hostedInv_run hids hrun
  rcases hs.establishesAt hrun hx with hlived | hat
  · exact ⟨0, Nat.zero_le _, Or.inl hlived⟩
  · have hgo := serverLoopsMachine.invariant (fun _ _ _ => goOnInv_step) (goOnInv_make config) hrun
    exact hat.alone henv _ hgo hentered (Nat.le_refl _)

lemma idleOutcome_fits (s : ServerLoops) (l : Nat) : (idleOutcome s l).active.length ≤ kEpollEventListSize := by
  change (if _ then _ else _ : List ActiveChannel).length ≤ _
  split
  · decide
  · exact Nat.zero_le _

theorem connection_established_alone_idle :
    ∃ s, serverLoopsMachine.run (ServerLoops.make sampleConfig) acceptsOne = some s ∧ ∃ n, n ≤ ownSteps 0 1 s ∧
      (Lived 0 .established (s.alone (fun v => idleOutcome v 1) 1 n).server.server ∨
        ((s.alone (fun v => idleOutcome v 1) 1 n).hosts 1).pc = .returned) := by
  have hend : (serverLoopsMachine.run (ServerLoops.make sampleConfig) acceptsOne).bind (fun s =>
      (s.server.server.conns 0).map fun x => (x.loop, (s.hosts 1).pc, (s.hosts 1).enqueued)) =
      some (1, .poll, [.connectionEstablished 0]) := by
    decide +kernel
  obtain ⟨s, hrun, hend⟩ := Option.bind_eq_some_iff.mp hend
  obtain ⟨x, hx, hend⟩ := Option.map_eq_some_iff.mp hend
  simp only [Prod.mk.injEq] at hend
  obtain ⟨hloop, hpc, hqueue⟩ := hend
  have halone := connection_established_alone sampleConfig acceptsOne s 0 x (fun v => idleOutcome v x.loop)
    (by decide +kernel) hrun hx (by rw [hloop, hpc]; simp)
    fun v _ => ⟨idleOutcome_pollReturns v x.loop, idleOutcome_fits v x.loop⟩
  rw [hloop, hqueue, List.idxOf_cons_self] at halone
  exact ⟨s, hrun, halone⟩

end Proofs

end MylibMuduo
