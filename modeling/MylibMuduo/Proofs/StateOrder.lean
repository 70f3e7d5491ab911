import MylibMuduo.Proofs.ConnectionThreads

/-!
# The order of the connection states

`TcpServer` creates a connection in state `kConnecting` and queues `connectionEstablished` once;
the channel is registered, and events and `connectionDestroyed` can come, only after it. The other
threads call the connection at any time. `shutdown` tests `state_` and stores `kDisConnecting` in
two steps, so the store can come after the loop thread has stored `kDisConnected`. This is the
only way back: every other store leads forward.
-/

namespace MylibMuduo.Proofs

variable {κ : Type}

/-- A connection as `TcpServer` drives it. -/
structure DrivenState (κ : Type) where
  established : Bool
  threads : ThreadState κ

/-- `shutdownReturns` is a call of `shutdown` by another thread that does not find `kConnected`. -/
inductive DrivenStep where
  | connectionEstablished (app : List AppCall)
  | shutdownReturns (t : Nat)
  | thread (a : ThreadStep)
  deriving DecidableEq, Repr

/-- The conditions with two loads of `state_` count as one load: no thread stores a value between
the two that the first one tests for. -/
def drivenMachine : Machine (DrivenState κ) DrivenStep where
  next d
    | .connectionEstablished app =>
      if d.established then none
      else some ⟨true, { d.threads with
        w := d.threads.w.establish, todo := [.connectionCallback app] }⟩
    | .shutdownReturns t =>
      if d.threads.caller t = .idle ∧ d.threads.w.conn.state ≠ .kConnected then some d else none
    | .thread a =>
      if d.established then (threadMachine.next d.threads a).map (DrivenState.mk true) else none

/-- The connection that `newConnection` has created. -/
def drivenStart (key : κ) (fd highWaterMark : Nat) (callbacks : Callbacks) (p : EPollPoller κ)
    (files : Nat → Bytes) : DrivenState κ where
  established := false
  threads :=
    { w := ConnContext.make key (TcpConnection.make fd highWaterMark callbacks) p files
      todo := []
      batch := []
      caller := fun _ => .idle }

/-- The place of a state in the order of a connection's life. -/
def stateRank : StateE → Nat
  | .kConnecting => 0
  | .kConnected => 1
  | .kDisConnecting => 2
  | .kDisConnected => 3

/-- The step does not move `state_` backwards. -/
def movesForward (d : DrivenState κ) (a : DrivenStep) : Prop :=
  ∀ d', drivenMachine.next d a = some d' →
    stateRank d.threads.w.conn.state ≤ stateRank d'.threads.w.conn.state

/-- Another thread's `shutdown` does not store after the connection has been closed. -/
def storesBeforeClose (d : DrivenState κ) : DrivenStep → Prop
  | .thread (.shutdownStore _) => d.threads.w.conn.state ≠ .kDisConnected
  | _ => True

instance (d : DrivenState κ) : (a : DrivenStep) → Decidable (storesBeforeClose d a)
  | .connectionEstablished _ | .shutdownReturns _ => isTrue trivial
  | .thread a => match a with
    | .shutdownStore _ => inferInstanceAs (Decidable (_ ≠ _))
    | .sendTest _ _ | .sendEnqueue _ | .sendFileTest _ _ | .sendFileStore _ | .sendFileEnqueue _
    | .shutdownTest _ | .shutdownEnqueue _ | .swap | .runTask _ _ | .event _ _ | .userCall _
    | .connectionDestroyed _ | .advance => isTrue trivial

/-- The loop thread stores `kDisConnecting` directly after its own test, so no close is in between. -/
structure StoreNext (s : ThreadState κ) : Prop where
  tail : .storeClosing ∉ s.todo.tail
  head : s.todo.head? = some .storeClosing → s.w.conn.state ≠ .kDisConnected

/-- Before `connectionEstablished` the connection is new, after it `StoreNext` holds. -/
structure DrivenInv (d : DrivenState κ) : Prop where
  fresh : d.established = false → d.threads.w.conn.state = .kConnecting
  store : d.established = true → StoreNext d.threads

lemma storeNext_of_not_mem {s : ThreadState κ} (h : .storeClosing ∉ s.todo) : StoreNext s :=
  ⟨fun hmem => h (List.mem_of_mem_tail hmem), fun hhead => absurd (List.mem_of_head? hhead) h⟩

lemma StoreNext.of_eq {s s' : ThreadState κ} (h : StoreNext s) (htodo : s'.todo = s.todo)
    (hstate : s'.w.conn.state = s.w.conn.state) : StoreNext s' := by
  refine ⟨by rw [htodo]; exact h.tail, ?_⟩
  rw [htodo, hstate]
  exact h.head

/-- Of all actions only the test of `shutdown` leads to the store. -/
lemma storeClosing_mem_exec {w : ConnContext κ} {a : LoopAction} (h : .storeClosing ∈ (a.exec w).2) :
    (a.exec w).2 = [.storeClosing] ∧ (a.exec w).1.conn.state = .kConnected := by
  cases a with
  | connectionCallback app =>
    simp only [LoopAction.exec] at h
    split at h <;> simp at h
  | appCall c =>
    cases c with
    | send data r =>
      simp only [LoopAction.exec] at h
      split at h <;> simp at h
    | sendFile fd offset count r =>
      simp only [LoopAction.exec] at h
      split at h <;> simp at h
    | shutdown =>
      simp only [LoopAction.exec] at h ⊢
      split at h
      · rename_i hstate
        exact ⟨if_pos hstate, hstate⟩
      · cases h
    | retrieve len => simp [LoopAction.exec] at h
  | handleRead r onMessage onDown =>
    simp only [LoopAction.exec] at h
    split at h
    · simp at h
    · split at h <;> simp at h
    · simp at h
  | handleWrite r =>
    simp only [LoopAction.exec] at h
    split at h
    · split at h <;> simp at h
    · split at h <;> simp at h
  | testClosing =>
    simp only [LoopAction.exec] at h
    split at h <;> simp at h
  | connectionDestroyed app =>
    simp only [LoopAction.exec] at h
    split at h <;> simp at h
  | _ => simp [LoopAction.exec] at h

lemma storeClosing_not_mem_ofFunctor (r : SysResult) (app : List AppCall) (f : Functor) :
    .storeClosing ∉ LoopAction.ofFunctor r app f := by
  cases f <;> simp [LoopAction.ofFunctor]

lemma storeClosing_not_mem_ofEvent (revent : EventMask) (i : ConnContext.EventInput) :
    .storeClosing ∉ LoopAction.ofEvent revent i := by
  intro h
  simp only [LoopAction.ofEvent, List.mem_append] at h
  rcases h with ((h | h) | h) | h <;> split at h <;> simp at h

lemma StoreNext.advance {s : ThreadState κ} (h : StoreNext s) {a : LoopAction} {rest : List LoopAction}
    (htodo : s.todo = a :: rest) :
    StoreNext { s with w := (a.exec s.w).1, todo := (a.exec s.w).2 ++ rest } := by
  have hrest : .storeClosing ∉ rest := by
    have htail := h.tail
    rwa [htodo] at htail
  by_cases hmem : .storeClosing ∈ (a.exec s.w).2
  · obtain ⟨hacts, hstate⟩ := storeClosing_mem_exec hmem
    refine ⟨?_, fun _ => ?_⟩
    · rw [hacts]
      exact hrest
    · rw [hstate]
      decide
  · refine storeNext_of_not_mem fun hin => ?_
    rcases List.mem_append.mp hin with hin | hin
    · exact hmem hin
    · exact hrest hin

theorem storeNext_step (s : ThreadState κ) (a : ThreadStep) (s' : ThreadState κ) (h : StoreNext s)
    (hnext : threadMachine.next s a = some s') : StoreNext s' := by
  cases thread_trans hnext with
  | shutdownStore hpc =>
    refine ⟨h.tail, fun _ hstate => ?_⟩
    cases hstate
  | runTask htodo hbatch => exact storeNext_of_not_mem (storeClosing_not_mem_ofFunctor _ _ _)
  | event htodo => exact storeNext_of_not_mem (storeClosing_not_mem_ofEvent _ _)
  | userCall htodo => exact storeNext_of_not_mem (by simp)
  | connectionDestroyed htodo => exact storeNext_of_not_mem (by simp)
  | advance htodo => exact h.advance htodo
  | _ => exact h.of_eq rfl rfl

/-! ### What the operations do to `state_` -/

lemma state_shutDownInLoop (w : ConnContext κ) : w.shutDownInLoop.conn.state = w.conn.state := by
  unfold ConnContext.shutDownInLoop
  split <;> rfl

/-- An action stores `kDisConnecting`, stores `kDisConnected` or leaves `state_` as it is. -/
theorem state_exec (w : ConnContext κ) (a : LoopAction) :
    a = .storeClosing ∨ (a.exec w).1.conn.state = .kDisConnected ∨
      (a.exec w).1.conn.state = w.conn.state := by
  cases a with
  | connectionCallback app =>
    simp only [LoopAction.exec]
    split <;> exact Or.inr (Or.inr rfl)
  | closeCallback =>
    simp only [LoopAction.exec, ConnContext.closeCallback]
    split <;> exact Or.inr (Or.inr rfl)
  | appCall c =>
    cases c with
    | sendFile fd offset count r =>
      simp only [LoopAction.exec]
      split <;> exact Or.inr (Or.inr rfl)
    | _ => exact Or.inr (Or.inr rfl)
  | storeClosing => exact Or.inl rfl
  | sendInLoop data r => exact Or.inr (Or.inr (quiet_sendInLoop w data r).state)
  | sendFileInLoop r => exact Or.inr (Or.inr (quiet_sendFileInLoop w r).state)
  | shutDownInLoop => exact Or.inr (Or.inr (state_shutDownInLoop w))
  | handleRead r onMessage onDown =>
    simp only [LoopAction.exec]
    split
    · exact Or.inr (Or.inr rfl)
    · split <;> exact Or.inr (Or.inr rfl)
    · exact Or.inr (Or.inr rfl)
  | handleWrite r =>
    simp only [LoopAction.exec]
    split
    · split
      · exact Or.inr (Or.inr (quiet_drainOutput w _).state)
      · exact Or.inr (Or.inr rfl)
    · exact Or.inr (Or.inr rfl)
  | handleClose app => exact Or.inr (Or.inl rfl)
  | disconnect app => exact Or.inr (Or.inl rfl)
  | _ => exact Or.inr (Or.inr rfl)

lemma stateRank_le_closed (state : StateE) : stateRank state ≤ stateRank .kDisConnected := by
  cases state <;> decide

lemma stateRank_le_closing (state : StateE) :
    stateRank state ≤ stateRank .kDisConnecting ↔ state ≠ .kDisConnected := by
  cases state <;> decide

/-! ### Steps and runs -/

/-- Of the steps of all threads only the store of another thread's `shutdown` can lead back. -/
theorem thread_rank {s s' : ThreadState κ} {a : ThreadStep} (h : StoreNext s)
    (hnext : threadMachine.next s a = some s') :
    stateRank s.w.conn.state ≤ stateRank s'.w.conn.state ↔
      storesBeforeClose ⟨true, s⟩ (.thread a) := by
  cases thread_trans hnext with
  | shutdownStore hpc => exact stateRank_le_closing s.w.conn.state
  | @advance act rest htodo =>
    refine iff_of_true ?_ trivial
    rcases state_exec s.w act with rfl | hclosed | hsame
    · refine (stateRank_le_closing _).mpr (h.head ?_)
      rw [htodo, List.head?_cons]
    · rw [hclosed]
      exact stateRank_le_closed _
    · exact Nat.le_of_eq (congrArg stateRank hsame.symm)
  | _ => exact iff_of_true (Nat.le_refl _) trivial

lemma driven_thread {d d' : DrivenState κ} {a : ThreadStep} (hnext : drivenMachine.next d (.thread a) = some d') :
    ∃ s', d.established = true ∧ threadMachine.next d.threads a = some s' ∧ d' = ⟨true, s'⟩ := by
  simp only [drivenMachine, Option.ite_none_right_eq_some, Option.map_eq_some_iff] at hnext
  obtain ⟨hest, s', hs', rfl⟩ := hnext
  exact ⟨s', hest, hs', rfl⟩

lemma driven_established {d d' : DrivenState κ} {app : List AppCall}
    (hnext : drivenMachine.next d (.connectionEstablished app) = some d') :
    d.established = false ∧ d' = ⟨true, { d.threads with
      w := d.threads.w.establish, todo := [.connectionCallback app] }⟩ := by
  simp only [drivenMachine, Option.ite_none_left_eq_some, Option.some.injEq, Bool.not_eq_true] at hnext
  exact ⟨hnext.1, hnext.2.symm⟩

lemma driven_returns {d d' : DrivenState κ} {t : Nat}
    (hnext : drivenMachine.next d (.shutdownReturns t) = some d') : d' = d := by
  simp only [drivenMachine, Option.ite_none_right_eq_some, Option.some.injEq] at hnext
  exact hnext.2.symm

theorem drivenInv_step (d : DrivenState κ) (a : DrivenStep) (d' : DrivenState κ) (h : DrivenInv d)
    (hnext : drivenMachine.next d a = some d') : DrivenInv d' := by
  cases a with
  | connectionEstablished app =>
    obtain ⟨-, rfl⟩ := driven_established hnext
    exact ⟨fun hest => (nomatch hest), fun _ => storeNext_of_not_mem (by simp)⟩
  | shutdownReturns t => exact driven_returns hnext ▸ h
  | thread a =>
    obtain ⟨s', hest, hs', rfl⟩ := driven_thread hnext
    exact ⟨fun hest => (nomatch hest), fun _ => storeNext_step _ a s' (h.store hest) hs'⟩

theorem movesForward_iff {d d' : DrivenState κ} {a : DrivenStep} (h : DrivenInv d)
    (hnext : drivenMachine.next d a = some d') : movesForward d a ↔ storesBeforeClose d a := by
  have hrank : movesForward d a ↔
      stateRank d.threads.w.conn.state ≤ stateRank d'.threads.w.conn.state := by
    refine ⟨fun hall => hall d' hnext, fun hle d₁ hd₁ => ?_⟩
    rw [hnext, Option.some.injEq] at hd₁
    exact hd₁ ▸ hle
  rw [hrank]
  cases a with
  | connectionEstablished app =>
    obtain ⟨hest, rfl⟩ := driven_established hnext
    refine iff_of_true ?_ trivial
    rw [h.fresh hest]
    exact Nat.zero_le _
  | shutdownReturns t =>
    rw [driven_returns hnext]
    exact iff_of_true (Nat.le_refl _) trivial
  | thread a =>
    obtain ⟨s', hest, hs', rfl⟩ := driven_thread hnext
    rw [thread_rank (h.store hest) hs']
    cases a <;> rfl

lemma drivenStart_inv (key : κ) (fd highWaterMark : Nat) (callbacks : Callbacks) (p : EPollPoller κ)
    (files : Nat → Bytes) : DrivenInv (drivenStart key fd highWaterMark callbacks p files) :=
  ⟨fun _ => rfl, fun hest => (nomatch hest)⟩

/-- A run of a connection moves `state_` only forward exactly if no other thread's `shutdown` stores
`kDisConnecting` on a connection that the loop thread has closed after its test. -/
theorem state_only_moves_forward_iff (key : κ) (fd highWaterMark : Nat) (callbacks : Callbacks)
    (p : EPollPoller κ) (files : Nat → Bytes) (steps : List DrivenStep) (d : DrivenState κ)
    (hrun : drivenMachine.run (drivenStart key fd highWaterMark callbacks p files) steps = some d) :
    drivenMachine.Meets movesForward (drivenStart key fd highWaterMark callbacks p files) steps ↔
      drivenMachine.Meets storesBeforeClose (drivenStart key fd highWaterMark callbacks p files) steps :=
  drivenMachine.meets_iff_meets (I := DrivenInv) (fun s a s' hs _ hnext => drivenInv_step s a s' hs hnext)
    (fun _ _ _ hs hnext => movesForward_iff hs hnext)
    (drivenStart_inv key fd highWaterMark callbacks p files) hrun

/-- A connection on descriptor 5 as `newConnection` leaves it. -/
def acceptedConnection : DrivenState Unit :=
  drivenStart () 5 64 ⟨true, true, true, false, true⟩ EPollPoller.empty (fun _ => [])

/-- Thread 0 shuts the connection down, then the peer hangs up and the connection is destroyed. -/
def shutdownThenClose : List DrivenStep :=
  [.shutdownReturns 0, .connectionEstablished [], .thread .advance, .thread (.shutdownTest 0),
   .thread (.shutdownStore 0), .thread (.shutdownEnqueue 0),
   .thread (.event ⟨false, false, false, false, true⟩ ⟨.ok [1], .ok 1, [], [], [], []⟩),
   .thread .advance, .thread .advance, .thread .advance, .thread (.connectionDestroyed []), .thread .advance,
   .thread .advance]

theorem state_only_moves_forward_until_removed :
    ∃ d, drivenMachine.run acceptedConnection shutdownThenClose = some d ∧
      d.threads.w.conn.state = .kDisConnected ∧
      drivenMachine.Meets movesForward acceptedConnection shutdownThenClose := by
  have hend : (drivenMachine.run acceptedConnection shutdownThenClose).map
      (fun d => d.threads.w.conn.state) = some .kDisConnected := by
    decide +kernel
  obtain ⟨d, hrun, hstate⟩ := Option.map_eq_some_iff.mp hend
  refine ⟨d, hrun, hstate, ?_⟩
  exact (state_only_moves_forward_iff () 5 64 ⟨true, true, true, false, true⟩ EPollPoller.empty
    (fun _ => []) shutdownThenClose d hrun).mpr (by decide +kernel)

/-- Thread 0 finds `kConnected`, the loop thread handles the hang-up, then thread 0 stores. -/
def closeBetweenTestAndStore : List DrivenStep :=
  [.connectionEstablished [], .thread .advance, .thread (.shutdownTest 0),
   .thread (.event ⟨false, false, false, false, true⟩ ⟨.ok [1], .ok 1, [], [], [], []⟩),
   .thread .advance, .thread .advance, .thread .advance]

theorem shutdown_reopens_closed_connection :
    ¬∀ (steps : List DrivenStep) (d : DrivenState Unit), drivenMachine.run acceptedConnection steps = some d →
      drivenMachine.Meets movesForward acceptedConnection steps := by
  intro hall
  have hend : (drivenMachine.run acceptedConnection closeBetweenTestAndStore).bind (fun d =>
      (drivenMachine.next d (.thread (.shutdownStore 0))).map fun d' =>
        (d.threads.w.conn.state, d'.threads.w.conn.state)) = some (.kDisConnected, .kDisConnecting) := by
    decide +kernel
  obtain ⟨d, hrun, hstore⟩ := Option.bind_eq_some_iff.mp hend
  obtain ⟨d', hnext, hstates⟩ := Option.map_eq_some_iff.mp hstore
  obtain ⟨hclosed, hclosing⟩ := Prod.mk.inj hstates
  have hstored : drivenMachine.run acceptedConnection
      (closeBetweenTestAndStore ++ [.thread (.shutdownStore 0)]) = some d' :=
    (drivenMachine.run_append_eq_some _ _ _ _).mpr
      ⟨d, hrun, (drivenMachine.run_cons_eq_some _ _ _ _).mpr ⟨d', hnext, rfl⟩⟩
  have hback := ((hall _ d' hstored).of_append drivenMachine hrun).1 d' hnext
  rw [hclosed, hclosing] at hback
  exact absurd hback (by decide)

end MylibMuduo.Proofs
