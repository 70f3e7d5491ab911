import MylibMuduo.Lib.Progress
import MylibMuduo.Proofs.HalfClose

/-!
# Progress of the half-close

A connection that is closing takes no more data, so each write event on which `write` accepts
something makes its output shorter. After as many of them as there were bytes left, everything has
gone to the kernel and SHUT_WR has been issued or waits in the queue.
-/

namespace MylibMuduo.Proofs

variable {κ : Type}

/-- A `handleWrite` whose `write` accepts something. -/
def LoopAction.drains : LoopAction → Bool
  | .handleWrite (.ok (_ + 1)) => true
  | _ => false

/-- A write event on which `write` accepts something. -/
def ThreadStep.drains : ThreadStep → Bool
  | .event revent i => revent.epollout && (LoopAction.handleWrite i.write).drains
  | _ => false

/-- The connection is closing, and `total` is what it has sent and what it has left to send. -/
structure Draining (total : Bytes) (s : ThreadState κ) : Prop where
  inv : HalfCloseInv s
  state : s.w.conn.state = .kDisConnecting
  stream : s.w.sent ++ s.w.conn.outputBuffer.readable = total

/-- What an action of a closing connection does to its output. -/
structure DrainAction (w : ConnContext κ) (a : LoopAction) : Prop where
  state : (a.exec w).1.conn.state = .kDisConnecting
  stream : (a.exec w).1.sent ++ (a.exec w).1.conn.outputBuffer.readable = w.sent ++ w.conn.outputBuffer.readable
  left : (a.exec w).1.conn.outputBuffer.readable.length ≤
    w.conn.outputBuffer.readable.length - (if a.drains then 1 else 0)
  acts : ∀ b ∈ (a.exec w).2, b.drains = false

lemma drainAction_of_same {w : ConnContext κ} {a : LoopAction} (hstate : w.conn.state = .kDisConnecting)
    (hsame : SameOutput w (a.exec w).1) (hdrains : a.drains = false) (hacts : ∀ b ∈ (a.exec w).2, b.drains = false) :
    DrainAction w a := by
  refine ⟨hsame.state.trans hstate, ?_, ?_, hacts⟩
  · rw [hsame.sent, hsame.outputBuffer]
  · rw [hsame.outputBuffer, hdrains]
    exact Nat.le_refl _

lemma drains_appCalls (app : List AppCall) : ∀ b ∈ app.map LoopAction.appCall, b.drains = false := by
  intro b hb
  obtain ⟨c, -, rfl⟩ := List.mem_map.mp hb
  rfl

lemma outputBuffer_drainOutput (w : ConnContext κ) (n : Nat) :
    (drainOutput w n).conn.outputBuffer = w.conn.outputBuffer.retrieve (n + 1) := by
  have hnotify : ∀ v : ConnContext κ, v.notifyWriteComplete.conn.outputBuffer = v.conn.outputBuffer := by
    intro v
    unfold ConnContext.notifyWriteComplete
    split <;> rfl
  unfold drainOutput
  dsimp only
  split
  · exact hnotify _
  · rfl

lemma drainAction_handleWrite {w : ConnContext κ} {payload : Bytes} (h : OutputInv w payload)
    (hstate : w.conn.state = .kDisConnecting) (r : SysResult) : DrainAction w (.handleWrite r) := by
  by_cases hpend : w.conn.channel.isWriting = true ∧ w.conn.outputBuffer.readableBytes ≠ 0
  · match r with
    | .ok (n + 1) =>
      have hexec : (LoopAction.handleWrite (.ok (n + 1))).exec w = (drainOutput w n, [.testClosing]) := by
        simp only [LoopAction.exec, if_pos hpend]
      constructor <;> rw [hexec]
      · exact (quiet_drainOutput w n).state.trans hstate
      · exact (drainOutput_output h hpend.1 n).stream.trans h.stream.symm
      · have hlength : (drainOutput w n).conn.outputBuffer.readable.length =
            w.conn.outputBuffer.readable.length - (n + 1) := by
          rw [outputBuffer_drainOutput, readable_retrieve _ h.buffer, List.length_drop]
        rw [hlength]
        simp only [LoopAction.drains, if_true]
        omega
      · simp [LoopAction.drains]
    | .ok 0 =>
      exact drainAction_of_same hstate (by simp only [LoopAction.exec, if_pos hpend]; exact sameOutput_refl w) rfl
        (by simp only [LoopAction.exec, if_pos hpend]; simp)
    | .err e =>
      exact drainAction_of_same hstate (by simp only [LoopAction.exec, if_pos hpend]; exact sameOutput_refl w) rfl
        (by simp only [LoopAction.exec, if_pos hpend]; simp)
  · -- Without write interest there is nothing left to write.
    have hexec : (LoopAction.handleWrite r).exec w = (w, []) := by
      simp [LoopAction.exec, if_neg hpend, h.noFile]
    have hnil : w.conn.outputBuffer.readable = [] := by
      by_contra hne
      exact hpend ⟨h.writing.mpr hne, fun hzero => hne ((readable_eq_nil_iff _ h.buffer).mpr hzero)⟩
    constructor <;> rw [hexec]
    · exact hstate
    · simp [hnil]
    · simp

/-- Every action before the close. -/
theorem drainAction {w : ConnContext κ} {payload : Bytes} (h : OutputInv w payload)
    (hstate : w.conn.state = .kDisConnecting) {a : LoopAction} (hleaves : a.leaves = false)
    (hfollows : a.follows = false) : DrainAction w a := by
  cases a with
  | connectionCallback app =>
    apply drainAction_of_same hstate ?_ rfl
    · simp only [LoopAction.exec]
      split
      · exact drains_appCalls app
      · simp
    · simp only [LoopAction.exec]
      split <;> exact ⟨rfl, rfl, rfl, rfl, rfl, rfl, rfl, rfl, rfl⟩
  | closeCallback =>
    apply drainAction_of_same hstate ?_ rfl (by simp [LoopAction.exec])
    simp only [LoopAction.exec, ConnContext.closeCallback]
    split <;> exact ⟨rfl, rfl, rfl, rfl, rfl, rfl, rfl, rfl, rfl⟩
  | appCall c =>
    cases c with
    | sendFile fd offset count r => cases hleaves
    | retrieve len =>
      exact drainAction_of_same hstate ⟨rfl, rfl, rfl, rfl, rfl, rfl, rfl, rfl, rfl⟩ rfl (by simp [LoopAction.exec])
    | send data r =>
      apply drainAction_of_same (a := .appCall (.send data r)) hstate (sameOutput_refl w) rfl
      simp [LoopAction.exec, hstate]
    | shutdown =>
      apply drainAction_of_same (a := .appCall .shutdown) hstate (sameOutput_refl w) rfl
      simp [LoopAction.exec, hstate]
  | storeClosing => exact ⟨rfl, rfl, Nat.le_refl _, by simp [LoopAction.exec, LoopAction.drains]⟩
  | sendInLoop data r =>
    have hsame : w.sendInLoop data r = w := by
      unfold ConnContext.sendInLoop
      rw [if_pos (Or.inr hstate)]
    apply drainAction_of_same (a := .sendInLoop data r) hstate ?_ rfl (by simp [LoopAction.exec])
    simp only [LoopAction.exec, hsame]
    exact sameOutput_refl w
  | shutDownInLoop =>
    have hkeep : (w.shutDownInLoop).conn = w.conn ∧ (w.shutDownInLoop).sent = w.sent := by
      unfold ConnContext.shutDownInLoop
      split <;> exact ⟨rfl, rfl⟩
    refine ⟨?_, ?_, ?_, by simp [LoopAction.exec]⟩
    · simp only [LoopAction.exec, hkeep.1]
      exact hstate
    · simp only [LoopAction.exec, hkeep.1, hkeep.2]
    · simp only [LoopAction.exec, hkeep.1]
      exact Nat.le_refl _
  | handleRead r onMessage onDown =>
    apply drainAction_of_same hstate ?_ rfl
    · simp only [LoopAction.exec]
      split
      · simp [LoopAction.drains]
      · split
        · exact drains_appCalls onMessage
        · simp
      · simp [LoopAction.drains]
    · simp only [LoopAction.exec]
      split
      · exact ⟨rfl, rfl, rfl, rfl, rfl, rfl, rfl, rfl, rfl⟩
      · split <;> exact ⟨rfl, rfl, rfl, rfl, rfl, rfl, rfl, rfl, rfl⟩
      · exact ⟨rfl, rfl, rfl, rfl, rfl, rfl, rfl, rfl, rfl⟩
  | handleWrite r => exact drainAction_handleWrite h hstate r
  | testClosing =>
    apply drainAction_of_same (a := .testClosing) hstate (sameOutput_refl w) rfl
    simp [LoopAction.exec, hstate, LoopAction.drains]
  | sendFileInLoop r => cases hfollows
  | removeChannel => cases hfollows
  | handleClose app => cases hleaves
  | connectionDestroyed app => cases hleaves
  | disconnect app => cases hleaves

/-! ### Runs -/

/-- The output that is left, and the drains that are under way. -/
def leftToDrain (s : ThreadState κ) : Nat := s.w.conn.outputBuffer.readable.length

def drainsAhead (s : ThreadState κ) : Nat := s.todo.countP LoopAction.drains

lemma countP_drains_eq_zero {acts : List LoopAction} (h : ∀ a ∈ acts, a.drains = false) :
    acts.countP LoopAction.drains = 0 := by
  rw [List.countP_eq_zero]
  intro a ha
  rw [h a ha]
  exact Bool.false_ne_true

lemma countP_drains_ofEvent (revent : EventMask) (i : ConnContext.EventInput) :
    (LoopAction.ofEvent revent i).countP LoopAction.drains =
      if ThreadStep.drains (.event revent i) then 1 else 0 := by
  have hclose : ∀ (b : Prop) [Decidable b] (app : List AppCall),
      (if b then [LoopAction.handleClose app] else []).countP LoopAction.drains = 0 := by
    intro b _ app
    split <;> rfl
  have hread : (if revent.epollin = true ∨ revent.epollpri = true then
      [LoopAction.handleRead i.readv i.onMessage i.onRead] else []).countP LoopAction.drains = 0 := by
    split <;> rfl
  have hwrite : (if revent.epollout = true then [LoopAction.handleWrite i.write] else []).countP LoopAction.drains =
      if ThreadStep.drains (.event revent i) then 1 else 0 := by
    by_cases hout : revent.epollout = true
    · rw [if_pos hout, List.countP_singleton]
      simp [ThreadStep.drains, hout]
    · rw [if_neg hout]
      simp [ThreadStep.drains, hout]
  unfold LoopAction.ofEvent
  rw [List.countP_append, List.countP_append, List.countP_append, hclose, hclose, hread, hwrite]
  omega

lemma drains_ofFunctor (r : SysResult) (app : List AppCall) (f : Functor) :
    ∀ a ∈ LoopAction.ofFunctor r app f, a.drains = false := by
  cases f with
  | writeComplete => exact drains_appCalls app
  | highWaterMark => exact drains_appCalls app
  | _ => simp [LoopAction.ofFunctor, LoopAction.drains]

/-- A write event is worth one byte, when it comes or when its `handleWrite` runs. -/
theorem draining_step {total : Bytes} {s s' : ThreadState κ} {a : ThreadStep} (h : Draining total s)
    (hok : beforeClose s a) (hnext : threadMachine.next s a = some s') :
    Draining total s' ∧
      leftToDrain s' - drainsAhead s' ≤ leftToDrain s - drainsAhead s - (if a.drains then 1 else 0) := by
  have hinv := halfCloseInv_step s a s' h.inv hok hnext
  cases thread_trans hnext with
  | sendTest hstate | sendFileTest hstate | shutdownTest hstate =>
    rw [h.state] at hstate
    cases hstate
  | sendEnqueue hpc | shutdownEnqueue hpc => exact ⟨⟨hinv, h.state, h.stream⟩, Nat.le_refl _⟩
  | sendFileStore hpc => exact absurd hpc ((h.inv.callers _).2 _)
  | sendFileEnqueue hpc => exact absurd hpc (h.inv.callers _).1
  | shutdownStore hpc => exact ⟨⟨hinv, rfl, h.stream⟩, Nat.le_refl _⟩
  | swap htodo hbatch => exact ⟨⟨hinv, h.state, h.stream⟩, Nat.le_refl _⟩
  | @runTask r app f rest htodo hbatch =>
    refine ⟨⟨hinv, h.state, h.stream⟩, ?_⟩
    simp only [leftToDrain, drainsAhead, htodo, countP_drains_eq_zero (drains_ofFunctor r app f), List.countP_nil]
    exact Nat.le_refl _
  | @event revent i htodo =>
    refine ⟨⟨hinv, h.state, h.stream⟩, ?_⟩
    simp only [leftToDrain, drainsAhead, htodo, countP_drains_ofEvent, List.countP_nil]
    omega
  | userCall htodo =>
    refine ⟨⟨hinv, h.state, h.stream⟩, ?_⟩
    simp [leftToDrain, drainsAhead, ThreadStep.drains, LoopAction.drains, htodo]
  | connectionDestroyed htodo => exact hok.elim
  | @advance act rest htodo =>
    obtain ⟨payload, hout⟩ := h.inv.output
    have hact := drainAction hout h.state (hok act (by rw [htodo]; rfl)) (h.inv.todo act (by simp [htodo]))
    refine ⟨⟨hinv, hact.state, hact.stream.trans h.stream⟩, ?_⟩
    have hleft := hact.left
    simp only [leftToDrain, drainsAhead, htodo, List.countP_append, countP_drains_eq_zero hact.acts,
      List.countP_cons, ThreadStep.drains, Bool.false_eq_true, if_false]
    omega

/-- A closing connection with `n` bytes left: once `n` write events have come on which `write` accepts
something and the loop thread has ended what it was in, everything has been sent, in the order of the
buffer, and SHUT_WR has been issued or is ahead. -/
theorem closing_output_drains (key : κ) (fd highWaterMark : Nat) (callbacks : Callbacks)
    (p : EPollPoller κ) (files : Nat → Bytes) (app : List AppCall) (hc : p.channels fd = none)
    (hi : p.interest fd = none) (before steps : List ThreadStep) (s u : ThreadState κ)
    (hok : threadMachine.Meets beforeClose (threadStart key fd highWaterMark callbacks p files app) (before ++ steps))
    (hrun : threadMachine.run (threadStart key fd highWaterMark callbacks p files app) before = some s)
    (hclosing : s.w.conn.state = .kDisConnecting) (hmore : threadMachine.run s steps = some u)
    (hcount : s.w.conn.outputBuffer.readable.length ≤ steps.countP ThreadStep.drains) (hend : u.todo = []) :
    u.w.conn.outputBuffer.readable = [] ∧ u.w.sent = s.w.sent ++ s.w.conn.outputBuffer.readable ∧
      (u.w.shutWr = true ∨ HalfCloseAhead u) := by
  have hstart := threadStart_halfClose key fd highWaterMark callbacks p files app hc hi
  have hinv : HalfCloseInv s :=
    threadMachine.invariant_of_meets halfCloseInv_step hstart (hok.left_of_append threadMachine) hrun
  have hs : Draining (s.w.sent ++ s.w.conn.outputBuffer.readable) s := ⟨hinv, hclosing, rfl⟩
  have hmeets := hok.of_append threadMachine hrun
  have hu : Draining (s.w.sent ++ s.w.conn.outputBuffer.readable) u :=
    threadMachine.invariant_of_meets (fun _ _ _ hv ha hnext => (draining_step hv ha hnext).1) hs hmeets hmore
  -- The bytes that no drain under way accounts for.
  have hreach : threadMachine.Reaches (fun v => leftToDrain v ≤ drainsAhead v) s steps := by
    refine threadMachine.reaches_of_le_countP (I := Draining (s.w.sent ++ s.w.conn.outputBuffer.readable))
      ThreadStep.drains (fun _ => 0) (fun v => leftToDrain v - drainsAhead v) ?_
      (fun v _ hgoal => by omega) hs hmeets hmore ?_
    · intro v a v' hv hgoal ha hnext
      obtain ⟨hv', hless⟩ := draining_step hv ha hnext
      refine ⟨hv', Or.inr ?_⟩
      have hone : (if a.drains then 1 else 0) ≤ 1 := by
        split
        · exact Nat.le_refl _
        · exact Nat.zero_le _
      omega
    · rw [Machine.sum_map_zero]
      exact Nat.le_trans (Nat.sub_le _ _) hcount
  have hdrained : leftToDrain u ≤ drainsAhead u := by
    refine hreach.stable threadMachine (I := Draining (s.w.sent ++ s.w.conn.outputBuffer.readable)) ?_ hs hmeets hmore
    intro v a v' hv ha hnext
    obtain ⟨hv', hless⟩ := draining_step hv ha hnext
    exact ⟨hv', fun hgoal => by omega⟩
  have hnil : u.w.conn.outputBuffer.readable = [] := by
    rw [drainsAhead, hend, List.countP_nil] at hdrained
    exact List.length_eq_zero_iff.mp (Nat.le_zero.mp hdrained)
  have hsent := hu.stream
  rw [hnil, List.append_nil] at hsent
  refine ⟨hnil, hsent, ?_⟩
  rcases hu.inv.closing hu.state with hshut | hahead | htest | hne
  · exact Or.inl hshut
  · exact Or.inr hahead
  · rw [hend] at htest
    cases htest
  · exact absurd hnil hne

/-- A shutdown with two bytes left, and two write events of one byte each. -/
def twoDrains : List ThreadStep :=
  [.event ⟨false, false, true, false, false⟩ ⟨.ok [1], .ok 1, [], [], [], []⟩, .advance, .advance, .advance,
   .event ⟨false, false, true, false, false⟩ ⟨.ok [1], .ok 1, [], [], [], []⟩, .advance, .advance, .advance]

def closingWithTwo : List ThreadStep :=
  [.advance, .userCall (.send [7, 8, 9] (.ok 1)), .advance, .advance, .userCall .shutdown, .advance, .advance, .advance]

theorem closing_output_drains_two :
    ∃ s u : ThreadState Unit, threadMachine.run idleConnection closingWithTwo = some s ∧
      s.w.conn.outputBuffer.readable = [8, 9] ∧ threadMachine.run s twoDrains = some u ∧
      u.w.sent = [7, 8, 9] ∧ (u.w.shutWr = true ∨ HalfCloseAhead u) := by
  have hok : threadMachine.Meets beforeClose idleConnection (closingWithTwo ++ twoDrains) := by
    decide +kernel
  have hend : ((threadMachine.run idleConnection closingWithTwo).bind fun s =>
      (threadMachine.run s twoDrains).map fun u => (s.w.conn.state, s.w.conn.outputBuffer.readable, s.w.sent, u.todo)) =
      some (.kDisConnecting, [8, 9], [7], []) := by
    decide +kernel
  obtain ⟨s, hrun, hend⟩ := Option.bind_eq_some_iff.mp hend
  obtain ⟨u, hmore, hend⟩ := Option.map_eq_some_iff.mp hend
  simp only [Prod.mk.injEq] at hend
  obtain ⟨hclosing, hleft, hsent, htodo⟩ := hend
  obtain ⟨-, hall, hshut⟩ := closing_output_drains () 5 64 ⟨true, true, true, true, true⟩ EPollPoller.empty
    (fun _ => []) [] rfl rfl closingWithTwo twoDrains s u hok hrun hclosing hmore
    (by rw [hleft]; decide) htodo
  rw [hsent, hleft] at hall
  exact ⟨s, u, hrun, hleft, hmore, hall, hshut⟩

end MylibMuduo.Proofs
