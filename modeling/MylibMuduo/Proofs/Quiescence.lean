import MylibMuduo.Proofs.ConnectionThreads

/-!
# A disconnected connection is quiescent

After the store of `kDisConnected` another thread may still store `kDisConnecting`, so the
connection moves between the two closing states. Both close every path to the descriptor: the
tests of `send` and `sendFile`, those of `sendInLoop` and `sendFileInLoop`, and the empty mask
in `handleWrite`.
-/

namespace MylibMuduo.Proofs

variable {κ : Type}

/-- Closed, suspended in the poller, and as `w₁` was on the output side. -/
structure Quiescent (w₁ w : ConnContext κ) : Prop where
  state : w.conn.state = .kDisConnected ∨ w.conn.state = .kDisConnecting
  book : Bookkept w.poller w.key w.conn.channel
  none : w.conn.channel.events = kNoneEvent
  notAdded : w.conn.channel.index ≠ .kAdd
  sent : w.sent = w₁.sent
  output : w.conn.outputBuffer = w₁.conn.outputBuffer

namespace Quiescent

variable {w₁ w : ConnContext κ}

lemma not_connected (h : Quiescent w₁ w) : w.conn.state ≠ .kConnected := by
  rcases h.state with hs | hs <;> simp [hs]

lemma not_writing (h : Quiescent w₁ w) : w.conn.channel.isWriting = false := by
  unfold Channel.isWriting
  rw [h.none]
  rfl

/-- A change of the fields that the registration and the output do not look at. -/
lemma of_eq (h : Quiescent w₁ w) {w' : ConnContext κ}
    (hstate : w'.conn.state = .kDisConnected ∨ w'.conn.state = .kDisConnecting)
    (hchan : w'.conn.channel = w.conn.channel) (hpoll : w'.poller = w.poller) (hkey : w'.key = w.key)
    (hsent : w'.sent = w.sent) (hout : w'.conn.outputBuffer = w.conn.outputBuffer) :
    Quiescent w₁ w' := by
  refine ⟨hstate, ?_, ?_, ?_, hsent.trans h.sent, hout.trans h.output⟩
  · rw [hpoll, hkey, hchan]
    exact h.book
  · rw [hchan]
    exact h.none
  · rw [hchan]
    exact h.notAdded

/-- Taking the connection down makes it quiescent, whatever it was before. -/
lemma disconnect (w : ConnContext κ) (h : Bookkept w.poller w.key w.conn.channel) :
    Quiescent w (w.setState .kDisConnected).disableAll := by
  have hdead := (downStep_disableAll h).dead
  exact ⟨Or.inl hdead.state, hdead.book, hdead.none, hdead.notAdded, rfl, rfl⟩

lemma trans {w₂ : ConnContext κ} (h₁ : Quiescent w₁ w) (h₂ : Quiescent w w₂) : Quiescent w₁ w₂ :=
  ⟨h₂.state, h₂.book, h₂.none, h₂.notAdded, h₂.sent.trans h₁.sent, h₂.output.trans h₁.output⟩

lemma removeChannel (h : Quiescent w₁ w) :
    Quiescent w₁ (w.setChannel (w.conn.channel.remove w.poller w.key)) := by
  obtain ⟨hch, hbook, -⟩ := removeChannel_spec w.poller w.key w.conn.channel h.book
  have hchan : (w.setChannel (w.conn.channel.remove w.poller w.key)).conn.channel =
      { w.conn.channel with index := .kNew } := hch
  refine ⟨h.state, hbook, ?_, ?_, h.sent, h.output⟩
  · rw [hchan]
    exact h.none
  · rw [hchan]
    simp

/-- Every action of the loop thread leaves a quiescent connection quiescent. -/
theorem exec (h : Quiescent w₁ w) (a : LoopAction) : Quiescent w₁ (a.exec w).1 := by
  have hnot := h.not_connected
  cases a with
  | connectionCallback app =>
    simp only [LoopAction.exec]
    split
    · exact h.of_eq h.state rfl rfl rfl rfl rfl
    · exact h
  | closeCallback =>
    simp only [LoopAction.exec, ConnContext.closeCallback]
    split
    · exact h.of_eq h.state rfl rfl rfl rfl rfl
    · exact h
  | appCall c =>
    cases c with
    | sendFile fd offset count r =>
      simp only [LoopAction.exec, if_neg hnot]
      exact h
    | retrieve len => exact h.of_eq h.state rfl rfl rfl rfl rfl
    | send data r => exact h
    | shutdown => exact h
  | storeClosing => exact h.of_eq (Or.inr rfl) rfl rfl rfl rfl rfl
  | sendInLoop data r =>
    simp only [LoopAction.exec, ConnContext.sendInLoop, if_pos h.state]
    exact h
  | sendFileInLoop r =>
    simp only [LoopAction.exec, ConnContext.sendFileInLoop, if_pos h.state]
    exact h.of_eq h.state rfl rfl rfl rfl rfl
  | shutDownInLoop =>
    simp only [LoopAction.exec, ConnContext.shutDownInLoop, h.not_writing]
    exact h.of_eq h.state rfl rfl rfl rfl rfl
  | handleRead r onMessage onDown =>
    have hfill : Quiescent w₁ (fillInput w r) := h.of_eq h.state rfl rfl rfl rfl rfl
    simp only [LoopAction.exec]
    split
    · exact hfill
    · split
      · exact hfill.of_eq hfill.state rfl rfl rfl rfl rfl
      · exact hfill
    · exact hfill
  | handleWrite r =>
    simp only [LoopAction.exec, h.not_writing, Bool.false_eq_true, false_and, if_false]
    exact h
  | testClosing => exact h
  | handleClose app => exact h.trans (Quiescent.disconnect w h.book)
  | connectionDestroyed app => exact h
  | disconnect app => exact h.trans (Quiescent.disconnect w h.book)
  | removeChannel => exact h.removeChannel

lemma not_writes (h : Quiescent w₁ w) (a : LoopAction) : ¬a.writes w := by
  cases a with
  | sendInLoop data r =>
    rintro ⟨hd, hc, -⟩
    exact h.state.elim hd hc
  | sendFileInLoop r =>
    rintro ⟨hd, hc, -⟩
    exact h.state.elim hd hc
  | handleWrite r =>
    rintro ⟨hw, -⟩
    rw [h.not_writing] at hw
    cases hw
  | _ => exact id

/-- No step of any thread ends the quiescence. -/
theorem step {s s' : ThreadState κ} {a : ThreadStep} (h : Quiescent w₁ s.w)
    (hnext : threadMachine.next s a = some s') : Quiescent w₁ s'.w := by
  cases thread_trans hnext with
  | advance htodo => exact h.exec _
  | shutdownStore hpc => exact h.of_eq (Or.inr rfl) rfl rfl rfl rfl rfl
  | _ => exact h.of_eq h.state rfl rfl rfl rfl rfl

end Quiescent

/-! ### Before the close -/

/-- A connection that is live has not begun to leave the poller's map. -/
def LiveOrQuiescent (s : ThreadState κ) : Prop :=
  (Live s.w ∧ .removeChannel ∉ s.todo) ∨ ∃ w₁, Quiescent w₁ s.w

lemma LiveOrQuiescent.book {s : ThreadState κ} (h : LiveOrQuiescent s) :
    Bookkept s.w.poller s.w.key s.w.conn.channel := by
  rcases h with ⟨hlive, -⟩ | ⟨w₁, hq⟩
  · exact hlive.reg.book
  · exact hq.book

lemma Live.of_eq {w w' : ConnContext κ} (h : Live w) (hopen : Open w')
    (hchan : w'.conn.channel = w.conn.channel) (hpoll : w'.poller = w.poller) (hkey : w'.key = w.key) :
    Live w' := by
  refine ⟨⟨?_, ?_, ?_⟩, hopen⟩
  · rw [hpoll, hkey, hchan]
    exact h.reg.book
  · rw [hchan]
    exact h.reg.added
  · rw [hchan]
    exact h.reg.reading

/-- The actions of a live connection other than the close keep it live. -/
lemma live_exec {w : ConnContext κ} (h : Live w) {a : LoopAction} (hremove : a ≠ .removeChannel)
    (hdown : a.disconnects = false) : Live (a.exec w).1 ∧ .removeChannel ∉ (a.exec w).2 := by
  cases a with
  | connectionCallback app =>
    simp only [LoopAction.exec]
    split
    · exact ⟨h.of_eq h.opn rfl rfl rfl, by simp⟩
    · exact ⟨h, by simp⟩
  | closeCallback =>
    simp only [LoopAction.exec, ConnContext.closeCallback]
    split
    · exact ⟨h.of_eq h.opn rfl rfl rfl, by simp⟩
    · exact ⟨h, by simp⟩
  | appCall c =>
    cases c with
    | send data r =>
      refine ⟨h, ?_⟩
      simp only [LoopAction.exec]
      split <;> simp
    | sendFile fd offset count r =>
      simp only [LoopAction.exec]
      split
      · exact ⟨h.of_eq h.opn rfl rfl rfl, by simp⟩
      · exact ⟨h, by simp⟩
    | shutdown =>
      refine ⟨h, ?_⟩
      simp only [LoopAction.exec]
      split <;> simp
    | retrieve len => exact ⟨h.of_eq h.opn rfl rfl rfl, by simp [LoopAction.exec]⟩
  | storeClosing => exact ⟨h.of_eq (Or.inr rfl) rfl rfl rfl, by simp [LoopAction.exec]⟩
  | sendInLoop data r => exact ⟨(liveStep_sendInLoop h data r).live, by simp [LoopAction.exec]⟩
  | sendFileInLoop r => exact ⟨(liveStep_sendFileInLoop h r).live, by simp [LoopAction.exec]⟩
  | shutDownInLoop => exact ⟨(liveStep_shutDownInLoop h).live, by simp [LoopAction.exec]⟩
  | handleRead r onMessage onDown =>
    have hfill : Live (fillInput w r) := h.of_eq h.opn rfl rfl rfl
    simp only [LoopAction.exec]
    split
    · exact ⟨hfill, by simp⟩
    · split
      · exact ⟨hfill.of_eq hfill.opn rfl rfl rfl, by simp⟩
      · exact ⟨hfill, by simp⟩
    · exact ⟨hfill, by simp⟩
  | handleWrite r =>
    simp only [LoopAction.exec]
    split
    · split
      · exact ⟨(liveStep_drainOutput h _).live, by simp⟩
      · exact ⟨h, by simp⟩
    · refine ⟨h, ?_⟩
      simp only
      split <;> simp
  | testClosing =>
    refine ⟨h, ?_⟩
    simp only [LoopAction.exec]
    split <;> simp
  | connectionDestroyed app =>
    refine ⟨h, ?_⟩
    have hopen : w.conn.state = .kConnected ∨ w.conn.state = .kDisConnecting := h.opn
    simp [LoopAction.exec, hopen]
  | handleClose app => cases hdown
  | disconnect app => cases hdown
  | removeChannel => exact absurd rfl hremove

lemma removeChannel_not_mem_ofFunctor (r : SysResult) (app : List AppCall) (f : Functor) :
    .removeChannel ∉ LoopAction.ofFunctor r app f := by
  cases f <;> simp [LoopAction.ofFunctor]

lemma removeChannel_not_mem_ofEvent (revent : EventMask) (i : ConnContext.EventInput) :
    .removeChannel ∉ LoopAction.ofEvent revent i := by
  simp only [LoopAction.ofEvent, List.mem_append, not_or]
  refine ⟨⟨⟨?_, ?_⟩, ?_⟩, ?_⟩ <;> split <;> simp

lemma quiescent_of_disconnects {w : ConnContext κ} (h : Bookkept w.poller w.key w.conn.channel)
    {a : LoopAction} (ha : a.disconnects = true) : Quiescent w (a.exec w).1 := by
  cases a with
  | handleClose app => exact Quiescent.disconnect w h
  | disconnect app => exact Quiescent.disconnect w h
  | _ => cases ha

theorem liveOrQuiescent_step (s : ThreadState κ) (a : ThreadStep) (s' : ThreadState κ)
    (h : LiveOrQuiescent s) (hnext : threadMachine.next s a = some s') : LiveOrQuiescent s' := by
  rcases h with ⟨hlive, htodo⟩ | ⟨w₁, hq⟩
  · cases thread_trans hnext with
    | @advance act rest hact =>
      rw [hact, List.mem_cons, not_or] at htodo
      cases hdown : act.disconnects with
      | true => exact Or.inr ⟨_, quiescent_of_disconnects hlive.reg.book hdown⟩
      | false =>
        obtain ⟨hlive', hpushed⟩ := live_exec hlive (Ne.symm htodo.1) hdown
        refine Or.inl ⟨hlive', ?_⟩
        rw [List.mem_append, not_or]
        exact ⟨hpushed, htodo.2⟩
    | shutdownStore hpc => exact Or.inl ⟨hlive.of_eq (Or.inr rfl) rfl rfl rfl, htodo⟩
    | runTask hidle hbatch => exact Or.inl ⟨hlive, removeChannel_not_mem_ofFunctor _ _ _⟩
    | event hidle => exact Or.inl ⟨hlive, removeChannel_not_mem_ofEvent _ _⟩
    | userCall hidle => exact Or.inl ⟨hlive, by simp⟩
    | connectionDestroyed hidle => exact Or.inl ⟨hlive, by simp⟩
    | _ => exact Or.inl ⟨hlive.of_eq hlive.opn rfl rfl rfl, htodo⟩
  · exact Or.inr ⟨w₁, hq.step hnext⟩

lemma threadStart_live (key : κ) (fd highWaterMark : Nat) (callbacks : Callbacks) (p : EPollPoller κ)
    (files : Nat → Bytes) (app : List AppCall) (hc : p.channels fd = none) (hi : p.interest fd = none) :
    Live (threadStart key fd highWaterMark callbacks p files app).w := by
  obtain ⟨hbook, hadd, hev⟩ := enableReading_fresh p key fd hc hi
  exact ⟨⟨hbook, hadd, congrArg EventMask.epollin hev⟩, Or.inl rfl⟩

/-- From the close on, whatever the loop thread and the other threads still do: the mask stays
empty, the descriptor stays out of the epoll set, nothing is written to it and the output buffer
does not change. -/
theorem disconnected_is_quiescent (key : κ) (fd highWaterMark : Nat) (callbacks : Callbacks)
    (p : EPollPoller κ) (files : Nat → Bytes) (app : List AppCall) (hc : p.channels fd = none)
    (hi : p.interest fd = none) (steps more : List ThreadStep) (s s₁ s' : ThreadState κ)
    (hrun : threadMachine.run (threadStart key fd highWaterMark callbacks p files app) steps = some s)
    (a : LoopAction) (rest : List LoopAction) (htodo : s.todo = a :: rest) (hdown : a.disconnects = true)
    (hnext : threadMachine.next s .advance = some s₁) (hmore : threadMachine.run s₁ more = some s') :
    s'.w.conn.channel.events = kNoneEvent ∧ s'.w.poller.interest s'.w.conn.channel.fd = none ∧
      s'.w.sent = s₁.w.sent ∧ s'.w.conn.outputBuffer = s₁.w.conn.outputBuffer ∧
      ∀ b ∈ s'.todo.head?, ¬b.writes s'.w := by
  have hstart : LiveOrQuiescent (threadStart key fd highWaterMark callbacks p files app) :=
    Or.inl ⟨threadStart_live key fd highWaterMark callbacks p files app hc hi, by simp [threadStart]⟩
  have hbook := (threadMachine.invariant liveOrQuiescent_step hstart hrun).book
  have hq₁ : Quiescent s.w s₁.w := by
    cases thread_trans hnext with
    | @advance b rest' hb =>
      rw [htodo, List.cons.injEq] at hb
      exact hb.1 ▸ quiescent_of_disconnects hbook hdown
  have hq : Quiescent s.w s'.w :=
    threadMachine.invariant (I := fun t => Quiescent s.w t.w) (fun _ _ _ h hn => h.step hn) hq₁ hmore
  refine ⟨hq.none, ?_, hq.sent.trans hq₁.sent.symm, hq.output.trans hq₁.output.symm,
    fun b _ => hq.not_writes b⟩
  rw [hq.book.interest, if_neg hq.notAdded]

/-- A connection on descriptor 5 whose callbacks are all set. -/
def sampleStart : ThreadState Unit :=
  threadStart () 5 64 ⟨true, true, true, true, true⟩ EPollPoller.empty (fun _ => []) []

/-- Thread 0 has tested the state and a payload of thread 1 is queued when the peer closes. -/
def untilClose : List ThreadStep :=
  [.advance, .shutdownTest 0, .sendTest 1 [7], .sendEnqueue 1,
   .event ⟨true, false, true, true, false⟩ ⟨.ok [], .ok 1, [], [], [.send [8] (.ok 1)], [.shutdown]⟩,
   .advance]

/-- The rest of the dispatch, a second `handleClose` with it, thread 0 and the queued payload. -/
def afterClose : List ThreadStep :=
  [.shutdownStore 0, .advance, .advance, .advance, .advance, .shutdownEnqueue 0, .advance, .advance,
   .advance, .advance, .swap, .runTask (.ok 1) [], .advance, .runTask (.ok 1) [], .advance,
   .connectionDestroyed [], .advance, .advance]

theorem disconnected_is_quiescent_dispatch :
    ∃ s s₁ s' : ThreadState Unit, threadMachine.run sampleStart untilClose = some s ∧
      threadMachine.next s .advance = some s₁ ∧ threadMachine.run s₁ afterClose = some s' ∧
      s₁.w.conn.state = .kDisConnected ∧ s'.todo = [] ∧ s'.w.conn.channel.events = kNoneEvent ∧
      s'.w.poller.interest s'.w.conn.channel.fd = none ∧ s'.w.sent = s₁.w.sent ∧
      s'.w.conn.outputBuffer = s₁.w.conn.outputBuffer := by
  have hend : ((threadMachine.run sampleStart untilClose).bind fun s =>
      (threadMachine.next s .advance).bind fun s₁ => (threadMachine.run s₁ afterClose).map fun s' =>
        (s.todo, s₁.w.conn.state, s'.todo)) =
      some ([.handleClose [.send [8] (.ok 1)], .handleWrite (.ok 1), .handleClose [.shutdown]],
        .kDisConnected, []) := by
    decide +kernel
  obtain ⟨s, hrun, hend⟩ := Option.bind_eq_some_iff.mp hend
  obtain ⟨s₁, hnext, hend⟩ := Option.bind_eq_some_iff.mp hend
  obtain ⟨s', hmore, hend⟩ := Option.map_eq_some_iff.mp hend
  simp only [Prod.mk.injEq] at hend
  obtain ⟨htodo, hstate, hdone⟩ := hend
  obtain ⟨hnone, hinterest, hsent, hout, -⟩ := disconnected_is_quiescent () 5 64
    ⟨true, true, true, true, true⟩ EPollPoller.empty (fun _ => []) [] rfl rfl untilClose afterClose
    s s₁ s' hrun _ _ htodo rfl hnext hmore
  exact ⟨s, s₁, s', hrun, hnext, hmore, hstate, hdone, hnone, hinterest, hsent, hout⟩

end MylibMuduo.Proofs
