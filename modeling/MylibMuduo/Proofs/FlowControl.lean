import MylibMuduo.Proofs.ConnectionThreads
import MylibMuduo.Proofs.OutputOrder

/-!
# Flow-control notifications

The level of a connection is the number of bytes in its output buffer. `sendInLoop` queues the
high-water task when it takes the level over the mark; `sendInLoop` and `handleWrite` queue the
write-complete task when they leave nothing unsent. No other step queues one of the two, in any
interleaving with other threads and up to and after the close.
-/

namespace MylibMuduo.Proofs

variable {κ : Type}

/-- The bytes that wait in the output buffer. -/
def level (w : ConnContext κ) : Nat := w.conn.outputBuffer.readableBytes

/-- A connection among its threads, with the bytes that its `sendInLoop` calls have taken. -/
structure FlowState (κ : Type) where
  threads : ThreadState κ
  accepted : Bytes

/-- No `sendFile`, and the results of `write` are partial or `EWOULDBLOCK`. -/
def flowAllowed (s : ThreadState κ) : ThreadStep → Bool
  | .sendFileTest _ _ => false
  | .advance =>
    match s.todo.head? with
    | some (.sendInLoop data r) => transient data.length r
    | some (.handleWrite r) => transient (level s.w) r
    | some (.appCall (.sendFile _ _ _ _)) => false
    | _ => true
  | _ => true

/-- The payload that the step takes; in the closing states `sendInLoop` gives up. -/
def accepts (s : ThreadState κ) : ThreadStep → Bytes
  | .advance =>
    match s.todo.head? with
    | some (.sendInLoop data _) =>
      if s.w.conn.state = .kDisConnected ∨ s.w.conn.state = .kDisConnecting then [] else data
    | _ => []
  | _ => []

/-- The runs of one connection without `sendFile`. -/
def flowMachine : Machine (FlowState κ) ThreadStep where
  next f a :=
    if flowAllowed f.threads a then
      (threadMachine.next f.threads a).map fun s' => ⟨s', f.accepted ++ accepts f.threads a⟩
    else none

/-- A new connection inside `connectionEstablished`. -/
def flowStart (key : κ) (fd highWaterMark : Nat) (callbacks : Callbacks) (p : EPollPoller κ)
    (files : Nat → Bytes) (app : List AppCall) : FlowState κ :=
  ⟨threadStart key fd highWaterMark callbacks p files app, []⟩

/-- The step executes a `sendInLoop`. -/
def ExecutesSend (s : ThreadState κ) (a : ThreadStep) : Prop :=
  a = .advance ∧ ∃ data r, s.todo.head? = some (.sendInLoop data r)

/-- The step executes a `sendInLoop` whose `write` takes the whole payload. -/
def WritesWhole (s : ThreadState κ) (a : ThreadStep) : Prop :=
  a = .advance ∧ ∃ data, s.todo.head? = some (.sendInLoop data (.ok data.length)) ∧
    (LoopAction.sendInLoop data (.ok data.length)).writes s.w

/-- The step puts the task into the queue of the loop. -/
def Queues (f : Functor) (s s' : ThreadState κ) : Prop :=
  ∃ fs, s'.w.pendingFunctors = s.w.pendingFunctors ++ fs ∧ f ∈ fs

/-- The notifications of a step are the edges of the level. -/
structure ExactEdges (mark : Nat) (s : ThreadState κ) (a : ThreadStep) (s' : ThreadState κ) : Prop where
  high : Queues .highWaterMark s s' ↔ ExecutesSend s a ∧ level s.w < mark ∧ mark ≤ level s'.w
  complete : Queues .writeComplete s s' ↔ level s'.w = 0 ∧ (0 < level s.w ∨ WritesWhole s a)
  once : ∀ f, f = .highWaterMark ∨ f = .writeComplete →
    s'.w.pendingFunctors.count f ≤ s.w.pendingFunctors.count f + 1

/-! ### The functions that change the level -/

/-- The output side of a connection with both callbacks set. -/
structure FlowConn (mark : Nat) (w : ConnContext κ) (accepted : Bytes) : Prop where
  buffer : BufferInv w.conn.outputBuffer
  stream : w.sent ++ w.conn.outputBuffer.readable = accepted
  noFile : w.conn.sendingFile = false
  mark_eq : w.conn.highWaterMark = mark
  highCallback : w.conn.callbacks.highWaterMark = true
  completeCallback : w.conn.callbacks.writeComplete = true

/-- The fields that carry the output are the same. -/
structure SameFlow (w w' : ConnContext κ) : Prop where
  outputBuffer : w'.conn.outputBuffer = w.conn.outputBuffer
  sent : w'.sent = w.sent
  sendingFile : w'.conn.sendingFile = w.conn.sendingFile
  highWaterMark : w'.conn.highWaterMark = w.conn.highWaterMark
  callbacks : w'.conn.callbacks = w.conn.callbacks

lemma SameFlow.refl (w : ConnContext κ) : SameFlow w w := ⟨rfl, rfl, rfl, rfl, rfl⟩

lemma SameFlow.level_eq {w w' : ConnContext κ} (h : SameFlow w w') : level w' = level w := by
  unfold level
  rw [h.outputBuffer]

lemma sameFlow_call (w : ConnContext κ) (c : UserCall) : SameFlow w (w.call c) := ⟨rfl, rfl, rfl, rfl, rfl⟩

lemma sameFlow_setChannel (w : ConnContext κ) (r : EPollPoller κ × Channel) : SameFlow w (w.setChannel r) :=
  ⟨rfl, rfl, rfl, rfl, rfl⟩

lemma sameFlow_queueInLoop (w : ConnContext κ) (f : Functor) : SameFlow w (w.queueInLoop f) :=
  ⟨rfl, rfl, rfl, rfl, rfl⟩

namespace FlowConn

variable {mark : Nat} {w w' : ConnContext κ} {accepted : Bytes}

lemma of_same (h : FlowConn mark w accepted) (hs : SameFlow w w') : FlowConn mark w' accepted := by
  refine ⟨?_, ?_, ?_, ?_, ?_, ?_⟩
  · rw [hs.outputBuffer]
    exact h.buffer
  · rw [hs.sent, hs.outputBuffer]
    exact h.stream
  · rw [hs.sendingFile]
    exact h.noFile
  · rw [hs.highWaterMark]
    exact h.mark_eq
  · rw [hs.callbacks]
    exact h.highCallback
  · rw [hs.callbacks]
    exact h.completeCallback

lemma length_readable (h : FlowConn mark w accepted) : w.conn.outputBuffer.readable.length = level w :=
  Proofs.length_readable _ h.buffer

lemma readable_eq_nil (h : FlowConn mark w accepted) : w.conn.outputBuffer.readable = [] ↔ level w = 0 :=
  readable_eq_nil_iff _ h.buffer

/-- With nothing in the buffer the kernel has all that was accepted. -/
lemma sent_eq (h : FlowConn mark w accepted) (hempty : level w = 0) : w.sent = accepted := by
  have hstream := h.stream
  rw [h.readable_eq_nil.mpr hempty, List.append_nil] at hstream
  exact hstream

/-- A direct `write` takes bytes while the buffer is empty. -/
lemma accept (h : FlowConn mark w accepted) (hempty : level w = 0) (data : Bytes) :
    FlowConn mark (w.accept data) (accepted ++ data) := by
  refine ⟨h.buffer, ?_, h.noFile, h.mark_eq, h.highCallback, h.completeCallback⟩
  change w.sent ++ data ++ w.conn.outputBuffer.readable = _
  rw [h.readable_eq_nil.mpr hempty, List.append_nil, h.sent_eq hempty]

lemma setOutput_append (h : FlowConn mark w accepted) (rest : Bytes) :
    FlowConn mark (w.setOutput (w.conn.outputBuffer.append rest)) (accepted ++ rest) := by
  refine ⟨append_inv _ h.buffer rest, ?_, h.noFile, h.mark_eq, h.highCallback, h.completeCallback⟩
  change w.sent ++ (w.conn.outputBuffer.append rest).readable = _
  rw [readable_append _ h.buffer, ← List.append_assoc, h.stream]

lemma setOutput_level (h : FlowConn mark w accepted) (rest : Bytes) :
    level (w.setOutput (w.conn.outputBuffer.append rest)) = level w + rest.length := by
  rw [← (h.setOutput_append rest).length_readable, ← h.length_readable, ← List.length_append]
  change (w.conn.outputBuffer.append rest).readable.length = _
  rw [readable_append _ h.buffer]

end FlowConn

/-- The high-water task for a level that goes from `old` to `new`. -/
def crossing (mark old new : Nat) : List Functor :=
  if old < mark ∧ mark ≤ new then [.highWaterMark] else []

lemma crossing_self (mark old : Nat) : crossing mark old old = [] := by
  unfold crossing
  rw [if_neg (by omega)]

/-- The interest in write events does not matter for the level. -/
lemma sameFlow_ensureWriting (w : ConnContext κ) :
    SameFlow w (if w.conn.channel.isWriting then w else w.enableWriting) ∧
      (if w.conn.channel.isWriting then w else w.enableWriting).pendingFunctors = w.pendingFunctors := by
  split
  · exact ⟨SameFlow.refl w, rfl⟩
  · exact ⟨sameFlow_setChannel w _, rfl⟩

/-- The bytes behind a direct write, or the whole payload, go behind the buffer. -/
theorem appendRemaining_flow {mark : Nat} {w : ConnContext κ} {accepted : Bytes}
    (h : FlowConn mark w accepted) (rest : Bytes) :
    FlowConn mark (w.appendRemaining rest) (accepted ++ rest) ∧
      level (w.appendRemaining rest) = level w + rest.length ∧
      (w.appendRemaining rest).pendingFunctors =
        w.pendingFunctors ++ crossing mark (level w) (level w + rest.length) := by
  unfold ConnContext.appendRemaining
  by_cases hrest : rest.length = 0
  · rw [if_pos hrest, hrest, Nat.add_zero, crossing_self, List.append_nil,
      List.length_eq_zero_iff.mp hrest, List.append_nil]
    exact ⟨h, rfl, rfl⟩
  · rw [if_neg hrest]
    dsimp only
    -- The queue comes first, so both branches append to a context of the same flow.
    have hqueue : ∀ w₁ : ConnContext κ, SameFlow w w₁ →
        let w₂ := w₁.setOutput (w₁.conn.outputBuffer.append rest)
        let w₃ := if w₂.conn.channel.isWriting then w₂ else w₂.enableWriting
        FlowConn mark w₃ (accepted ++ rest) ∧ level w₃ = level w + rest.length ∧
          w₃.pendingFunctors = w₁.pendingFunctors := by
      intro w₁ hs w₂ w₃
      obtain ⟨hw, hp⟩ := sameFlow_ensureWriting w₂
      have h₁ := h.of_same hs
      refine ⟨(h₁.setOutput_append rest).of_same hw, ?_, hp⟩
      rw [hw.level_eq, h₁.setOutput_level rest, hs.level_eq]
    unfold crossing
    by_cases hcross : level w < mark ∧ mark ≤ level w + rest.length
    · have htest : w.conn.outputBuffer.readableBytes + rest.length ≥ w.conn.highWaterMark ∧
          w.conn.outputBuffer.readableBytes < w.conn.highWaterMark ∧
          w.conn.callbacks.highWaterMark = true := by
        rw [h.mark_eq]
        exact ⟨hcross.2, hcross.1, h.highCallback⟩
      simp only [if_pos htest, if_pos hcross]
      exact hqueue _ (sameFlow_queueInLoop w .highWaterMark)
    · have htest : ¬(w.conn.outputBuffer.readableBytes + rest.length ≥ w.conn.highWaterMark ∧
          w.conn.outputBuffer.readableBytes < w.conn.highWaterMark ∧
          w.conn.callbacks.highWaterMark = true) := by
        rw [h.mark_eq]
        exact fun ht => hcross ⟨ht.2.1, ht.1⟩
      simp only [if_neg htest, if_neg hcross, List.append_nil]
      exact hqueue w (SameFlow.refl w)

/-- The write-complete task is queued, as its callback is set. -/
lemma notifyWriteComplete_flow {mark : Nat} {w : ConnContext κ} {accepted : Bytes}
    (h : FlowConn mark w accepted) : w.notifyWriteComplete = w.queueInLoop .writeComplete := by
  unfold ConnContext.notifyWriteComplete
  rw [if_pos h.completeCallback]

/-- What an action does to the queue: `fs` are the notifications for the change of the level. -/
structure ActionEdges (mark : Nat) (w : ConnContext κ) (act : LoopAction) (w' : ConnContext κ)
    (fs : List Functor) : Prop where
  queue : w'.pendingFunctors = w.pendingFunctors ++ fs
  notify : Notifications fs
  one : fs.length ≤ 1
  high : .highWaterMark ∈ fs ↔ (∃ data r, act = .sendInLoop data r) ∧ level w < mark ∧ mark ≤ level w'
  complete : .writeComplete ∈ fs ↔ level w' = 0 ∧
    (0 < level w ∨ ∃ data, act = .sendInLoop data (.ok data.length) ∧ act.writes w)

lemma crossing_notifications (mark old new : Nat) : Notifications (crossing mark old new) := by
  intro f hf
  unfold crossing at hf
  split at hf
  · exact Or.inr (List.mem_singleton.mp hf)
  · cases hf

lemma mem_crossing (mark old new : Nat) : .highWaterMark ∈ crossing mark old new ↔ old < mark ∧ mark ≤ new := by
  unfold crossing
  split
  · rename_i hcross
    exact iff_of_true List.mem_cons_self hcross
  · rename_i hcross
    exact iff_of_false (by simp) hcross

lemma length_crossing (mark old new : Nat) : (crossing mark old new).length ≤ 1 := by
  unfold crossing
  split <;> simp

/-- The level stays and nothing is queued. -/
lemma actionEdges_silent {mark : Nat} {w w' : ConnContext κ} {act : LoopAction} (hlevel : level w' = level w)
    (hqueue : w'.pendingFunctors = w.pendingFunctors)
    (hwhole : ∀ data, act = .sendInLoop data (.ok data.length) → ¬act.writes w) :
    ActionEdges mark w act w' [] := by
  refine ⟨by rw [hqueue, List.append_nil], by simp [Notifications], by simp, ?_, ?_⟩
  · refine iff_of_false (by simp) fun h => ?_
    have hlow := h.2.1
    have hhigh := h.2.2
    omega
  · refine iff_of_false (by simp) ?_
    rintro ⟨hzero, hpos | ⟨data, hact, hwrites⟩⟩
    · omega
    · exact hwhole data hact hwrites

/-- The level rises by what `sendInLoop` appends; its `write` was not complete. -/
lemma actionEdges_append {mark : Nat} {w w' : ConnContext κ} {data : Bytes} {r : SysResult}
    (hlevel : level w ≤ level w')
    (hqueue : w'.pendingFunctors = w.pendingFunctors ++ crossing mark (level w) (level w'))
    (hpart : r = .ok data.length → ¬(LoopAction.sendInLoop data r).writes w) :
    ActionEdges mark w (.sendInLoop data r) w' (crossing mark (level w) (level w')) := by
  refine ⟨hqueue, crossing_notifications _ _ _, length_crossing _ _ _, ?_, ?_⟩
  · rw [mem_crossing]
    exact ⟨fun h => ⟨⟨data, r, rfl⟩, h⟩, fun h => h.2⟩
  · have hnot : .writeComplete ∉ crossing mark (level w) (level w') := by
      unfold crossing
      split <;> simp
    refine iff_of_false hnot ?_
    rintro ⟨hzero, hpos | ⟨data', hact, hwrites⟩⟩
    · omega
    · rw [LoopAction.sendInLoop.injEq] at hact
      obtain ⟨rfl, hr⟩ := hact
      exact hpart hr hwrites

/-- A direct `write` of the whole payload. -/
lemma actionEdges_whole {mark : Nat} {w : ConnContext κ} {data : Bytes} (hempty : level w = 0)
    (hwrites : (LoopAction.sendInLoop data (.ok data.length)).writes w) :
    ActionEdges mark w (.sendInLoop data (.ok data.length)) ((w.accept data).queueInLoop .writeComplete)
      [.writeComplete] := by
  have hempty' : level ((w.accept data).queueInLoop .writeComplete) = 0 := hempty
  refine ⟨rfl, by simp [Notifications], by simp, ?_, ?_⟩
  · refine iff_of_false (by simp) fun hc => ?_
    have hlow := hc.2.1
    have hhigh := hc.2.2
    omega
  · exact iff_of_true List.mem_cons_self ⟨hempty', Or.inr ⟨data, rfl, hwrites⟩⟩

/-- The execution of `sendInLoop`. -/
theorem sendInLoop_flow {mark : Nat} {w : ConnContext κ} {accepted : Bytes} (h : FlowConn mark w accepted)
    (data : Bytes) (r : SysResult) (hr : transient data.length r = true) :
    FlowConn mark (w.sendInLoop data r) (accepted ++
        if w.conn.state = .kDisConnected ∨ w.conn.state = .kDisConnecting then [] else data) ∧
      ∃ fs, ActionEdges mark w (.sendInLoop data r) (w.sendInLoop data r) fs := by
  unfold ConnContext.sendInLoop
  by_cases hclosing : w.conn.state = .kDisConnected ∨ w.conn.state = .kDisConnecting
  · rw [if_pos hclosing, if_pos hclosing, List.append_nil]
    refine ⟨h, [], actionEdges_silent rfl rfl fun _ _ hwrites => ?_⟩
    exact hclosing.elim hwrites.1 hwrites.2.1
  · rw [if_neg hclosing, if_neg hclosing]
    have happend := appendRemaining_flow h data
    have hedges : (r = .ok data.length → ¬(LoopAction.sendInLoop data r).writes w) →
        ∃ fs, ActionEdges mark w (.sendInLoop data r) (w.appendRemaining data) fs := by
      intro hpart
      refine ⟨_, actionEdges_append ?_ ?_ hpart⟩
      · rw [happend.2.1]
        omega
      · rw [happend.2.1]
        exact happend.2.2
    by_cases hfast : ¬w.conn.channel.isWriting = true ∧ w.conn.outputBuffer.readableBytes = 0
    · rw [if_pos hfast]
      have hempty : level w = 0 := hfast.2
      cases r with
      | err e =>
        have he : e = .ewouldblock := of_decide_eq_true hr
        subst he
        exact ⟨happend.1, hedges (by simp)⟩
      | ok n =>
        have hn : n ≤ data.length := of_decide_eq_true hr
        have htaken := h.accept hempty (data.take n)
        dsimp only
        by_cases hall : data.length - n = 0
        · have hwhole : n = data.length := by omega
          subst hwhole
          rw [if_pos hall, List.take_length, List.drop_length, notifyWriteComplete_flow (h.accept hempty data)]
          refine ⟨(h.accept hempty data).of_same (sameFlow_queueInLoop _ _), [.writeComplete], ?_⟩
          refine actionEdges_whole hempty ?_
          exact ⟨fun hs => hclosing (Or.inl hs), fun hs => hclosing (Or.inr hs), hfast⟩
        · rw [if_neg hall]
          obtain ⟨hconn, hlevel, hqueue⟩ := appendRemaining_flow htaken (data.drop n)
          rw [List.append_assoc, List.take_append_drop] at hconn
          refine ⟨hconn, _, actionEdges_append ?_ ?_ ?_⟩
          · rw [hlevel]
            exact Nat.le_add_right _ _
          · rw [hlevel]
            exact hqueue
          · intro hok
            rw [SysResult.ok.injEq] at hok
            omega
    · rw [if_neg hfast]
      refine ⟨happend.1, hedges fun _ hwrites => hfast hwrites.2.2⟩

/-- A `write` of `handleWrite` that took bytes. -/
theorem drainOutput_flow {mark : Nat} {w : ConnContext κ} {accepted : Bytes} (h : FlowConn mark w accepted)
    (hpos : 0 < level w) (n : Nat) :
    FlowConn mark (drainOutput w n) accepted ∧
      ∃ fs, ActionEdges mark w (.handleWrite (.ok (n + 1))) (drainOutput w n) fs := by
  have hset : FlowConn mark ((w.accept (w.conn.outputBuffer.readable.take (n + 1))).setOutput
      (w.conn.outputBuffer.retrieve (n + 1))) accepted := by
    refine ⟨retrieve_inv _ h.buffer _, ?_, h.noFile, h.mark_eq, h.highCallback, h.completeCallback⟩
    change w.sent ++ w.conn.outputBuffer.readable.take (n + 1) ++
      (w.conn.outputBuffer.retrieve (n + 1)).readable = accepted
    rw [readable_retrieve _ h.buffer, List.append_assoc, List.take_append_drop, h.stream]
  have hhigh : ∀ w' : ConnContext κ, ¬((∃ data r, LoopAction.handleWrite (.ok (n + 1)) = .sendInLoop data r) ∧
      level w < mark ∧ mark ≤ level w') := by
    rintro w' ⟨⟨data, r, hact⟩, -⟩
    cases hact
  unfold drainOutput
  dsimp only
  split
  · rename_i hempty
    have hdis : FlowConn mark ((w.accept (w.conn.outputBuffer.readable.take (n + 1))).setOutput
        (w.conn.outputBuffer.retrieve (n + 1))).disableWriting accepted :=
      hset.of_same (sameFlow_setChannel _ _)
    rw [notifyWriteComplete_flow hdis]
    refine ⟨hdis.of_same (sameFlow_queueInLoop _ _), [.writeComplete], rfl, by simp [Notifications], by simp,
      iff_of_false (by simp) (hhigh _), ?_⟩
    exact iff_of_true List.mem_cons_self ⟨hempty, Or.inl hpos⟩
  · rename_i hmore
    refine ⟨hset, [], by rw [List.append_nil]; rfl, by simp [Notifications], by simp,
      iff_of_false (by simp) (hhigh _), iff_of_false (by simp) fun hc => hmore hc.1⟩

/-! ### Steps of the threads -/

/-- No transfer is under way or on its way. -/
structure FlowInv (mark : Nat) (f : FlowState κ) : Prop where
  conn : FlowConn mark f.threads.w f.accepted
  todo : ∀ r, .sendFileInLoop r ∉ f.threads.todo
  tasks : .sendFileInLoop ∉ f.threads.batch ++ f.threads.w.pendingFunctors
  tested : ∀ t file, f.threads.caller t ≠ .sendFileTested file
  stored : ∀ t, f.threads.caller t ≠ .sendFileStored

/-- The action leaves the output alone and leads to no transfer. -/
structure SilentAction (w : ConnContext κ) (act : LoopAction) : Prop where
  same : SameFlow w (act.exec w).1
  queue : (act.exec w).1.pendingFunctors = w.pendingFunctors
  acts : ∀ r, .sendFileInLoop r ∉ (act.exec w).2

lemma silent_of_acts {w : ConnContext κ} {act : LoopAction} {acts : List LoopAction} (hexec : act.exec w = (w, acts))
    (hacts : ∀ r, .sendFileInLoop r ∉ acts) : SilentAction w act := by
  refine ⟨?_, ?_, ?_⟩ <;> rw [hexec]
  · exact SameFlow.refl w
  · exact hacts

lemma silent_of_idle {w : ConnContext κ} {act : LoopAction} (hexec : act.exec w = (w, [])) : SilentAction w act :=
  silent_of_acts hexec (by simp)

lemma not_mem_appCalls (app : List AppCall) (r : SysResult) :
    LoopAction.sendFileInLoop r ∉ app.map LoopAction.appCall := by
  simp

lemma connectionCallback_silent (w : ConnContext κ) (app : List AppCall) :
    SilentAction w (.connectionCallback app) := by
  by_cases hset : w.conn.callbacks.connection = true
  · refine ⟨?_, ?_, ?_⟩ <;> simp only [LoopAction.exec, if_pos hset]
    · exact sameFlow_call w _
    · rfl
    · exact not_mem_appCalls app
  · exact silent_of_idle (by simp only [LoopAction.exec, if_neg hset])

lemma closeCallback_silent (w : ConnContext κ) : SilentAction w .closeCallback := by
  by_cases hset : w.conn.callbacks.close = true
  · refine ⟨?_, ?_, ?_⟩ <;> simp only [LoopAction.exec, ConnContext.closeCallback, if_pos hset]
    · exact sameFlow_call w _
    · rfl
    · simp
  · exact silent_of_idle (by simp only [LoopAction.exec, ConnContext.closeCallback, if_neg hset])

lemma shutDownInLoop_silent (w : ConnContext κ) : SilentAction w .shutDownInLoop := by
  by_cases hw : w.conn.channel.isWriting = true
  · exact silent_of_idle (by simp only [LoopAction.exec, ConnContext.shutDownInLoop, if_pos hw])
  · have hexec : LoopAction.shutDownInLoop.exec w = ({ w with shutWr := true }, []) := by
      simp only [LoopAction.exec, ConnContext.shutDownInLoop, if_neg hw]
    refine ⟨?_, ?_, ?_⟩ <;> rw [hexec]
    · exact ⟨rfl, rfl, rfl, rfl, rfl⟩
    · simp

lemma appCall_silent (w : ConnContext κ) (c : AppCall) (hfile : ∀ fd offset count r, c ≠ .sendFile fd offset count r) :
    SilentAction w (.appCall c) := by
  cases c with
  | send data r =>
    refine silent_of_acts rfl fun r' => ?_
    split <;> simp
  | sendFile fd offset count r => exact absurd rfl (hfile fd offset count r)
  | shutdown =>
    refine silent_of_acts rfl fun r' => ?_
    split <;> simp
  | retrieve len => exact ⟨⟨rfl, rfl, rfl, rfl, rfl⟩, rfl, by simp [LoopAction.exec]⟩

lemma handleRead_silent (w : ConnContext κ) (r : ReadvResult) (onMessage onDown : List AppCall) :
    SilentAction w (.handleRead r onMessage onDown) := by
  cases r with
  | err e => exact ⟨⟨rfl, rfl, rfl, rfl, rfl⟩, rfl, by simp [LoopAction.exec]⟩
  | ok data =>
    cases data with
    | nil => exact ⟨⟨rfl, rfl, rfl, rfl, rfl⟩, rfl, by simp [LoopAction.exec]⟩
    | cons b bs =>
      by_cases hset : w.conn.callbacks.message = true
      · refine ⟨?_, ?_, ?_⟩ <;> simp only [LoopAction.exec, if_pos hset]
        · exact ⟨rfl, rfl, rfl, rfl, rfl⟩
        · rfl
        · exact not_mem_appCalls onMessage
      · refine ⟨?_, ?_, ?_⟩ <;> simp only [LoopAction.exec, if_neg hset]
        · exact ⟨rfl, rfl, rfl, rfl, rfl⟩
        · rfl
        · simp

/-- A write event that takes nothing out of the buffer. -/
lemma handleWrite_silent {w : ConnContext κ} (hfile : w.conn.sendingFile = false) {r : SysResult}
    (hidle : ¬(w.conn.channel.isWriting = true ∧ w.conn.outputBuffer.readableBytes ≠ 0) ∨ delivered r = 0) :
    SilentAction w (.handleWrite r) := by
  by_cases hpend : w.conn.channel.isWriting = true ∧ w.conn.outputBuffer.readableBytes ≠ 0
  · have hnone : delivered r = 0 := hidle.resolve_left fun hn => hn hpend
    cases r with
    | ok n =>
      change n = 0 at hnone
      subst hnone
      exact silent_of_idle (by simp only [LoopAction.exec, if_pos hpend])
    | err e => exact silent_of_idle (by simp only [LoopAction.exec, if_pos hpend])
  · apply silent_of_idle
    simp [LoopAction.exec, if_neg hpend, hfile]

/-- One action of the loop thread. -/
theorem exec_flow {mark : Nat} {s : ThreadState κ} {accepted : Bytes} (h : FlowConn mark s.w accepted)
    {act : LoopAction} {rest : List LoopAction} (htodo : s.todo = act :: rest)
    (hallowed : flowAllowed s .advance = true) (hfile : ∀ r, act ≠ .sendFileInLoop r) :
    FlowConn mark (act.exec s.w).1 (accepted ++ accepts s .advance) ∧
      (∀ r, .sendFileInLoop r ∉ (act.exec s.w).2) ∧ ∃ fs, ActionEdges mark s.w act (act.exec s.w).1 fs := by
  simp only [flowAllowed, accepts, htodo, List.head?_cons] at hallowed ⊢
  have hsilent : (∀ data r, act ≠ .sendInLoop data r) → SilentAction s.w act →
      FlowConn mark (act.exec s.w).1 (accepted ++ []) ∧
        (∀ r, .sendFileInLoop r ∉ (act.exec s.w).2) ∧ ∃ fs, ActionEdges mark s.w act (act.exec s.w).1 fs := by
    intro hsend hs
    rw [List.append_nil]
    exact ⟨h.of_same hs.same, hs.acts, [],
      actionEdges_silent hs.same.level_eq hs.queue fun _ hact => absurd hact (hsend _ _)⟩
  cases act with
  | sendInLoop data r =>
    obtain ⟨hconn, hedges⟩ := sendInLoop_flow h data r hallowed
    exact ⟨hconn, by simp [LoopAction.exec], hedges⟩
  | sendFileInLoop r => exact absurd rfl (hfile r)
  | handleWrite r =>
    by_cases hpend : s.w.conn.channel.isWriting = true ∧ s.w.conn.outputBuffer.readableBytes ≠ 0
    · cases r with
      | err e => exact hsilent (by simp) (handleWrite_silent h.noFile (Or.inr rfl))
      | ok n =>
        cases n with
        | zero => exact hsilent (by simp) (handleWrite_silent h.noFile (Or.inr rfl))
        | succ n =>
          simp only [LoopAction.exec, if_pos hpend, List.append_nil]
          obtain ⟨hconn, hedges⟩ := drainOutput_flow h (Nat.pos_of_ne_zero hpend.2) n
          exact ⟨hconn, by simp, hedges⟩
    · exact hsilent (by simp) (handleWrite_silent h.noFile (Or.inl hpend))
  | connectionCallback app => exact hsilent (by simp) (connectionCallback_silent s.w app)
  | closeCallback => exact hsilent (by simp) (closeCallback_silent s.w)
  | shutDownInLoop => exact hsilent (by simp) (shutDownInLoop_silent s.w)
  | appCall c =>
    refine hsilent (by simp) (appCall_silent s.w c fun fd offset count r hc => ?_)
    rw [hc] at hallowed
    cases hallowed
  | handleRead r onMessage onDown => exact hsilent (by simp) (handleRead_silent s.w r onMessage onDown)
  | testClosing =>
    refine hsilent (by simp) (silent_of_acts rfl fun r => ?_)
    split <;> simp
  | connectionDestroyed app =>
    refine hsilent (by simp) (silent_of_acts rfl fun r => ?_)
    split <;> simp
  | _ => exact hsilent (by simp) ⟨⟨rfl, rfl, rfl, rfl, rfl⟩, rfl, by simp [LoopAction.exec]⟩

lemma queues_iff {s s' : ThreadState κ} {fs : List Functor}
    (hqueue : s'.w.pendingFunctors = s.w.pendingFunctors ++ fs) (f : Functor) : Queues f s s' ↔ f ∈ fs := by
  constructor
  · rintro ⟨gs, hgs, hf⟩
    rw [hqueue] at hgs
    rw [List.append_cancel_left hgs]
    exact hf
  · intro hf
    exact ⟨fs, hqueue, hf⟩

/-- An action of the loop thread queues the edges of its function. -/
lemma ActionEdges.exactEdges {mark : Nat} {s s' : ThreadState κ} {act : LoopAction} {rest : List LoopAction}
    {fs : List Functor} (h : ActionEdges mark s.w act s'.w fs) (htodo : s.todo = act :: rest) :
    ExactEdges mark s .advance s' := by
  have hhead : s.todo.head? = some act := by rw [htodo, List.head?_cons]
  refine ⟨?_, ?_, ?_⟩
  · rw [queues_iff h.queue, h.high, ExecutesSend, hhead]
    simp
  · rw [queues_iff h.queue, h.complete, WritesWhole, hhead]
    simp only [Option.some.injEq, true_and]
    refine and_congr_right fun _ => or_congr_right ⟨?_, ?_⟩
    · rintro ⟨data, hact, hwrites⟩
      exact ⟨data, hact, hact ▸ hwrites⟩
    · rintro ⟨data, hact, hwrites⟩
      exact ⟨data, hact, hact.symm ▸ hwrites⟩
  · intro f _
    have hcount := List.count_le_length (a := f) (l := fs)
    have hone := h.one
    rw [h.queue, List.count_append]
    omega

/-- Every other step leaves the level alone and queues no notification. -/
lemma exactEdges_other {mark : Nat} {s s' : ThreadState κ} {a : ThreadStep} (ha : a ≠ .advance)
    (hlevel : level s'.w = level s.w)
    (hqueue : ∀ f, f = .highWaterMark ∨ f = .writeComplete →
      ¬Queues f s s' ∧ s'.w.pendingFunctors.count f ≤ s.w.pendingFunctors.count f) : ExactEdges mark s a s' := by
  refine ⟨?_, ?_, ?_⟩
  · exact iff_of_false (hqueue _ (Or.inl rfl)).1 fun h => ha h.1.1
  · refine iff_of_false (hqueue _ (Or.inr rfl)).1 ?_
    rintro ⟨hzero, hpos | hwhole⟩
    · omega
    · exact ha hwhole.1
  · intro f hf
    have hcount := (hqueue f hf).2
    omega

lemma exactEdges_enqueue {mark : Nat} {s s' : ThreadState κ} {a : ThreadStep} (ha : a ≠ .advance)
    (hlevel : level s'.w = level s.w) {fs : List Functor}
    (hqueue : s'.w.pendingFunctors = s.w.pendingFunctors ++ fs)
    (hfs : .highWaterMark ∉ fs ∧ .writeComplete ∉ fs) : ExactEdges mark s a s' := by
  refine exactEdges_other ha hlevel fun f hf => ?_
  have hnot : f ∉ fs := by
    rcases hf with rfl | rfl
    · exact hfs.1
    · exact hfs.2
  refine ⟨fun hq => hnot ((queues_iff hqueue f).mp hq), ?_⟩
  rw [hqueue, List.count_append, List.count_eq_zero_of_not_mem hnot]
  omega

/-- All that a step without `sendFile` can do. -/
lemma flow_trans {f f' : FlowState κ} {a : ThreadStep} (hnext : flowMachine.next f a = some f') :
    flowAllowed f.threads a = true ∧ ThreadTrans f.threads a f'.threads ∧
      f'.accepted = f.accepted ++ accepts f.threads a := by
  simp only [flowMachine, Option.ite_none_right_eq_some, Option.map_eq_some_iff] at hnext
  obtain ⟨hallowed, s', hs', rfl⟩ := hnext
  exact ⟨hallowed, thread_trans hs', rfl⟩

theorem flow_edges {mark : Nat} {f f' : FlowState κ} {a : ThreadStep} (h : FlowInv mark f)
    (hnext : flowMachine.next f a = some f') : ExactEdges mark f.threads a f'.threads := by
  obtain ⟨s, acc⟩ := f
  obtain ⟨s', acc'⟩ := f'
  obtain ⟨hallowed, htrans, -⟩ := flow_trans hnext
  dsimp only at hallowed htrans ⊢
  cases htrans with
  | @advance act rest htodo =>
    have hfile : ∀ r, act ≠ .sendFileInLoop r := by
      intro r hr
      exact h.todo r (by simp [htodo, hr])
    obtain ⟨-, -, fs, hedges⟩ := exec_flow h.conn htodo hallowed hfile
    exact hedges.exactEdges htodo
  | sendEnqueue hpc => exact exactEdges_enqueue (by simp) rfl rfl (by simp)
  | sendFileEnqueue hpc => exact absurd hpc (h.stored _)
  | shutdownEnqueue hpc => exact exactEdges_enqueue (by simp) rfl rfl (by simp)
  | swap htodo hbatch =>
    refine exactEdges_other (by simp) rfl fun g _ => ⟨?_, by simp⟩
    rintro ⟨fs, hfs, hg⟩
    have hnil : fs = [] := (List.append_eq_nil_iff.mp hfs.symm).2
    rw [hnil] at hg
    cases hg
  | _ => exact exactEdges_enqueue (by simp) rfl (List.append_nil _).symm (by simp)

/-- The invariant does not depend on a caller that is not inside `sendFile`. -/
lemma FlowInv.setCaller {mark : Nat} {s : ThreadState κ} {accepted : Bytes} (h : FlowInv mark ⟨s, accepted⟩)
    (t : Nat) {pc : CallPoint} (htested : ∀ file, pc ≠ .sendFileTested file) (hstored : pc ≠ .sendFileStored) :
    FlowInv mark ⟨s.setCaller t pc, accepted⟩ := by
  refine ⟨h.conn, h.todo, h.tasks, fun u file => ?_, fun u => ?_⟩
  · by_cases hu : u = t
    · simp only [ThreadState.setCaller, hu, Function.update_self]
      exact htested file
    · simp only [ThreadState.setCaller, Function.update_of_ne hu]
      exact h.tested u file
  · by_cases hu : u = t
    · simp only [ThreadState.setCaller, hu, Function.update_self]
      exact hstored
    · simp only [ThreadState.setCaller, Function.update_of_ne hu]
      exact h.stored u

lemma FlowInv.queueInLoop {mark : Nat} {s : ThreadState κ} {accepted : Bytes} (h : FlowInv mark ⟨s, accepted⟩)
    {f : Functor} (hf : f ≠ .sendFileInLoop) : FlowInv mark ⟨{ s with w := s.w.queueInLoop f }, accepted⟩ := by
  refine ⟨h.conn.of_same (sameFlow_queueInLoop _ _), h.todo, ?_, h.tested, h.stored⟩
  have htasks := h.tasks
  simp only [ConnContext.queueInLoop, ← List.append_assoc]
  rw [List.mem_append, List.mem_singleton]
  rintro (hmem | hmem)
  · exact htasks hmem
  · exact hf hmem.symm

/-- The loop thread starts on functions that transfer no file. -/
lemma FlowInv.start {mark : Nat} {s : ThreadState κ} {accepted : Bytes} (h : FlowInv mark ⟨s, accepted⟩)
    {acts : List LoopAction} (hacts : ∀ r, .sendFileInLoop r ∉ acts) :
    FlowInv mark ⟨{ s with todo := acts }, accepted⟩ :=
  ⟨h.conn, hacts, h.tasks, h.tested, h.stored⟩

lemma not_mem_ofEvent (revent : EventMask) (i : ConnContext.EventInput) (r : SysResult) :
    LoopAction.sendFileInLoop r ∉ LoopAction.ofEvent revent i := by
  unfold LoopAction.ofEvent
  simp only [List.mem_append, not_or]
  refine ⟨⟨⟨?_, ?_⟩, ?_⟩, ?_⟩ <;> split <;> simp

lemma not_mem_ofFunctor {f : Functor} (hf : f ≠ .sendFileInLoop) (app : List AppCall) (r r' : SysResult) :
    LoopAction.sendFileInLoop r' ∉ LoopAction.ofFunctor r app f := by
  cases f with
  | sendFileInLoop => exact absurd rfl hf
  | _ => simp [LoopAction.ofFunctor]

theorem flow_inv {mark : Nat} {f f' : FlowState κ} {a : ThreadStep} (h : FlowInv mark f)
    (hnext : flowMachine.next f a = some f') : FlowInv mark f' := by
  obtain ⟨s, acc⟩ := f
  obtain ⟨s', acc'⟩ := f'
  obtain ⟨hallowed, htrans, hacc⟩ := flow_trans hnext
  dsimp only at hallowed htrans hacc
  have hkeep : a ≠ .advance → acc' = acc := by
    intro ha
    rw [hacc]
    cases a with
    | advance => exact absurd rfl ha
    | _ => exact List.append_nil _
  cases htrans with
  | @advance act rest htodo =>
    have hfile : ∀ r, act ≠ .sendFileInLoop r := by
      intro r hr
      exact h.todo r (by simp [htodo, hr])
    obtain ⟨hconn, hacts, fs, hedges⟩ := exec_flow h.conn htodo hallowed hfile
    refine ⟨hacc ▸ hconn, fun r hmem => ?_, ?_, h.tested, h.stored⟩
    · rcases List.mem_append.mp hmem with hmem | hmem
      · exact hacts r hmem
      · exact h.todo r (by simp [htodo, hmem])
    · have htasks := h.tasks
      simp only [hedges.queue, ← List.append_assoc]
      rw [List.mem_append]
      rintro (hmem | hmem)
      · exact htasks hmem
      · exact hedges.notify.not_mem (by simp) (by simp) hmem
  | sendTest hstate =>
    rw [hkeep (by simp)]
    exact h.setCaller _ (by simp) (by simp)
  | sendEnqueue hpc =>
    rw [hkeep (by simp)]
    exact (h.queueInLoop (by simp)).setCaller _ (by simp) (by simp)
  | sendFileTest hstate => cases hallowed
  | sendFileStore hpc => exact absurd hpc (h.tested _ _)
  | sendFileEnqueue hpc => exact absurd hpc (h.stored _)
  | shutdownTest hstate =>
    rw [hkeep (by simp)]
    exact h.setCaller _ (by simp) (by simp)
  | shutdownStore hpc =>
    rw [hkeep (by simp)]
    have hset : FlowInv mark ⟨{ s with w := s.w.setState .kDisConnecting }, acc⟩ :=
      ⟨h.conn.of_same ⟨rfl, rfl, rfl, rfl, rfl⟩, h.todo, h.tasks, h.tested, h.stored⟩
    exact hset.setCaller _ (by simp) (by simp)
  | shutdownEnqueue hpc =>
    rw [hkeep (by simp)]
    exact (h.queueInLoop (by simp)).setCaller _ (by simp) (by simp)
  | swap htodo hbatch =>
    rw [hkeep (by simp)]
    refine ⟨h.conn.of_same ⟨rfl, rfl, rfl, rfl, rfl⟩, h.todo, ?_, h.tested, h.stored⟩
    have htasks := h.tasks
    simp only [hbatch, List.nil_append] at htasks
    rw [List.append_nil]
    exact htasks
  | @runTask r app g rest htodo hbatch =>
    rw [hkeep (by simp)]
    have htasks := h.tasks
    simp only [hbatch, List.cons_append, List.mem_cons, not_or] at htasks
    exact ⟨h.conn, not_mem_ofFunctor (Ne.symm htasks.1) app r, htasks.2, h.tested, h.stored⟩
  | event htodo =>
    rw [hkeep (by simp)]
    exact h.start (not_mem_ofEvent _ _)
  | userCall htodo =>
    rw [hkeep (by simp)]
    exact h.start (by simp)
  | connectionDestroyed htodo =>
    rw [hkeep (by simp)]
    exact h.start (by simp)

lemma flowStart_inv (key : κ) (fd highWaterMark : Nat) (callbacks : Callbacks) (p : EPollPoller κ)
    (files : Nat → Bytes) (app : List AppCall) (hcomplete : callbacks.writeComplete = true)
    (hhigh : callbacks.highWaterMark = true) :
    FlowInv highWaterMark (flowStart key fd highWaterMark callbacks p files app) := by
  refine ⟨⟨make_inv _, ?_, rfl, rfl, hhigh, hcomplete⟩, ?_, ?_, ?_, ?_⟩
  · exact (readable_eq_nil_iff _ (make_inv kInitialSize)).mpr (Nat.sub_self _)
  · simp [flowStart, threadStart]
  · exact List.not_mem_nil
  · simp [flowStart, threadStart]
  · simp [flowStart, threadStart]

/-- In every run without `sendFile`, a step queues the high-water task exactly if it is a
`sendInLoop` that takes the level over the mark, and the write-complete task exactly if it leaves
the buffer empty after a drain or a direct write of the whole payload; then the kernel has all that
was accepted. Between two high-water tasks the level falls below the mark. -/
theorem flow_notifications_are_edges (key : κ) (fd highWaterMark : Nat) (callbacks : Callbacks)
    (p : EPollPoller κ) (files : Nat → Bytes) (app : List AppCall)
    (hcomplete : callbacks.writeComplete = true) (hhigh : callbacks.highWaterMark = true)
    (steps : List ThreadStep) (f : FlowState κ)
    (hrun : flowMachine.run (flowStart key fd highWaterMark callbacks p files app) steps = some f)
    (a : ThreadStep) (f₁ : FlowState κ) (hnext : flowMachine.next f a = some f₁) :
    ExactEdges highWaterMark f.threads a f₁.threads ∧
      (Queues .writeComplete f.threads f₁.threads → f₁.threads.w.sent = f₁.accepted) ∧
      (Queues .highWaterMark f.threads f₁.threads → ∀ more f₂ b f₃,
        flowMachine.run f₁ more = some f₂ → flowMachine.next f₂ b = some f₃ →
        Queues .highWaterMark f₂.threads f₃.threads →
        highWaterMark ≤ level f₁.threads.w ∧ level f₂.threads.w < highWaterMark) := by
  have hstep : ∀ (g : FlowState κ) c g', FlowInv highWaterMark g → flowMachine.next g c = some g' →
      FlowInv highWaterMark g' :=
    fun _ _ _ hg hn => flow_inv hg hn
  have h : FlowInv highWaterMark f := flowMachine.invariant hstep
    (flowStart_inv key fd highWaterMark callbacks p files app hcomplete hhigh) hrun
  have h₁ := flow_inv h hnext
  have hedges := flow_edges h hnext
  refine ⟨hedges, fun hq => h₁.conn.sent_eq (hedges.complete.mp hq).1, ?_⟩
  intro hq more f₂ b f₃ hmore hnext' hq'
  have h₂ : FlowInv highWaterMark f₂ := flowMachine.invariant hstep h₁ hmore
  exact ⟨(hedges.high.mp hq).2.2, ((flow_edges h₂ hnext').high.mp hq').2.1⟩

/-- A connection on descriptor 5 with a mark of four bytes. -/
def markedConnection : FlowState Unit :=
  flowStart () 5 4 ⟨true, true, true, true, true⟩ EPollPoller.empty (fun _ => []) []

/-- Two bytes are left behind a partial write; two more wait in front of `sendInLoop`. -/
def belowMark : List ThreadStep :=
  [.advance, .userCall (.send [1, 2, 3] (.ok 1)), .advance, .advance, .userCall (.send [4, 5] (.ok 0)), .advance]

/-- A partial drain, then three bytes that wait in front of `sendInLoop`. -/
def belowMarkAgain : List ThreadStep :=
  [.event ⟨false, false, true, false, false⟩ ⟨.ok [1], .ok 3, [], [], [], []⟩, .advance, .advance,
   .userCall (.send [6, 7, 8] (.err .ewouldblock)), .advance]

theorem flow_notifications_are_edges_twice :
    ∃ f f₁ f₂ f₃ : FlowState Unit, flowMachine.run markedConnection belowMark = some f ∧
      flowMachine.next f .advance = some f₁ ∧ flowMachine.run f₁ belowMarkAgain = some f₂ ∧
      flowMachine.next f₂ .advance = some f₃ ∧ Queues .highWaterMark f.threads f₁.threads ∧
      Queues .highWaterMark f₂.threads f₃.threads ∧ 4 ≤ level f₁.threads.w ∧ level f₂.threads.w < 4 := by
  have hend : ((flowMachine.run markedConnection belowMark).bind fun f =>
      (flowMachine.next f .advance).bind fun f₁ => (flowMachine.run f₁ belowMarkAgain).bind fun f₂ =>
        (flowMachine.next f₂ .advance).map fun f₃ =>
          ((f.threads.todo.head?, level f.threads.w, level f₁.threads.w),
            (f₂.threads.todo.head?, level f₂.threads.w, level f₃.threads.w))) =
      some ((some (.sendInLoop [4, 5] (.ok 0)), 2, 4), (some (.sendInLoop [6, 7, 8] (.err .ewouldblock)), 1, 4)) := by
    decide +kernel
  obtain ⟨f, hrun, hend⟩ := Option.bind_eq_some_iff.mp hend
  obtain ⟨f₁, hnext, hend⟩ := Option.bind_eq_some_iff.mp hend
  obtain ⟨f₂, hrun', hend⟩ := Option.bind_eq_some_iff.mp hend
  obtain ⟨f₃, hnext', hend⟩ := Option.map_eq_some_iff.mp hend
  simp only [Prod.mk.injEq] at hend
  obtain ⟨⟨hhead, hlevel, hlevel₁⟩, hhead₂, hlevel₂, hlevel₃⟩ := hend
  have hwhole : flowMachine.run markedConnection (belowMark ++ .advance :: belowMarkAgain) = some f₂ :=
    (flowMachine.run_append_eq_some _ _ _ _).mpr
      ⟨f, hrun, (flowMachine.run_cons_eq_some _ _ _ _).mpr ⟨f₁, hnext, hrun'⟩⟩
  obtain ⟨hedges, -, hbetween⟩ := flow_notifications_are_edges () 5 4 ⟨true, true, true, true, true⟩
    EPollPoller.empty (fun _ => []) [] rfl rfl belowMark f hrun .advance f₁ hnext
  obtain ⟨hedges', -, -⟩ := flow_notifications_are_edges () 5 4 ⟨true, true, true, true, true⟩
    EPollPoller.empty (fun _ => []) [] rfl rfl _ f₂ hwhole .advance f₃ hnext'
  have hq : Queues .highWaterMark f.threads f₁.threads :=
    hedges.high.mpr ⟨⟨rfl, _, _, hhead⟩, by omega, by omega⟩
  have hq' : Queues .highWaterMark f₂.threads f₃.threads :=
    hedges'.high.mpr ⟨⟨rfl, _, _, hhead₂⟩, by omega, by omega⟩
  exact ⟨f, f₁, f₂, f₃, hrun, hnext, hrun', hnext', hq, hq', hbetween hq _ f₂ _ f₃ hrun' hnext' hq'⟩

end MylibMuduo.Proofs
