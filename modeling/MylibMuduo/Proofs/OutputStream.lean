import MylibMuduo.Lib.Machine
import MylibMuduo.Proofs.Buffer
import MylibMuduo.Proofs.Registration

/-!
# Integrity of the output stream

A connection writes directly while nothing is pending and appends to its output buffer
otherwise. The invariant `OutputInv` links the bytes in the kernel, the bytes in the buffer
and the write interest; both `sendInLoop` and `handleWrite` restore it for every partial
write and every transient error.
-/

namespace MylibMuduo.Proofs

variable {κ : Type}

/-- A result of `write` for `len` bytes other than a broken connection. -/
def writeAllowed (len : Nat) : SysResult → Bool
  | .ok n => decide (n ≤ len)
  | .err e => decide (e ≠ .epipe ∧ e ≠ .econnreset)

/-- The kernel's bytes followed by the buffered ones are `payload`, and write interest is
on exactly while something is buffered. -/
structure OutputInv (w : ConnContext κ) (payload : Bytes) : Prop where
  reg : Registered w
  noFile : w.conn.sendingFile = false
  buffer : BufferInv w.conn.outputBuffer
  stream : w.sent ++ w.conn.outputBuffer.readable = payload
  writing : w.conn.channel.isWriting = true ↔ w.conn.outputBuffer.readable ≠ []

/-- The tasks `fs` only notify the application. -/
def Notifications (fs : List Functor) : Prop :=
  ∀ f ∈ fs, f = .writeComplete ∨ f = .highWaterMark

lemma Notifications.not_mem {fs : List Functor} (h : Notifications fs) {f : Functor}
    (hw : f ≠ .writeComplete) (hm : f ≠ .highWaterMark) : f ∉ fs := by
  intro hf
  rcases h f hf with he | he
  · exact hw he
  · exact hm he

/-- A function of the connection queues notifications at most. -/
def Notifies (w w' : ConnContext κ) : Prop :=
  ∃ fs, w'.pendingFunctors = w.pendingFunctors ++ fs ∧ Notifications fs

lemma notifies_of_eq {w w' : ConnContext κ} (h : w'.pendingFunctors = w.pendingFunctors) : Notifies w w' :=
  ⟨[], by rw [h, List.append_nil], by simp [Notifications]⟩

lemma Notifies.trans {w₁ w₂ w₃ : ConnContext κ} (h₁ : Notifies w₁ w₂) (h₂ : Notifies w₂ w₃) :
    Notifies w₁ w₃ := by
  obtain ⟨fs, hfs, hn⟩ := h₁
  obtain ⟨gs, hgs, hm⟩ := h₂
  refine ⟨fs ++ gs, by rw [hgs, hfs, List.append_assoc], ?_⟩
  intro f hf
  rcases List.mem_append.mp hf with hf | hf
  · exact hn f hf
  · exact hm f hf

/-- A step leaves the state, the half-close and the callbacks alone, and queues
notifications at most. -/
structure Quiet (w w' : ConnContext κ) : Prop where
  state : w'.conn.state = w.conn.state
  shutWr : w'.shutWr = w.shutWr
  calls : w'.calls = w.calls
  queued : ∃ fs, w'.pendingFunctors = w.pendingFunctors ++ fs ∧ Notifications fs

lemma quiet_of_eq {w w' : ConnContext κ} (hstate : w'.conn.state = w.conn.state)
    (hshut : w'.shutWr = w.shutWr) (hcalls : w'.calls = w.calls)
    (hq : w'.pendingFunctors = w.pendingFunctors) : Quiet w w' :=
  ⟨hstate, hshut, hcalls, notifies_of_eq hq⟩

lemma quiet_refl (w : ConnContext κ) : Quiet w w := quiet_of_eq rfl rfl rfl rfl

lemma Quiet.trans {w₁ w₂ w₃ : ConnContext κ} (h₁ : Quiet w₁ w₂) (h₂ : Quiet w₂ w₃) :
    Quiet w₁ w₃ :=
  ⟨h₂.state.trans h₁.state, h₂.shutWr.trans h₁.shutWr, h₂.calls.trans h₁.calls,
    Notifies.trans h₁.queued h₂.queued⟩

lemma quiet_queueInLoop (w : ConnContext κ) (f : Functor) (hf : f = .writeComplete ∨ f = .highWaterMark) :
    Quiet w (w.queueInLoop f) :=
  ⟨rfl, rfl, rfl, [f], rfl, by simpa [Notifications] using hf⟩

lemma quiet_notifyWriteComplete (w : ConnContext κ) : Quiet w w.notifyWriteComplete := by
  unfold ConnContext.notifyWriteComplete
  split
  · exact quiet_queueInLoop w _ (Or.inl rfl)
  · exact quiet_refl w

/-- Notifications leave the output side of the connection as it is. -/
lemma OutputInv.notifyWriteComplete {w : ConnContext κ} {payload : Bytes} (h : OutputInv w payload) :
    OutputInv w.notifyWriteComplete payload := by
  unfold ConnContext.notifyWriteComplete
  split
  · exact ⟨⟨h.reg.book, h.reg.added, h.reg.reading⟩, h.noFile, h.buffer, h.stream, h.writing⟩
  · exact h

lemma append_readable_ne_nil (b : Buffer) (h : BufferInv b) (rest : Bytes) (hrest : rest ≠ []) :
    (b.append rest).readable ≠ [] := by
  rw [readable_append b h]
  simp [hrest]

/-- Appending to the buffer and asking for write events if there was no interest. -/
lemma OutputInv.append_enable {w : ConnContext κ} {payload : Bytes} (h : OutputInv w payload)
    (rest : Bytes) (hrest : rest ≠ []) :
    let w' := w.setOutput (w.conn.outputBuffer.append rest)
    OutputInv (if w'.conn.channel.isWriting then w' else w'.enableWriting) (payload ++ rest) := by
  dsimp only
  have hreg : Registered (w.setOutput (w.conn.outputBuffer.append rest)) :=
    ⟨h.reg.book, h.reg.added, h.reg.reading⟩
  have hbuf := append_inv w.conn.outputBuffer h.buffer rest
  have hread := readable_append w.conn.outputBuffer h.buffer rest
  have hne := append_readable_ne_nil w.conn.outputBuffer h.buffer rest hrest
  have hstream : w.sent ++ (w.conn.outputBuffer.append rest).readable = payload ++ rest := by
    rw [hread, ← List.append_assoc, h.stream]
  split
  · rename_i hw
    exact ⟨hreg, h.noFile, hbuf, hstream, ⟨fun _ => hne, fun _ => hw⟩⟩
  · rw [enableWriting_registered hreg]
    refine ⟨setInterest_registered hreg _ hreg.reading, h.noFile, hbuf, hstream, ?_⟩
    exact ⟨fun _ => hne, fun _ => rfl⟩

lemma quiet_enableWriting (w : ConnContext κ) : Quiet w w.enableWriting := quiet_of_eq rfl rfl rfl rfl

lemma quiet_disableWriting (w : ConnContext κ) : Quiet w w.disableWriting :=
  quiet_of_eq rfl rfl rfl rfl

theorem appendRemaining_output {w : ConnContext κ} {payload : Bytes} (h : OutputInv w payload)
    (rest : Bytes) : OutputInv (w.appendRemaining rest) (payload ++ rest) := by
  unfold ConnContext.appendRemaining
  by_cases hrest : rest.length = 0
  · rw [if_pos hrest, List.length_eq_zero_iff.mp hrest, List.append_nil]
    exact h
  · rw [if_neg hrest]
    have hne : rest ≠ [] := by
      rintro rfl
      exact hrest rfl
    dsimp only
    split
    · have hq : OutputInv (w.queueInLoop .highWaterMark) payload :=
        ⟨⟨h.reg.book, h.reg.added, h.reg.reading⟩, h.noFile, h.buffer, h.stream, h.writing⟩
      exact hq.append_enable rest hne
    · exact h.append_enable rest hne

lemma quiet_appendRemaining (w : ConnContext κ) (rest : Bytes) : Quiet w (w.appendRemaining rest) := by
  unfold ConnContext.appendRemaining
  split
  · exact quiet_refl w
  · dsimp only
    have hmark : ∀ w₁ : ConnContext κ, Quiet w w₁ → Quiet w
        (if (w₁.setOutput (w₁.conn.outputBuffer.append rest)).conn.channel.isWriting then
          w₁.setOutput (w₁.conn.outputBuffer.append rest)
        else (w₁.setOutput (w₁.conn.outputBuffer.append rest)).enableWriting) := by
      intro w₁ h₁
      have hset : Quiet w₁ (w₁.setOutput (w₁.conn.outputBuffer.append rest)) :=
        quiet_of_eq rfl rfl rfl rfl
      split
      · exact h₁.trans hset
      · exact (h₁.trans hset).trans (quiet_enableWriting _)
    split
    · exact hmark _ (quiet_queueInLoop w _ (Or.inr rfl))
    · exact hmark w (quiet_refl w)

/-- The `write` of `sendInLoop` took `n` bytes and the others are appended. -/
lemma directWrite_output {w : ConnContext κ} {payload : Bytes} (h : OutputInv w payload)
    (hbytes : w.conn.outputBuffer.readableBytes = 0) (data : Bytes) (n : Nat) :
    let w₁ := w.accept (data.take n)
    let w₂ := if data.length - n = 0 then w₁.notifyWriteComplete else w₁
    OutputInv (w₂.appendRemaining (data.drop n)) (payload ++ data) := by
  have hempty : w.conn.outputBuffer.readable = [] := (readable_eq_nil_iff _ h.buffer).mpr hbytes
  have hstream : w.sent = payload := by
    rw [← h.stream, hempty, List.append_nil]
  have hacc : OutputInv (w.accept (data.take n)) (payload ++ data.take n) := by
    refine ⟨⟨h.reg.book, h.reg.added, h.reg.reading⟩, h.noFile, h.buffer, ?_, h.writing⟩
    simp [ConnContext.accept, hempty, hstream]
  have hsplit : payload ++ data = payload ++ data.take n ++ data.drop n := by
    rw [List.append_assoc, List.take_append_drop]
  rw [hsplit]
  dsimp only
  apply appendRemaining_output
  split
  · exact hacc.notifyWriteComplete
  · exact hacc

/-- Outside the closing states `sendInLoop` hands its whole payload to the kernel and the
buffer, in this order, whatever part the `write` takes. -/
theorem sendInLoop_output {w : ConnContext κ} {payload : Bytes} (h : OutputInv w payload)
    (hstate : w.conn.state ≠ .kDisConnected ∧ w.conn.state ≠ .kDisConnecting)
    (data : Bytes) (r : SysResult) (hr : writeAllowed data.length r = true) :
    OutputInv (w.sendInLoop data r) (payload ++ data) := by
  unfold ConnContext.sendInLoop
  rw [if_neg (by simp [hstate.1, hstate.2])]
  by_cases hfast : ¬w.conn.channel.isWriting = true ∧ w.conn.outputBuffer.readableBytes = 0
  · rw [if_pos hfast]
    cases r with
    | ok n => exact directWrite_output h hfast.2 data n
    | err e =>
      simp only [writeAllowed, ne_eq, decide_eq_true_eq] at hr
      simp only [hr.1, hr.2, or_self, if_false]
      exact appendRemaining_output h data
  · rw [if_neg hfast]
    exact appendRemaining_output h data

lemma quiet_sendInLoop (w : ConnContext κ) (data : Bytes) (r : SysResult) :
    Quiet w (w.sendInLoop data r) := by
  unfold ConnContext.sendInLoop
  split
  · exact quiet_refl w
  split
  · cases r with
    | ok n =>
      dsimp only
      have hacc : Quiet w (w.accept (data.take n)) := quiet_of_eq rfl rfl rfl rfl
      split
      · exact (hacc.trans (quiet_notifyWriteComplete _)).trans (quiet_appendRemaining _ _)
      · exact hacc.trans (quiet_appendRemaining _ _)
    | err e =>
      dsimp only
      split
      · exact quiet_refl w
      · exact quiet_appendRemaining w data
  · exact quiet_appendRemaining w data

lemma quiet_awaitFileWrite (w : ConnContext κ) (remaining : Nat) : Quiet w (w.awaitFileWrite remaining) := by
  unfold ConnContext.awaitFileWrite
  split
  · exact quiet_refl w
  · dsimp only
    split <;> exact quiet_of_eq rfl rfl rfl rfl

lemma quiet_sendFileInLoop (w : ConnContext κ) (r : SysResult) : Quiet w (w.sendFileInLoop r) := by
  unfold ConnContext.sendFileInLoop
  split
  · exact quiet_of_eq rfl rfl rfl rfl
  split
  · cases r with
    | ok n =>
      have hadvance : ∀ bytes file, Quiet w ((w.accept bytes).setFile file) :=
        fun _ _ => quiet_of_eq rfl rfl rfl rfl
      have hfinish : ∀ w₁ : ConnContext κ, Quiet w₁ (w₁.notifyWriteComplete.setSendingFile false).disableWriting :=
        fun w₁ => (quiet_notifyWriteComplete w₁).trans (quiet_of_eq rfl rfl rfl rfl)
      dsimp only
      split
      · exact (hadvance _ _).trans (hfinish _)
      · exact (hadvance _ _).trans (quiet_awaitFileWrite _ _)
    | err e =>
      dsimp only
      split
      · exact quiet_of_eq rfl rfl rfl rfl
      · exact quiet_awaitFileWrite w _
  · exact quiet_awaitFileWrite w _

/-- The drain of `handleWrite` before its test for the half-close. -/
def drainOutput (w : ConnContext κ) (n : Nat) : ConnContext κ :=
  let w₁ := (w.accept (w.conn.outputBuffer.readable.take (n + 1))).setOutput
    (w.conn.outputBuffer.retrieve (n + 1))
  if w₁.conn.outputBuffer.readableBytes = 0 then w₁.disableWriting.notifyWriteComplete else w₁

lemma quiet_drainOutput (w : ConnContext κ) (n : Nat) : Quiet w (drainOutput w n) := by
  unfold drainOutput
  have hset : Quiet w ((w.accept (w.conn.outputBuffer.readable.take (n + 1))).setOutput
      (w.conn.outputBuffer.retrieve (n + 1))) := quiet_of_eq rfl rfl rfl rfl
  dsimp only
  split
  · exact (hset.trans (quiet_disableWriting _)).trans (quiet_notifyWriteComplete _)
  · exact hset

theorem drainOutput_output {w : ConnContext κ} {payload : Bytes} (h : OutputInv w payload)
    (hw : w.conn.channel.isWriting = true) (n : Nat) : OutputInv (drainOutput w n) payload := by
  have hbuf := retrieve_inv w.conn.outputBuffer h.buffer (n + 1)
  have hread := readable_retrieve w.conn.outputBuffer h.buffer (n + 1)
  have hstream : (w.sent ++ w.conn.outputBuffer.readable.take (n + 1)) ++
      (w.conn.outputBuffer.retrieve (n + 1)).readable = payload := by
    rw [hread, List.append_assoc, List.take_append_drop, h.stream]
  have hreg : Registered ((w.accept (w.conn.outputBuffer.readable.take (n + 1))).setOutput
      (w.conn.outputBuffer.retrieve (n + 1))) := ⟨h.reg.book, h.reg.added, h.reg.reading⟩
  unfold drainOutput
  dsimp only
  split
  · rename_i hzero
    have hnil := (readable_eq_nil_iff _ hbuf).mpr hzero
    apply OutputInv.notifyWriteComplete
    rw [disableWriting_registered hreg]
    refine ⟨setInterest_registered hreg _ hreg.reading, h.noFile, hbuf, hstream, ?_⟩
    constructor
    · intro hout
      simp [setInterest, Channel.isWriting] at hout
    · intro hne
      exact absurd hnil hne
  · rename_i hzero
    have hne : (w.conn.outputBuffer.retrieve (n + 1)).readable ≠ [] :=
      fun hnil => hzero ((readable_eq_nil_iff _ hbuf).mp hnil)
    exact ⟨hreg, h.noFile, hbuf, hstream, ⟨fun _ => hne, fun _ => hw⟩⟩

/-- What `handleWrite` does: it drains the buffer, goes on with the file, or finds nothing to do. -/
theorem handleWrite_inv (w : ConnContext κ) (r : SysResult) :
    w.handleWrite r = w ∨
      (∃ n, r = .ok (n + 1) ∧ w.conn.channel.isWriting = true ∧
        w.handleWrite r = if (drainOutput w n).conn.state = .kDisConnecting then
          (drainOutput w n).shutDownInLoop else drainOutput w n) ∨
      (w.conn.sendingFile = true ∧ w.handleWrite r = w.sendFileInLoop r) := by
  unfold ConnContext.handleWrite
  split
  · rename_i hpend
    cases r with
    | ok n =>
      cases n with
      | zero => exact Or.inl rfl
      | succ n => exact Or.inr (Or.inl ⟨n, rfl, hpend.1, rfl⟩)
    | err e => exact Or.inl rfl
  · split
    · rename_i hfile
      exact Or.inr (Or.inr ⟨hfile.2, rfl⟩)
    · exact Or.inl rfl

/-- What `handleWrite` does while no file is being sent. -/
theorem handleWrite_cases {w : ConnContext κ} {payload : Bytes} (h : OutputInv w payload)
    (r : SysResult) :
    w.handleWrite r = w ∨
      ∃ n, r = .ok (n + 1) ∧ w.conn.channel.isWriting = true ∧
        w.handleWrite r = if (drainOutput w n).conn.state = .kDisConnecting then
          (drainOutput w n).shutDownInLoop else drainOutput w n := by
  rcases handleWrite_inv w r with heq | hdrain | ⟨hfile, -⟩
  · exact Or.inl heq
  · exact Or.inr hdrain
  · rw [h.noFile] at hfile
    cases hfile

lemma OutputInv.shutDownInLoop {w : ConnContext κ} {payload : Bytes} (h : OutputInv w payload) :
    OutputInv w.shutDownInLoop payload := by
  unfold ConnContext.shutDownInLoop
  split
  · exact h
  · exact ⟨⟨h.reg.book, h.reg.added, h.reg.reading⟩, h.noFile, h.buffer, h.stream, h.writing⟩

theorem handleWrite_output {w : ConnContext κ} {payload : Bytes} (h : OutputInv w payload)
    (r : SysResult) : OutputInv (w.handleWrite r) payload := by
  rcases handleWrite_cases h r with heq | ⟨n, _, hw, heq⟩
  · rw [heq]
    exact h
  · rw [heq]
    split
    · exact (drainOutput_output h hw n).shutDownInLoop
    · exact drainOutput_output h hw n

/-- One step of the connection's loop thread on its output. -/
inductive OutputStep where
  | sendInLoop (data : Bytes) (r : SysResult)
  | handleWrite (r : SysResult)
  deriving DecidableEq, Repr

/-- The runs made of `sendInLoop` executions in state `kConnected` and write events. -/
def outputMachine : Machine (ConnContext κ) OutputStep where
  next w
    | .sendInLoop data r =>
      if w.conn.state = .kConnected ∧ writeAllowed data.length r then some (w.sendInLoop data r)
      else none
    | .handleWrite r =>
      if writeAllowed w.conn.outputBuffer.readableBytes r then some (w.handleWrite r) else none

/-- The payload that one step submits. -/
def OutputStep.payload : OutputStep → Bytes
  | .sendInLoop data _ => data
  | .handleWrite _ => []

/-- The payloads in the order their `sendInLoop` executed. -/
def payloads (steps : List OutputStep) : Bytes := steps.flatMap OutputStep.payload

/-- A connection right after `connectionEstablished`. -/
def openConnection (key : κ) (fd highWaterMark : Nat) (callbacks : Callbacks)
    (p : EPollPoller κ) (files : Nat → Bytes) : ConnContext κ :=
  (ConnContext.make key (TcpConnection.make fd highWaterMark callbacks) p files).connectionEstablished []

/-- The channel part of `connectionEstablished` on a fresh descriptor. -/
lemma enableReading_fresh (p : EPollPoller κ) (key : κ) (fd : Nat) (hc : p.channels fd = none)
    (hi : p.interest fd = none) :
    let r := Channel.enableReading p key { Channel.make fd with tied := true }
    Bookkept r.1 key r.2 ∧ r.2.index = .kAdd ∧ r.2.events = ⟨true, true, false, false, false⟩ := by
  have hspec := updateChannel_spec p key { Channel.make fd with tied := true }
    ⟨true, true, false, false, false⟩ ((bookkept_make p key fd hc hi).tie true)
  obtain ⟨hr, hbook, _⟩ := hspec
  refine ⟨hbook, ?_, ?_⟩
  · exact (congrArg Channel.index hr).trans (by simp [updatedIndex, kNoneEvent])
  · exact congrArg Channel.events hr

lemma OutputInv.connectionCallback_nil {w : ConnContext κ} {payload : Bytes}
    (h : OutputInv w payload) : OutputInv (w.connectionCallback []) payload := by
  unfold ConnContext.connectionCallback
  split
  · exact ⟨⟨h.reg.book, h.reg.added, h.reg.reading⟩, h.noFile, h.buffer, h.stream, h.writing⟩
  · exact h

lemma establish_output (key : κ) (fd highWaterMark : Nat) (callbacks : Callbacks)
    (p : EPollPoller κ) (files : Nat → Bytes) (hc : p.channels fd = none)
    (hi : p.interest fd = none) :
    OutputInv (ConnContext.make key (TcpConnection.make fd highWaterMark callbacks) p files).establish [] := by
  obtain ⟨hbook, hadd, hev⟩ := enableReading_fresh p key fd hc hi
  have hnil : (Buffer.make kInitialSize).readable = [] := readable_make kInitialSize
  refine ⟨⟨hbook, hadd, congrArg EventMask.epollin hev⟩, rfl, make_inv kInitialSize, hnil, ?_⟩
  constructor
  · intro hw
    exact absurd ((congrArg EventMask.epollout hev).symm.trans hw) (by simp)
  · intro hne
    exact absurd hnil hne

lemma openConnection_output (key : κ) (fd highWaterMark : Nat) (callbacks : Callbacks)
    (p : EPollPoller κ) (files : Nat → Bytes) (hc : p.channels fd = none)
    (hi : p.interest fd = none) :
    OutputInv (openConnection key fd highWaterMark callbacks p files) [] := by
  apply OutputInv.connectionCallback_nil
  exact establish_output key fd highWaterMark callbacks p files hc hi

/-- Every step of the output machine extends the stream by its payload. -/
lemma outputStep_output {w w' : ConnContext κ} {payload : Bytes} {step : OutputStep}
    (h : OutputInv w payload) (hnext : outputMachine.next w step = some w') :
    OutputInv w' (payload ++ step.payload) := by
  cases step with
  | sendInLoop data r =>
    simp only [outputMachine, Option.ite_none_right_eq_some, Option.some.injEq] at hnext
    obtain ⟨⟨hstate, hr⟩, rfl⟩ := hnext
    exact sendInLoop_output h (by rw [hstate]; simp) data r hr
  | handleWrite r =>
    simp only [outputMachine, Option.ite_none_right_eq_some, Option.some.injEq] at hnext
    obtain ⟨_, rfl⟩ := hnext
    simpa [OutputStep.payload] using handleWrite_output h r

lemma outputRun_output {w w' : ConnContext κ} {payload : Bytes} {steps : List OutputStep}
    (h : OutputInv w payload) (hrun : outputMachine.run w steps = some w') :
    OutputInv w' (payload ++ payloads steps) := by
  induction steps generalizing w payload with
  | nil =>
    rw [Machine.run, Option.some.injEq] at hrun
    simpa [payloads, ← hrun] using h
  | cons step steps ih =>
    obtain ⟨w₁, hnext, hrest⟩ := (Machine.run_cons_eq_some _ _ _ _ _).mp hrun
    have hfinal := ih (outputStep_output h hnext) hrest
    simpa [payloads, List.append_assoc] using hfinal

/-- Nothing is lost, duplicated or reordered on the way to the kernel, and the channel is
registered for writing exactly while the output buffer holds bytes. -/
theorem output_stream_integrity (key : κ) (fd highWaterMark : Nat) (callbacks : Callbacks)
    (p : EPollPoller κ) (files : Nat → Bytes) (hc : p.channels fd = none)
    (hi : p.interest fd = none) (steps : List OutputStep) (w : ConnContext κ)
    (hrun : outputMachine.run (openConnection key fd highWaterMark callbacks p files) steps = some w) :
    w.sent ++ w.conn.outputBuffer.readable = payloads steps ∧
      (w.conn.channel.isWriting = true ↔ w.conn.outputBuffer.readable ≠ []) ∧
      (RegisteredForWriting w ↔ w.conn.outputBuffer.readable ≠ []) := by
  have hopen := openConnection_output key fd highWaterMark callbacks p files hc hi
  have hfinal := outputRun_output hopen hrun
  rw [List.nil_append] at hfinal
  exact ⟨hfinal.stream, hfinal.writing, (registeredForWriting_iff hfinal.reg).trans hfinal.writing⟩

set_option maxRecDepth 8000 in
/-- A partial direct write, a payload queued behind it and a partial drain. -/
theorem output_stream_integrity_partial_writes :
    ∃ w, outputMachine.run (openConnection () 5 64 ⟨true, true, true, true, true⟩ EPollPoller.empty
        (fun _ => [])) [.sendInLoop [1, 2, 3] (.ok 1), .sendInLoop [4] (.err .ewouldblock),
          .handleWrite (.ok 2)] = some w ∧
      w.sent ++ w.conn.outputBuffer.readable = [1, 2, 3, 4] ∧
      (w.conn.channel.isWriting = true ↔ w.conn.outputBuffer.readable ≠ []) ∧
      (RegisteredForWriting w ↔ w.conn.outputBuffer.readable ≠ []) := by
  obtain ⟨w, hw⟩ : ∃ w, outputMachine.run (openConnection () 5 64 ⟨true, true, true, true, true⟩
      EPollPoller.empty (fun _ => [])) [.sendInLoop [1, 2, 3] (.ok 1),
        .sendInLoop [4] (.err .ewouldblock), .handleWrite (.ok 2)] = some w := ⟨_, rfl⟩
  exact ⟨w, hw, output_stream_integrity () 5 64 ⟨true, true, true, true, true⟩ EPollPoller.empty
    (fun _ => []) rfl rfl _ w hw⟩

end MylibMuduo.Proofs
