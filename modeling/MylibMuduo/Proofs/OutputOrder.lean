import MylibMuduo.Proofs.OutputView

/-!
# Strings and files on one connection

`send` leaves what the kernel does not take in the output buffer, `sendFile` leaves it in the
file, and both wait for the same write events. `handleWrite` serves the buffer first and turns
the write interest off when the buffer is empty; `sendFileInLoop` does not look at the buffer and
turns the interest off when the file is sent.
-/

namespace MylibMuduo.Proofs

variable {κ : Type}

/-- A call of the application on the loop thread, or a write event. -/
inductive StreamStep where
  | send (data : Bytes) (r : SysResult)
  | sendFile (fd : Nat) (offset : Int) (count : Nat) (r : SysResult)
  | handleWrite (r : SysResult)
  deriving DecidableEq, Repr

/-- A full or partial result for `len` bytes, or `EWOULDBLOCK`. -/
def transient (len : Nat) : SysResult → Bool
  | .ok n => decide (n ≤ len)
  | .err e => decide (e = .ewouldblock)

/-- What a `handleWrite` offers to the kernel: the buffer, or else the file. -/
def offered (w : ConnContext κ) : Nat :=
  if w.conn.outputBuffer.readableBytes ≠ 0 then w.conn.outputBuffer.readableBytes
  else w.conn.fileToSend.count

/-- The runs of `send`, `sendFile` and write events without an error. -/
def streamMachine : Machine (ConnContext κ) StreamStep where
  next w
    | .send data r => if transient data.length r then some (w.send data r) else none
    | .sendFile fd offset count r =>
      if transient count r then some (w.sendFile fd offset count r) else none
    | .handleWrite r => if transient (offered w) r then some (w.handleWrite r) else none

namespace Output

/-- Bytes of the range are still unsent. -/
def Transferring (o : Output) : Prop := o.sending = true ∧ 0 < o.file.count

instance (o : Output) : Decidable o.Transferring := by
  unfold Transferring
  infer_instance

def offered (o : Output) : Nat := if o.buffered ≠ [] then o.buffered.length else o.file.count

lemma offered_empty {o : Output} (hempty : o.buffered = []) : o.offered = o.file.count :=
  if_neg fun hne => hne hempty

/-- What a step of the stream does to the view. -/
def step (files : Nat → Bytes) (o : Output) : StreamStep → Output
  | .send data r => o.send data r
  | .sendFile fd offset count r => o.sendFile files ⟨fd, offset, count⟩ r
  | .handleWrite r => o.handleWrite files r

/-- The results that a step may have. -/
def Allowed (o : Output) : StreamStep → Prop
  | .send data r => transient data.length r = true
  | .sendFile _ _ count r => transient count r = true
  | .handleWrite r => transient o.offered r = true

end Output

lemma Shows.offered {files : Nat → Bytes} {w : ConnContext κ} {o : Output} (h : Shows files w o) :
    offered w = o.offered := by
  obtain rfl := h.view
  unfold Proofs.offered Output.offered
  simp only [ne_eq, h.readableBytes]
  split
  · exact (length_readable _ h.buffer).symm
  · rfl

/-- All that a step can do, seen in the view. -/
theorem stream_trans {files : Nat → Bytes} {w w' : ConnContext κ} {o : Output} {a : StreamStep}
    (h : Shows files w o) (hnext : streamMachine.next w a = some w') :
    o.Allowed a ∧ Shows files w' (o.step files a) := by
  cases a with
  | send data r =>
    simp only [streamMachine, Option.ite_none_right_eq_some, Option.some.injEq] at hnext
    obtain ⟨hr, rfl⟩ := hnext
    exact ⟨hr, h.send data r⟩
  | sendFile fd offset count r =>
    simp only [streamMachine, Option.ite_none_right_eq_some, Option.some.injEq] at hnext
    obtain ⟨hr, rfl⟩ := hnext
    exact ⟨hr, h.sendFile fd offset count r⟩
  | handleWrite r =>
    simp only [streamMachine, h.offered, Option.ite_none_right_eq_some, Option.some.injEq] at hnext
    obtain ⟨hr, rfl⟩ := hnext
    exact ⟨hr, h.handleWrite r⟩

/-- An open connection with nothing to send. -/
structure Drained (w : ConnContext κ) : Prop where
  reg : Registered w
  buffer : BufferInv w.conn.outputBuffer
  connected : w.conn.state = .kConnected
  empty : w.conn.outputBuffer.readable = []
  noFile : w.conn.sendingFile = false
  quiet : w.conn.channel.isWriting = false

lemma Drained.shows {w : ConnContext κ} (h : Drained w) : Shows w.files w (outputOf w) :=
  ⟨h.reg, h.buffer, rfl, rfl⟩

lemma openConnection_drained (key : κ) (fd highWaterMark : Nat) (callbacks : Callbacks) (p : EPollPoller κ)
    (files : Nat → Bytes) (hc : p.channels fd = none) (hi : p.interest fd = none) :
    Drained (openConnection key fd highWaterMark callbacks p files) := by
  have hopen := openConnection_output key fd highWaterMark callbacks p files hc hi
  have hstate : (openConnection key fd highWaterMark callbacks p files).conn.state = .kConnected := by
    unfold openConnection ConnContext.connectionEstablished ConnContext.connectionCallback
    split
    · rfl
    · rfl
  have hempty : (openConnection key fd highWaterMark callbacks p files).conn.outputBuffer.readable = [] :=
    (List.append_eq_nil_iff.mp hopen.stream).2
  refine ⟨hopen.reg, hopen.buffer, hstate, hempty, hopen.noFile, ?_⟩
  rw [← Bool.not_eq_true, hopen.writing, hempty]
  simp

/-! ### The order of the stream -/

/-- The bytes that a call asks to send. -/
def StreamStep.payload (files : Nat → Bytes) : StreamStep → Bytes
  | .send data _ => data
  | .sendFile fd offset count _ => ((files fd).drop offset.toNat).take count
  | .handleWrite _ => []

/-- The payloads and file ranges in call order. -/
def submitted (files : Nat → Bytes) (steps : List StreamStep) : Bytes :=
  steps.flatMap (StreamStep.payload files)

/-- The range of a `sendFile` lies inside its file. -/
def StreamStep.InFile (files : Nat → Bytes) : StreamStep → Prop
  | .sendFile fd offset count _ => 0 ≤ offset ∧ offset + count ≤ (files fd).length
  | _ => True

instance (files : Nat → Bytes) : (a : StreamStep) → Decidable (a.InFile files)
  | .send _ _ => isTrue trivial
  | .sendFile fd offset count _ =>
    inferInstanceAs (Decidable (0 ≤ offset ∧ offset + count ≤ (files fd).length))
  | .handleWrite _ => isTrue trivial

/-- The number of bytes that a system call took. -/
def delivered : SysResult → Nat
  | .ok n => n
  | .err _ => 0

/-- Nothing is sent past an unfinished file, and no file past the buffer. -/
def keepsOrder (w : ConnContext κ) : StreamStep → Prop
  | .send data _ => data = [] ∨ ¬(outputOf w).Transferring
  | .sendFile _ _ _ r => ¬(outputOf w).Transferring ∧ ((outputOf w).buffered = [] ∨ delivered r = 0)
  | .handleWrite _ => True

instance (w : ConnContext κ) : (a : StreamStep) → Decidable (keepsOrder w a)
  | .send data _ => inferInstanceAs (Decidable (data = [] ∨ ¬(outputOf w).Transferring))
  | .sendFile _ _ _ r => inferInstanceAs
    (Decidable (¬(outputOf w).Transferring ∧ ((outputOf w).buffered = [] ∨ delivered r = 0)))
  | .handleWrite _ => isTrue trivial

namespace Output

/-- The part of the range that is not sent yet. -/
def unsent (o : Output) (files : Nat → Bytes) : Bytes :=
  if o.sending then (o.fileBytes files).take o.file.count else []

lemma unsent_eq_nil {o : Output} (h : ¬o.Transferring) (files : Nat → Bytes) : o.unsent files = [] := by
  unfold unsent
  split
  · rename_i hsending
    have hcount : o.file.count = 0 := by
      by_contra hne
      exact h ⟨hsending, Nat.pos_of_ne_zero hne⟩
    rw [hcount, List.take_zero]
  · rfl

/-- The rest of the file behind `n` more bytes. -/
lemma advanceFile_fileBytes {o : Output} (files : Nat → Bytes) (n : Nat) (hoffset : 0 ≤ o.file.fdOffset) :
    (o.advanceFile files n).fileBytes files = (o.fileBytes files).drop n := by
  have hnat : (o.file.fdOffset + n).toNat = o.file.fdOffset.toNat + n := by omega
  simp only [fileBytes, advanceFile, hnat, List.drop_drop]

/-- The kernel's bytes, the buffer and the rest of the file are `total`, in this order. -/
structure InOrder (files : Nat → Bytes) (total : Bytes) (o : Output) : Prop where
  connected : o.state = .kConnected
  offset : o.sending = true → 0 ≤ o.file.fdOffset
  stream : o.sent ++ o.buffered ++ o.unsent files = total

namespace InOrder

variable {files : Nat → Bytes} {total : Bytes} {o : Output}

lemma complete (h : InOrder files total o) : InOrder files total o.complete :=
  ⟨h.connected, h.offset, h.stream⟩

lemma append (h : InOrder files total o) (hfile : ¬o.Transferring) (rest : Bytes) :
    InOrder files (total ++ rest) (o.append rest) := by
  unfold Output.append
  split
  · rename_i hrest
    rw [hrest, List.append_nil]
    exact h
  · refine ⟨h.connected, h.offset, ?_⟩
    have hstream := h.stream
    rw [unsent_eq_nil hfile, List.append_nil] at hstream
    have hnil : ({ o with buffered := o.buffered ++ rest, writing := true } : Output).unsent files = [] :=
      unsent_eq_nil hfile files
    rw [hnil, List.append_nil]
    change o.sent ++ (o.buffered ++ rest) = total ++ rest
    rw [← List.append_assoc, hstream]

lemma writeDirect (h : InOrder files total o) (hfile : ¬o.Transferring) (hempty : o.buffered = [])
    (data : Bytes) (n : Nat) : InOrder files (total ++ data) (o.writeDirect data n) := by
  have hstream := h.stream
  rw [unsent_eq_nil hfile, hempty, List.append_nil, List.append_nil] at hstream
  have hsent : InOrder files (total ++ data.take n) { o with sent := o.sent ++ data.take n } := by
    refine ⟨h.connected, h.offset, ?_⟩
    have hnil : ({ o with sent := o.sent ++ data.take n } : Output).unsent files = [] :=
      unsent_eq_nil hfile files
    rw [hnil, List.append_nil]
    change o.sent ++ data.take n ++ o.buffered = _
    rw [hempty, List.append_nil, hstream]
  have hsplit : total ++ data = total ++ data.take n ++ data.drop n := by
    rw [List.append_assoc, List.take_append_drop]
  unfold Output.writeDirect
  rw [hsplit]
  dsimp only
  split
  · exact hsent.complete.append hfile _
  · exact hsent.append hfile _

theorem sendInLoop (h : InOrder files total o) (hfile : ¬o.Transferring) (data : Bytes) (r : SysResult)
    (hr : transient data.length r = true) : InOrder files (total ++ data) (o.sendInLoop data r) := by
  unfold Output.sendInLoop
  rw [if_neg (by simp [h.connected])]
  split
  · rename_i hfast
    cases r with
    | ok n => exact h.writeDirect hfile hfast.2 data n
    | err e =>
      have he : e = .ewouldblock := of_decide_eq_true hr
      rw [he]
      exact h.append hfile data
  · exact h.append hfile data

/-- An empty payload changes nothing in the stream. -/
lemma sendInLoop_nil (h : InOrder files total o) (r : SysResult) (hr : transient 0 r = true) :
    InOrder files total (o.sendInLoop [] r) := by
  unfold Output.sendInLoop
  rw [if_neg (by simp [h.connected])]
  split
  · cases r with
    | ok n =>
      have hstream := h.stream
      simp only [Output.writeDirect, Output.append, List.take_nil, List.drop_nil, List.append_nil,
        List.length_nil, Nat.zero_le, if_true]
      exact ⟨h.connected, h.offset, hstream⟩
    | err e =>
      have he : e = .ewouldblock := of_decide_eq_true hr
      rw [he]
      exact h
  · exact h

lemma awaitFile {remaining : Nat} (h : InOrder files total { o with file := { o.file with count := remaining } })
    (hpos : 0 < remaining) : InOrder files total (o.awaitFile remaining) := by
  unfold Output.awaitFile
  rw [if_neg (by omega)]
  exact ⟨h.connected, h.offset, h.stream⟩

/-- The `sendfile` of a transfer that is under way. -/
theorem sendFileInLoop (h : InOrder files total o) (hsending : o.sending = true) (r : SysResult)
    (hr : transient o.file.count r = true) (hbuffer : o.buffered = [] ∨ delivered r = 0) :
    InOrder files total (o.sendFileInLoop files r) := by
  have hoffset := h.offset hsending
  have hstream := h.stream
  unfold Output.unsent at hstream
  rw [if_pos hsending] at hstream
  unfold Output.sendFileInLoop
  rw [if_neg (by simp [h.connected]), if_pos hsending]
  cases r with
  | ok n =>
    have hn : n ≤ o.file.count := of_decide_eq_true hr
    -- What the kernel takes is the front of the rest of the file.
    have hsplit : o.sent ++ (o.fileBytes files).take n ++ o.buffered ++
        ((o.fileBytes files).drop n).take (o.file.count - n) = total := by
      rw [← hstream]
      rcases hbuffer with hempty | hnone
      · rw [hempty, List.append_nil, List.append_nil, List.append_assoc, ← List.take_add,
          Nat.add_sub_cancel' hn]
      · change n = 0 at hnone
        simp [hnone]
    dsimp only
    split
    · rename_i hlast
      have hzero : o.file.count - n = 0 := by omega
      rw [hzero, List.take_zero, List.append_nil] at hsplit
      refine ⟨h.connected, by simp [Output.finishFile], ?_⟩
      simpa [Output.finishFile, Output.complete, Output.advanceFile, Output.unsent] using hsplit
    · rename_i hmore
      refine InOrder.awaitFile ⟨h.connected, fun _ => ?_, ?_⟩ (by omega)
      · change 0 ≤ o.file.fdOffset + n
        omega
      · have hrest := advanceFile_fileBytes files n hoffset
        have hunsent : ({ o.advanceFile files n with
            file := { (o.advanceFile files n).file with count := o.file.count - n } } : Output).unsent files =
            ((o.fileBytes files).drop n).take (o.file.count - n) := by
          rw [← hrest]
          exact if_pos hsending
        rw [hunsent]
        exact hsplit
  | err e =>
    have he : e = .ewouldblock := of_decide_eq_true hr
    rw [he]
    dsimp only
    rw [if_neg (by simp)]
    unfold Output.awaitFile
    split
    · exact h
    · exact ⟨h.connected, h.offset, h.stream⟩

lemma drain (h : InOrder files total o) (n : Nat) : InOrder files total (o.drain n) := by
  have hset : InOrder files total
      { o with sent := o.sent ++ o.buffered.take n, buffered := o.buffered.drop n } := by
    refine ⟨h.connected, h.offset, ?_⟩
    have hstream := h.stream
    rw [← List.take_append_drop n o.buffered, ← List.append_assoc o.sent] at hstream
    exact hstream
  unfold Output.drain
  dsimp only
  split
  · exact ⟨hset.connected, hset.offset, hset.stream⟩
  · exact hset

theorem handleWrite (h : InOrder files total o) (r : SysResult) (hr : transient o.offered r = true) :
    InOrder files total (o.handleWrite files r) := by
  unfold Output.handleWrite
  split
  · cases r with
    | ok n =>
      cases n with
      | zero => exact h
      | succ n =>
        dsimp only
        rw [if_neg (by simp [h.connected])]
        exact h.drain (n + 1)
    | err e => exact h
  · rename_i hbuffer
    split
    · rename_i hfile
      have hempty : o.buffered = [] := by
        by_contra hne
        exact hbuffer ⟨hfile.1, hne⟩
      rw [offered_empty hempty] at hr
      exact h.sendFileInLoop hfile.2 r hr (Or.inl hempty)
    · exact h

/-- A new transfer behind everything that is waiting. -/
lemma setFile (h : InOrder files total o) (hfile : ¬o.Transferring) (file : FileToSend)
    (hoffset : 0 ≤ file.fdOffset) :
    InOrder files (total ++ ((files file.fdToSend).drop file.fdOffset.toNat).take file.count)
      { o with sending := true, file := file } := by
  have hstream := h.stream
  rw [unsent_eq_nil hfile, List.append_nil] at hstream
  refine ⟨h.connected, fun _ => hoffset, ?_⟩
  rw [← hstream]
  rfl

end InOrder

end Output

/-- One step extends the stream by its payload. -/
lemma inOrder_step {files : Nat → Bytes} {total : Bytes} {w : ConnContext κ} {a : StreamStep}
    (h : (outputOf w).InOrder files total) (hallowed : (outputOf w).Allowed a) (hfile : a.InFile files)
    (hok : keepsOrder w a) : ((outputOf w).step files a).InOrder files (total ++ a.payload files) := by
  cases a with
  | send data r =>
    change ((outputOf w).send data r).InOrder files (total ++ data)
    unfold Output.send
    rw [if_pos h.connected]
    rcases hok with rfl | hidle
    · rw [List.append_nil]
      exact h.sendInLoop_nil r hallowed
    · exact h.sendInLoop hidle data r hallowed
  | sendFile fd offset count r =>
    change ((outputOf w).sendFile files ⟨fd, offset, count⟩ r).InOrder files _
    unfold Output.sendFile
    rw [if_pos h.connected]
    exact (h.setFile hok.1 ⟨fd, offset, count⟩ hfile.1).sendFileInLoop rfl r hallowed hok.2
  | handleWrite r =>
    change ((outputOf w).handleWrite files r).InOrder files (total ++ [])
    rw [List.append_nil]
    exact h.handleWrite r hallowed

lemma inOrder_run {files : Nat → Bytes} {total : Bytes} {w w' : ConnContext κ} {steps : List StreamStep}
    (hs : Shows files w (outputOf w)) (h : (outputOf w).InOrder files total)
    (hfiles : ∀ a ∈ steps, a.InFile files) (hok : streamMachine.Meets keepsOrder w steps)
    (hrun : streamMachine.run w steps = some w') :
    (outputOf w').InOrder files (total ++ submitted files steps) := by
  induction steps generalizing w total with
  | nil =>
    rw [Machine.run, Option.some.injEq] at hrun
    rw [← hrun]
    simpa [submitted] using h
  | cons a steps ih =>
    obtain ⟨w₁, hnext, hrest⟩ := (streamMachine.run_cons_eq_some w w' a steps).mp hrun
    obtain ⟨hallowed, hshows⟩ := stream_trans hs hnext
    have hstep := inOrder_step h hallowed (hfiles a List.mem_cons_self) hok.1
    rw [← hshows.view] at hstep hshows
    have hfinal := ih hshows hstep (fun b hb => hfiles b (List.mem_cons_of_mem a hb)) (hok.2 w₁ hnext) hrest
    simpa [submitted, List.append_assoc] using hfinal

lemma Drained.inOrder {w : ConnContext κ} (h : Drained w) (files : Nat → Bytes) :
    (outputOf w).InOrder files w.sent := by
  have hnone : ¬(outputOf w).Transferring := by
    rintro ⟨hsending, -⟩
    exact Bool.false_ne_true (h.noFile.symm.trans hsending)
  refine ⟨h.connected, fun hsending => absurd (h.noFile.symm.trans hsending) Bool.false_ne_true, ?_⟩
  rw [Output.unsent_eq_nil hnone, List.append_nil]
  change w.sent ++ w.conn.outputBuffer.readable = w.sent
  rw [h.empty, List.append_nil]

/-- If no string is sent during a transfer, no transfer during another one and no file past the
buffer, then the kernel's bytes are a prefix of the payloads and ranges in call order. -/
theorem stream_in_call_order (w : ConnContext κ) (hw : Drained w) (steps : List StreamStep)
    (w' : ConnContext κ) (hfiles : ∀ a ∈ steps, a.InFile w.files)
    (hok : streamMachine.Meets keepsOrder w steps) (hrun : streamMachine.run w steps = some w') :
    w'.sent <+: w.sent ++ submitted w.files steps := by
  have h := inOrder_run hw.shows (hw.inOrder w.files) hfiles hok hrun
  rw [← h.stream, List.append_assoc]
  exact List.prefix_append _ _

/-- A connection on an empty loop, with one file of six bytes under descriptor 9. -/
def fileConnection : ConnContext Unit :=
  openConnection () 5 64 ⟨true, true, true, true, true⟩ EPollPoller.empty
    (fun fd => if fd = 9 then [10, 11, 12, 13, 14, 15] else [])

/-- A string that is partly taken, its rest, and then a file in two pieces. -/
def stringThenFile : List StreamStep :=
  [.send [1, 2, 3] (.ok 2), .handleWrite (.ok 1), .sendFile 9 1 4 (.ok 3), .handleWrite (.err .ewouldblock),
   .handleWrite (.ok 1), .send [4] (.ok 1)]

set_option maxRecDepth 8000 in
theorem stream_in_call_order_string_then_file :
    ∃ w', streamMachine.run fileConnection stringThenFile = some w' ∧
      w'.sent = [1, 2, 3, 11, 12, 13, 14, 4] ∧
      w'.sent <+: fileConnection.sent ++ submitted fileConnection.files stringThenFile := by
  have hend : (streamMachine.run fileConnection stringThenFile).map (·.sent) =
      some [1, 2, 3, 11, 12, 13, 14, 4] := by
    decide +kernel
  obtain ⟨w', hrun, hsent⟩ := Option.map_eq_some_iff.mp hend
  exact ⟨w', hrun, hsent, stream_in_call_order fileConnection
    (openConnection_drained () 5 64 _ EPollPoller.empty _ rfl rfl) stringThenFile w' (by decide +kernel)
    (by decide +kernel) hrun⟩

/-- A string that is sent while half of a file waits. -/
def stringDuringFile : List StreamStep :=
  [.sendFile 9 0 4 (.ok 2), .send [1] (.err .ewouldblock), .handleWrite (.ok 1)]

/-- The string leaves in the middle of the file. -/
theorem string_overtakes_file :
    ¬∀ (w : ConnContext Unit), Drained w → ∀ (steps : List StreamStep) (w' : ConnContext Unit),
      (∀ a ∈ steps, a.InFile w.files) → streamMachine.run w steps = some w' →
      w'.sent <+: w.sent ++ submitted w.files steps := by
  intro hall
  have hend : (streamMachine.run fileConnection stringDuringFile).map (·.sent) = some [10, 11, 1] := by
    decide +kernel
  obtain ⟨w', hrun, hsent⟩ := Option.map_eq_some_iff.mp hend
  have hprefix := hall fileConnection (openConnection_drained () 5 64 _ EPollPoller.empty _ rfl rfl)
    stringDuringFile w' (by decide +kernel) hrun
  rw [hsent] at hprefix
  exact absurd hprefix (by decide +kernel)

end MylibMuduo.Proofs
