import MylibMuduo.Lib.Machine
import MylibMuduo.Proofs.OutputStream

/-!
# The output side of a connection with files

`Output` is what `sendInLoop`, `sendFileInLoop`, `handleWrite` and `shutDownInLoop` read and
change, without the storage of the buffer and the bookkeeping of the poller. The functions of
the source act on it through `Shows`: what they do to a registered connection is what the
functions of `Output` do to its view.
-/

namespace MylibMuduo.Proofs

variable {κ : Type}

/-- `completions` counts the write-complete tasks in the queue, `notify` says whether their
callback is set. -/
structure Output where
  state : StateE
  writing : Bool
  buffered : Bytes
  sending : Bool
  file : FileToSend
  sent : Bytes
  shutWr : Bool
  notify : Bool
  completions : Nat
  deriving DecidableEq, Repr

namespace Output

variable (o : Output)

def complete : Output := { o with completions := o.completions + if o.notify then 1 else 0 }

def append (rest : Bytes) : Output :=
  if rest = [] then o else { o with buffered := o.buffered ++ rest, writing := true }

/-- A `write` of `sendInLoop` that took `n` bytes. -/
def writeDirect (data : Bytes) (n : Nat) : Output :=
  let o₁ := { o with sent := o.sent ++ data.take n }
  (if data.length ≤ n then o₁.complete else o₁).append (data.drop n)

def sendInLoop (data : Bytes) (r : SysResult) : Output :=
  if o.state = .kDisConnected ∨ o.state = .kDisConnecting then o
  else if o.writing = false ∧ o.buffered = [] then
    match r with
    | .ok n => o.writeDirect data n
    | .err e => if e = .epipe ∨ e = .econnreset then o else o.append data
  else o.append data

def shutDownInLoop : Output := if o.writing then o else { o with shutWr := true }

def awaitFile (remaining : Nat) : Output :=
  if remaining = 0 then o else { o with file := { o.file with count := remaining }, writing := true }

/-- The bytes of the file from the current offset on. -/
def fileBytes (files : Nat → Bytes) : Bytes := (files o.file.fdToSend).drop o.file.fdOffset.toNat

/-- A `sendfile` that took `n` bytes. -/
def advanceFile (files : Nat → Bytes) (n : Nat) : Output :=
  { o with
    sent := o.sent ++ (o.fileBytes files).take n
    file := { o.file with fdOffset := o.file.fdOffset + n } }

/-- The end of a transfer. -/
def finishFile : Output := { o.complete with sending := false, writing := false }

def sendFileInLoop (files : Nat → Bytes) (r : SysResult) : Output :=
  if o.state = .kDisConnected ∨ o.state = .kDisConnecting then { o with sending := false }
  else if o.sending then
    match r with
    | .ok n =>
      if o.file.count ≤ n then (o.advanceFile files n).finishFile
      else (o.advanceFile files n).awaitFile (o.file.count - n)
    | .err e =>
      if e = .epipe ∨ e = .econnreset then { o with sending := false } else o.awaitFile o.file.count
  else o.awaitFile o.file.count

/-- A `write` of `handleWrite` that took `n` bytes of the buffer. -/
def drain (n : Nat) : Output :=
  let o₁ := { o with sent := o.sent ++ o.buffered.take n, buffered := o.buffered.drop n }
  if o₁.buffered = [] then { o₁ with writing := false }.complete else o₁

def handleWrite (files : Nat → Bytes) (r : SysResult) : Output :=
  if o.writing = true ∧ o.buffered ≠ [] then
    match r with
    | .ok (n + 1) =>
      if (o.drain (n + 1)).state = .kDisConnecting then (o.drain (n + 1)).shutDownInLoop
      else o.drain (n + 1)
    | _ => o
  else if o.writing = true ∧ o.sending = true then o.sendFileInLoop files r
  else o

def send (data : Bytes) (r : SysResult) : Output :=
  if o.state = .kConnected then o.sendInLoop data r else o

def sendFile (files : Nat → Bytes) (file : FileToSend) (r : SysResult) : Output :=
  if o.state = .kConnected then { o with sending := true, file := file }.sendFileInLoop files r else o

def shutdown : Output :=
  if o.state = .kConnected then { o with state := .kDisConnecting }.shutDownInLoop else o

/-- With an empty buffer a write event goes to the file. -/
lemma handleWrite_empty (hempty : o.buffered = []) (files : Nat → Bytes) (r : SysResult) :
    o.handleWrite files r = if o.writing = true ∧ o.sending = true then o.sendFileInLoop files r else o :=
  if_neg fun hbuffer => hbuffer.2 hempty

/-! Only `shutdown` changes the state. -/

@[simp] lemma append_state (rest : Bytes) : (o.append rest).state = o.state := by
  unfold append
  split <;> rfl

@[simp] lemma awaitFile_state (remaining : Nat) : (o.awaitFile remaining).state = o.state := by
  unfold awaitFile
  split <;> rfl

@[simp] lemma shutDownInLoop_state : o.shutDownInLoop.state = o.state := by
  unfold shutDownInLoop
  split <;> rfl

@[simp] lemma drain_state (n : Nat) : (o.drain n).state = o.state := by
  unfold drain
  dsimp only
  split <;> rfl

@[simp] lemma sendInLoop_state (data : Bytes) (r : SysResult) : (o.sendInLoop data r).state = o.state := by
  unfold sendInLoop
  split
  · rfl
  split
  · cases r with
    | ok n =>
      unfold writeDirect
      dsimp only
      rw [append_state]
      split <;> rfl
    | err e =>
      dsimp only
      split
      · rfl
      · exact o.append_state data
  · exact o.append_state data

@[simp] lemma sendFileInLoop_state (files : Nat → Bytes) (r : SysResult) :
    (o.sendFileInLoop files r).state = o.state := by
  unfold sendFileInLoop
  split
  · rfl
  split
  · cases r with
    | ok n =>
      dsimp only
      split
      · rfl
      · exact awaitFile_state _ _
    | err e =>
      dsimp only
      split
      · rfl
      · exact o.awaitFile_state _
  · exact o.awaitFile_state _

/-- A transfer does not touch the buffer and the half-close. -/
lemma awaitFile_rest (remaining : Nat) :
    (o.awaitFile remaining).buffered = o.buffered ∧ (o.awaitFile remaining).shutWr = o.shutWr := by
  unfold awaitFile
  split <;> exact ⟨rfl, rfl⟩

lemma sendFileInLoop_rest (files : Nat → Bytes) (r : SysResult) :
    (o.sendFileInLoop files r).buffered = o.buffered ∧ (o.sendFileInLoop files r).shutWr = o.shutWr := by
  unfold sendFileInLoop
  split
  · exact ⟨rfl, rfl⟩
  split
  · cases r with
    | ok n =>
      dsimp only
      split
      · exact ⟨rfl, rfl⟩
      · exact awaitFile_rest _ _
    | err e =>
      dsimp only
      split
      · exact ⟨rfl, rfl⟩
      · exact o.awaitFile_rest _
  · exact o.awaitFile_rest _

@[simp] lemma sendFileInLoop_buffered (files : Nat → Bytes) (r : SysResult) :
    (o.sendFileInLoop files r).buffered = o.buffered :=
  (o.sendFileInLoop_rest files r).1

@[simp] lemma sendFileInLoop_shutWr (files : Nat → Bytes) (r : SysResult) :
    (o.sendFileInLoop files r).shutWr = o.shutWr :=
  (o.sendFileInLoop_rest files r).2

@[simp] lemma handleWrite_state (files : Nat → Bytes) (r : SysResult) :
    (o.handleWrite files r).state = o.state := by
  unfold handleWrite
  split
  · cases r with
    | ok n =>
      cases n with
      | zero => rfl
      | succ n =>
        dsimp only
        split
        · rw [shutDownInLoop_state, drain_state]
        · exact o.drain_state (n + 1)
    | err e => rfl
  · split
    · exact o.sendFileInLoop_state files r
    · rfl

end Output

/-- The view of a connection. -/
def outputOf (w : ConnContext κ) : Output where
  state := w.conn.state
  writing := w.conn.channel.isWriting
  buffered := w.conn.outputBuffer.readable
  sending := w.conn.sendingFile
  file := w.conn.fileToSend
  sent := w.sent
  shutWr := w.shutWr
  notify := w.conn.callbacks.writeComplete
  completions := w.pendingFunctors.count .writeComplete

/-- A connection that is registered for reading, can read the files `files` and has the view `o`. -/
structure Shows (files : Nat → Bytes) (w : ConnContext κ) (o : Output) : Prop where
  reg : Registered w
  buffer : BufferInv w.conn.outputBuffer
  reads : w.files = files
  view : outputOf w = o

namespace Shows

variable {files : Nat → Bytes} {w : ConnContext κ} {o : Output}

lemma readableBytes (h : Shows files w o) : w.conn.outputBuffer.readableBytes = 0 ↔ o.buffered = [] := by
  rw [← h.view]
  exact (readable_eq_nil_iff _ h.buffer).symm

lemma enableWriting (h : Shows files w o) : Shows files w.enableWriting { o with writing := true } := by
  obtain rfl := h.view
  rw [enableWriting_registered h.reg]
  exact ⟨setInterest_registered h.reg _ h.reg.reading, h.buffer, h.reads, rfl⟩

lemma disableWriting (h : Shows files w o) : Shows files w.disableWriting { o with writing := false } := by
  obtain rfl := h.view
  rw [disableWriting_registered h.reg]
  exact ⟨setInterest_registered h.reg _ h.reg.reading, h.buffer, h.reads, rfl⟩

lemma accept (h : Shows files w o) (data : Bytes) : Shows files (w.accept data) { o with sent := o.sent ++ data } := by
  obtain rfl := h.view
  exact ⟨⟨h.reg.book, h.reg.added, h.reg.reading⟩, h.buffer, h.reads, rfl⟩

lemma setSendingFile (h : Shows files w o) (b : Bool) : Shows files (w.setSendingFile b) { o with sending := b } := by
  obtain rfl := h.view
  exact ⟨⟨h.reg.book, h.reg.added, h.reg.reading⟩, h.buffer, h.reads, rfl⟩

lemma setFile (h : Shows files w o) (file : FileToSend) : Shows files (w.setFile file) { o with file := file } := by
  obtain rfl := h.view
  exact ⟨⟨h.reg.book, h.reg.added, h.reg.reading⟩, h.buffer, h.reads, rfl⟩

lemma setState (h : Shows files w o) (state : StateE) : Shows files (w.setState state) { o with state := state } := by
  obtain rfl := h.view
  exact ⟨⟨h.reg.book, h.reg.added, h.reg.reading⟩, h.buffer, h.reads, rfl⟩

lemma notifyWriteComplete (h : Shows files w o) : Shows files w.notifyWriteComplete o.complete := by
  obtain rfl := h.view
  unfold ConnContext.notifyWriteComplete Output.complete
  split
  · rename_i hnotify
    refine ⟨⟨h.reg.book, h.reg.added, h.reg.reading⟩, h.buffer, h.reads, ?_⟩
    simp [outputOf, ConnContext.queueInLoop, hnotify]
  · rename_i hnotify
    refine ⟨h.reg, h.buffer, h.reads, ?_⟩
    simp [outputOf, hnotify]

lemma queueHighWaterMark (h : Shows files w o) : Shows files (w.queueInLoop .highWaterMark) o := by
  obtain rfl := h.view
  refine ⟨⟨h.reg.book, h.reg.added, h.reg.reading⟩, h.buffer, h.reads, ?_⟩
  simp [outputOf, ConnContext.queueInLoop]

/-- Write interest is asked for unless it is on. -/
lemma ensureWriting (h : Shows files w o) :
    Shows files (if w.conn.channel.isWriting then w else w.enableWriting) { o with writing := true } := by
  split
  · rename_i hw
    obtain rfl := h.view
    exact ⟨h.reg, h.buffer, h.reads, by rw [← hw]; rfl⟩
  · exact h.enableWriting

lemma setOutput_append (h : Shows files w o) (rest : Bytes) :
    Shows files (w.setOutput (w.conn.outputBuffer.append rest)) { o with buffered := o.buffered ++ rest } := by
  obtain rfl := h.view
  refine ⟨⟨h.reg.book, h.reg.added, h.reg.reading⟩, append_inv _ h.buffer rest, h.reads, ?_⟩
  simp [outputOf, ConnContext.setOutput, readable_append _ h.buffer]

theorem appendRemaining (h : Shows files w o) (rest : Bytes) : Shows files (w.appendRemaining rest) (o.append rest) := by
  unfold ConnContext.appendRemaining Output.append
  by_cases hrest : rest = []
  · rw [if_pos hrest, if_pos (by simp [hrest])]
    exact h
  · rw [if_neg hrest, if_neg (by simpa using hrest)]
    dsimp only
    split
    · exact (h.queueHighWaterMark.setOutput_append rest).ensureWriting
    · exact (h.setOutput_append rest).ensureWriting

theorem sendInLoop (h : Shows files w o) (data : Bytes) (r : SysResult) :
    Shows files (w.sendInLoop data r) (o.sendInLoop data r) := by
  have hstate : o.state = w.conn.state := by rw [← h.view]; rfl
  have hwriting : o.writing = w.conn.channel.isWriting := by rw [← h.view]; rfl
  unfold ConnContext.sendInLoop Output.sendInLoop
  by_cases hclosing : o.state = .kDisConnected ∨ o.state = .kDisConnecting
  · rw [if_pos hclosing, if_pos (hstate ▸ hclosing)]
    exact h
  · rw [if_neg hclosing, if_neg (hstate ▸ hclosing)]
    simp only [h.readableBytes, hwriting, Bool.not_eq_true]
    split
    · cases r with
      | ok n =>
        unfold Output.writeDirect
        simp only [Nat.sub_eq_zero_iff_le]
        split
        · exact ((h.accept _).notifyWriteComplete).appendRemaining _
        · exact (h.accept _).appendRemaining _
      | err e =>
        dsimp only
        split
        · exact h
        · exact h.appendRemaining data
    · exact h.appendRemaining data

theorem shutDownInLoop (h : Shows files w o) : Shows files w.shutDownInLoop o.shutDownInLoop := by
  obtain rfl := h.view
  unfold ConnContext.shutDownInLoop Output.shutDownInLoop
  change Shows files _ (if w.conn.channel.isWriting = true then _ else _)
  split
  · exact h
  · exact ⟨⟨h.reg.book, h.reg.added, h.reg.reading⟩, h.buffer, h.reads, rfl⟩

lemma awaitFileWrite (h : Shows files w o) (remaining : Nat) :
    Shows files (w.awaitFileWrite remaining) (o.awaitFile remaining) := by
  have hfile : o.file = w.conn.fileToSend := by rw [← h.view]; rfl
  unfold ConnContext.awaitFileWrite Output.awaitFile
  split
  · exact h
  · dsimp only
    rw [hfile]
    exact (h.setFile _).ensureWriting

theorem sendFileInLoop (h : Shows files w o) (r : SysResult) :
    Shows files (w.sendFileInLoop r) (o.sendFileInLoop files r) := by
  obtain rfl := h.reads
  have hstate : o.state = w.conn.state := by rw [← h.view]; rfl
  have hsending : o.sending = w.conn.sendingFile := by rw [← h.view]; rfl
  have hfile : o.file = w.conn.fileToSend := by rw [← h.view]; rfl
  unfold ConnContext.sendFileInLoop Output.sendFileInLoop
  by_cases hclosing : o.state = .kDisConnected ∨ o.state = .kDisConnecting
  · rw [if_pos hclosing, if_pos (hstate ▸ hclosing)]
    exact h.setSendingFile false
  · rw [if_neg hclosing, if_neg (hstate ▸ hclosing), hsending, hfile]
    split
    · cases r with
      | ok n =>
        simp only [Nat.sub_eq_zero_iff_le]
        have hadvance : Shows w.files ((w.accept (((w.files w.conn.fileToSend.fdToSend).drop
            w.conn.fileToSend.fdOffset.toNat).take n)).setFile
            { w.conn.fileToSend with fdOffset := w.conn.fileToSend.fdOffset + n })
            (o.advanceFile w.files n) := by
          unfold Output.advanceFile Output.fileBytes
          rw [hfile]
          exact (h.accept _).setFile _
        split
        · exact (hadvance.notifyWriteComplete.setSendingFile false).disableWriting
        · exact hadvance.awaitFileWrite _
      | err e =>
        dsimp only
        split
        · simpa only [hfile] using h.setSendingFile false
        · exact h.awaitFileWrite _
    · exact h.awaitFileWrite _

lemma drainOutput (h : Shows files w o) (n : Nat) : Shows files (drainOutput w n) (o.drain (n + 1)) := by
  have hset : Shows files ((w.accept (w.conn.outputBuffer.readable.take (n + 1))).setOutput
      (w.conn.outputBuffer.retrieve (n + 1)))
      { o with sent := o.sent ++ o.buffered.take (n + 1), buffered := o.buffered.drop (n + 1) } := by
    obtain rfl := h.view
    refine ⟨⟨h.reg.book, h.reg.added, h.reg.reading⟩, retrieve_inv _ h.buffer (n + 1), h.reads, ?_⟩
    simp [outputOf, ConnContext.setOutput, ConnContext.accept, readable_retrieve _ h.buffer]
  unfold Proofs.drainOutput Output.drain
  simp only [hset.readableBytes]
  split
  · exact hset.disableWriting.notifyWriteComplete
  · exact hset

theorem handleWrite (h : Shows files w o) (r : SysResult) :
    Shows files (w.handleWrite r) (o.handleWrite files r) := by
  have hwriting : o.writing = w.conn.channel.isWriting := by rw [← h.view]; rfl
  have hsending : o.sending = w.conn.sendingFile := by rw [← h.view]; rfl
  unfold ConnContext.handleWrite Output.handleWrite
  simp only [hwriting, hsending, ne_eq, h.readableBytes]
  split
  · cases r with
    | ok n =>
      cases n with
      | zero => exact h
      | succ n =>
        have hdrain := h.drainOutput n
        have hstate : (o.drain (n + 1)).state = (Proofs.drainOutput w n).conn.state := by
          rw [← hdrain.view]
          rfl
        change Shows files (if (Proofs.drainOutput w n).conn.state = .kDisConnecting then
          (Proofs.drainOutput w n).shutDownInLoop else Proofs.drainOutput w n) _
        dsimp only
        rw [hstate]
        split
        · exact hdrain.shutDownInLoop
        · exact hdrain
    | err e => exact h
  · split
    · exact h.sendFileInLoop r
    · exact h

theorem send (h : Shows files w o) (data : Bytes) (r : SysResult) : Shows files (w.send data r) (o.send data r) := by
  have hstate : o.state = w.conn.state := by rw [← h.view]; rfl
  unfold ConnContext.send Output.send
  by_cases hconnected : o.state = .kConnected
  · rw [if_pos hconnected, if_pos (hstate ▸ hconnected)]
    exact h.sendInLoop data r
  · rw [if_neg hconnected, if_neg (hstate ▸ hconnected)]
    exact h

theorem sendFile (h : Shows files w o) (fd : Nat) (offset : Int) (count : Nat) (r : SysResult) :
    Shows files (w.sendFile fd offset count r) (o.sendFile files ⟨fd, offset, count⟩ r) := by
  have hstate : o.state = w.conn.state := by rw [← h.view]; rfl
  unfold ConnContext.sendFile Output.sendFile
  by_cases hconnected : o.state = .kConnected
  · rw [if_pos hconnected, if_pos (hstate ▸ hconnected)]
    exact ((h.setSendingFile true).setFile _).sendFileInLoop r
  · rw [if_neg hconnected, if_neg (hstate ▸ hconnected)]
    exact h

theorem shutdown (h : Shows files w o) : Shows files w.shutdown o.shutdown := by
  have hstate : o.state = w.conn.state := by rw [← h.view]; rfl
  unfold ConnContext.shutdown Output.shutdown
  by_cases hconnected : o.state = .kConnected
  · rw [if_pos hconnected, if_pos (hstate ▸ hconnected)]
    exact (h.setState _).shutDownInLoop
  · rw [if_neg hconnected, if_neg (hstate ▸ hconnected)]
    exact h

end Shows

end MylibMuduo.Proofs
