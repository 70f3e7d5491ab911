import MylibMuduo.Proofs.OutputOrder

/-!
# One file transfer

The progress of a transfer is kept in the offset that the kernel advances, in `count_`, which is
stored only while bytes remain, and in the write interest. Without an error the three agree after
every step. An error other than `EWOULDBLOCK`, or a range that ends behind the file, leaves all
three as they are.
-/

namespace MylibMuduo.Proofs

variable {κ : Type}

namespace Output

/-- `o` is on the way of sending `count` bytes of the file `fd` from `offset` on, which began
at `o₀`. -/
structure Transfer (files : Nat → Bytes) (o₀ : Output) (fd : Nat) (offset : Int) (count : Nat) (o : Output) :
    Prop where
  connected : o.state = .kConnected
  empty : o.buffered = []
  fdToSend : o.file.fdToSend = fd
  offset_le : offset ≤ o.file.fdOffset
  sent : o.sent = o₀.sent ++ ((files fd).drop offset.toNat).take (o.file.fdOffset - offset).toNat
  balance : o.file.fdOffset + (if o.sending then o.file.count else 0 : Nat) = offset + count
  remains : o.sending = true → 0 < o.file.count
  notify : o.notify = o₀.notify
  completions : o.completions = o₀.completions + if o.sending = false ∧ o₀.notify = true then 1 else 0

namespace Transfer

variable {files : Nat → Bytes} {o₀ o : Output} {fd : Nat} {offset : Int} {count : Nat}

/-- The bytes up to the offset, after `n` more of them. -/
lemma sent_advance (h : Transfer files o₀ fd offset count o) (hoffset : 0 ≤ offset) (n : Nat) :
    (o.advanceFile files n).sent = o₀.sent ++
      ((files fd).drop offset.toNat).take (o.file.fdOffset + n - offset).toNat := by
  have hle := h.offset_le
  have hnat : (o.file.fdOffset + n - offset).toNat = (o.file.fdOffset - offset).toNat + n := by omega
  have hdrop : o.file.fdOffset.toNat = offset.toNat + (o.file.fdOffset - offset).toNat := by omega
  change o.sent ++ ((files o.file.fdToSend).drop o.file.fdOffset.toNat).take n = _
  rw [h.sent, h.fdToSend, hnat, List.take_add, List.drop_drop, ← hdrop, List.append_assoc]

/-- One `sendfile` of the transfer. Afterwards the write interest is on exactly while it lasts. -/
theorem sendFileInLoop (h : Transfer files o₀ fd offset count o) (hoffset : 0 ≤ offset)
    (hsending : o.sending = true) (r : SysResult) (hr : transient o.file.count r = true) :
    Transfer files o₀ fd offset count (o.sendFileInLoop files r) ∧
      (o.sendFileInLoop files r).writing = (o.sendFileInLoop files r).sending := by
  have hpos := h.remains hsending
  have hbalance := h.balance
  have hle := h.offset_le
  have hcompletions := h.completions
  rw [if_pos hsending] at hbalance
  rw [if_neg (by simp [hsending])] at hcompletions
  unfold Output.sendFileInLoop
  rw [if_neg (by simp [h.connected]), if_pos hsending]
  cases r with
  | ok n =>
    have hn : n ≤ o.file.count := of_decide_eq_true hr
    have hsent := h.sent_advance hoffset n
    dsimp only
    split
    · refine ⟨⟨h.connected, h.empty, h.fdToSend, ?_, hsent, ?_, by simp [finishFile], h.notify, ?_⟩, rfl⟩
      · change offset ≤ o.file.fdOffset + n
        omega
      · change o.file.fdOffset + n + ((0 : Nat) : Int) = offset + count
        omega
      · have hnotify := h.notify
        change o.completions + (if o.notify = true then 1 else 0) = _
        rw [hcompletions, hnotify]
        simp [finishFile]
    · unfold awaitFile
      rw [if_neg (by omega)]
      refine ⟨⟨h.connected, h.empty, h.fdToSend, ?_, hsent, ?_, fun _ => ?_, h.notify, ?_⟩, hsending.symm⟩
      · change offset ≤ o.file.fdOffset + n
        omega
      · change o.file.fdOffset + n + ((if o.sending = true then o.file.count - n else 0 : Nat) : Int) = _
        rw [if_pos hsending]
        omega
      · change 0 < o.file.count - n
        omega
      · exact h.completions
  | err e =>
    have he : e = .ewouldblock := of_decide_eq_true hr
    rw [he]
    dsimp only
    rw [if_neg (by simp)]
    unfold awaitFile
    rw [if_neg (by omega)]
    exact ⟨⟨h.connected, h.empty, h.fdToSend, h.offset_le, h.sent, h.balance, h.remains, h.notify,
      h.completions⟩, hsending.symm⟩

/-- A write event during or after the transfer. -/
theorem handleWrite (h : Transfer files o₀ fd offset count o) (hoffset : 0 ≤ offset)
    (hwriting : o.writing = o.sending) (r : SysResult) (hr : transient o.offered r = true) :
    Transfer files o₀ fd offset count (o.handleWrite files r) ∧
      (o.handleWrite files r).writing = (o.handleWrite files r).sending := by
  rw [o.handleWrite_empty h.empty]
  split
  · rename_i hfile
    rw [offered_empty h.empty] at hr
    exact h.sendFileInLoop hoffset hfile.2 r hr
  · exact ⟨h, hwriting⟩

end Transfer

end Output

lemma Drained.transfer {w : ConnContext κ} (h : Drained w) (files : Nat → Bytes) (fd : Nat) (offset : Int)
    {count : Nat} (hcount : 1 ≤ count) :
    Output.Transfer files (outputOf w) fd offset count
      { outputOf w with sending := true, file := ⟨fd, offset, count⟩ } := by
  refine ⟨h.connected, h.empty, rfl, Int.le_refl _, ?_, rfl, fun _ => hcount, rfl, ?_⟩
  · simp
  · simp

/-- Write events on the way of a transfer. -/
lemma transfer_run {files : Nat → Bytes} {o₀ : Output} {fd : Nat} {offset : Int} {count : Nat}
    {w w' : ConnContext κ} {rs : List SysResult} (hoffset : 0 ≤ offset) (hs : Shows files w (outputOf w))
    (h : Output.Transfer files o₀ fd offset count (outputOf w)) (hwriting : (outputOf w).writing = (outputOf w).sending)
    (hrun : streamMachine.run w (rs.map .handleWrite) = some w') :
    Shows files w' (outputOf w') ∧ Output.Transfer files o₀ fd offset count (outputOf w') ∧
      (outputOf w').writing = (outputOf w').sending := by
  induction rs generalizing w with
  | nil =>
    rw [List.map_nil, Machine.run, Option.some.injEq] at hrun
    exact hrun ▸ ⟨hs, h, hwriting⟩
  | cons r rs ih =>
    rw [List.map_cons] at hrun
    obtain ⟨w₁, hnext, hrest⟩ := (streamMachine.run_cons_eq_some w w' _ _).mp hrun
    obtain ⟨hallowed, hshows⟩ := stream_trans hs hnext
    obtain ⟨hstep, hstepw⟩ := h.handleWrite hoffset hwriting r hallowed
    change Shows files w₁ ((outputOf w).handleWrite files r) at hshows
    rw [← hshows.view] at hstep hstepw hshows
    exact ih hshows hstep hstepw hrest

/-- The bytes of the range that are not sent yet. -/
def unsentCount (w : ConnContext κ) : Nat := if w.conn.sendingFile then w.conn.fileToSend.count else 0

/-- After every step of a transfer the file's bytes up to the current offset have been sent, the
offset and the rest make up the range, the channel is registered for writing while something is
left, and the end of the transfer is notified once. -/
theorem file_transfer_exact (w : ConnContext κ) (hw : Drained w) (fd : Nat) (offset : Int) (count : Nat)
    (hcount : 1 ≤ count) (hoffset : 0 ≤ offset) (hfits : offset + count ≤ (w.files fd).length)
    (r : SysResult) (rs : List SysResult) (w' : ConnContext κ)
    (hrun : streamMachine.run w (.sendFile fd offset count r :: rs.map .handleWrite) = some w') :
    (w'.sent = w.sent ++ ((w.files fd).drop offset.toNat).take (w'.conn.fileToSend.fdOffset - offset).toNat ∧
      (w'.sent.length : Int) = w.sent.length + (w'.conn.fileToSend.fdOffset - offset)) ∧
    w'.conn.fileToSend.fdOffset + unsentCount w' = offset + count ∧
    (RegisteredForWriting w' ↔ 0 < unsentCount w') ∧
    (w'.conn.fileToSend.fdOffset = offset + count → w'.conn.sendingFile = false) ∧
    w'.pendingFunctors.count .writeComplete = w.pendingFunctors.count .writeComplete +
      if w'.conn.sendingFile = false ∧ w.conn.callbacks.writeComplete = true then 1 else 0 := by
  obtain ⟨w₁, hnext, hrest⟩ := (streamMachine.run_cons_eq_some w w' _ _).mp hrun
  obtain ⟨hallowed, hshows⟩ := stream_trans hw.shows hnext
  have hbegin : (outputOf w).step w.files (.sendFile fd offset count r) =
      { outputOf w with sending := true, file := ⟨fd, offset, count⟩ }.sendFileInLoop w.files r :=
    if_pos hw.connected
  obtain ⟨hfirst, hfirstw⟩ :=
    (hw.transfer w.files fd offset hcount).sendFileInLoop hoffset rfl r hallowed
  rw [← hbegin, ← hshows.view] at hfirst hfirstw
  rw [← hshows.view] at hshows
  obtain ⟨hend, h, hwriting⟩ := transfer_run hoffset hshows hfirst hfirstw hrest
  have hbalance : w'.conn.fileToSend.fdOffset + unsentCount w' = offset + count := h.balance
  have hle : offset ≤ w'.conn.fileToSend.fdOffset := h.offset_le
  have hsent : w'.sent = w.sent ++
    ((w.files fd).drop offset.toNat).take (w'.conn.fileToSend.fdOffset - offset).toNat := h.sent
  have hremains : w'.conn.sendingFile = true → 0 < w'.conn.fileToSend.count := h.remains
  have hinterest : w'.conn.channel.isWriting = w'.conn.sendingFile := hwriting
  refine ⟨⟨hsent, ?_⟩, hbalance, ?_, ?_, h.completions⟩
  · rw [hsent, List.length_append, List.length_take, List.length_drop]
    omega
  · rw [registeredForWriting_iff hend.reg, hinterest]
    unfold unsentCount
    split
    · rename_i hsending
      exact iff_of_true hsending (hremains hsending)
    · rename_i hsending
      exact iff_of_false hsending (Nat.lt_irrefl 0)
  · intro hdone
    rw [← Bool.not_eq_true]
    intro hsending
    have hpos := hremains hsending
    unfold unsentCount at hbalance
    rw [if_pos hsending] at hbalance
    omega

theorem file_transfer_exact_in_pieces :
    ∃ w', streamMachine.run fileConnection
        (.sendFile 9 1 4 (.ok 1) :: [.err .ewouldblock, .ok 2, .ok 1].map .handleWrite) = some w' ∧
      w'.conn.fileToSend.fdOffset = 5 ∧ w'.conn.sendingFile = false ∧
      w'.sent = fileConnection.sent ++ ((fileConnection.files 9).drop 1).take 4 := by
  have hend : (streamMachine.run fileConnection
      (.sendFile 9 1 4 (.ok 1) :: [.err .ewouldblock, .ok 2, .ok 1].map .handleWrite)).map
      (fun w => w.conn.fileToSend.fdOffset) = some 5 := by
    decide +kernel
  obtain ⟨w', hrun, hoffset⟩ := Option.map_eq_some_iff.mp hend
  obtain ⟨⟨hsent, -⟩, -, -, hdone, -⟩ := file_transfer_exact fileConnection
    (openConnection_drained () 5 64 _ EPollPoller.empty _ rfl rfl) 9 1 4 (by decide) (by decide)
    (by decide +kernel) _ _ w' hrun
  rw [hoffset] at hsent hdone
  exact ⟨w', hrun, hoffset, hdone rfl, hsent⟩

/-! ### Progress -/

/-- The bytes of the file behind the offset. -/
def fileLeft (files : Nat → Bytes) (file : FileToSend) : Nat :=
  (files file.fdToSend).length - file.fdOffset.toNat

/-- The results of a `sendfile`: bytes that the file has, none at its end, or an error. -/
def sendfileAllowed (files : Nat → Bytes) (file : FileToSend) : SysResult → Prop
  | .ok n => 0 ≤ file.fdOffset ∧ n ≤ min file.count (fileLeft files file) ∧
      (n = 0 → fileLeft files file = 0 ∨ file.count = 0)
  | .err _ => True

instance (files : Nat → Bytes) (file : FileToSend) : (r : SysResult) → Decidable (sendfileAllowed files file r)
  | .ok _ => inferInstanceAs (Decidable (_ ∧ _ ∧ (_ → _)))
  | .err _ => isTrue trivial

/-- The runs of `sendFile` and write events, with nothing else to send. -/
def transferMachine : Machine (ConnContext κ) StreamStep where
  next w
    | .send _ _ => none
    | .sendFile fd offset count r =>
      if sendfileAllowed w.files ⟨fd, offset, count⟩ r then some (w.sendFile fd offset count r) else none
    | .handleWrite r =>
      if sendfileAllowed w.files w.conn.fileToSend r then some (w.handleWrite r) else none

/-- The range that the step passes to `sendfile`, and the result. -/
def sendfileCall (w : ConnContext κ) : StreamStep → Option (FileToSend × SysResult)
  | .send _ _ => none
  | .sendFile fd offset count r =>
    if w.conn.state = .kConnected then some (⟨fd, offset, count⟩, r) else none
  | .handleWrite r =>
    if w.conn.channel.isWriting = true ∧ w.conn.outputBuffer.readable = [] ∧ w.conn.sendingFile = true ∧
        w.conn.state = .kConnected then some (w.conn.fileToSend, r) else none

/-- The transfer has ended and no write event follows. -/
def TransferEnded (w : ConnContext κ) : Prop :=
  w.conn.sendingFile = false ∧ (¬RegisteredForWriting w ∨ w.conn.state = .kDisConnected)

/-- A `sendfile` that does not report `EWOULDBLOCK` decreases `count_` or ends the transfer. -/
def Progresses (w : ConnContext κ) (a : StreamStep) : Prop :=
  ∀ file r, sendfileCall w a = some (file, r) → r ≠ .err .ewouldblock →
    ∀ w', transferMachine.next w a = some w' → w'.conn.fileToSend.count < file.count ∨ TransferEnded w'

/-- A result that brings the transfer forward, or is to be tried again. -/
def advances (count : Nat) (writing : Bool) : SysResult → Prop
  | .ok n => 0 < n ∨ count = 0
  | .err e => e = .ewouldblock ∨ ((e = .epipe ∨ e = .econnreset) ∧ writing = false)

instance (count : Nat) (writing : Bool) : (r : SysResult) → Decidable (advances count writing r)
  | .ok _ => inferInstanceAs (Decidable (_ ∨ _))
  | .err _ => inferInstanceAs (Decidable (_ ∨ _ ∧ _))

/-- `sendfile` takes a byte, has nothing to take, or finds the connection broken before write
interest is on. -/
def sendfileAdvances (w : ConnContext κ) (a : StreamStep) : Prop :=
  ∀ call ∈ sendfileCall w a, advances call.1.count w.conn.channel.isWriting call.2

instance (w : ConnContext κ) (a : StreamStep) : Decidable (sendfileAdvances w a) := by
  unfold sendfileAdvances
  infer_instance

namespace Output

variable {o : Output}

/-- What one `sendfile` achieves. -/
theorem sendFileInLoop_progress_iff (hstate : o.state = .kConnected) (hsending : o.sending = true)
    (files : Nat → Bytes) {r : SysResult} (hr : r ≠ .err .ewouldblock) :
    ((o.sendFileInLoop files r).file.count < o.file.count ∨
      ((o.sendFileInLoop files r).sending = false ∧ (o.sendFileInLoop files r).writing = false)) ↔
    advances o.file.count o.writing r := by
  unfold Output.sendFileInLoop
  rw [if_neg (by simp [hstate]), if_pos hsending]
  cases r with
  | ok n =>
    dsimp only
    split
    · rename_i hlast
      refine iff_of_true (Or.inr ⟨rfl, rfl⟩) ?_
      change 0 < n ∨ o.file.count = 0
      omega
    · rename_i hmore
      unfold awaitFile
      rw [if_neg (by omega)]
      change (o.file.count - n < o.file.count ∨ (o.sending = false ∧ true = false)) ↔ 0 < n ∨ o.file.count = 0
      simp only [Bool.true_eq_false, and_false, or_false]
      omega
  | err e =>
    have hblock : e ≠ .ewouldblock := fun he => hr (by rw [he])
    have hadvances : advances o.file.count o.writing (.err e) ↔
        (e = .epipe ∨ e = .econnreset) ∧ o.writing = false := by
      simp [advances, hblock]
    rw [hadvances]
    dsimp only
    split
    · rename_i hbroken
      simp [hbroken]
    · rename_i hother
      have hcount : (o.awaitFile o.file.count).file.count = o.file.count := by
        unfold awaitFile
        split <;> rfl
      have hkeeps : (o.awaitFile o.file.count).sending = true := by
        unfold awaitFile
        split <;> exact hsending
      simp [hcount, hkeeps, hother]

end Output

/-- All that a step of a transfer can do, seen in the view. -/
lemma transfer_trans {files : Nat → Bytes} {w w' : ConnContext κ} {o : Output} {a : StreamStep}
    (h : Shows files w o) (hnext : transferMachine.next w a = some w') : Shows files w' (o.step files a) := by
  cases a with
  | send data r => cases hnext
  | sendFile fd offset count r =>
    simp only [transferMachine, Option.ite_none_right_eq_some, Option.some.injEq] at hnext
    obtain ⟨-, rfl⟩ := hnext
    exact h.sendFile fd offset count r
  | handleWrite r =>
    simp only [transferMachine, Option.ite_none_right_eq_some, Option.some.injEq] at hnext
    obtain ⟨-, rfl⟩ := hnext
    exact h.handleWrite r

/-- An open connection whose buffer is empty. -/
structure FileOnly (files : Nat → Bytes) (w : ConnContext κ) : Prop where
  shows : Shows files w (outputOf w)
  connected : w.conn.state = .kConnected
  empty : w.conn.outputBuffer.readable = []

lemma FileOnly.handleWrite {files : Nat → Bytes} {w : ConnContext κ} (h : FileOnly files w) (r : SysResult) :
    (outputOf w).handleWrite files r = if w.conn.channel.isWriting = true ∧ w.conn.sendingFile = true then
      (outputOf w).sendFileInLoop files r else outputOf w :=
  (outputOf w).handleWrite_empty h.empty files r

lemma FileOnly.next {files : Nat → Bytes} {w w' : ConnContext κ} {a : StreamStep} (h : FileOnly files w)
    (hnext : transferMachine.next w a = some w') : FileOnly files w' := by
  have hshows := transfer_trans h.shows hnext
  have hstate : ((outputOf w).step files a).state = .kConnected := by
    cases a with
    | send data r => cases hnext
    | sendFile fd offset count r => simp [Output.step, Output.sendFile, outputOf, h.connected]
    | handleWrite r =>
      rw [Output.step, Output.handleWrite_state]
      exact h.connected
  have hempty : ((outputOf w).step files a).buffered = [] := by
    cases a with
    | send data r => cases hnext
    | sendFile fd offset count r => simp [Output.step, Output.sendFile, outputOf, h.connected, h.empty]
    | handleWrite r =>
      rw [Output.step, h.handleWrite r]
      split
      · rw [Output.sendFileInLoop_buffered]
        exact h.empty
      · exact h.empty
  rw [← hshows.view] at hstate hempty hshows
  exact ⟨hshows, hstate, hempty⟩

/-- A step that calls `sendfile` is a `sendFileInLoop` for the range that it passes. -/
lemma FileOnly.step_eq {files : Nat → Bytes} {w : ConnContext κ} {a : StreamStep} {file : FileToSend}
    {r : SysResult} (h : FileOnly files w) (hcall : sendfileCall w a = some (file, r)) :
    (outputOf w).step files a =
      { outputOf w with sending := true, file := file }.sendFileInLoop files r := by
  cases a with
  | send data r => cases hcall
  | sendFile fd offset count r =>
    rw [sendfileCall, if_pos h.connected, Option.some.injEq, Prod.mk.injEq] at hcall
    obtain ⟨rfl, rfl⟩ := hcall
    exact if_pos h.connected
  | handleWrite r =>
    simp only [sendfileCall, Option.ite_none_right_eq_some, Option.some.injEq, Prod.mk.injEq] at hcall
    obtain ⟨⟨hwriting, -, hsending, -⟩, rfl, rfl⟩ := hcall
    rw [Output.step, h.handleWrite r, if_pos ⟨hwriting, hsending⟩]
    congr 1
    simp [outputOf, hsending]

lemma FileOnly.transferEnded_iff {files : Nat → Bytes} {w : ConnContext κ} (h : FileOnly files w) :
    TransferEnded w ↔ (outputOf w).sending = false ∧ (outputOf w).writing = false := by
  unfold TransferEnded
  rw [registeredForWriting_iff h.shows.reg, h.connected]
  simp [outputOf]

lemma progresses_iff {files : Nat → Bytes} {w w' : ConnContext κ} {a : StreamStep} (h : FileOnly files w)
    (hnext : transferMachine.next w a = some w') : Progresses w a ↔ sendfileAdvances w a := by
  cases hcall : sendfileCall w a with
  | none =>
    refine iff_of_true (fun file r hsome => ?_) (fun call hsome => ?_)
    · rw [hcall] at hsome
      cases hsome
    · rw [hcall] at hsome
      cases hsome
  | some call =>
    obtain ⟨file, r⟩ := call
    have hadvances : sendfileAdvances w a ↔ advances file.count w.conn.channel.isWriting r := by
      simp [sendfileAdvances, hcall]
    rw [hadvances]
    by_cases hr : r = .err .ewouldblock
    · refine iff_of_true (fun file' r' hsome hne => ?_) (by rw [hr]; exact Or.inl rfl)
      rw [hcall, Option.some.injEq, Prod.mk.injEq] at hsome
      exact absurd (hsome.2.symm.trans hr) hne
    · have hview := (transfer_trans h.shows hnext).view
      rw [h.step_eq hcall] at hview
      have hiff := Output.sendFileInLoop_progress_iff
        (o := { outputOf w with sending := true, file := file }) h.connected rfl files hr
      rw [← hview, ← (h.next hnext).transferEnded_iff] at hiff
      refine Iff.trans ?_ hiff
      constructor
      · intro hprogress
        exact hprogress file r hcall hr w' hnext
      · intro hdone file' r' hsome _ w'' hnext'
        rw [hcall, Option.some.injEq, Prod.mk.injEq] at hsome
        rw [hnext, Option.some.injEq] at hnext'
        rw [← hsome.1, ← hnext']
        exact hdone

/-- In every run of file transfers each `sendfile` makes progress if and only if each of them takes
a byte, has nothing to take, or finds the connection broken before write interest is on. -/
theorem file_transfer_progress_iff (w : ConnContext κ) (hw : Drained w) (steps : List StreamStep)
    (w' : ConnContext κ) (hrun : transferMachine.run w steps = some w') :
    transferMachine.Meets Progresses w steps ↔ transferMachine.Meets sendfileAdvances w steps := by
  have hstart : FileOnly w.files w := ⟨hw.shows, hw.connected, hw.empty⟩
  exact transferMachine.meets_iff_meets (I := FileOnly w.files) (fun _ _ _ hs _ hnext => hs.next hnext)
    (fun _ _ _ hs hnext => progresses_iff hs hnext) hstart hrun

/-- A range that ends inside the file, in two pieces. -/
def insideFile : List StreamStep :=
  [.sendFile 9 2 4 (.ok 3), .handleWrite (.err .ewouldblock), .handleWrite (.ok 1)]

theorem file_transfer_progress_inside_file :
    (∃ w', transferMachine.run fileConnection insideFile = some w' ∧ w'.conn.sendingFile = false) ∧
      transferMachine.Meets Progresses fileConnection insideFile := by
  have hend : (transferMachine.run fileConnection insideFile).map (fun w => w.conn.sendingFile) =
      some false := by
    decide +kernel
  obtain ⟨w', hrun, hsending⟩ := Option.map_eq_some_iff.mp hend
  exact ⟨⟨w', hrun, hsending⟩, (file_transfer_progress_iff fileConnection
    (openConnection_drained () 5 64 _ EPollPoller.empty _ rfl rfl) insideFile w' hrun).mpr
    (by decide +kernel)⟩

/-- A range of eight bytes of a file of six: at the end of the file `sendfile` returns 0. -/
def pastEndOfFile : List StreamStep := [.sendFile 9 0 8 (.ok 6), .handleWrite (.ok 0)]

/-- The write event at the end of the file changes nothing, and the next one will do the same. -/
theorem file_transfer_spins :
    ¬∀ (w : ConnContext Unit), Drained w → ∀ (steps : List StreamStep) (w' : ConnContext Unit),
      transferMachine.run w steps = some w' → transferMachine.Meets Progresses w steps := by
  intro hall
  have hend : (transferMachine.run fileConnection pastEndOfFile).isSome = true := by
    decide +kernel
  obtain ⟨w', hrun⟩ := Option.isSome_iff_exists.mp hend
  obtain ⟨-, hrest⟩ := hall fileConnection (openConnection_drained () 5 64 _ EPollPoller.empty _ rfl rfl)
    pastEndOfFile w' hrun
  have hfirst : (transferMachine.next fileConnection (.sendFile 9 0 8 (.ok 6))).map
      (fun v => (sendfileCall v (.handleWrite (.ok 0)), (transferMachine.next v (.handleWrite (.ok 0))).map
        (fun v' => (v'.conn.fileToSend.count, v'.conn.sendingFile)))) =
      some (some (⟨9, 6, 2⟩, .ok 0), some (2, true)) := by
    decide +kernel
  obtain ⟨v, hv, hv'⟩ := Option.map_eq_some_iff.mp hfirst
  obtain ⟨hcall, hnext⟩ := Prod.mk.inj hv'
  obtain ⟨v', hnext, hsame⟩ := Option.map_eq_some_iff.mp hnext
  obtain ⟨hcount, hsending⟩ := Prod.mk.inj hsame
  rcases (hrest v hv).1 _ _ hcall (by simp) v' hnext with hless | ⟨hended, -⟩
  · rw [hcount] at hless
    exact absurd hless (by decide)
  · rw [hsending] at hended
    cases hended

end MylibMuduo.Proofs
