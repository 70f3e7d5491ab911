import MylibMuduo.Proofs.OutputOrder

/-!
# Write interest for strings and files

One bit of the interest mask asks for the write events of the buffer and of the file. It stays on
as long as something is pending, unless the source that ends first turns it off for both.
-/

namespace MylibMuduo.Proofs

variable {κ : Type}

/-- The system call takes all of the `len` bytes. -/
def takesAll (len : Nat) : SysResult → Bool
  | .ok n => decide (len ≤ n)
  | .err _ => false

/-- Pending output has a write event that will send it. -/
def PendingServed (w : ConnContext κ) : Prop :=
  w.conn.outputBuffer.readable ≠ [] ∨ (outputOf w).Transferring → RegisteredForWriting w

/-- The buffer does not end before the file, and the file does not end before the buffer. -/
def keepsInterest (w : ConnContext κ) : StreamStep → Prop
  | .send _ _ => True
  | .sendFile _ _ count r => ¬((outputOf w).buffered ≠ [] ∧ takesAll count r = true)
  | .handleWrite r =>
    ¬((outputOf w).buffered ≠ [] ∧ (outputOf w).Transferring ∧
      takesAll (outputOf w).buffered.length r = true)

instance (w : ConnContext κ) : (a : StreamStep) → Decidable (keepsInterest w a)
  | .send _ _ => isTrue trivial
  | .sendFile _ _ _ _ => inferInstanceAs (Decidable (¬(_ ∧ _)))
  | .handleWrite _ => inferInstanceAs (Decidable (¬(_ ∧ _ ∧ _)))

namespace Output

/-- `PendingServed` in the view. -/
def Served (o : Output) : Prop := o.buffered ≠ [] ∨ o.Transferring → o.writing = true

variable {o : Output}

lemma Served.append (h : o.Served) (rest : Bytes) : (o.append rest).Served := by
  unfold Output.append
  split
  · exact h
  · exact fun _ => rfl

lemma awaitFile_served {remaining : Nat} (hpos : 0 < remaining) : (o.awaitFile remaining).Served := by
  unfold Output.awaitFile
  rw [if_neg (by omega)]
  exact fun _ => rfl

lemma Served.sendInLoop (h : o.Served) (hstate : o.state = .kConnected) (data : Bytes) (r : SysResult)
    (hr : transient data.length r = true) : (o.sendInLoop data r).Served := by
  unfold Output.sendInLoop
  rw [if_neg (by simp [hstate])]
  split
  · cases r with
    | ok n =>
      unfold Output.writeDirect
      dsimp only
      split
      · exact Served.append (o := { o with sent := o.sent ++ data.take n }.complete) h _
      · exact Served.append (o := { o with sent := o.sent ++ data.take n }) h _
    | err e =>
      have he : e = .ewouldblock := of_decide_eq_true hr
      rw [he]
      exact h.append data
  · exact h.append data

/-- The file turns the interest off when it ends, whatever the buffer holds. -/
lemma sendFileInLoop_served_iff (hstate : o.state = .kConnected) (hsending : o.sending = true)
    (hbuffer : o.buffered ≠ [] → o.writing = true) (files : Nat → Bytes) (r : SysResult)
    (hr : transient o.file.count r = true) :
    (o.sendFileInLoop files r).Served ↔ ¬(o.buffered ≠ [] ∧ takesAll o.file.count r = true) := by
  unfold Output.sendFileInLoop
  rw [if_neg (by simp [hstate]), if_pos hsending]
  cases r with
  | ok n =>
    dsimp only
    split
    · rename_i hlast
      simp only [takesAll, hlast, decide_true, and_true, ne_eq, not_not]
      constructor
      · intro hserved
        by_contra hne
        exact Bool.false_ne_true (hserved (Or.inl hne))
      · rintro hempty (hne | ⟨hsend, -⟩)
        · exact absurd hempty hne
        · exact absurd hsend Bool.false_ne_true
    · rename_i hmore
      refine iff_of_true (awaitFile_served (by omega)) ?_
      rintro ⟨-, hall⟩
      exact hmore (of_decide_eq_true hall)
  | err e =>
    have he : e = .ewouldblock := of_decide_eq_true hr
    rw [he]
    dsimp only
    rw [if_neg (by simp)]
    refine iff_of_true ?_ (by simp [takesAll])
    unfold Output.awaitFile
    split
    · rename_i hzero
      rintro (hne | ⟨-, hpos⟩)
      · exact hbuffer hne
      · omega
    · exact fun _ => rfl

/-- The buffer turns the interest off when it ends, whether a file waits or not. -/
lemma drain_served_iff (hwriting : o.writing = true) (n : Nat) :
    (o.drain n).Served ↔ ¬(o.Transferring ∧ o.buffered.length ≤ n) := by
  unfold Output.drain
  dsimp only
  split
  · rename_i hlast
    constructor
    · rintro hserved ⟨hfile, -⟩
      exact Bool.false_ne_true (hserved (Or.inr hfile))
    · rintro hno (hne | hfile)
      · exact absurd hlast hne
      · exact absurd ⟨hfile, List.drop_eq_nil_iff.mp hlast⟩ hno
  · rename_i hmore
    exact iff_of_true (fun _ => hwriting) (fun hall => hmore (List.drop_eq_nil_iff.mpr hall.2))

lemma handleWrite_served_iff (h : o.Served) (hstate : o.state = .kConnected) (files : Nat → Bytes)
    (r : SysResult) (hr : transient o.offered r = true) : (o.handleWrite files r).Served ↔
      ¬(o.buffered ≠ [] ∧ o.Transferring ∧ takesAll o.buffered.length r = true) := by
  unfold Output.handleWrite
  split
  · rename_i hbuffer
    have hlen : ¬o.buffered.length ≤ 0 := by simpa using hbuffer.2
    match r with
    | .ok (n + 1) =>
      dsimp only
      rw [if_neg (by simp [hstate]), drain_served_iff hbuffer.1]
      simp [takesAll, hbuffer.2]
    | .ok 0 => exact iff_of_true h (by simpa [takesAll] using fun _ _ => hbuffer.2)
    | .err e => exact iff_of_true h (by simp [takesAll])
  · rename_i hbuffer
    have hempty : o.buffered = [] := by
      by_contra hne
      exact hbuffer ⟨h (Or.inl hne), hne⟩
    refine iff_of_true ?_ (fun hall => hall.1 hempty)
    split
    · rename_i hfile
      rw [offered_empty hempty] at hr
      exact (sendFileInLoop_served_iff hstate hfile.2 (fun hne => absurd hempty hne) files r hr).mpr
        (fun hall => hall.1 hempty)
    · exact h

end Output

/-- A step keeps the pending output served exactly if it meets `keepsInterest`. -/
lemma served_step_iff {w : ConnContext κ} {a : StreamStep} (h : (outputOf w).Served)
    (hstate : (outputOf w).state = .kConnected) (files : Nat → Bytes) (ha : (outputOf w).Allowed a) :
    ((outputOf w).step files a).Served ↔ keepsInterest w a := by
  cases a with
  | send data r =>
    change ((outputOf w).send data r).Served ↔ True
    unfold Output.send
    rw [if_pos hstate]
    exact iff_of_true (h.sendInLoop hstate data r ha) trivial
  | sendFile fd offset count r =>
    change ((outputOf w).sendFile files ⟨fd, offset, count⟩ r).Served ↔ _
    unfold Output.sendFile
    rw [if_pos hstate]
    exact Output.sendFileInLoop_served_iff
      (o := { outputOf w with sending := true, file := ⟨fd, offset, count⟩ }) hstate rfl
      (fun hne => h (Or.inl hne)) files r ha
  | handleWrite r => exact Output.handleWrite_served_iff h hstate files r ha

lemma step_state {o : Output} (hstate : o.state = .kConnected) (files : Nat → Bytes) (a : StreamStep) :
    (o.step files a).state = .kConnected := by
  cases a with
  | send data r => simp [Output.step, Output.send, hstate]
  | sendFile fd offset count r => simp [Output.step, Output.sendFile, hstate]
  | handleWrite r => simp [Output.step, hstate]

lemma pendingServed_iff {files : Nat → Bytes} {w : ConnContext κ} (h : Shows files w (outputOf w)) :
    PendingServed w ↔ (outputOf w).Served := by
  unfold PendingServed Output.Served
  rw [registeredForWriting_iff h.reg]
  rfl

/-- In every run of an open connection the pending output has write interest in all states if and
only if neither the buffer nor the file ends while the other one is pending. -/
theorem pending_output_registered_iff (w : ConnContext κ) (hw : Drained w) (steps : List StreamStep)
    (w' : ConnContext κ) (hrun : streamMachine.run w steps = some w') :
    streamMachine.Always PendingServed w steps ↔ streamMachine.Meets keepsInterest w steps := by
  have hserved : PendingServed w := by
    rintro (hne | ⟨hsending, -⟩)
    · exact absurd hw.empty hne
    · exact absurd (hw.noFile.symm.trans hsending) Bool.false_ne_true
  refine streamMachine.always_iff_meets
    (I := fun v => Shows w.files v (outputOf v) ∧ (outputOf v).state = .kConnected) ?_
    ⟨hw.shows, hw.connected⟩ hserved hrun
  intro s a s' hs hP hnext
  obtain ⟨hallowed, hshows⟩ := stream_trans hs.1 hnext
  have hiff := served_step_iff ((pendingServed_iff hs.1).mp hP) hs.2 w.files hallowed
  have hstate := step_state hs.2 w.files a
  rw [← hshows.view] at hiff hstate hshows
  exact ⟨(pendingServed_iff hshows).trans hiff, fun _ => ⟨hshows, hstate⟩⟩

/-- A string waits, a file is asked for and waits behind it, and the string goes out in part. -/
def stringAndFilePending : List StreamStep :=
  [.send [1, 2, 3] (.ok 1), .sendFile 9 0 4 (.ok 1), .handleWrite (.ok 1), .handleWrite (.err .ewouldblock)]

theorem pending_output_registered_both_pending :
    (∃ w', streamMachine.run fileConnection stringAndFilePending = some w' ∧
      w'.conn.outputBuffer.readable = [3] ∧ (outputOf w').Transferring) ∧
    streamMachine.Always PendingServed fileConnection stringAndFilePending := by
  have hend : (streamMachine.run fileConnection stringAndFilePending).map
      (fun w => (w.conn.outputBuffer.readable, decide (outputOf w).Transferring)) = some ([3], true) := by
    decide +kernel
  obtain ⟨w', hrun, hpending⟩ := Option.map_eq_some_iff.mp hend
  obtain ⟨hbuffer, hfile⟩ := Prod.mk.inj hpending
  refine ⟨⟨w', hrun, hbuffer, of_decide_eq_true hfile⟩, ?_⟩
  exact (pending_output_registered_iff fileConnection
    (openConnection_drained () 5 64 _ EPollPoller.empty _ rfl rfl) stringAndFilePending w' hrun).mpr
    (by decide +kernel)

/-- The buffer ends and turns the write interest off while half of the file is unsent. -/
theorem drained_buffer_strands_file :
    ¬∀ (w : ConnContext Unit), Drained w → ∀ (steps : List StreamStep) (w' : ConnContext Unit),
      streamMachine.run w steps = some w' → PendingServed w' := by
  intro hall
  have hend : (streamMachine.run fileConnection stringDuringFile).map
      (fun w => (decide (outputOf w).Transferring, w.poller.interest w.conn.channel.fd)) =
      some (true, some (⟨true, true, false, false, false⟩, ())) := by
    decide +kernel
  obtain ⟨w', hrun, hw'⟩ := Option.map_eq_some_iff.mp hend
  obtain ⟨hfile, hinterest⟩ := Prod.mk.inj hw'
  obtain ⟨e, he, hout⟩ := hall fileConnection (openConnection_drained () 5 64 _ EPollPoller.empty _ rfl rfl)
    stringDuringFile w' hrun (Or.inr (of_decide_eq_true hfile))
  rw [hinterest, Option.some.injEq, Prod.mk.injEq] at he
  rw [← he.1] at hout
  exact Bool.false_ne_true hout

end MylibMuduo.Proofs
