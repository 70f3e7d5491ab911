import MylibMuduo.Proofs.WriteInterest

/-!
# Strings in the buffer while files are sent

`OutputKept` follows the bytes of the strings on a connection that sends files as well: those that
the kernel has taken, which may lie between the bytes of files, and those in the output buffer,
which have write interest. `sendInLoop` and `handleWrite` keep it. `sendFileInLoop` does not touch
the buffer, but at the end of a transfer it turns the write interest off.
-/

namespace MylibMuduo.Proofs

variable {κ : Type}

namespace Output

variable {o : Output}

/-- A step hands `taken` to the kernel, out of the buffered bytes followed by `data`. What it leaves is
buffered and has write interest. -/
structure Hands (o o' : Output) (data taken : Bytes) : Prop where
  sent : o'.sent = o.sent ++ taken
  stream : o.buffered ++ data = taken ++ o'.buffered
  served : o'.buffered ≠ [] → o'.writing = true

lemma append_hands (hserved : o.buffered ≠ [] → o.writing = true) (rest : Bytes) :
    Hands o (o.append rest) rest [] := by
  unfold Output.append
  split
  · rename_i hrest
    exact ⟨(List.append_nil _).symm, by rw [hrest, List.append_nil, List.nil_append], hserved⟩
  · exact ⟨(List.append_nil _).symm, rfl, fun _ => rfl⟩

lemma writeDirect_hands (hempty : o.buffered = []) (data : Bytes) (n : Nat) :
    Hands o (o.writeDirect data n) data (data.take n) := by
  -- the notification changes neither the buffer nor the kernel's bytes
  have hrest : ∀ o₁ : Output, o₁.buffered = [] → o₁.sent = o.sent ++ data.take n →
      Hands o (o₁.append (data.drop n)) data (data.take n) := by
    intro o₁ hempty₁ hsent
    have h := append_hands (o := o₁) (fun hne => absurd hempty₁ hne) (data.drop n)
    refine ⟨?_, ?_, h.served⟩
    · rw [h.sent, hsent, List.append_nil]
    · have hstream := h.stream
      rw [hempty₁, List.nil_append, List.nil_append] at hstream
      rw [hempty, List.nil_append, ← hstream, List.take_append_drop]
  unfold Output.writeDirect
  dsimp only
  split
  · exact hrest _ hempty rfl
  · exact hrest _ hempty rfl

lemma sendInLoop_hands (hserved : o.buffered ≠ [] → o.writing = true) (hstate : o.state = .kConnected)
    (data : Bytes) (r : SysResult) (hr : writeAllowed data.length r = true) :
    ∃ taken, Hands o (o.sendInLoop data r) data taken := by
  unfold Output.sendInLoop
  rw [if_neg (by simp [hstate])]
  split
  · rename_i hfast
    cases r with
    | ok n => exact ⟨_, writeDirect_hands hfast.2 data n⟩
    | err e =>
      have he := of_decide_eq_true hr
      dsimp only
      rw [if_neg (by simp [he.1, he.2])]
      exact ⟨_, append_hands hserved data⟩
  · exact ⟨_, append_hands hserved data⟩

lemma drain_hands (hwriting : o.writing = true) (n : Nat) : Hands o (o.drain n) [] (o.buffered.take n) := by
  have hsplit : o.buffered ++ [] = o.buffered.take n ++ o.buffered.drop n := by
    rw [List.append_nil, List.take_append_drop]
  unfold Output.drain
  dsimp only
  split
  · rename_i hlast
    exact ⟨rfl, hsplit, fun hne => absurd hlast hne⟩
  · exact ⟨rfl, hsplit, fun _ => hwriting⟩

lemma awaitFile_writing (hserved : o.buffered ≠ [] → o.writing = true) (remaining : Nat)
    (hne : o.buffered ≠ []) : (o.awaitFile remaining).writing = true := by
  unfold Output.awaitFile
  split
  · exact hserved hne
  · rfl

lemma awaitFile_sent (remaining : Nat) : (o.awaitFile remaining).sent = o.sent := by
  unfold Output.awaitFile
  split
  · rfl
  · rfl

/-- The interest of buffered bytes survives a `sendfile` that does not end the transfer. -/
lemma sendFileInLoop_writing (hserved : o.buffered ≠ [] → o.writing = true) (files : Nat → Bytes) (r : SysResult)
    (hends : ¬(o.state = .kConnected ∧ o.sending = true ∧ takesAll o.file.count r = true))
    (hopen : o.state = .kConnected ∨ o.state = .kDisConnecting) (hne : o.buffered ≠ []) :
    (o.sendFileInLoop files r).writing = true := by
  unfold Output.sendFileInLoop
  split
  · exact hserved hne
  rename_i hclosing
  have hstate : o.state = .kConnected := hopen.resolve_right fun hdis => hclosing (Or.inr hdis)
  split
  · rename_i hsending
    cases r with
    | ok n =>
      dsimp only
      split
      · rename_i hall
        exact absurd ⟨hstate, hsending, decide_eq_true hall⟩ hends
      · exact awaitFile_writing (o := o.advanceFile files n) hserved _ hne
    | err e =>
      dsimp only
      split
      · exact hserved hne
      · exact awaitFile_writing hserved _ hne
  · exact awaitFile_writing hserved _ hne

lemma sendFileInLoop_sent (files : Nat → Bytes) (r : SysResult) :
    ∃ bytes, (o.sendFileInLoop files r).sent = o.sent ++ bytes := by
  unfold Output.sendFileInLoop
  split
  · exact ⟨[], (List.append_nil _).symm⟩
  split
  · cases r with
    | ok n =>
      dsimp only
      split
      · exact ⟨_, rfl⟩
      · exact ⟨_, awaitFile_sent _⟩
    | err e =>
      dsimp only
      split
      · exact ⟨[], (List.append_nil _).symm⟩
      · exact ⟨[], by rw [awaitFile_sent, List.append_nil]⟩
  · exact ⟨[], by rw [awaitFile_sent, List.append_nil]⟩

end Output

/-- The bytes that the kernel accepts in a step from `w` to `w'`. -/
def newBytes (w w' : ConnContext κ) : Bytes := w'.sent.drop w.sent.length

/-- `written` are the bytes of strings that the kernel has taken, in their order among the bytes of
files; followed by the buffered ones they are `payload`. -/
structure OutputKept (w : ConnContext κ) (written payload : Bytes) : Prop where
  reg : Registered w
  buffer : BufferInv w.conn.outputBuffer
  served : w.conn.outputBuffer.readable ≠ [] → w.conn.channel.isWriting = true
  stream : written ++ w.conn.outputBuffer.readable = payload
  inKernel : written.Sublist w.sent

/-- `sendFileInLoop` with the result `r` ends the transfer and turns the write interest off, although
bytes are buffered. -/
def fileCutsOutput (w : ConnContext κ) (r : SysResult) : Prop :=
  w.conn.outputBuffer.readable ≠ [] ∧ w.conn.state = .kConnected ∧ w.conn.sendingFile = true ∧
    takesAll w.conn.fileToSend.count r = true

namespace OutputKept

variable {w w' : ConnContext κ} {written payload : Bytes}

lemma shows (h : OutputKept w written payload) : Shows w.files w (outputOf w) := ⟨h.reg, h.buffer, rfl, rfl⟩

/-- Changes that concern neither the channel nor the output. -/
lemma congr (h : OutputKept w written payload) (hpoller : w'.poller = w.poller) (hkey : w'.key = w.key)
    (hchannel : w'.conn.channel = w.conn.channel) (hbuffer : w'.conn.outputBuffer = w.conn.outputBuffer)
    (hsent : w'.sent = w.sent) : OutputKept w' written payload := by
  refine ⟨⟨?_, ?_, ?_⟩, ?_, ?_, ?_, ?_⟩
  · rw [hpoller, hkey, hchannel]
    exact h.reg.book
  · rw [hchannel]
    exact h.reg.added
  · rw [hchannel]
    exact h.reg.reading
  · rw [hbuffer]
    exact h.buffer
  · rw [hbuffer, hchannel]
    exact h.served
  · rw [hbuffer]
    exact h.stream
  · rw [hsent]
    exact h.inKernel

lemma of_hands (h : OutputKept w written payload) {o' : Output} {data taken : Bytes}
    (hshows : Shows w.files w' o') (hhands : (outputOf w).Hands o' data taken) :
    OutputKept w' (written ++ newBytes w w') (payload ++ data) := by
  obtain rfl := hshows.view
  have hsent : w'.sent = w.sent ++ taken := hhands.sent
  have hstream : w.conn.outputBuffer.readable ++ data = taken ++ w'.conn.outputBuffer.readable := hhands.stream
  have hnew : newBytes w w' = taken := by rw [newBytes, hsent, List.drop_left]
  refine ⟨hshows.reg, hshows.buffer, hhands.served, ?_, ?_⟩
  · rw [hnew, List.append_assoc, ← hstream, ← List.append_assoc, h.stream]
  · rw [hnew, hsent]
    exact h.inKernel.append (List.Sublist.refl taken)

theorem sendInLoop (h : OutputKept w written payload) (hstate : w.conn.state = .kConnected) (data : Bytes)
    (r : SysResult) (hr : writeAllowed data.length r = true) :
    OutputKept (w.sendInLoop data r) (written ++ newBytes w (w.sendInLoop data r)) (payload ++ data) := by
  obtain ⟨taken, hhands⟩ := Output.sendInLoop_hands (o := outputOf w) h.served hstate data r hr
  exact h.of_hands (h.shows.sendInLoop data r) hhands

theorem drainOutput (h : OutputKept w written payload) (hwriting : w.conn.channel.isWriting = true) (n : Nat) :
    OutputKept (drainOutput w n) (written ++ newBytes w (Proofs.drainOutput w n)) payload := by
  have hhands := Output.drain_hands (o := outputOf w) hwriting (n + 1)
  have hkept := h.of_hands (h.shows.drainOutput n) hhands
  rw [List.append_nil] at hkept
  exact hkept

/-- A `sendfile` that does not cut the output off leaves the strings alone. -/
theorem sendFileInLoop (h : OutputKept w written payload)
    (hopen : w.conn.state = .kConnected ∨ w.conn.state = .kDisConnecting) (r : SysResult)
    (hcut : ¬fileCutsOutput w r) : OutputKept (w.sendFileInLoop r) written payload := by
  have hshows := h.shows.sendFileInLoop r
  have hview := hshows.view
  have hbuffered : (w.sendFileInLoop r).conn.outputBuffer.readable = w.conn.outputBuffer.readable :=
    (congrArg Output.buffered hview).trans (Output.sendFileInLoop_buffered _ _ _)
  obtain ⟨bytes, hbytes⟩ := Output.sendFileInLoop_sent (o := outputOf w) w.files r
  have hsent : (w.sendFileInLoop r).sent = w.sent ++ bytes := (congrArg Output.sent hview).trans hbytes
  refine ⟨hshows.reg, hshows.buffer, ?_, ?_, ?_⟩
  · rw [hbuffered]
    intro hne
    have hends : ¬((outputOf w).state = .kConnected ∧ (outputOf w).sending = true ∧
        takesAll (outputOf w).file.count r = true) := fun hall => hcut ⟨hne, hall⟩
    exact (congrArg Output.writing hview).trans
      (Output.sendFileInLoop_writing (o := outputOf w) h.served w.files r hends hopen hne)
  · rw [hbuffered]
    exact h.stream
  · rw [hsent]
    exact h.inKernel.trans (List.sublist_append_left w.sent bytes)

/-- What `handleWrite` does: nothing, a drain of the buffer, or the file when the buffer is empty. -/
theorem handleWrite_cases (h : OutputKept w written payload) (r : SysResult) :
    w.handleWrite r = w ∨
      (∃ n, w.conn.outputBuffer.readable ≠ [] ∧ w.conn.channel.isWriting = true ∧
        w.handleWrite r = if (Proofs.drainOutput w n).conn.state = .kDisConnecting then
          (Proofs.drainOutput w n).shutDownInLoop else Proofs.drainOutput w n) ∨
      (w.conn.outputBuffer.readable = [] ∧ w.handleWrite r = w.sendFileInLoop r) := by
  by_cases hempty : w.conn.outputBuffer.readable = []
  · have hzero := (readable_eq_nil_iff _ h.buffer).mp hempty
    unfold ConnContext.handleWrite
    rw [if_neg (fun hbuffer => hbuffer.2 hzero)]
    split
    · exact Or.inr (Or.inr ⟨hempty, rfl⟩)
    · exact Or.inl rfl
  · have hwriting := h.served hempty
    have hbytes : w.conn.outputBuffer.readableBytes ≠ 0 :=
      fun hzero => hempty ((readable_eq_nil_iff _ h.buffer).mpr hzero)
    unfold ConnContext.handleWrite
    rw [if_pos ⟨hwriting, hbytes⟩]
    cases r with
    | ok n =>
      cases n with
      | zero => exact Or.inl rfl
      | succ n => exact Or.inr (Or.inl ⟨n, hempty, hwriting, rfl⟩)
    | err e => exact Or.inl rfl

end OutputKept

lemma OutputInv.kept {w : ConnContext κ} {payload : Bytes} (h : OutputInv w payload) :
    OutputKept w w.sent payload :=
  ⟨h.reg, h.buffer, h.writing.mpr, h.stream, List.Sublist.refl _⟩

end MylibMuduo.Proofs
