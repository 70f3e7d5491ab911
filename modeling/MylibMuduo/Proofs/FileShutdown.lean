import MylibMuduo.Proofs.FileTransfer
import MylibMuduo.Proofs.QueuedTasks

/-!
# Half-close behind a file

`shutdown` leaves the half-close to the end of the pending output. The buffer path of
`handleWrite` keeps that promise; the file path gives the transfer up as soon as it sees
`kDisConnecting`, leaves the write interest on and never comes back to the half-close.
-/

namespace MylibMuduo.Proofs

variable {κ : Type}

/-- The steps of a loop thread on a connection that sends a file: write events, messages of the
peer, and the calls of the application other than further output. -/
inductive FileCloseStep where
  | handleWrite (r : SysResult)
  | handleRead (data : Bytes)
  | retrieve (len : Nat)
  | shutdown
  deriving DecidableEq, Repr

/-- The peer does not close, and `sendfile` does not fail but for `EWOULDBLOCK`. -/
def fileCloseMachine : Machine (ConnContext κ) FileCloseStep where
  next w
    | .handleWrite r => if transient (offered w) r then some (w.handleWrite r) else none
    | .handleRead data => if data = [] then none else some (w.handleRead (.ok data) [] [])
    | .retrieve len => some (w.appCall (.retrieve len))
    | .shutdown => some w.shutdown

/-- No write event finds an unfinished transfer behind a `shutdown`. -/
def sentBeforeShutdown (w : ConnContext κ) : FileCloseStep → Prop
  | .handleWrite _ => ¬(w.conn.state = .kDisConnecting ∧ (outputOf w).Transferring)
  | _ => True

instance (w : ConnContext κ) : (a : FileCloseStep) → Decidable (sentBeforeShutdown w a)
  | .handleWrite _ => inferInstanceAs (Decidable (¬(_ ∧ _)))
  | .handleRead _ => isTrue trivial
  | .retrieve _ => isTrue trivial
  | .shutdown => isTrue trivial

namespace Output

/-- The stages of a transfer and the half-close behind it. An empty range is `nothing` from the
start. -/
inductive ClosingFile (files : Nat → Bytes) (o₀ : Output) (fd : Nat) (offset : Int) (count : Nat) (o : Output) :
    Prop
  | connected (h : Transfer files o₀ fd offset count o) (hwriting : o.writing = o.sending)
      (hopen : o.shutWr = false)
  | nothing (hstate : o.state = .kConnected) (hfile : ¬o.Transferring) (hwriting : o.writing = false)
      (hopen : o.shutWr = false) (hsent : o.sent = o₀.sent ++ ((files fd).drop offset.toNat).take count)
  | waiting (hstate : o.state = .kDisConnecting) (hfile : o.Transferring) (hempty : o.buffered = [])
      (hwriting : o.writing = true) (hopen : o.shutWr = false)
  | closed (hstate : o.state = .kDisConnecting) (hfile : ¬o.Transferring) (hwriting : o.writing = false)
      (hshut : o.shutWr = true) (hsent : o.sent = o₀.sent ++ ((files fd).drop offset.toNat).take count)

namespace ClosingFile

variable {files : Nat → Bytes} {o₀ o : Output} {fd : Nat} {offset : Int} {count : Nat}

/-- The last byte of a finished transfer is sent. -/
lemma sent_of_finished (h : Transfer files o₀ fd offset count o) (hdone : o.sending = false) :
    o.sent = o₀.sent ++ ((files fd).drop offset.toNat).take count := by
  have hbalance := h.balance
  rw [if_neg (by simp [hdone])] at hbalance
  have hcount : (o.file.fdOffset - offset).toNat = count := by omega
  rw [h.sent, hcount]

theorem shutdown (h : ClosingFile files o₀ fd offset count o) :
    ClosingFile files o₀ fd offset count o.shutdown := by
  unfold Output.shutdown
  cases h with
  | connected h hwriting hopen =>
    rw [if_pos h.connected]
    unfold Output.shutDownInLoop
    split
    · rename_i hon
      have hsending : o.sending = true := hwriting ▸ hon
      exact .waiting rfl ⟨hsending, h.remains hsending⟩ h.empty hon hopen
    · rename_i hoff
      have hdone : o.sending = false := by
        rw [← hwriting]
        exact Bool.not_eq_true _ ▸ hoff
      have hsent := sent_of_finished h hdone
      have hfile : ¬o.Transferring := fun hfile => Bool.false_ne_true (hdone.symm.trans hfile.1)
      exact .closed rfl hfile (hwriting.trans hdone) rfl hsent
  | nothing hstate hfile hwriting hopen hsent =>
    rw [if_pos hstate]
    unfold Output.shutDownInLoop
    rw [if_neg (by simp [hwriting])]
    exact .closed rfl hfile hwriting rfl hsent
  | waiting hstate hfile hempty hwriting hopen =>
    rw [if_neg (by simp [hstate])]
    exact .waiting hstate hfile hempty hwriting hopen
  | closed hstate hfile hwriting hshut hsent =>
    rw [if_neg (by simp [hstate])]
    exact .closed hstate hfile hwriting hshut hsent

/-- A write event that does not find an unfinished transfer behind a `shutdown`. -/
theorem handleWrite (h : ClosingFile files o₀ fd offset count o) (hoffset : 0 ≤ offset) (r : SysResult)
    (hr : transient o.offered r = true) (hok : ¬(o.state = .kDisConnecting ∧ o.Transferring)) :
    ClosingFile files o₀ fd offset count (o.handleWrite files r) := by
  cases h with
  | connected h hwriting hopen =>
    obtain ⟨hstep, hstepw⟩ := h.handleWrite hoffset hwriting r hr
    refine .connected hstep hstepw ?_
    rw [o.handleWrite_empty h.empty]
    split
    · rw [sendFileInLoop_shutWr]
      exact hopen
    · exact hopen
  | nothing hstate hfile hwriting hopen hsent =>
    unfold Output.handleWrite
    rw [if_neg (by simp [hwriting]), if_neg (by simp [hwriting])]
    exact .nothing hstate hfile hwriting hopen hsent
  | waiting hstate hfile => exact absurd ⟨hstate, hfile⟩ hok
  | closed hstate hfile hwriting hshut hsent =>
    unfold Output.handleWrite
    rw [if_neg (by simp [hwriting]), if_neg (by simp [hwriting])]
    exact .closed hstate hfile hwriting hshut hsent

end ClosingFile

end Output

/-- Messages of the peer are no matter of the output. -/
lemma Shows.handleRead {files : Nat → Bytes} {w : ConnContext κ} {o : Output} (h : Shows files w o)
    {data : Bytes} (hdata : data ≠ []) : Shows files (w.handleRead (.ok data) [] []) o := by
  obtain rfl := h.view
  cases data with
  | nil => exact absurd rfl hdata
  | cons b bs =>
    simp only [ConnContext.handleRead]
    split
    · exact ⟨⟨h.reg.book, h.reg.added, h.reg.reading⟩, h.buffer, h.reads, rfl⟩
    · exact ⟨⟨h.reg.book, h.reg.added, h.reg.reading⟩, h.buffer, h.reads, rfl⟩

lemma Shows.retrieve {files : Nat → Bytes} {w : ConnContext κ} {o : Output} (h : Shows files w o) (len : Nat) :
    Shows files (w.appCall (.retrieve len)) o := by
  obtain rfl := h.view
  exact ⟨⟨h.reg.book, h.reg.added, h.reg.reading⟩, h.buffer, h.reads, rfl⟩

lemma Notifies.not_mem {w w' : ConnContext κ} (h : Notifies w w') {f : Functor} (hw : f ≠ .writeComplete)
    (hm : f ≠ .highWaterMark) (hf : f ∉ w.pendingFunctors) : f ∉ w'.pendingFunctors := by
  obtain ⟨fs, hfs, hn⟩ := h
  rw [hfs, List.mem_append, not_or]
  exact ⟨hf, hn.not_mem hw hm⟩

/-- A connection in one of the stages, with no half-close in its queue. -/
structure FileCloseInv (files : Nat → Bytes) (o₀ : Output) (fd : Nat) (offset : Int) (count : Nat)
    (w : ConnContext κ) : Prop where
  shows : Shows files w (outputOf w)
  stage : Output.ClosingFile files o₀ fd offset count (outputOf w)
  queue : .shutDownInLoop ∉ w.pendingFunctors

namespace FileCloseInv

variable {files : Nat → Bytes} {o₀ : Output} {fd : Nat} {offset : Int} {count : Nat} {w w' : ConnContext κ}
  {a : FileCloseStep}

/-- A step that meets the condition keeps the invariant. -/
lemma step (h : FileCloseInv files o₀ fd offset count w) (hoffset : 0 ≤ offset)
    (hok : sentBeforeShutdown w a) (hnext : fileCloseMachine.next w a = some w') :
    FileCloseInv files o₀ fd offset count w' := by
  cases a with
  | handleWrite r =>
    simp only [fileCloseMachine, h.shows.offered, Option.ite_none_right_eq_some, Option.some.injEq] at hnext
    obtain ⟨hr, rfl⟩ := hnext
    have hshows := h.shows.handleWrite r
    have hstage := h.stage.handleWrite hoffset r hr hok
    have hqueue := (notifies_handleWrite w r).not_mem (by simp) (by simp) h.queue
    rw [← hshows.view] at hstage hshows
    exact ⟨hshows, hstage, hqueue⟩
  | handleRead data =>
    simp only [fileCloseMachine, Option.ite_none_left_eq_some, Option.some.injEq] at hnext
    obtain ⟨hdata, rfl⟩ := hnext
    have hshows := h.shows.handleRead hdata
    have hqueue := (notifies_handleRead w (.ok data) [] []).not_mem (by simp) (by simp) h.queue
    have hstage := h.stage
    rw [← hshows.view] at hstage hshows
    exact ⟨hshows, hstage, hqueue⟩
  | retrieve len =>
    simp only [fileCloseMachine, Option.some.injEq] at hnext
    subst hnext
    have hshows := h.shows.retrieve len
    have hstage := h.stage
    rw [← hshows.view] at hstage hshows
    exact ⟨hshows, hstage, h.queue⟩
  | shutdown =>
    simp only [fileCloseMachine, Option.some.injEq] at hnext
    subst hnext
    have hshows := h.shows.shutdown
    have hstage := h.stage.shutdown
    have hqueue := (notifies_appCall w .shutdown).not_mem (by simp) (by simp) h.queue
    rw [← hshows.view] at hstage hshows
    exact ⟨hshows, hstage, hqueue⟩

end FileCloseInv

end MylibMuduo.Proofs
