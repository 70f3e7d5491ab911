import MylibMuduo.Proofs.OutputKept

/-!
# Sends accepted before a shutdown

`send` on another thread tests the state and queues the payload, `shutdown` tests the state,
stores `kDisConnecting` at once and queues the half-close, and `sendFile` stores the fields of
the file and queues the transfer. The machine below interleaves these steps of any number of
callers with the loop thread, which swaps its queue out, runs the tasks in order and handles
events. A queued payload that runs after the store is given up by `sendInLoop`, and a transfer
that ends turns the write interest of buffered bytes off, so that the half-close does not wait
for them. Payloads are kept in the runs that store `kDisConnecting` while no accepted payload
is waiting and end files while nothing is buffered.
-/

namespace MylibMuduo.Proofs

variable {κ : Type}

/-- The point that another thread has reached in a call of `send`, `shutdown` or `sendFile`. A
`sendFile` that saw `kConnected` has made `stores` of its four stores. -/
inductive CallerPc where
  | idle
  | sendTested (data : Bytes)
  | shutdownTested
  | shutdownStored
  | fileTested (file : FileToSend) (stores : Nat)
  deriving DecidableEq, Repr

/-- `accepted` are the payloads of the sends that saw `kConnected` and queued their task or
ran on the loop thread; `executed` those that `sendInLoop` did not give up; `written` the bytes
of them that the kernel has taken, without the bytes of files. -/
structure SendState (κ : Type) where
  w : ConnContext κ
  batch : List Functor
  caller : Nat → CallerPc
  accepted : List Bytes
  executed : List Bytes
  written : Bytes

/-- `sendfile` takes at most what it is asked for. -/
def countAllowed (count : Nat) : SysResult → Bool
  | .ok n => decide (n ≤ count)
  | .err _ => true

namespace SendState

variable (s : SendState κ)

def setCaller (t : Nat) (pc : CallerPc) : SendState κ :=
  { s with caller := Function.update s.caller t pc }

/-- The loop thread executes `sendInLoop`. -/
def execSend (data : Bytes) (r : SysResult) : SendState κ :=
  { s with
    w := s.w.sendInLoop data r
    executed := if s.w.conn.state = .kDisConnected ∨ s.w.conn.state = .kDisConnecting then s.executed
      else s.executed ++ [data]
    written := s.written ++ newBytes s.w (s.w.sendInLoop data r) }

/-- The loop thread executes `handleWrite`, on the buffer or else on the file. -/
def execWrite (r : SysResult) : SendState κ :=
  { s with
    w := s.w.handleWrite r
    written := if s.w.conn.outputBuffer.readable = [] then s.written
      else s.written ++ newBytes s.w (s.w.handleWrite r) }

/-- The loop thread executes one functor of its batch. -/
def execTask (r : SysResult) : Functor → Option (SendState κ)
  | .sendInLoop data => if writeAllowed data.length r then some (s.execSend data r) else none
  | .sendFileInLoop =>
    if countAllowed s.w.conn.fileToSend.count r then some { s with w := s.w.sendFileInLoop r } else none
  | .shutDownInLoop => some { s with w := s.w.shutDownInLoop }
  | .writeComplete => some s
  | .highWaterMark => some s

end SendState

/-- The payload of a queued `sendInLoop`. -/
def sendPayload : Functor → Option Bytes
  | .sendInLoop data => some data
  | _ => none

/-- The payloads waiting in the batch and in the queue. -/
def queuedSends (s : SendState κ) : List Bytes :=
  (s.batch ++ s.w.pendingFunctors).filterMap sendPayload

/-- What the steps that meet `sparesSends` keep. -/
structure SendInv (s : SendState κ) : Prop where
  output : OutputKept s.w s.written s.executed.flatten
  kept : (s.executed ++ queuedSends s).Perm s.accepted
  open_ : s.w.conn.state = .kConnected ∨ s.w.conn.state = .kDisConnecting
  closing : s.w.conn.state = .kDisConnecting →
    queuedSends s = [] ∧ ∀ t data, s.caller t ≠ .sendTested data
  stored : ∀ t, s.caller t = .shutdownStored → s.w.conn.state = .kDisConnecting
  task : .shutDownInLoop ∈ s.batch ++ s.w.pendingFunctors → s.w.conn.state = .kDisConnecting
  shutWr : s.w.shutWr = true → s.w.conn.state = .kDisConnecting ∧ s.w.conn.outputBuffer.readable = []

lemma sendPayload_notifications {fs : List Functor} (h : Notifications fs) :
    fs.filterMap sendPayload = [] := by
  rw [List.filterMap_eq_nil_iff]
  intro f hf
  rcases h f hf with rfl | rfl <;> rfl

/-- A quiet step of the loop thread leaves the waiting payloads and half-closes alone. -/
lemma queue_of_quiet {s : SendState κ} {w' : ConnContext κ} (h : Quiet s.w w') :
    queuedSends { s with w := w' } = queuedSends s ∧
      (Functor.shutDownInLoop ∈ s.batch ++ w'.pendingFunctors →
        Functor.shutDownInLoop ∈ s.batch ++ s.w.pendingFunctors) := by
  obtain ⟨fs, hfs, hn⟩ := h.queued
  constructor
  · simp only [queuedSends, hfs, List.filterMap_append, sendPayload_notifications hn, List.append_nil]
  · rw [hfs, ← List.append_assoc, List.mem_append]
    rintro (hmem | hmem)
    · exact hmem
    · exact absurd hmem (hn.not_mem (by simp) (by simp))

/-- Replacing the context by one that a quiet step reached. -/
lemma SendInv.of_quiet {s : SendState κ} {w' : ConnContext κ} {written : Bytes} (h : SendInv s) (hq : Quiet s.w w')
    (hout : OutputKept w' written s.executed.flatten)
    (hread : s.w.conn.outputBuffer.readable = [] → w'.conn.outputBuffer.readable = []) :
    SendInv { s with w := w', written := written } := by
  obtain ⟨hsame, htask⟩ := queue_of_quiet (s := s) hq
  have hqueue : queuedSends { s with w := w', written := written } = queuedSends s := hsame
  refine ⟨hout, ?_, ?_, ?_, ?_, ?_, ?_⟩
  · rw [hqueue]
    exact h.kept
  · rw [hq.state]
    exact h.open_
  · rw [hq.state, hqueue]
    exact h.closing
  · rw [hq.state]
    exact h.stored
  · intro hmem
    rw [hq.state]
    exact h.task (htask hmem)
  · rw [hq.state, hq.shutWr]
    intro hshut
    exact ⟨(h.shutWr hshut).1, hread (h.shutWr hshut).2⟩

/-- The half-close keeps the invariant in state `kDisConnecting`. -/
lemma SendInv.shutDownInLoop {s : SendState κ} (h : SendInv s)
    (hstate : s.w.conn.state = .kDisConnecting) : SendInv { s with w := s.w.shutDownInLoop } := by
  unfold ConnContext.shutDownInLoop
  split
  · exact h
  · rename_i hw
    have hnil : s.w.conn.outputBuffer.readable = [] := by
      by_contra hne
      exact hw (h.output.served hne)
    have hout : OutputKept { s.w with shutWr := true } s.written s.executed.flatten :=
      h.output.congr rfl rfl rfl rfl rfl
    exact ⟨hout, h.kept, h.open_, h.closing, h.stored, h.task, fun _ => ⟨hstate, hnil⟩⟩

/-- The store of `kDisConnecting` keeps the invariant when nothing accepted is waiting. -/
lemma SendInv.store {s : SendState κ} (h : SendInv s) (hq : queuedSends s = [])
    (hc : ∀ t data, s.caller t ≠ .sendTested data) :
    SendInv { s with w := s.w.setState .kDisConnecting } := by
  have hout : OutputKept (s.w.setState .kDisConnecting) s.written s.executed.flatten :=
    h.output.congr rfl rfl rfl rfl rfl
  exact ⟨hout, h.kept, Or.inr rfl, fun _ => ⟨hq, hc⟩, fun _ _ => rfl, fun _ => rfl,
    fun hshut => ⟨rfl, (h.shutWr hshut).2⟩⟩

/-- A change of one caller's program point. -/
lemma SendInv.setCaller {s : SendState κ} (h : SendInv s) (t : Nat) (pc : CallerPc)
    (hsend : ∀ data, pc = .sendTested data → s.w.conn.state = .kConnected)
    (hstored : pc = .shutdownStored → s.w.conn.state = .kDisConnecting) :
    SendInv (s.setCaller t pc) := by
  refine ⟨h.output, h.kept, h.open_, ?_, ?_, h.task, h.shutWr⟩
  · intro hstate
    refine ⟨(h.closing hstate).1, fun u data hu => ?_⟩
    by_cases hut : u = t
    · subst hut
      simp only [SendState.setCaller, Function.update_self] at hu
      have := hsend data hu
      simp_all [SendState.setCaller]
    · simp only [SendState.setCaller, Function.update_of_ne hut] at hu
      exact (h.closing hstate).2 u data hu
  · intro u hu
    by_cases hut : u = t
    · subst hut
      simp only [SendState.setCaller, Function.update_self] at hu
      exact hstored hu
    · simp only [SendState.setCaller, Function.update_of_ne hut] at hu
      exact h.stored u hu

/-- The execution of `sendInLoop` takes its payload from `pending` to `executed`. -/
lemma SendInv.execSend {s : SendState κ} {data : Bytes} {r : SysResult}
    (hstate : s.w.conn.state = .kConnected) (hr : writeAllowed data.length r = true)
    (hout : OutputKept s.w s.written s.executed.flatten)
    (hkept : (s.executed ++ data :: queuedSends s).Perm s.accepted)
    (hstored : ∀ t, s.caller t ≠ .shutdownStored)
    (htask : Functor.shutDownInLoop ∉ s.batch ++ s.w.pendingFunctors)
    (hshut : s.w.shutWr = false) : SendInv (s.execSend data r) := by
  have hquiet := quiet_sendInLoop s.w data r
  obtain ⟨hqueue, htask'⟩ := queue_of_quiet (s := s) hquiet
  have hne : ¬(s.w.conn.state = .kDisConnected ∨ s.w.conn.state = .kDisConnecting) := by simp [hstate]
  have hnotclosing : (s.w.sendInLoop data r).conn.state ≠ .kDisConnecting := by
    rw [hquiet.state, hstate]
    simp
  unfold SendState.execSend
  rw [if_neg hne]
  refine ⟨?_, ?_, Or.inl (hquiet.state.trans hstate), fun hc => absurd hc hnotclosing,
    fun t ht => absurd ht (hstored t), fun hmem => absurd (htask' hmem) htask, ?_⟩
  · rw [List.flatten_append, List.flatten_cons, List.flatten_nil, List.append_nil]
    exact hout.sendInLoop hstate data r hr
  · change ((s.executed ++ [data]) ++ queuedSends { s with w := s.w.sendInLoop data r }).Perm s.accepted
    rw [hqueue, List.append_assoc]
    exact hkept
  · intro hc
    have : s.w.shutWr = true := hquiet.shutWr.symm.trans hc
    rw [hshut] at this
    cases this

/-- Facts that hold while the connection is not closing. -/
lemma SendInv.connected {s : SendState κ} (h : SendInv s) (hstate : s.w.conn.state = .kConnected) :
    (∀ t, s.caller t ≠ .shutdownStored) ∧
      Functor.shutDownInLoop ∉ s.batch ++ s.w.pendingFunctors ∧ s.w.shutWr = false := by
  refine ⟨fun t ht => ?_, fun hmem => ?_, ?_⟩
  · have := h.stored t ht
    rw [hstate] at this
    cases this
  · have := h.task hmem
    rw [hstate] at this
    cases this
  · by_contra hshut
    have := (h.shutWr (by simpa using hshut)).1
    rw [hstate] at this
    cases this

/-- The enqueue of a payload whose `send` saw `kConnected`. -/
lemma SendInv.sendEnqueue {s : SendState κ} (h : SendInv s) {t : Nat} {data : Bytes}
    (hpc : s.caller t = .sendTested data) :
    SendInv { s with w := s.w.queueInLoop (.sendInLoop data), accepted := s.accepted ++ [data] } := by
  have hconn : s.w.conn.state = .kConnected := by
    rcases h.open_ with hc | hc
    · exact hc
    · exact absurd hpc ((h.closing hc).2 t data)
  obtain ⟨hstored, htask, hshut⟩ := h.connected hconn
  have hout : OutputKept (s.w.queueInLoop (.sendInLoop data)) s.written s.executed.flatten :=
    h.output.congr rfl rfl rfl rfl rfl
  have hnot : s.w.conn.state ≠ .kDisConnecting := by
    rw [hconn]
    simp
  refine ⟨hout, ?_, h.open_, fun hc => absurd hc hnot, fun u hu => absurd hu (hstored u), ?_, ?_⟩
  · have hqueue : queuedSends { s with w := s.w.queueInLoop (.sendInLoop data), accepted := s.accepted ++ [data] } =
        queuedSends s ++ [data] := by
      simp [queuedSends, ConnContext.queueInLoop, sendPayload]
    rw [hqueue, ← List.append_assoc]
    exact h.kept.append_right [data]
  · intro hmem
    simp only [ConnContext.queueInLoop, ← List.append_assoc, List.mem_append, List.mem_singleton,
      reduceCtorEq, or_false] at hmem
    exact absurd (List.mem_append.mpr hmem) htask
  · intro hc
    have : s.w.shutWr = true := hc
    rw [hshut] at this
    cases this

/-- The enqueue of a half-close or of a transfer. -/
lemma SendInv.enqueue {s : SendState κ} (h : SendInv s) {f : Functor} (hf : sendPayload f = none)
    (htask : f = .shutDownInLoop → s.w.conn.state = .kDisConnecting) :
    SendInv { s with w := s.w.queueInLoop f } := by
  have hout : OutputKept (s.w.queueInLoop f) s.written s.executed.flatten := h.output.congr rfl rfl rfl rfl rfl
  have hqueue : queuedSends { s with w := s.w.queueInLoop f } = queuedSends s := by
    simp [queuedSends, ConnContext.queueInLoop, hf]
  refine ⟨hout, by rw [hqueue]; exact h.kept, h.open_, by rw [hqueue]; exact h.closing, h.stored, ?_, h.shutWr⟩
  intro hmem
  simp only [ConnContext.queueInLoop, ← List.append_assoc] at hmem
  rcases List.mem_append.mp hmem with hold | hnew
  · exact h.task hold
  · exact htask (List.mem_singleton.mp hnew).symm

lemma SendInv.swap {s : SendState κ} (h : SendInv s) (hbatch : s.batch = []) :
    SendInv { s with batch := s.w.pendingFunctors, w := { s.w with pendingFunctors := [] } } := by
  have hqueue : queuedSends { s with batch := s.w.pendingFunctors, w := { s.w with pendingFunctors := [] } } =
      queuedSends s := by
    simp [queuedSends, hbatch]
  have hout : OutputKept { s.w with pendingFunctors := [] } s.written s.executed.flatten :=
    h.output.congr rfl rfl rfl rfl rfl
  refine ⟨hout, by rw [hqueue]; exact h.kept, h.open_, by rw [hqueue]; exact h.closing, h.stored, ?_,
    h.shutWr⟩
  intro hmem
  rw [List.append_nil] at hmem
  exact h.task (List.mem_append_right _ hmem)

/-- Taking a functor without payload from the batch. -/
lemma SendInv.pop {s : SendState κ} (h : SendInv s) {f : Functor} {rest : List Functor}
    (hbatch : s.batch = f :: rest) (hf : sendPayload f = none) : SendInv { s with batch := rest } := by
  have hqueue : queuedSends { s with batch := rest } = queuedSends s := by
    simp [queuedSends, hbatch, hf]
  refine ⟨h.output, by rw [hqueue]; exact h.kept, h.open_, by rw [hqueue]; exact h.closing, h.stored, ?_,
    h.shutWr⟩
  intro hmem
  apply h.task
  rw [hbatch]
  exact List.mem_cons_of_mem _ hmem

/-- A `sendfile` of the loop thread that does not cut the output off. -/
lemma SendInv.sendFileInLoop {s : SendState κ} (h : SendInv s) {r : SysResult} (hcut : ¬fileCutsOutput s.w r) :
    SendInv { s with w := s.w.sendFileInLoop r } := by
  have hbuffered : (s.w.sendFileInLoop r).conn.outputBuffer.readable = s.w.conn.outputBuffer.readable :=
    (congrArg Output.buffered (h.output.shows.sendFileInLoop r).view).trans (Output.sendFileInLoop_buffered _ _ _)
  exact h.of_quiet (quiet_sendFileInLoop s.w r) (h.output.sendFileInLoop h.open_ r hcut) hbuffered.trans

/-- Stores to the fields of the file. -/
lemma SendInv.setFile {s : SendState κ} {w' : ConnContext κ} (h : SendInv s)
    (heq : w' = { s.w with conn := { s.w.conn with
      sendingFile := w'.conn.sendingFile, fileToSend := w'.conn.fileToSend } }) :
    SendInv { s with w := w' } := by
  rw [heq]
  exact h.of_quiet (quiet_of_eq rfl rfl rfl rfl) (h.output.congr rfl rfl rfl rfl rfl) id

theorem SendInv.runTask {s s' : SendState κ} (h : SendInv s) {f : Functor} {rest : List Functor}
    (hbatch : s.batch = f :: rest) {r : SysResult} (hcut : f = .sendFileInLoop → ¬fileCutsOutput s.w r)
    (hnext : { s with batch := rest }.execTask r f = some s') : SendInv s' := by
  cases f with
  | sendInLoop data =>
    simp only [SendState.execTask, Option.ite_none_right_eq_some, Option.some.injEq] at hnext
    obtain ⟨hr, rfl⟩ := hnext
    have hqueue : queuedSends s = data :: queuedSends { s with batch := rest } := by
      simp [queuedSends, hbatch, sendPayload]
    have hconn : s.w.conn.state = .kConnected := by
      rcases h.open_ with hc | hc
      · exact hc
      · have hempty := (h.closing hc).1
        rw [hqueue] at hempty
        cases hempty
    obtain ⟨hstored, htask, hshut⟩ := h.connected hconn
    refine SendInv.execSend (s := { s with batch := rest }) hconn hr h.output ?_ hstored ?_ hshut
    · rw [← hqueue]
      exact h.kept
    · intro hmem
      apply htask
      rw [hbatch]
      exact List.mem_cons_of_mem _ hmem
  | sendFileInLoop =>
    simp only [SendState.execTask, Option.ite_none_right_eq_some, Option.some.injEq] at hnext
    obtain ⟨-, rfl⟩ := hnext
    exact (h.pop hbatch rfl).sendFileInLoop (hcut rfl)
  | shutDownInLoop =>
    simp only [SendState.execTask, Option.some.injEq] at hnext
    subst hnext
    have hstate := h.task (by rw [hbatch]; exact List.mem_cons_self)
    exact (h.pop hbatch rfl).shutDownInLoop hstate
  | writeComplete =>
    simp only [SendState.execTask, Option.some.injEq] at hnext
    subst hnext
    exact h.pop hbatch rfl
  | highWaterMark =>
    simp only [SendState.execTask, Option.some.injEq] at hnext
    subst hnext
    exact h.pop hbatch rfl

theorem SendInv.handleWrite {s : SendState κ} (h : SendInv s) (r : SysResult) : SendInv (s.execWrite r) := by
  unfold SendState.execWrite
  rcases h.output.handleWrite_cases r with heq | ⟨n, hne, hwriting, heq⟩ | ⟨hempty, heq⟩
  · have hnew : newBytes s.w s.w = [] := List.drop_length
    rw [heq, hnew, List.append_nil, ite_self]
    exact h
  · have hdrain : SendInv { s with
        w := drainOutput s.w n
        written := s.written ++ newBytes s.w (drainOutput s.w n) } :=
      h.of_quiet (quiet_drainOutput s.w n) (h.output.drainOutput hwriting n) (fun hnil => absurd hnil hne)
    rw [if_neg hne, heq]
    split
    · rename_i hstate
      have hsent : newBytes s.w (drainOutput s.w n).shutDownInLoop = newBytes s.w (drainOutput s.w n) := by
        unfold newBytes ConnContext.shutDownInLoop
        split <;> rfl
      rw [hsent]
      exact hdrain.shutDownInLoop hstate
    · exact hdrain
  · rw [if_pos hempty, heq]
    exact h.sendFileInLoop (fun hcut => hcut.1 hempty)

lemma SendInv.handleRead {s : SendState κ} (h : SendInv s) (data : Bytes) (hdata : data ≠ []) :
    SendInv { s with w := s.w.handleRead (.ok data) [] [] } := by
  have hinput : ∀ w' : ConnContext κ, w'.conn = { s.w.conn with inputBuffer := w'.conn.inputBuffer } →
      w'.poller = s.w.poller → w'.key = s.w.key → w'.sent = s.w.sent → w'.shutWr = s.w.shutWr →
      w'.pendingFunctors = s.w.pendingFunctors → SendInv { s with w := w' } := by
    intro w' hconn hpoll hkey hsent hshut hpend
    have hqueue : queuedSends { s with w := w' } = queuedSends s := by
      simp [queuedSends, hpend]
    refine ⟨h.output.congr hpoll hkey (by rw [hconn]) (by rw [hconn]) hsent, ?_, ?_, ?_, ?_, ?_, ?_⟩
    · rw [hqueue]
      exact h.kept
    · rw [hconn]
      exact h.open_
    · rw [hconn, hqueue]
      exact h.closing
    · rw [hconn]
      exact h.stored
    · rw [hpend, hconn]
      exact h.task
    · rw [hshut, hconn]
      exact h.shutWr
  cases data with
  | nil => exact absurd rfl hdata
  | cons b bs =>
    unfold ConnContext.handleRead
    dsimp only
    split
    · exact hinput _ rfl rfl rfl rfl rfl rfl
    · exact hinput _ rfl rfl rfl rfl rfl rfl

end MylibMuduo.Proofs
