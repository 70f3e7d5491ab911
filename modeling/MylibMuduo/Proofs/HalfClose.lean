import MylibMuduo.Proofs.ConnectionThreads

/-!
# The half-close

`shutdown` stores `kDisConnecting` and has `shutDownInLoop` run on the loop thread, which issues
SHUT_WR only while there is no write interest; otherwise `handleWrite` does it after the last
drain. In the runs without files and before the close the output is drained before SHUT_WR,
nothing is written after it, and it is not forgotten.
-/

namespace MylibMuduo.Proofs

variable {κ : Type}

namespace LoopAction

/-- The calls after which a run is outside this file: the close and `sendFile`. -/
def leaves : LoopAction → Bool
  | .handleClose _ | .connectionDestroyed _ | .disconnect _ | .appCall (.sendFile _ _ _ _) => true
  | _ => false

/-- The actions that only follow one of these calls. -/
def follows : LoopAction → Bool
  | .sendFileInLoop _ | .removeChannel => true
  | _ => false

end LoopAction

/-- No `sendFile` and no close: `handleClose` or `connectionDestroyed` is not begun. -/
def beforeClose (s : ThreadState κ) : ThreadStep → Prop
  | .sendFileTest _ _ => False
  | .connectionDestroyed _ => False
  | .advance => ∀ a ∈ s.todo.head?, a.leaves = false
  | _ => True

instance (s : ThreadState κ) : (a : ThreadStep) → Decidable (beforeClose s a)
  | .sendFileTest _ _ => isFalse id
  | .connectionDestroyed _ => isFalse id
  | .advance => inferInstanceAs (Decidable (∀ a ∈ s.todo.head?, a.leaves = false))
  | .sendTest _ _ => isTrue trivial
  | .sendEnqueue _ => isTrue trivial
  | .sendFileStore _ => isTrue trivial
  | .sendFileEnqueue _ => isTrue trivial
  | .shutdownTest _ => isTrue trivial
  | .shutdownStore _ => isTrue trivial
  | .shutdownEnqueue _ => isTrue trivial
  | .swap => isTrue trivial
  | .runTask _ _ => isTrue trivial
  | .event _ _ => isTrue trivial
  | .userCall _ => isTrue trivial

/-- A `shutDownInLoop` is queued, about to be queued by its caller, or next on the loop thread. -/
def HalfCloseAhead (s : ThreadState κ) : Prop :=
  (∃ t, s.caller t = .shutdownStored) ∨ .shutDownInLoop ∈ s.batch ++ s.w.pendingFunctors ∨
    .shutDownInLoop ∈ s.todo

/-- The loop thread is about to issue SHUT_WR. -/
def IssuesShutWr (s : ThreadState κ) : Prop :=
  s.todo.head? = some .shutDownInLoop ∧ s.w.conn.channel.isWriting = false

/-- What the steps before the close keep. -/
structure HalfCloseInv (s : ThreadState κ) : Prop where
  output : ∃ payload, OutputInv s.w payload
  opn : Open s.w
  todo : ∀ a ∈ s.todo, a.follows = false
  tasks : .sendFileInLoop ∉ s.batch ++ s.w.pendingFunctors
  callers : ∀ t, s.caller t ≠ .sendFileStored ∧ ∀ file, s.caller t ≠ .sendFileTested file
  ahead : HalfCloseAhead s → s.w.conn.state = .kDisConnecting
  shutWr : s.w.shutWr = true → s.w.conn.state = .kDisConnecting ∧ s.w.conn.outputBuffer.readable = []
  closing : s.w.conn.state = .kDisConnecting → s.w.shutWr = true ∨ HalfCloseAhead s ∨
    .testClosing ∈ s.todo ∨ s.w.conn.outputBuffer.readable ≠ []

lemma OutputInv.of_eq {w w' : ConnContext κ} {payload : Bytes} (h : OutputInv w payload)
    (hchan : w'.conn.channel = w.conn.channel) (hpoll : w'.poller = w.poller) (hkey : w'.key = w.key)
    (hfile : w'.conn.sendingFile = w.conn.sendingFile) (hsent : w'.sent = w.sent)
    (hout : w'.conn.outputBuffer = w.conn.outputBuffer) : OutputInv w' payload := by
  refine ⟨⟨?_, ?_, ?_⟩, hfile.trans h.noFile, ?_, ?_, ?_⟩
  · rw [hpoll, hkey, hchan]
    exact h.reg.book
  · rw [hchan]
    exact h.reg.added
  · rw [hchan]
    exact h.reg.reading
  · rw [hout]
    exact h.buffer
  · rw [hsent, hout]
    exact h.stream
  · rw [hchan, hout]
    exact h.writing

/-- Also a `write` that fails for good leaves the output side consistent. -/
lemma sendInLoop_keeps_output {w : ConnContext κ} {payload : Bytes} (h : OutputInv w payload)
    (data : Bytes) (r : SysResult) : ∃ payload', OutputInv (w.sendInLoop data r) payload' := by
  unfold ConnContext.sendInLoop
  split
  · exact ⟨_, h⟩
  split
  · rename_i hfast
    cases r with
    | ok n => exact ⟨_, directWrite_output h hfast.2 data n⟩
    | err e =>
      dsimp only
      split
      · exact ⟨_, h⟩
      · exact ⟨_, appendRemaining_output h data⟩
  · exact ⟨_, appendRemaining_output h data⟩

/-! ### Steps of the loop thread -/

/-- What an action other than the store and the half-close itself does: it is quiet, and a
pending half-close stays in sight. -/
structure QuietAction (w : ConnContext κ) (a : LoopAction) : Prop where
  output : ∃ payload, OutputInv (a.exec w).1 payload
  state : (a.exec w).1.conn.state = w.conn.state
  shutWr : (a.exec w).1.shutWr = w.shutWr
  queued : ∃ fs, (a.exec w).1.pendingFunctors = w.pendingFunctors ++ fs ∧ Notifications fs
  acts : ∀ b ∈ (a.exec w).2, b.follows = false
  shut : .shutDownInLoop ∈ (a.exec w).2 → w.conn.state = .kDisConnecting
  empty : w.conn.state = .kDisConnecting → w.conn.outputBuffer.readable = [] →
    (a.exec w).1.conn.outputBuffer.readable = []
  keep : w.conn.state = .kDisConnecting → a = .testClosing ∨ w.conn.outputBuffer.readable ≠ [] →
    .shutDownInLoop ∈ (a.exec w).2 ∨ .testClosing ∈ (a.exec w).2 ∨
      (a.exec w).1.conn.outputBuffer.readable ≠ []

/-- An action that changes the trace of callbacks and the input buffer at most. -/
structure SameOutput (w w' : ConnContext κ) : Prop where
  state : w'.conn.state = w.conn.state
  channel : w'.conn.channel = w.conn.channel
  poller : w'.poller = w.poller
  key : w'.key = w.key
  sendingFile : w'.conn.sendingFile = w.conn.sendingFile
  sent : w'.sent = w.sent
  outputBuffer : w'.conn.outputBuffer = w.conn.outputBuffer
  shutWr : w'.shutWr = w.shutWr
  pending : w'.pendingFunctors = w.pendingFunctors

lemma sameOutput_refl (w : ConnContext κ) : SameOutput w w := ⟨rfl, rfl, rfl, rfl, rfl, rfl, rfl, rfl, rfl⟩

lemma quietAction_of_same {w : ConnContext κ} {payload : Bytes} {a : LoopAction} (h : OutputInv w payload)
    (hsame : SameOutput w (a.exec w).1) (htest : a ≠ .testClosing)
    (hacts : ∀ b ∈ (a.exec w).2, b.follows = false ∧ b ≠ .shutDownInLoop) : QuietAction w a := by
  refine ⟨⟨payload, ?_⟩, hsame.state, hsame.shutWr, ⟨[], ?_, by simp [Notifications]⟩,
    fun b hb => (hacts b hb).1, fun hmem => absurd rfl (hacts _ hmem).2, ?_, ?_⟩
  · exact h.of_eq hsame.channel hsame.poller hsame.key hsame.sendingFile hsame.sent hsame.outputBuffer
  · rw [hsame.pending, List.append_nil]
  · intro _ hnil
    rw [hsame.outputBuffer]
    exact hnil
  · rintro - (ha | hne)
    · exact absurd ha htest
    · rw [hsame.outputBuffer]
      exact Or.inr (Or.inr hne)

lemma quietAction_sendInLoop {w : ConnContext κ} {payload : Bytes} (h : OutputInv w payload) (data : Bytes)
    (r : SysResult) : QuietAction w (.sendInLoop data r) := by
  have hquiet := quiet_sendInLoop w data r
  have hclosing : w.conn.state = .kDisConnecting → w.sendInLoop data r = w := by
    intro hstate
    unfold ConnContext.sendInLoop
    rw [if_pos (Or.inr hstate)]
  refine ⟨sendInLoop_keeps_output h data r, hquiet.state, hquiet.shutWr, hquiet.queued,
    by simp [LoopAction.exec], by simp [LoopAction.exec], ?_, ?_⟩
  · intro hstate hnil
    simpa only [LoopAction.exec, hclosing hstate] using hnil
  · rintro hstate (ha | hne)
    · cases ha
    · simpa [LoopAction.exec, hclosing hstate] using hne

/-- A drain leaves its test for the half-close behind. -/
lemma quietAction_handleWrite {w : ConnContext κ} {payload : Bytes} (h : OutputInv w payload)
    (r : SysResult) : QuietAction w (.handleWrite r) := by
  have hidle : (LoopAction.handleWrite r).exec w = (w, []) → QuietAction w (.handleWrite r) := by
    intro hexec
    exact quietAction_of_same h (by rw [hexec]; exact sameOutput_refl w) (by simp) (by simp [hexec])
  by_cases hpend : w.conn.channel.isWriting = true ∧ w.conn.outputBuffer.readableBytes ≠ 0
  · match r with
    | .ok (n + 1) =>
      have hexec : (LoopAction.handleWrite (.ok (n + 1))).exec w = (drainOutput w n, [.testClosing]) := by
        simp only [LoopAction.exec, if_pos hpend]
      have hquiet := quiet_drainOutput w n
      have hread := h.writing.mp hpend.1
      constructor <;> rw [hexec]
      · exact ⟨payload, drainOutput_output h hpend.1 n⟩
      · exact hquiet.state
      · exact hquiet.shutWr
      · exact hquiet.queued
      · simp [LoopAction.follows]
      · simp
      · intro _ hnil
        exact absurd hnil hread
      · simp
    | .ok 0 => exact hidle (by simp only [LoopAction.exec, if_pos hpend])
    | .err e => exact hidle (by simp only [LoopAction.exec, if_pos hpend])
  · exact hidle (by simp [LoopAction.exec, if_neg hpend, h.noFile])

lemma quietAction_testClosing {w : ConnContext κ} {payload : Bytes} (h : OutputInv w payload) :
    QuietAction w .testClosing := by
  refine ⟨⟨payload, h⟩, rfl, rfl, no_functors w, ?_, ?_, fun _ hnil => hnil, ?_⟩
  · simp only [LoopAction.exec]
    split <;> simp [LoopAction.follows]
  · simp only [LoopAction.exec]
    split
    · exact fun _ => ‹_›
    · simp
  · intro hstate _
    simp [LoopAction.exec, hstate]

/-- Every action before the close but the store and the half-close itself. -/
theorem quietAction {w : ConnContext κ} {payload : Bytes} (h : OutputInv w payload) {a : LoopAction}
    (hleaves : a.leaves = false) (hfollows : a.follows = false) (hstore : a ≠ .storeClosing)
    (hshut : a ≠ .shutDownInLoop) : QuietAction w a := by
  cases a with
  | connectionCallback app =>
    apply quietAction_of_same h ?_ (by simp)
    · simp only [LoopAction.exec]
      split <;> simp [LoopAction.follows]
    · simp only [LoopAction.exec]
      split <;> exact ⟨rfl, rfl, rfl, rfl, rfl, rfl, rfl, rfl, rfl⟩
  | closeCallback =>
    apply quietAction_of_same h ?_ (by simp)
    · simp [LoopAction.exec]
    · simp only [LoopAction.exec, ConnContext.closeCallback]
      split <;> exact ⟨rfl, rfl, rfl, rfl, rfl, rfl, rfl, rfl, rfl⟩
  | appCall c =>
    cases c with
    | sendFile fd offset count r => cases hleaves
    | retrieve len =>
      apply quietAction_of_same h ⟨rfl, rfl, rfl, rfl, rfl, rfl, rfl, rfl, rfl⟩ (by simp)
      simp [LoopAction.exec]
    | send data r =>
      apply quietAction_of_same (a := .appCall (.send data r)) h (sameOutput_refl w) (by simp)
      simp only [LoopAction.exec]
      split <;> simp [LoopAction.follows]
    | shutdown =>
      apply quietAction_of_same (a := .appCall .shutdown) h (sameOutput_refl w) (by simp)
      simp only [LoopAction.exec]
      split <;> simp [LoopAction.follows]
  | handleRead r onMessage onDown =>
    apply quietAction_of_same h ?_ (by simp)
    · simp only [LoopAction.exec]
      split
      · simp [LoopAction.follows]
      · split <;> simp [LoopAction.follows]
      · simp [LoopAction.follows]
    · simp only [LoopAction.exec]
      split
      · exact ⟨rfl, rfl, rfl, rfl, rfl, rfl, rfl, rfl, rfl⟩
      · split <;> exact ⟨rfl, rfl, rfl, rfl, rfl, rfl, rfl, rfl, rfl⟩
      · exact ⟨rfl, rfl, rfl, rfl, rfl, rfl, rfl, rfl, rfl⟩
  | sendInLoop data r => exact quietAction_sendInLoop h data r
  | handleWrite r => exact quietAction_handleWrite h r
  | testClosing => exact quietAction_testClosing h
  | storeClosing => exact absurd rfl hstore
  | shutDownInLoop => exact absurd rfl hshut
  | sendFileInLoop r => cases hfollows
  | removeChannel => cases hfollows
  | handleClose app => cases hleaves
  | connectionDestroyed app => cases hleaves
  | disconnect app => cases hleaves

/-- An action that queues notifications only leaves the other tasks as they are. -/
lemma QuietAction.mem_tasks {s : ThreadState κ} {a : LoopAction} (hq : QuietAction s.w a) {f : Functor}
    (hw : f ≠ .writeComplete) (hm : f ≠ .highWaterMark) :
    f ∈ s.batch ++ (a.exec s.w).1.pendingFunctors ↔ f ∈ s.batch ++ s.w.pendingFunctors := by
  obtain ⟨fs, hfs, hn⟩ := hq.queued
  rw [hfs, ← List.append_assoc, List.mem_append]
  simp [hn.not_mem hw hm]

lemma HalfCloseAhead.quietAction {s : ThreadState κ} (h : HalfCloseAhead s) {a : LoopAction}
    {rest : List LoopAction} (htodo : s.todo = a :: rest) (hshut : a ≠ .shutDownInLoop)
    (hq : QuietAction s.w a) :
    HalfCloseAhead { s with w := (a.exec s.w).1, todo := (a.exec s.w).2 ++ rest } := by
  rcases h with hcaller | hqueued | hnext
  · exact Or.inl hcaller
  · exact Or.inr (Or.inl ((hq.mem_tasks (by simp) (by simp)).mpr hqueued))
  · rw [htodo, List.mem_cons] at hnext
    rcases hnext with hnext | hnext
    · exact absurd hnext.symm hshut
    · exact Or.inr (Or.inr (List.mem_append_right _ hnext))

lemma HalfCloseInv.quietAction {s : ThreadState κ} (h : HalfCloseInv s) {a : LoopAction}
    {rest : List LoopAction} (htodo : s.todo = a :: rest) (hshut : a ≠ .shutDownInLoop)
    (hq : QuietAction s.w a) :
    HalfCloseInv { s with w := (a.exec s.w).1, todo := (a.exec s.w).2 ++ rest } := by
  refine ⟨hq.output, ?_, ?_, ?_, h.callers, ?_, ?_, ?_⟩
  · unfold Open
    rw [hq.state]
    exact h.opn
  · intro b hb
    rcases List.mem_append.mp hb with hb | hb
    · exact hq.acts b hb
    · exact h.todo b (htodo ▸ List.mem_cons_of_mem _ hb)
  · exact fun hf => h.tasks ((hq.mem_tasks (by simp) (by simp)).mp hf)
  · intro hnew
    rw [hq.state]
    rcases hnew with hcaller | hqueued | hnext
    · exact h.ahead (Or.inl hcaller)
    · exact h.ahead (Or.inr (Or.inl ((hq.mem_tasks (by simp) (by simp)).mp hqueued)))
    · rcases List.mem_append.mp hnext with hnext | hnext
      · exact hq.shut hnext
      · exact h.ahead (Or.inr (Or.inr (htodo ▸ List.mem_cons_of_mem _ hnext)))
  · rw [hq.state, hq.shutWr]
    intro hissued
    obtain ⟨hstate, hnil⟩ := h.shutWr hissued
    exact ⟨hstate, hq.empty hstate hnil⟩
  · rw [hq.state, hq.shutWr]
    intro hstate
    have hlater : a = .testClosing ∨ s.w.conn.outputBuffer.readable ≠ [] → _ := hq.keep hstate
    have hsplit : (a = .testClosing ∨ s.w.conn.outputBuffer.readable ≠ []) → HalfCloseAhead { s with
        w := (a.exec s.w).1, todo := (a.exec s.w).2 ++ rest } ∨
        .testClosing ∈ (a.exec s.w).2 ++ rest ∨ (a.exec s.w).1.conn.outputBuffer.readable ≠ [] := by
      intro hor
      rcases hlater hor with hnext | htest | hne
      · exact Or.inl (Or.inr (Or.inr (List.mem_append_left _ hnext)))
      · exact Or.inr (Or.inl (List.mem_append_left _ htest))
      · exact Or.inr (Or.inr hne)
    rcases h.closing hstate with hissued | hold | htest | hne
    · exact Or.inl hissued
    · exact Or.inr (Or.inl (hold.quietAction htodo hshut hq))
    · rw [htodo, List.mem_cons] at htest
      rcases htest with htest | htest
      · exact Or.inr (hsplit (Or.inl htest.symm))
      · exact Or.inr (Or.inr (Or.inl (List.mem_append_right _ htest)))
    · exact Or.inr (hsplit (Or.inr hne))

/-- The store of the state on the loop thread puts the half-close next. -/
lemma HalfCloseInv.storeClosing {s : ThreadState κ} (h : HalfCloseInv s) {rest : List LoopAction}
    (htodo : s.todo = .storeClosing :: rest) :
    HalfCloseInv { s with w := s.w.setState .kDisConnecting, todo := .shutDownInLoop :: rest } := by
  obtain ⟨payload, hout⟩ := h.output
  refine ⟨⟨payload, hout.of_eq rfl rfl rfl rfl rfl rfl⟩, Or.inr rfl, ?_, h.tasks, h.callers, fun _ => rfl,
    fun hissued => ⟨rfl, (h.shutWr hissued).2⟩, fun _ => Or.inr (Or.inl (Or.inr (Or.inr List.mem_cons_self)))⟩
  intro b hb
  rw [List.mem_cons] at hb
  rcases hb with rfl | hb
  · rfl
  · exact h.todo b (htodo ▸ List.mem_cons_of_mem _ hb)

/-- The half-close is issued, or left to the drain that the write interest promises. -/
lemma HalfCloseInv.shutDownInLoop {s : ThreadState κ} (h : HalfCloseInv s) {rest : List LoopAction}
    (htodo : s.todo = .shutDownInLoop :: rest) :
    HalfCloseInv { s with w := s.w.shutDownInLoop, todo := rest } := by
  obtain ⟨payload, hout⟩ := h.output
  have hstate := h.ahead (Or.inr (Or.inr (htodo ▸ List.mem_cons_self)))
  have hrest : ∀ b ∈ rest, b.follows = false := fun b hb => h.todo b (htodo ▸ List.mem_cons_of_mem _ hb)
  unfold ConnContext.shutDownInLoop
  split
  · rename_i hw
    exact ⟨⟨payload, hout⟩, h.opn, hrest, h.tasks, h.callers, fun _ => hstate, h.shutWr,
      fun _ => Or.inr (Or.inr (Or.inr (hout.writing.mp hw)))⟩
  · rename_i hw
    have hnil : s.w.conn.outputBuffer.readable = [] := by
      by_contra hne
      exact hw (hout.writing.mpr hne)
    exact ⟨⟨payload, hout.of_eq rfl rfl rfl rfl rfl rfl⟩, h.opn, hrest, h.tasks, h.callers, fun _ => hstate,
      fun _ => ⟨hstate, hnil⟩, fun _ => Or.inl rfl⟩

lemma HalfCloseInv.advance {s : ThreadState κ} (h : HalfCloseInv s) {a : LoopAction}
    {rest : List LoopAction} (htodo : s.todo = a :: rest) (hleaves : a.leaves = false) :
    HalfCloseInv { s with w := (a.exec s.w).1, todo := (a.exec s.w).2 ++ rest } := by
  obtain ⟨payload, hout⟩ := h.output
  have hfollows := h.todo a (htodo ▸ List.mem_cons_self)
  by_cases hstore : a = .storeClosing
  · subst hstore
    exact h.storeClosing htodo
  by_cases hshut : a = .shutDownInLoop
  · subst hshut
    exact h.shutDownInLoop htodo
  exact h.quietAction htodo hshut (MylibMuduo.Proofs.quietAction hout hleaves hfollows hstore hshut)

/-! ### Steps of the other threads -/

/-- A caller at a point from which no half-close is due moves to another such point. -/
lemma HalfCloseInv.setCaller {s : ThreadState κ} (h : HalfCloseInv s) {t : Nat} {pc : CallPoint}
    (hfile : pc ≠ .sendFileStored ∧ ∀ file, pc ≠ .sendFileTested file)
    (hnew : pc = .shutdownStored → s.w.conn.state = .kDisConnecting)
    (hold : s.caller t = .shutdownStored → s.w.conn.state = .kDisConnecting →
      s.w.shutWr = true ∨ HalfCloseAhead (s.setCaller t pc)) : HalfCloseInv (s.setCaller t pc) := by
  refine ⟨h.output, h.opn, h.todo, h.tasks, ?_, ?_, h.shutWr, ?_⟩
  · intro u
    by_cases hu : u = t
    · subst hu
      simpa [ThreadState.setCaller] using hfile
    · simpa [ThreadState.setCaller, hu] using h.callers u
  · rintro (⟨u, hu⟩ | hqueued)
    · by_cases hut : u = t
      · subst hut
        simp only [ThreadState.setCaller, Function.update_self] at hu
        exact hnew hu
      · simp only [ThreadState.setCaller, Function.update_of_ne hut] at hu
        exact h.ahead (Or.inl ⟨u, hu⟩)
    · exact h.ahead (Or.inr hqueued)
  · intro hstate
    rcases h.closing hstate with hissued | (⟨u, hu⟩ | hqueued) | hlater
    · exact Or.inl hissued
    · by_cases hut : u = t
      · subst hut
        exact (hold hu hstate).imp_right Or.inl
      · refine Or.inr (Or.inl (Or.inl ⟨u, ?_⟩))
        simpa [ThreadState.setCaller, hut] using hu
    · exact Or.inr (Or.inl (Or.inr hqueued))
    · exact Or.inr (Or.inr hlater)

/-- A task that is not a file joins the queue. -/
lemma HalfCloseInv.queueInLoop {s : ThreadState κ} (h : HalfCloseInv s) {f : Functor}
    (hfile : f ≠ .sendFileInLoop) (hshut : f = .shutDownInLoop → s.w.conn.state = .kDisConnecting) :
    HalfCloseInv { s with w := s.w.queueInLoop f } := by
  obtain ⟨payload, hout⟩ := h.output
  have hmem : ∀ g, g ∈ s.batch ++ (s.w.queueInLoop f).pendingFunctors ↔
      g ∈ s.batch ++ s.w.pendingFunctors ∨ g = f := by
    intro g
    simp only [ConnContext.queueInLoop, ← List.append_assoc, List.mem_append, List.mem_singleton]
  refine ⟨⟨payload, hout.of_eq rfl rfl rfl rfl rfl rfl⟩, h.opn, h.todo, ?_, h.callers, ?_, h.shutWr, ?_⟩
  · rw [hmem]
    rintro (hold | hnew)
    · exact h.tasks hold
    · exact hfile hnew.symm
  · rintro (hcaller | hqueued | hnext)
    · exact h.ahead (Or.inl hcaller)
    · rcases (hmem _).mp hqueued with hold | hnew
      · exact h.ahead (Or.inr (Or.inl hold))
      · exact hshut hnew.symm
    · exact h.ahead (Or.inr (Or.inr hnext))
  · intro hstate
    rcases h.closing hstate with hissued | (hcaller | hqueued | hnext) | hlater
    · exact Or.inl hissued
    · exact Or.inr (Or.inl (Or.inl hcaller))
    · exact Or.inr (Or.inl (Or.inr (Or.inl ((hmem _).mpr (Or.inl hqueued)))))
    · exact Or.inr (Or.inl (Or.inr (Or.inr hnext)))
    · exact Or.inr (Or.inr hlater)

/-- The loop thread begins on a task, an event or a call of the application. -/
lemma HalfCloseInv.start {s : ThreadState κ} (h : HalfCloseInv s) (htodo : s.todo = [])
    {batch : List Functor} {acts : List LoopAction} (hsub : ∀ f ∈ batch, f ∈ s.batch)
    (hacts : ∀ b ∈ acts, b.follows = false)
    (hshut : .shutDownInLoop ∈ acts → .shutDownInLoop ∈ s.batch)
    (hmoved : .shutDownInLoop ∈ s.batch → .shutDownInLoop ∈ batch ∨ .shutDownInLoop ∈ acts) :
    HalfCloseInv { s with batch := batch, todo := acts } := by
  have hmem : ∀ f, f ∈ batch ++ s.w.pendingFunctors → f ∈ s.batch ++ s.w.pendingFunctors := by
    intro f hf
    rw [List.mem_append] at hf ⊢
    exact hf.imp_left (hsub f)
  refine ⟨h.output, h.opn, hacts, fun hf => h.tasks (hmem _ hf), h.callers, ?_, h.shutWr, ?_⟩
  · rintro (hcaller | hqueued | hnext)
    · exact h.ahead (Or.inl hcaller)
    · exact h.ahead (Or.inr (Or.inl (hmem _ hqueued)))
    · exact h.ahead (Or.inr (Or.inl (List.mem_append_left _ (hshut hnext))))
  · intro hstate
    rcases h.closing hstate with hissued | (hcaller | hqueued | hnext) | htest | hne
    · exact Or.inl hissued
    · exact Or.inr (Or.inl (Or.inl hcaller))
    · rw [List.mem_append] at hqueued
      rcases hqueued with hbatch | hpending
      · rcases hmoved hbatch with hold | hnew
        · exact Or.inr (Or.inl (Or.inr (Or.inl (List.mem_append_left _ hold))))
        · exact Or.inr (Or.inl (Or.inr (Or.inr hnew)))
      · exact Or.inr (Or.inl (Or.inr (Or.inl (List.mem_append_right _ hpending))))
    · rw [htodo] at hnext
      cases hnext
    · rw [htodo] at htest
      cases htest
    · exact Or.inr (Or.inr (Or.inr hne))

lemma HalfCloseInv.swap {s : ThreadState κ} (h : HalfCloseInv s) (hbatch : s.batch = []) :
    HalfCloseInv { s with batch := s.w.pendingFunctors, w := { s.w with pendingFunctors := [] } } := by
  obtain ⟨payload, hout⟩ := h.output
  have hqueue : s.w.pendingFunctors ++ [] = s.batch ++ s.w.pendingFunctors := by
    rw [hbatch, List.append_nil, List.nil_append]
  have hahead : HalfCloseAhead { s with
      batch := s.w.pendingFunctors, w := { s.w with pendingFunctors := [] } } ↔ HalfCloseAhead s := by
    unfold HalfCloseAhead
    rw [hqueue]
  refine ⟨⟨payload, hout.of_eq rfl rfl rfl rfl rfl rfl⟩, h.opn, h.todo, ?_, h.callers, ?_, h.shutWr, ?_⟩
  · rw [hqueue]
    exact h.tasks
  · rw [hahead]
    exact h.ahead
  · rw [hahead]
    exact h.closing

lemma follows_ofFunctor (r : SysResult) (app : List AppCall) {f : Functor} (hf : f ≠ .sendFileInLoop) :
    ∀ b ∈ LoopAction.ofFunctor r app f, b.follows = false := by
  cases f with
  | sendFileInLoop => exact absurd rfl hf
  | _ => simp [LoopAction.ofFunctor, LoopAction.follows]

lemma shutDownInLoop_mem_ofFunctor (r : SysResult) (app : List AppCall) (f : Functor) :
    .shutDownInLoop ∈ LoopAction.ofFunctor r app f ↔ f = .shutDownInLoop := by
  cases f <;> simp [LoopAction.ofFunctor]

lemma ofEvent_acts (revent : EventMask) (i : ConnContext.EventInput) :
    ∀ b ∈ LoopAction.ofEvent revent i, b.follows = false ∧ b ≠ .shutDownInLoop := by
  intro b hb
  simp only [LoopAction.ofEvent, List.mem_append] at hb
  rcases hb with ((hb | hb) | hb) | hb
  all_goals
    split at hb
    · rw [List.mem_singleton] at hb
      subst hb
      simp [LoopAction.follows]
    · cases hb

/-- One step before the close. -/
theorem halfCloseInv_step (s : ThreadState κ) (a : ThreadStep) (s' : ThreadState κ) (h : HalfCloseInv s)
    (hok : beforeClose s a) (hnext : threadMachine.next s a = some s') : HalfCloseInv s' := by
  cases thread_trans hnext with
  | sendTest hstate =>
    refine h.setCaller (by simp) (by simp) (fun _ hclosing => ?_)
    rw [hstate] at hclosing
    cases hclosing
  | sendEnqueue hpc =>
    refine (h.queueInLoop (by simp) (by simp)).setCaller (by simp) (by simp) (fun hold => ?_)
    rw [hpc] at hold
    cases hold
  | sendFileTest hstate => exact hok.elim
  | sendFileStore hpc => exact absurd hpc ((h.callers _).2 _)
  | sendFileEnqueue hpc => exact absurd hpc (h.callers _).1
  | shutdownTest hstate =>
    refine h.setCaller (by simp) (by simp) (fun _ hclosing => ?_)
    rw [hstate] at hclosing
    cases hclosing
  | @shutdownStore t hpc =>
    obtain ⟨payload, hout⟩ := h.output
    refine ⟨⟨payload, hout.of_eq rfl rfl rfl rfl rfl rfl⟩, Or.inr rfl, h.todo, h.tasks, ?_, fun _ => rfl,
      fun hissued => ⟨rfl, (h.shutWr hissued).2⟩, fun _ => Or.inr (Or.inl (Or.inl ⟨t, ?_⟩))⟩
    · intro u
      by_cases hu : u = t
      · subst hu
        simp [ThreadState.setCaller]
      · simpa [ThreadState.setCaller, hu] using h.callers u
    · simp [ThreadState.setCaller]
  | @shutdownEnqueue t hpc =>
    have hstate := h.ahead (Or.inl ⟨t, hpc⟩)
    refine (h.queueInLoop (by simp) (fun _ => hstate)).setCaller (by simp) (by simp) (fun _ _ => ?_)
    refine Or.inr (Or.inr (Or.inl ?_))
    simp [ThreadState.setCaller, ConnContext.queueInLoop]
  | swap htodo hbatch => exact h.swap hbatch
  | @runTask r app f rest htodo hbatch =>
    have hf : f ≠ .sendFileInLoop := by
      rintro rfl
      exact h.tasks (List.mem_append_left _ (hbatch ▸ List.mem_cons_self))
    apply h.start htodo (fun g hg => hbatch ▸ List.mem_cons_of_mem _ hg) (follows_ofFunctor r app hf)
    · rw [shutDownInLoop_mem_ofFunctor]
      rintro rfl
      exact hbatch ▸ List.mem_cons_self
    · rw [shutDownInLoop_mem_ofFunctor, hbatch, List.mem_cons]
      rintro (hnow | hlater)
      · exact Or.inr hnow.symm
      · exact Or.inl hlater
  | @event revent i htodo =>
    exact h.start htodo (fun _ hf => hf) (fun b hb => (ofEvent_acts revent i b hb).1)
      (fun hb => absurd rfl (ofEvent_acts revent i _ hb).2) Or.inl
  | userCall htodo =>
    exact h.start htodo (fun _ hf => hf) (by simp [LoopAction.follows]) (by simp) Or.inl
  | connectionDestroyed htodo => exact hok.elim
  | advance htodo => exact h.advance htodo (hok _ (by rw [htodo]; rfl))

lemma threadStart_halfClose (key : κ) (fd highWaterMark : Nat) (callbacks : Callbacks) (p : EPollPoller κ)
    (files : Nat → Bytes) (app : List AppCall) (hc : p.channels fd = none) (hi : p.interest fd = none) :
    HalfCloseInv (threadStart key fd highWaterMark callbacks p files app) := by
  refine ⟨⟨[], establish_output key fd highWaterMark callbacks p files hc hi⟩, Or.inl rfl, ?_, ?_, ?_, ?_, ?_, ?_⟩
  · simp [threadStart, LoopAction.follows]
  · simp [threadStart, ConnContext.establish, ConnContext.setState, ConnContext.setChannel, ConnContext.make]
  · simp [threadStart]
  · rintro (⟨t, ht⟩ | hqueued | hnext)
    · cases ht
    · cases hqueued
    · simp [threadStart] at hnext
  · intro hissued
    cases hissued
  · intro hstate
    cases hstate

/-! ### After SHUT_WR -/

/-- In state `kDisConnecting` and without write interest no action writes. -/
lemma exec_sent {w : ConnContext κ} (hstate : w.conn.state = .kDisConnecting)
    (hw : w.conn.channel.isWriting = false) (a : LoopAction) :
    (a.exec w).1.sent = w.sent ∧ (w.shutWr = true → (a.exec w).1.shutWr = true) := by
  cases a with
  | connectionCallback app =>
    simp only [LoopAction.exec]
    split <;> exact ⟨rfl, id⟩
  | closeCallback =>
    simp only [LoopAction.exec, ConnContext.closeCallback]
    split <;> exact ⟨rfl, id⟩
  | appCall c =>
    cases c with
    | sendFile fd offset count r => simp [LoopAction.exec, hstate]
    | _ => exact ⟨rfl, id⟩
  | sendInLoop data r => simp [LoopAction.exec, ConnContext.sendInLoop, hstate]
  | sendFileInLoop r =>
    simp [LoopAction.exec, ConnContext.sendFileInLoop, hstate, ConnContext.setSendingFile]
  | shutDownInLoop => simp [LoopAction.exec, ConnContext.shutDownInLoop, hw]
  | handleRead r onMessage onDown =>
    simp only [LoopAction.exec]
    split
    · exact ⟨rfl, id⟩
    · split <;> exact ⟨rfl, id⟩
    · exact ⟨rfl, id⟩
  | handleWrite r => simp [LoopAction.exec, hw]
  | _ => exact ⟨rfl, id⟩

/-- The half-close has been issued and the kernel holds `sent`. -/
structure Issued (sent : Bytes) (s : ThreadState κ) : Prop where
  inv : HalfCloseInv s
  shutWr : s.w.shutWr = true
  sent : s.w.sent = sent

theorem issued_step {sent : Bytes} (s : ThreadState κ) (a : ThreadStep) (s' : ThreadState κ)
    (h : Issued sent s) (hok : beforeClose s a) (hnext : threadMachine.next s a = some s') :
    Issued sent s' := by
  have hinv := halfCloseInv_step s a s' h.inv hok hnext
  cases thread_trans hnext with
  | @advance act rest htodo =>
    obtain ⟨payload, hout⟩ := h.inv.output
    obtain ⟨hstate, hnil⟩ := h.inv.shutWr h.shutWr
    have hw : s.w.conn.channel.isWriting = false := by
      by_contra hw
      exact hout.writing.mp (by simpa using hw) hnil
    obtain ⟨hsent, hshut⟩ := exec_sent hstate hw act
    exact ⟨hinv, hshut h.shutWr, hsent.trans h.sent⟩
  | _ => exact ⟨hinv, h.shutWr, h.sent⟩

/-- SHUT_WR is issued only on a drained output buffer, nothing is written after it, and a
connection that is closing with no half-close under way is registered for writing and has output
left. -/
theorem half_close_after_drain (key : κ) (fd highWaterMark : Nat) (callbacks : Callbacks)
    (p : EPollPoller κ) (files : Nat → Bytes) (app : List AppCall) (hc : p.channels fd = none)
    (hi : p.interest fd = none) (steps : List ThreadStep) (s : ThreadState κ)
    (hok : threadMachine.Meets beforeClose (threadStart key fd highWaterMark callbacks p files app) steps)
    (hrun : threadMachine.run (threadStart key fd highWaterMark callbacks p files app) steps = some s) :
    (IssuesShutWr s → s.w.conn.outputBuffer.readable = []) ∧
      (s.w.shutWr = true → ∀ more s', threadMachine.Meets beforeClose s more →
        threadMachine.run s more = some s' → s'.w.sent = s.w.sent) ∧
      (s.w.conn.state = .kDisConnecting → ¬HalfCloseAhead s → .testClosing ∉ s.todo →
        s.w.shutWr = false → RegisteredForWriting s.w ∧ s.w.conn.outputBuffer.readable ≠ []) := by
  have hstart := threadStart_halfClose key fd highWaterMark callbacks p files app hc hi
  have h : HalfCloseInv s := threadMachine.invariant_of_meets halfCloseInv_step hstart hok hrun
  obtain ⟨payload, hout⟩ := h.output
  refine ⟨?_, ?_, ?_⟩
  · rintro ⟨-, hw⟩
    by_contra hne
    rw [hout.writing.mpr hne] at hw
    cases hw
  · intro hissued more s' hmore hrun'
    have hfinal : Issued s.w.sent s' :=
      threadMachine.invariant_of_meets issued_step ⟨h, hissued, rfl⟩ hmore hrun'
    exact hfinal.sent
  · intro hstate hahead htest hissued
    rcases h.closing hstate with hshut | hold | htest' | hne
    · rw [hissued] at hshut
      cases hshut
    · exact absurd hold hahead
    · exact absurd htest' htest
    · exact ⟨(registeredForWriting_iff hout.reg).mpr (hout.writing.mpr hne), hne⟩

/-- A connection on descriptor 5 whose callbacks are all set. -/
def idleConnection : ThreadState Unit :=
  threadStart () 5 64 ⟨true, true, true, true, true⟩ EPollPoller.empty (fun _ => []) []

/-- A partial write, then a shutdown by thread 0 whose task finds the write interest. -/
def untilTask : List ThreadStep :=
  [.advance, .userCall (.send [7, 8] (.ok 1)), .advance, .advance, .shutdownTest 0, .shutdownStore 0,
   .shutdownEnqueue 0, .swap, .runTask (.ok 0) [], .advance]

/-- The drain, its test and the half-close. -/
def drainSteps : List ThreadStep :=
  [.event ⟨false, false, true, false, false⟩ ⟨.ok [1], .ok 1, [], [], [], []⟩, .advance, .advance, .advance]

theorem half_close_after_drain_partial_write :
    ∃ s s' : ThreadState Unit, threadMachine.run idleConnection untilTask = some s ∧
      s.w.conn.state = .kDisConnecting ∧ s.w.shutWr = false ∧ RegisteredForWriting s.w ∧
      s.w.conn.outputBuffer.readable ≠ [] ∧ threadMachine.run s drainSteps = some s' ∧
      s'.w.shutWr = true ∧ s'.w.sent = [7, 8] := by
  have hok : threadMachine.Meets beforeClose idleConnection untilTask := by
    decide +kernel
  have hcallers : (threadMachine.run idleConnection untilTask).map ThreadState.caller =
      some (Function.update (Function.update (Function.update (fun _ => .idle) 0 .shutdownTested) 0
        .shutdownStored) 0 .idle) := rfl
  have hend : ((threadMachine.run idleConnection untilTask).bind fun s =>
      (threadMachine.run s drainSteps).map fun s' => (s.w.conn.state, s.w.shutWr,
        decide (s.todo = [] ∧ s.batch ++ s.w.pendingFunctors = []), s'.w.shutWr, s'.w.sent)) =
      some (.kDisConnecting, false, true, true, [7, 8]) := by
    decide +kernel
  obtain ⟨s, hrun, hend⟩ := Option.bind_eq_some_iff.mp hend
  obtain ⟨s', hrun', hend⟩ := Option.map_eq_some_iff.mp hend
  simp only [Prod.mk.injEq, decide_eq_true_eq] at hend
  obtain ⟨hstate, hissued, ⟨htodo, hqueue⟩, hissued', hsent⟩ := hend
  rw [hrun, Option.map_some, Option.some.injEq] at hcallers
  have hahead : ¬HalfCloseAhead s := by
    rintro (⟨t, ht⟩ | hqueued | hnext)
    · by_cases h0 : t = 0
      · simp [hcallers, h0] at ht
      · simp [hcallers, h0] at ht
    · rw [hqueue] at hqueued
      cases hqueued
    · rw [htodo] at hnext
      cases hnext
  obtain ⟨hreg, hne⟩ := (half_close_after_drain () 5 64 ⟨true, true, true, true, true⟩ EPollPoller.empty
    (fun _ => []) [] rfl rfl untilTask s hok hrun).2.2 hstate hahead (by simp [htodo]) hissued
  exact ⟨s, s', hrun, hstate, hissued, hreg, hne, hrun', hissued', hsent⟩

end MylibMuduo.Proofs
