import Mathlib.Data.List.Chain
import MylibMuduo.Proofs.TimerCancel
import MylibMuduo.Proofs.TimerReset

/-!
# When timers fire

The machine of the queue with a log of the callbacks: which timer, at the time of which
`handleRead`, and in which call of `handleRead`. One timer is followed from its insertion through
the batches, the restarts and the cancellations of other timers.
-/

namespace MylibMuduo.Proofs

/-- An invocation of a timer's callback, in the `handleRead` number `read` that took the time `now`. -/
structure Firing where
  id : TimerId
  now : Int
  read : Nat
  deriving DecidableEq, Repr

structure FiringLog where
  timers : TimerState
  reads : Nat
  firings : List Firing

namespace FiringLog

def make (clock : Int) : FiringLog := ⟨TimerState.make clock, 0, []⟩

/-- The callbacks that a step invokes. -/
def invoked (l : FiringLog) : TimerStep → List Firing
  | .runEntry =>
    match l.timers.phase with
    | .firing now _ (entry :: _) =>
      (l.timers.queue.runEntry entry).1.toList.map fun id => ⟨id, now, l.reads⟩
    | _ => []
  | _ => []

/-- The number of `handleRead` calls after a step. -/
def readsAfter (l : FiringLog) : TimerStep → Nat
  | .handleRead => l.reads + 1
  | _ => l.reads

/-- The callbacks of one timer. -/
def firingsOf (l : FiringLog) (id : TimerId) : List Firing := l.firings.filter fun f => f.id = id

end FiringLog

/-- The timer machine with the log. -/
def firingMachine : Machine FiringLog TimerStep where
  next l a := (timerMachine.next l.timers a).map fun s =>
    ⟨s, l.readsAfter a, l.firings ++ l.invoked a⟩

/-- Every run of the timer machine is logged. -/
theorem logged_run {steps : List TimerStep} {l : FiringLog} {s : TimerState}
    (hrun : timerMachine.run l.timers steps = some s) :
    ∃ l', firingMachine.run l steps = some l' ∧ l'.timers = s := by
  induction steps generalizing l with
  | nil =>
    rw [Machine.run, Option.some.injEq] at hrun
    exact ⟨l, rfl, hrun⟩
  | cons a steps ih =>
    obtain ⟨s₁, hnext, hrest⟩ := (timerMachine.run_cons_eq_some _ _ _ _).mp hrun
    obtain ⟨l', hl', hs⟩ := ih (l := ⟨s₁, l.readsAfter a, l.firings ++ l.invoked a⟩) hrest
    refine ⟨l', (firingMachine.run_cons_eq_some _ _ _ _).mpr ⟨_, ?_, hl'⟩, hs⟩
    simp only [firingMachine, hnext, Option.map_some]

/-! ### The batch -/

/-- The entries of a batch were due when it was collected. -/
def BatchDue (s : TimerState) : Prop :=
  ∀ now expired rest, s.phase = .firing now expired rest → ∀ k ∈ expired, k.expiration ≤ now

lemma batchDue_step {s s' : TimerState} {a : TimerStep} (hinv : TimerInv s) (h : BatchDue s)
    (hnext : timerMachine.next s a = some s') : BatchDue s' := by
  cases timer_trans hinv hnext with
  | handleRead hphase =>
    intro now expired rest hfiring k hk
    obtain ⟨rfl, rfl, -⟩ := TimerPhase.firing.inj hfiring
    exact ((mem_expiredKeys hinv.indexed).mp hk).2
  | runEntry now expired k rest p hphase he =>
    intro now' expired' rest' hfiring
    obtain ⟨rfl, rfl, -⟩ := TimerPhase.firing.inj hfiring
    exact h now expired (k :: rest) hphase
  | handleReadEnd now expired hphase =>
    intro now' expired' rest' hfiring
    simp at hfiring
  | _ => exact h

/-- The time in front of the next callback: that of the batch, or that of a batch collected now. -/
def batchTime (s : TimerState) : Int :=
  match s.phase with
  | .idle => s.queue.clock
  | .firing now _ _ => now

lemma batchTime_of_phase {s s' : TimerState} (hphase : s'.phase = s.phase)
    (hclock : s.queue.clock ≤ s'.queue.clock) (h : batchTime s ≤ s.queue.clock) :
    batchTime s ≤ batchTime s' ∧ batchTime s' ≤ s'.queue.clock := by
  unfold batchTime at h ⊢
  rw [hphase]
  cases hp : s.phase with
  | idle => exact ⟨hclock, Int.le_refl _⟩
  | firing now expired rest =>
    rw [hp] at h
    exact ⟨Int.le_refl _, Int.le_trans h hclock⟩

/-- Batches are collected one after the other. -/
lemma batchTime_step {s s' : TimerState} {a : TimerStep} (hinv : TimerInv s) (h : batchTime s ≤ s.queue.clock)
    (hnext : timerMachine.next s a = some s') : batchTime s ≤ batchTime s' ∧ batchTime s' ≤ s'.queue.clock := by
  have hclock := clock_le_of_next hinv hnext
  cases timer_trans hinv hnext with
  | handleRead hphase => exact ⟨h, Int.le_refl _⟩
  | runEntry now expired k rest p hphase he =>
    unfold batchTime at h ⊢
    rw [hphase] at h ⊢
    exact ⟨Int.le_refl _, h⟩
  | handleReadEnd now expired hphase => exact ⟨Int.le_trans h hclock, Int.le_refl _⟩
  | _ => exact batchTime_of_phase rfl hclock h

/-- What holds of every log: the invariants of the queue, and only timers that were given out
have fired, in batches that are not later than the present one. -/
structure LogInv (l : FiringLog) : Prop where
  timers : TimerInv l.timers
  once : IssuedOnce l.timers
  due : BatchDue l.timers
  clock : batchTime l.timers ≤ l.timers.queue.clock
  fired : ∀ f ∈ l.firings, f.id ∈ l.timers.issued ∧ f.read ≤ l.reads ∧ f.now ≤ batchTime l.timers

lemma invoked_runEntry {l : FiringLog} (h : TimerInv l.timers) {now : Int} {expired rest : List Entry}
    {k : Entry} {p : Option Nat} (hphase : l.timers.phase = .firing now expired (k :: rest))
    (he : (k, p) ∈ l.timers.queue.timerList.entries) :
    l.invoked .runEntry = [⟨⟨p, k.sequence⟩, now, l.reads⟩] := by
  unfold FiringLog.invoked
  simp only [hphase, runEntry_eq h.indexed he, Option.toList_some, List.map_cons, List.map_nil]

theorem logInv_step (l : FiringLog) (a : TimerStep) (l' : FiringLog) (h : LogInv l)
    (hnext : firingMachine.next l a = some l') : LogInv l' := by
  obtain ⟨s, hs, rfl⟩ := Option.map_eq_some_iff.mp hnext
  obtain ⟨hlater, hclock⟩ := batchTime_step h.timers h.clock hs
  refine ⟨timerInv_step h.timers hs, issuedOnce_step h.timers h.once hs, batchDue_step h.timers h.due hs,
    hclock, ?_⟩
  have hold : ∀ f ∈ l.firings, f.id ∈ s.issued ∧ f.read ≤ l.readsAfter a ∧ f.now ≤ batchTime s := by
    intro f hf
    obtain ⟨hid, hread, hnow⟩ := h.fired f hf
    refine ⟨still_issued h.timers hid hs, ?_, Int.le_trans hnow hlater⟩
    cases a with
    | handleRead => exact Nat.le_succ_of_le hread
    | _ => exact hread
  intro f hmem
  rcases List.mem_append.mp hmem with hf | hf
  · exact hold f hf
  · cases timer_trans h.timers hs with
    | runEntry now expired k rest p hphase he =>
      rw [invoked_runEntry h.timers hphase he, List.mem_singleton] at hf
      subst hf
      exact ⟨h.timers.issued _ (h.timers.indexed.mem_active.mpr ⟨(k, p), he, rfl⟩), Nat.le_refl _,
        Int.le_refl _⟩
    | _ => cases hf

lemma logInv_make (clock : Int) : LogInv (FiringLog.make clock) := by
  refine ⟨timerInv_make clock, ?_, ?_, Int.le_refl _, ?_⟩
  · intro i hi
    simp [FiringLog.make, TimerState.make] at hi
  · intro now expired rest hphase
    simp [FiringLog.make, TimerState.make] at hphase
  · intro f hf
    simp [FiringLog.make] at hf

/-! ### One timer -/

/-- The id that `addTimer` returns for the timer `t` at the address `a`. -/
def idOf (a : Nat) (t : Timer) : TimerId := ⟨some a, t.sequence⟩

/-- The callbacks `fs` of the timer `t`: none before the requested time, at most one if the timer
does not repeat, and consecutive ones in different calls of `handleRead`, the later one when the
timer is due again. -/
structure Disciplined (t : Timer) (fs : List Firing) : Prop where
  due : ∀ f ∈ fs, t.expiration ≤ f.now
  once : t.isRepeat = false → fs.length ≤ 1
  spaced : fs.IsChain fun f g => f.read < g.read ∧ addTime f.now t.interval ≤ g.now

/-- A callback in `handleRead` number `read` at the time `k.expiration` or later is in order. -/
def NextDue (t : Timer) (fs : List Firing) (k : Entry) (read : Nat) : Prop :=
  (fs = [] ∧ t.expiration ≤ k.expiration) ∨
    ∃ f ∈ fs.getLast?, t.isRepeat = true ∧ addTime f.now t.interval ≤ k.expiration ∧ f.read < read

lemma NextDue.mono {t : Timer} {fs : List Firing} {k : Entry} {r r' : Nat} (h : NextDue t fs k r)
    (hle : r ≤ r') : NextDue t fs k r' := by
  rcases h with h | ⟨f, hf, hrep, hnow, hread⟩
  · exact Or.inl h
  · exact Or.inr ⟨f, hf, hrep, hnow, by omega⟩

/-- The entry `k` of the timer waits for its time, or its callback has run in this batch. -/
def EntryAt (t : Timer) (fs : List Firing) (reads : Nat) (k : Entry) : TimerPhase → Prop
  | .idle => NextDue t fs k (reads + 1)
  | .firing now expired rest =>
    if k ∈ expired ∧ k ∉ rest then ∃ f ∈ fs.getLast?, f.now = now ∧ f.read = reads
    else NextDue t fs k reads

section EntryAt

variable {t : Timer} {fs : List Firing} {reads : Nat} {k : Entry} {now : Int} {expired rest : List Entry}

lemma entryAt_waiting (h : k ∈ expired → k ∈ rest) :
    EntryAt t fs reads k (.firing now expired rest) ↔ NextDue t fs k reads := by
  unfold EntryAt
  exact iff_of_eq (if_neg fun hc => hc.2 (h hc.1))

lemma entryAt_ran (hexp : k ∈ expired) (hrest : k ∉ rest) :
    EntryAt t fs reads k (.firing now expired rest) ↔
      ∃ f ∈ fs.getLast?, f.now = now ∧ f.read = reads := by
  unfold EntryAt
  exact iff_of_eq (if_pos ⟨hexp, hrest⟩)

end EntryAt

structure Followed (a : Nat) (t : Timer) (l : FiringLog) : Prop where
  issued : idOf a t ∈ l.timers.issued
  disciplined : Disciplined t (l.firingsOf (idOf a t))
  timer : ∀ k, (k, some a) ∈ l.timers.queue.timerList.entries → k.sequence = t.sequence →
    ∃ u, l.timers.queue.heap a = some u ∧ u.isRepeat = t.isRepeat ∧ u.interval = t.interval
  entry : ∀ k, (k, some a) ∈ l.timers.queue.timerList.entries → k.sequence = t.sequence →
    EntryAt t (l.firingsOf (idOf a t)) l.reads k l.timers.phase

/-- The next callback keeps the discipline. -/
lemma Disciplined.fire {t : Timer} {fs : List Firing} {k : Entry} {f : Firing} (h : Disciplined t fs)
    (hk : NextDue t fs k f.read) (hnow : k.expiration ≤ f.now) (hlater : ∀ g ∈ fs, g.now ≤ f.now) :
    Disciplined t (fs ++ [f]) := by
  rcases hk with ⟨rfl, hdue⟩ | ⟨g, hg, hrep, hspace, hread⟩
  · rw [List.nil_append]
    refine ⟨?_, by simp, List.isChain_singleton f⟩
    intro g hg
    rw [List.mem_singleton] at hg
    rw [hg]
    omega
  · have hmem := List.mem_of_getLast? hg
    have hdue := h.due g hmem
    have hafter := hlater g hmem
    refine ⟨?_, ?_, h.spaced.append (List.isChain_singleton f) ?_⟩
    · intro e he
      rcases List.mem_append.mp he with he | he
      · exact h.due e he
      · rw [List.mem_singleton] at he
        rw [he]
        omega
    · intro hone
      rw [hrep] at hone
      cases hone
    · intro e he e' he'
      rw [Option.mem_unique he hg]
      simp only [List.head?_cons, Option.mem_def, Option.some.injEq] at he'
      rw [← he']
      exact ⟨hread, by omega⟩

lemma firingsOf_append (l : FiringLog) (id : TimerId) (fs : List Firing) (s : TimerState) (r : Nat) :
    FiringLog.firingsOf ⟨s, r, l.firings ++ fs⟩ id = l.firingsOf id ++ fs.filter fun f => f.id = id := by
  simp only [FiringLog.firingsOf, List.filter_append]

lemma firingsOf_nil (l : FiringLog) (id : TimerId) (s : TimerState) (r : Nat) :
    FiringLog.firingsOf ⟨s, r, l.firings ++ []⟩ id = l.firingsOf id := by
  rw [firingsOf_append, List.filter_nil, List.append_nil]

/-- The timer right after its insertion. -/
lemma followed_addTimer {l : FiringLog} (h : LogInv l) {a : Nat} {t : Timer}
    (ha : l.timers.queue.heap a = none) (hseq : ∀ id ∈ l.timers.issued, id.sequence ≠ t.sequence) :
    Followed a t ⟨{ l.timers with
      queue := l.timers.queue.addTimer a t
      issued := l.timers.issued ++ [⟨some a, t.sequence⟩] }, l.reads, l.firings ++ []⟩ := by
  have hnew := h.timers.new_sequence hseq
  have hnone : l.firingsOf (idOf a t) = [] := by
    rw [FiringLog.firingsOf, List.filter_eq_nil_iff]
    intro f hf hid
    rw [decide_eq_true_eq] at hid
    exact hseq f.id (h.fired f hf).1 (by rw [hid]; rfl)
  have hfirings : FiringLog.firingsOf ⟨{ l.timers with
      queue := l.timers.queue.addTimer a t
      issued := l.timers.issued ++ [⟨some a, t.sequence⟩] }, l.reads, l.firings ++ []⟩ (idOf a t) = [] := by
    rw [firingsOf_nil, hnone]
  obtain ⟨fd, hfd⟩ := addTimer_added h.timers.indexed ha hnew
  have hkey : ∀ k, (k, some a) ∈ (l.timers.queue.addTimer a t).timerList.entries → k.sequence = t.sequence →
      k = ⟨t.expiration, t.sequence⟩ := by
    intro k hk hkseq
    rw [hfd] at hk
    rcases OrderedMap.mem_insert.mp hk with heq | ⟨hold, -⟩
    · exact (Prod.mk.inj heq).1
    · exact absurd hkseq (hnew _ hold)
  refine ⟨List.mem_append_right _ List.mem_cons_self, ?_, ?_, ?_⟩
  · rw [hfirings]
    exact ⟨by simp, by simp, List.isChain_nil⟩
  · intro k _ _
    refine ⟨t, ?_, rfl, rfl⟩
    dsimp only
    rw [hfd]
    simp [added, allocated]
  · intro k hk hkseq
    have hk' := hkey k hk hkseq
    have hdue : ∀ r, NextDue t [] k r := fun r => Or.inl ⟨rfl, by rw [hk']⟩
    rw [hfirings]
    unfold EntryAt
    dsimp only
    split
    · exact hdue _
    · next now expired rest hphase =>
      have hnot : k ∉ expired := by
        intro hexp
        obtain ⟨p, hp⟩ := (h.timers.firing hphase).2.1 k hexp
        exact hnew _ hp hkseq
      rw [if_neg (fun hc => hnot hc.1)]
      exact hdue _

/-- A step that leaves the phase, the log and the entry of the timer alone. -/
lemma Followed.of_same {a : Nat} {t : Timer} {l l' : FiringLog} (h : Followed a t l)
    (hissued : ∀ id ∈ l.timers.issued, id ∈ l'.timers.issued) (hphase : l'.timers.phase = l.timers.phase)
    (hreads : l'.reads = l.reads) (hfirings : l'.firings = l.firings)
    (hentries : ∀ k, (k, some a) ∈ l'.timers.queue.timerList.entries → k.sequence = t.sequence →
      (k, some a) ∈ l.timers.queue.timerList.entries ∧ l'.timers.queue.heap a = l.timers.queue.heap a) :
    Followed a t l' := by
  have hof : l'.firingsOf (idOf a t) = l.firingsOf (idOf a t) := by
    rw [FiringLog.firingsOf, hfirings, FiringLog.firingsOf]
  refine ⟨hissued _ h.issued, by rw [hof]; exact h.disciplined, ?_, ?_⟩
  · intro k hk hseq
    obtain ⟨hold, hheap⟩ := hentries k hk hseq
    rw [hheap]
    exact h.timer k hold hseq
  · intro k hk hseq
    rw [hof, hreads, hphase]
    exact h.entry k (hentries k hk hseq).1 hseq

/-- `cancelTimer` of any timer leaves the other entries and their timers alone. -/
lemma cancelTimerInLoop_entries {q : TimerQueue} (h : Indexed q) (id : TimerId) {k : Entry} {a : Nat}
    (hk : (k, some a) ∈ (q.cancelTimerInLoop id).timerList.entries) :
    (k, some a) ∈ q.timerList.entries ∧ (q.cancelTimerInLoop id).heap a = q.heap a := by
  rw [cancelTimerInLoop_eq h] at hk ⊢
  split at hk
  · rw [if_pos ‹_›]
    exact ⟨hk, rfl⟩
  · rw [if_neg ‹_›]
    rcases erase_cases h id with ⟨-, heq⟩ | ⟨k', b, he, -, heq⟩
    · rw [heq] at hk ⊢
      exact ⟨hk, rfl⟩
    · rw [heq] at hk ⊢
      obtain ⟨hold, hne⟩ := OrderedMap.mem_erase.mp hk
      have hdiff : ((k, some a) : Entry × Option Nat) ≠ (k', some b) := fun hsame => hne (by rw [hsame])
      have hab : a ≠ b := h.address_ne hold he hdiff rfl rfl
      exact ⟨hold, by simp [removed, hab]⟩

/-- A callback of the batch, of this timer or of another one. -/
lemma followed_runEntry {a : Nat} {t : Timer} {l : FiringLog} (hinv : LogInv l) (h : Followed a t l)
    {now : Int} {expired rest : List Entry} {k : Entry} {p : Option Nat}
    (hphase : l.timers.phase = .firing now expired (k :: rest))
    (he : (k, p) ∈ l.timers.queue.timerList.entries) :
    Followed a t ⟨{ l.timers with
      phase := .firing now expired rest
      fired := l.timers.fired ++ [⟨p, k.sequence⟩] }, l.reads,
      l.firings ++ [⟨⟨p, k.sequence⟩, now, l.reads⟩]⟩ := by
  obtain ⟨-, -, hnodup, hsuffix⟩ := hinv.timers.firing hphase
  have hexp : k ∈ expired := hsuffix.subset List.mem_cons_self
  have hrest : k ∉ rest := by
    have hsub := (hsuffix.sublist.map Entry.sequence).nodup hnodup
    rw [List.map_cons, List.nodup_cons] at hsub
    exact fun hmem => hsub.1 (List.mem_map_of_mem hmem)
  by_cases hid : (⟨p, k.sequence⟩ : TimerId) = idOf a t
  · obtain ⟨rfl, hseq⟩ := TimerId.mk.inj hid
    have hof : FiringLog.firingsOf ⟨{ l.timers with
        phase := .firing now expired rest
        fired := l.timers.fired ++ [⟨some a, k.sequence⟩] }, l.reads,
        l.firings ++ [⟨⟨some a, k.sequence⟩, now, l.reads⟩]⟩ (idOf a t) =
        l.firingsOf (idOf a t) ++ [⟨⟨some a, k.sequence⟩, now, l.reads⟩] := by
      rw [firingsOf_append, List.filter_cons_of_pos (by simpa using hid), List.filter_nil]
    have hat := h.entry k he hseq
    rw [hphase, entryAt_waiting (fun _ => List.mem_cons_self)] at hat
    refine ⟨h.issued, ?_, h.timer, ?_⟩
    · rw [hof]
      refine h.disciplined.fire hat (hinv.due now expired _ hphase k hexp) fun g hg => ?_
      have hlast := (hinv.fired g (List.mem_filter.mp hg).1).2.2
      unfold batchTime at hlast
      rw [hphase] at hlast
      exact hlast
    · intro k' hk' hseq'
      have hsame := hinv.timers.indexed.sequences (k', some a) hk' (k, some a) he (hseq'.trans hseq.symm)
      obtain ⟨rfl, -⟩ := Prod.mk.inj hsame
      rw [hof, entryAt_ran hexp hrest]
      exact ⟨⟨⟨some a, k'.sequence⟩, now, l.reads⟩, by simp, rfl, rfl⟩
  · have hof : FiringLog.firingsOf ⟨{ l.timers with
        phase := .firing now expired rest
        fired := l.timers.fired ++ [⟨p, k.sequence⟩] }, l.reads,
        l.firings ++ [⟨⟨p, k.sequence⟩, now, l.reads⟩]⟩ (idOf a t) = l.firingsOf (idOf a t) := by
      rw [firingsOf_append, List.filter_cons_of_neg (by simpa using hid), List.filter_nil, List.append_nil]
    refine ⟨h.issued, by rw [hof]; exact h.disciplined, h.timer, ?_⟩
    intro k' hk' hseq'
    have hne : k' ≠ k := by
      rintro rfl
      have hp := OrderedMap.value_unique he hk'
      exact hid (by rw [hp, hseq']; rfl)
    have hat := h.entry k' hk' hseq'
    rw [hphase] at hat
    rw [hof]
    simp only [EntryAt, List.mem_cons, hne, false_or] at hat ⊢
    exact hat

/-- The end of the batch: the timer keeps its entry, is restarted or is gone. -/
lemma followed_handleReadEnd {a : Nat} {t : Timer} {l : FiringLog} (hinv : LogInv l) (h : Followed a t l)
    {now : Int} {expired : List Entry} (hphase : l.timers.phase = .firing now expired []) :
    Followed a t ⟨{ l.timers with
      queue := l.timers.queue.handleReadEnd expired now
      phase := .idle }, l.reads, l.firings ++ []⟩ := by
  obtain ⟨-, hin, hnodup, -⟩ := hinv.timers.firing hphase
  obtain ⟨-, -, hend⟩ := hinv.timers.handleReadEnd hphase
  obtain ⟨fd, hfd⟩ := rearmed_eq (resetTimers (stopped l.timers.queue) expired now)
  have hindexed := stopped_indexed hinv.timers.indexed
  refine ⟨h.issued, by rw [firingsOf_nil]; exact h.disciplined, ?_, ?_⟩
  · intro k hk hseq
    dsimp only at hk ⊢
    rw [hend, hfd] at hk ⊢
    obtain ⟨k₀, u, he, hseq₀, hu, hcase⟩ := resetTimers_entry hindexed hnodup hin hk
    obtain ⟨u', hu', hrep, hint⟩ := h.timer k₀ he (hseq₀.trans hseq)
    obtain rfl := Option.some.inj (hu.symm.trans hu')
    rcases hcase with ⟨-, -, hheap⟩ | ⟨-, hrepeat, -, -, hheap⟩
    · exact ⟨u, hheap, hrep, hint⟩
    · refine ⟨u.restart now, hheap, ?_, ?_⟩
      · rw [restart_repeat hrepeat]
        exact hrep
      · rw [restart_repeat hrepeat]
        exact hint
  · intro k hk hseq
    dsimp only at hk
    rw [hend, hfd] at hk
    obtain ⟨k₀, u, he, hseq₀, hu, hcase⟩ := resetTimers_entry hindexed hnodup hin hk
    obtain ⟨u', hu', hrep, hint⟩ := h.timer k₀ he (hseq₀.trans hseq)
    obtain rfl := Option.some.inj (hu.symm.trans hu')
    have hat := h.entry k₀ he (hseq₀.trans hseq)
    rw [hphase] at hat
    rw [firingsOf_nil]
    rcases hcase with ⟨hexp, rfl, -⟩ | ⟨hexp, hrepeat, -, rfl, -⟩
    · rw [entryAt_waiting (fun hc => absurd hc hexp)] at hat
      exact hat.mono (Nat.le_succ _)
    · rw [entryAt_ran hexp (by simp)] at hat
      obtain ⟨f, hf, hnow, hread⟩ := hat
      have hkey : (restartedKey k₀ u now).expiration = addTime now t.interval := by
        rw [restartedKey, restart_repeat hrepeat, ← hint]
      refine Or.inr ⟨f, hf, hrep.symm.trans hrepeat, ?_, Nat.lt_succ_of_le (Nat.le_of_eq hread)⟩
      rw [hnow, hkey]

/-- `handleRead` collects a batch. -/
lemma followed_handleRead {a : Nat} {t : Timer} {l : FiringLog} (h : Followed a t l)
    (hphase : l.timers.phase = .idle) :
    Followed a t ⟨{ l.timers with
      queue := { l.timers.queue with
        timerFd := l.timers.queue.timerFd.read l.timers.queue.clock
        isRunningCallback := true }
      phase := .firing l.timers.queue.clock (expiredKeys l.timers.queue l.timers.queue.clock)
        (expiredKeys l.timers.queue l.timers.queue.clock) }, l.reads + 1, l.firings ++ []⟩ := by
  refine ⟨h.issued, by rw [firingsOf_nil]; exact h.disciplined, h.timer, ?_⟩
  intro k hk hseq
  have hat := h.entry k hk hseq
  rw [hphase] at hat
  rw [firingsOf_nil, entryAt_waiting id]
  exact hat

theorem followed_step {a : Nat} {t : Timer} (l : FiringLog) (b : TimerStep) (l' : FiringLog)
    (hinv : LogInv l) (h : Followed a t l) (hnext : firingMachine.next l b = some l') : Followed a t l' := by
  obtain ⟨s, hs, rfl⟩ := Option.map_eq_some_iff.mp hnext
  cases timer_trans hinv.timers hs with
  | tick d =>
    exact h.of_same (fun _ hid => hid) rfl rfl (List.append_nil _) (fun k hk _ => ⟨hk, rfl⟩)
  | lag d =>
    exact h.of_same (fun _ hid => hid) rfl rfl (List.append_nil _) (fun k hk _ => ⟨hk, rfl⟩)
  | addTimer b u hb hseq =>
    obtain ⟨fd, hfd⟩ := addTimer_added hinv.timers.indexed hb (hinv.timers.new_sequence hseq)
    refine h.of_same (fun _ hid => List.mem_append_left _ hid) rfl rfl (List.append_nil _) ?_
    intro k hk hkseq
    dsimp only at hk ⊢
    rw [hfd] at hk ⊢
    rcases OrderedMap.mem_insert.mp hk with heq | ⟨hold, -⟩
    · obtain ⟨rfl, -⟩ := Prod.mk.inj heq
      exact absurd hkseq.symm (hseq _ h.issued)
    · refine ⟨hold, ?_⟩
      obtain ⟨v, hv, -⟩ := h.timer k hold hkseq
      have hab : a ≠ b := by
        rintro rfl
        rw [hb] at hv
        cases hv
      simp [added, allocated, hab]
  | cancelTimer id =>
    exact h.of_same (fun _ hid => hid) rfl rfl (List.append_nil _)
      (fun k hk _ => cancelTimerInLoop_entries hinv.timers.indexed id hk)
  | handleRead hphase => exact followed_handleRead h hphase
  | runEntry now expired k rest p hphase he =>
    rw [invoked_runEntry hinv.timers hphase he]
    exact followed_runEntry hinv h hphase he
  | handleReadEnd now expired hphase => exact followed_handleReadEnd hinv h hphase

/-! ### Timers that are never cancelled -/

/-- A timer is noted for cancellation by a call of `cancelTimer` only. -/
lemma not_canceling_step {id : TimerId} {s s' : TimerState} {b : TimerStep} (hinv : TimerInv s)
    (h : id ∉ s.queue.cancelingTimerSet) (hb : b ≠ .cancelTimer id)
    (hnext : timerMachine.next s b = some s') : id ∉ s'.queue.cancelingTimerSet := by
  cases timer_trans hinv hnext with
  | addTimer a t ha hseq =>
    obtain ⟨fd, hfd⟩ := addTimer_added hinv.indexed ha (hinv.new_sequence hseq)
    dsimp only
    rw [hfd]
    exact h
  | cancelTimer j =>
    dsimp only
    rw [cancelTimerInLoop_eq hinv.indexed]
    split
    · intro hmem
      rcases List.mem_insert_iff.mp hmem with rfl | hmem
      · exact hb rfl
      · exact h hmem
    · rw [(erase_step hinv.indexed j).2.2]
      exact h
  | handleReadEnd now expired hphase =>
    obtain ⟨-, -, hend⟩ := hinv.handleReadEnd hphase
    obtain ⟨fd, hfd⟩ := rearmed_eq (resetTimers (stopped s.queue) expired now)
    dsimp only
    rw [hend, hfd]
    simp [resetTimers]
  | _ => exact h

/-- The timer has an entry as long as it has to fire. -/
structure Kept (a : Nat) (t : Timer) (l : FiringLog) : Prop where
  kept : idOf a t ∉ l.timers.queue.cancelingTimerSet
  present : t.isRepeat = true ∨ l.firingsOf (idOf a t) = [] →
    ∃ k, (k, some a) ∈ l.timers.queue.timerList.entries ∧ k.sequence = t.sequence

lemma kept_cancelTimer {a : Nat} {t : Timer} {q : TimerQueue} (h : Indexed q) {id : TimerId}
    (hid : id ≠ idOf a t) {k : Entry} (hk : (k, some a) ∈ q.timerList.entries)
    (hseq : k.sequence = t.sequence) : (k, some a) ∈ (q.cancelTimerInLoop id).timerList.entries := by
  rw [cancelTimerInLoop_eq h]
  split
  · exact hk
  · rcases erase_cases h id with ⟨-, heq⟩ | ⟨k', b, he, hid', heq⟩
    · rw [heq]
      exact hk
    · rw [heq]
      refine OrderedMap.mem_erase.mpr ⟨hk, ?_⟩
      intro hkk
      change k = k' at hkk
      subst hkk
      have hab := OrderedMap.value_unique hk he
      exact hid (by rw [hid', ← hab, hseq]; rfl)

lemma kept_handleReadEnd {a : Nat} {t : Timer} {l : FiringLog} (hinv : LogInv l) (hf : Followed a t l)
    (h : Kept a t l) {now : Int} {expired : List Entry} (hphase : l.timers.phase = .firing now expired [])
    (hdue : t.isRepeat = true ∨ l.firingsOf (idOf a t) = []) :
    ∃ k, (k, some a) ∈ (l.timers.queue.handleReadEnd expired now).timerList.entries ∧
      k.sequence = t.sequence := by
  obtain ⟨-, hin, hnodup, -⟩ := hinv.timers.firing hphase
  obtain ⟨-, -, hend⟩ := hinv.timers.handleReadEnd hphase
  obtain ⟨fd, hfd⟩ := rearmed_eq (resetTimers (stopped l.timers.queue) expired now)
  obtain ⟨k, hk, hseq⟩ := h.present hdue
  obtain ⟨u, hu, hrep, -⟩ := hf.timer k hk hseq
  have hindexed := stopped_indexed hinv.timers.indexed
  have hs : Scheduled (stopped l.timers.queue) k a u := by
    refine ⟨hk, hu, ?_⟩
    rw [hseq]
    exact h.kept
  rw [hend, hfd]
  by_cases hexp : k ∈ expired
  · have hat := hf.entry k hk hseq
    rw [hphase, entryAt_ran hexp (by simp)] at hat
    obtain ⟨f, hlast, -⟩ := hat
    rcases hdue with hr | hnone
    · have hnew : Scheduled (resetTimers (stopped l.timers.queue) expired now) (restartedKey k u now) a
          (u.restart now) := scheduled_of_repeat hindexed hs hnodup hin (hrep.trans hr) hexp
      exact ⟨_, hnew.entry, hseq⟩
    · rw [hnone] at hlast
      cases hlast
  · have hnew : Scheduled (resetTimers (stopped l.timers.queue) expired now) k a u :=
      scheduled_of_not_expired hindexed hs hnodup hin hexp
    exact ⟨k, hnew.entry, hseq⟩

theorem kept_step {a : Nat} {t : Timer} (l : FiringLog) (b : TimerStep) (l' : FiringLog) (hinv : LogInv l)
    (hf : Followed a t l) (h : Kept a t l) (hb : b ≠ .cancelTimer (idOf a t))
    (hnext : firingMachine.next l b = some l') : Kept a t l' := by
  obtain ⟨s, hs, rfl⟩ := Option.map_eq_some_iff.mp hnext
  refine ⟨not_canceling_step hinv.timers h.kept hb hs, ?_⟩
  intro hdue
  have hold : t.isRepeat = true ∨ l.firingsOf (idOf a t) = [] := by
    rw [firingsOf_append] at hdue
    exact hdue.imp_right (fun hnil => (List.append_eq_nil_iff.mp hnil).1)
  obtain ⟨k, hk, hkseq⟩ := h.present hold
  cases timer_trans hinv.timers hs with
  | addTimer c u hc hseq =>
    obtain ⟨fd, hfd⟩ := addTimer_added hinv.timers.indexed hc (hinv.timers.new_sequence hseq)
    refine ⟨k, ?_, hkseq⟩
    dsimp only
    rw [hfd]
    refine OrderedMap.mem_insert.mpr (Or.inr ⟨hk, ?_⟩)
    intro heq
    apply hseq _ hf.issued
    rw [idOf, ← hkseq]
    exact congrArg Entry.sequence heq
  | cancelTimer id =>
    exact ⟨k, kept_cancelTimer hinv.timers.indexed (fun heq => hb (by rw [heq])) hk hkseq, hkseq⟩
  | handleReadEnd now expired hphase => exact kept_handleReadEnd hinv hf h hphase hold
  | _ => exact ⟨k, hk, hkseq⟩

/-! ### Runs -/

lemma logInv_run {clock : Int} {steps : List TimerStep} {l : FiringLog}
    (hrun : firingMachine.run (FiringLog.make clock) steps = some l) : LogInv l :=
  firingMachine.invariant logInv_step (logInv_make clock) hrun

/-- The log after the insertion of a timer. -/
lemma followed_run {a : Nat} {t : Timer} {l l₁ l' : FiringLog} {more : List TimerStep} (h : LogInv l)
    (hadd : firingMachine.next l (.addTimer a t) = some l₁) (hmore : firingMachine.run l₁ more = some l') :
    LogInv l' ∧ Followed a t l' := by
  have hstart : Followed a t l₁ := by
    obtain ⟨s, hs, rfl⟩ := Option.map_eq_some_iff.mp hadd
    cases timer_trans h.timers hs with
    | addTimer a t ha hseq => exact followed_addTimer h ha hseq
  refine firingMachine.invariant (I := fun l => LogInv l ∧ Followed a t l) ?_
    ⟨logInv_step l _ l₁ h hadd, hstart⟩ hmore
  intro l b l' h hnext
  exact ⟨logInv_step l b l' h.1 hnext, followed_step l b l' h.1 h.2 hnext⟩

lemma kept_run {clock : Int} {a : Nat} {t : Timer} {l l₁ l' : FiringLog} {steps more : List TimerStep}
    (hrun : firingMachine.run (FiringLog.make clock) steps = some l)
    (hadd : firingMachine.next l (.addTimer a t) = some l₁) (hmore : firingMachine.run l₁ more = some l')
    (hnever : .cancelTimer (idOf a t) ∉ steps ++ more) : Kept a t l' := by
  rw [List.mem_append, not_or] at hnever
  have h := logInv_run hrun
  have hsteps : firingMachine.Meets (fun _ b => b ≠ .cancelTimer (idOf a t)) (FiringLog.make clock) steps :=
    firingMachine.meets_of_forall _ fun b hb heq => hnever.1 (heq ▸ hb)
  have hmeets : firingMachine.Meets (fun _ b => b ≠ .cancelTimer (idOf a t)) l₁ more :=
    firingMachine.meets_of_forall _ fun b hb heq => hnever.2 (heq ▸ hb)
  have hbefore : idOf a t ∉ l.timers.queue.cancelingTimerSet := by
    have hboth := firingMachine.invariant_of_meets
      (I := fun l => LogInv l ∧ idOf a t ∉ l.timers.queue.cancelingTimerSet) ?_
      ⟨logInv_make clock, by simp [FiringLog.make, TimerState.make, TimerQueue.make]⟩ hsteps hrun
    · exact hboth.2
    · rintro l b l' ⟨hl, hc⟩ hb hnext
      obtain ⟨s, hs, rfl⟩ := Option.map_eq_some_iff.mp hnext
      exact ⟨logInv_step l b _ hl hnext, not_canceling_step hl.timers hc hb hs⟩
  have hstart : Kept a t l₁ := by
    obtain ⟨s, hs, rfl⟩ := Option.map_eq_some_iff.mp hadd
    refine ⟨not_canceling_step h.timers hbefore (by simp) hs, fun _ => ⟨⟨t.expiration, t.sequence⟩, ?_, rfl⟩⟩
    cases timer_trans h.timers hs with
    | addTimer a t ha hseq =>
      obtain ⟨fd, hfd⟩ := addTimer_added h.timers.indexed ha (h.timers.new_sequence hseq)
      dsimp only
      rw [hfd]
      exact OrderedMap.mem_insert.mpr (Or.inl rfl)
  have hstay : firingMachine.run l₁ [] = some l₁ := rfl
  have hall := firingMachine.invariant_of_meets (I := fun l => (LogInv l ∧ Followed a t l) ∧ Kept a t l) ?_
    ⟨followed_run h hadd hstay, hstart⟩ hmeets hmore
  · exact hall.2
  · rintro l b l' ⟨⟨hl, hf⟩, hk⟩ hb hnext
    exact ⟨⟨logInv_step l b l' hl hnext, followed_step l b l' hl hf hnext⟩, kept_step l b l' hl hf hk hb hnext⟩

/-- In every run, for every timer: no callback before the requested time, at most one of a timer
that does not repeat, at most one in a call of `handleRead`, consecutive ones at least the
interval apart if `addTime` did not overflow at the first of them; and a timer that is never
cancelled is in both indexes until it has fired, for ever if it repeats. -/
theorem timer_firing_discipline (clock : Int) (steps more : List TimerStep) (l l₁ l' : FiringLog)
    (a : Nat) (t : Timer) (hrun : firingMachine.run (FiringLog.make clock) steps = some l)
    (hadd : firingMachine.next l (.addTimer a t) = some l₁)
    (hmore : firingMachine.run l₁ more = some l') :
    (∀ f ∈ l'.firingsOf (idOf a t), t.expiration ≤ f.now) ∧
      (t.isRepeat = false → (l'.firingsOf (idOf a t)).length ≤ 1) ∧
      ((l'.firingsOf (idOf a t)).map Firing.read).Nodup ∧
      (l'.firingsOf (idOf a t)).IsChain
        (fun f g => f.now + t.interval ≤ kLLongMax → f.now + t.interval ≤ g.now) ∧
      (.cancelTimer (idOf a t) ∉ steps ++ more →
        t.isRepeat = true ∨ l'.firingsOf (idOf a t) = [] →
        idOf a t ∈ l'.timers.queue.activeTimerSet ∧
          ∃ k, (k, some a) ∈ l'.timers.queue.timerList.entries ∧ k.sequence = t.sequence) := by
  obtain ⟨hinv, hf⟩ := followed_run (logInv_run hrun) hadd hmore
  refine ⟨hf.disciplined.due, hf.disciplined.once, ?_,
    hf.disciplined.spaced.imp fun _ _ h hfits => Int.le_trans (le_int64 hfits) h.2, ?_⟩
  · have hreads : ((l'.firingsOf (idOf a t)).map Firing.read).IsChain (· < ·) := by
      rw [List.isChain_map]
      exact hf.disciplined.spaced.imp fun _ _ h => h.1
    exact (List.isChain_iff_pairwise.mp hreads).imp Nat.ne_of_lt
  · intro hnever hdue
    obtain ⟨k, hk, hseq⟩ := (kept_run hrun hadd hmore hnever).present hdue
    refine ⟨hinv.timers.indexed.mem_active.mpr ⟨(k, some a), hk, ?_⟩, k, hk, hseq⟩
    rw [activeOf, idOf, hseq]

/-- Two timers expire at 21; the repeating one is due again at 26 and fires in the next call. -/
def sampleRounds : List TimerStep :=
  [.addTimer 1 sampleOneShot, .tick 20, .handleRead, .runEntry, .addTimer 2 sampleLater, .runEntry,
   .handleReadEnd, .tick 6, .handleRead, .runEntry, .handleReadEnd]

theorem timer_firing_discipline_rounds :
    ∃ l₁ l', firingMachine.next (FiringLog.make 1) (.addTimer 0 sampleRepeating) = some l₁ ∧
      firingMachine.run l₁ sampleRounds = some l' ∧
      l'.firingsOf ⟨some 0, 0⟩ = [⟨⟨some 0, 0⟩, 21, 1⟩, ⟨⟨some 0, 0⟩, 27, 2⟩] ∧
      (l'.firingsOf ⟨some 0, 0⟩).IsChain (fun f g => f.now + 5 ≤ kLLongMax → f.now + 5 ≤ g.now) ∧
      ⟨some 0, 0⟩ ∈ l'.timers.queue.activeTimerSet := by
  have hend : ((firingMachine.next (FiringLog.make 1) (.addTimer 0 sampleRepeating)).bind fun l₁ =>
      (firingMachine.run l₁ sampleRounds).map fun l' => l'.firingsOf ⟨some 0, 0⟩) =
      some [⟨⟨some 0, 0⟩, 21, 1⟩, ⟨⟨some 0, 0⟩, 27, 2⟩] := by
    decide +kernel
  obtain ⟨l₁, hadd, hend⟩ := Option.bind_eq_some_iff.mp hend
  obtain ⟨l', hmore, hfirings⟩ := Option.map_eq_some_iff.mp hend
  obtain ⟨-, -, -, hspaced, hkept⟩ := timer_firing_discipline 1 [] sampleRounds (FiringLog.make 1) l₁ l' 0
    sampleRepeating rfl hadd hmore
  exact ⟨l₁, l', hadd, hmore, hfirings, hspaced, (hkept (by decide) (Or.inl rfl)).1⟩

/-- A repeating timer with an interval of almost `LLONG_MAX` fires twice within a microsecond. -/
theorem firings_not_spaced :
    ∃ l₁ l', firingMachine.next (FiringLog.make 2000) (.addTimer 0 sampleHuge) = some l₁ ∧
      firingMachine.run l₁ [.tick 200, .handleRead, .runEntry, .handleReadEnd, .tick 1, .handleRead,
        .runEntry] = some l' ∧
      l'.firingsOf ⟨some 0, 0⟩ = [⟨⟨some 0, 0⟩, 2200, 1⟩, ⟨⟨some 0, 0⟩, 2201, 2⟩] ∧
      ¬(l'.firingsOf ⟨some 0, 0⟩).IsChain (fun f g => f.now + sampleHuge.interval ≤ g.now) := by
  have hend : ((firingMachine.next (FiringLog.make 2000) (.addTimer 0 sampleHuge)).bind fun l₁ =>
      (firingMachine.run l₁ [.tick 200, .handleRead, .runEntry, .handleReadEnd, .tick 1, .handleRead,
        .runEntry]).map fun l' => l'.firingsOf ⟨some 0, 0⟩) =
      some [⟨⟨some 0, 0⟩, 2200, 1⟩, ⟨⟨some 0, 0⟩, 2201, 2⟩] := by
    decide +kernel
  obtain ⟨l₁, hadd, hend⟩ := Option.bind_eq_some_iff.mp hend
  obtain ⟨l', hmore, hfirings⟩ := Option.map_eq_some_iff.mp hend
  refine ⟨l₁, l', hadd, hmore, hfirings, ?_⟩
  rw [hfirings]
  decide

end MylibMuduo.Proofs
