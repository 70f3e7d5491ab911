import MylibMuduo.Proofs.TimerFirings

/-!
# The effect of `handleRead`

The set of the timers in the queue before and after a whole `handleRead`, with callbacks that add
and cancel timers. During the callbacks timers are only added, and cancellations are collected;
`reset` then removes the cancelled timers and the one-shot timers of the batch and restarts the
others of the batch.
-/

namespace MylibMuduo.Proofs

/-- The key of a timer in `timer_list_`. -/
def keyOf (t : Timer) : Entry := ⟨t.expiration, t.sequence⟩

/-- The timer `t` at the address `a` is in the queue. -/
def HasTimer (q : TimerQueue) (a : Nat) (t : Timer) : Prop :=
  (keyOf t, some a) ∈ q.timerList.entries ∧ q.heap a = some t

/-- The timer is in the queue, and its time has come. -/
def Expired (q : TimerQueue) (now : Int) (a : Nat) (t : Timer) : Prop := HasTimer q a t ∧ t.expiration ≤ now

variable {q : TimerQueue} {now : Int} {a : Nat} {t : Timer}

lemma hasTimer_of_entry (h : Indexed q) {k : Entry} {p : Option Nat} (he : (k, p) ∈ q.timerList.entries) :
    ∃ a t, p = some a ∧ keyOf t = k ∧ HasTimer q a t := by
  obtain ⟨a, t, hp, ht, hexp, hseq⟩ := h.timers (k, p) he
  have hkey : keyOf t = k := Entry.ext hexp hseq
  change p = some a at hp
  subst hp
  refine ⟨a, t, rfl, hkey, ?_, ht⟩
  rw [hkey]
  exact he

/-- A key stands for one timer. -/
lemma hasTimer_unique {b : Nat} {u : Timer} (h : HasTimer q a t) (h' : HasTimer q b u) (hkey : keyOf t = keyOf u) :
    a = b ∧ t = u := by
  have hentry := h.1
  rw [hkey] at hentry
  have hab : a = b := Option.some.inj (OrderedMap.value_unique hentry h'.1)
  subst hab
  exact ⟨rfl, Option.some.inj (h.2.symm.trans h'.2)⟩

lemma hasTimer_congr {q' : TimerQueue} (hlist : q'.timerList = q.timerList) (hheap : q'.heap = q.heap) :
    HasTimer q' a t ↔ HasTimer q a t := by
  unfold HasTimer
  rw [hlist, hheap]

/-! ### The batch -/

lemma expired_iff (h : Indexed q) : Expired q now a t ↔ HasTimer q a t ∧ keyOf t ∈ expiredKeys q now := by
  unfold Expired
  rw [mem_expiredKeys h]
  constructor
  · rintro ⟨hq, hle⟩
    exact ⟨hq, ⟨some a, hq.1⟩, hle⟩
  · rintro ⟨hq, -, hle⟩
    exact ⟨hq, hle⟩

/-- Entries with their timers. -/
lemma exists_timers (h : Indexed q) (es : List (Entry × Option Nat))
    (hes : ∀ e ∈ es, e ∈ q.timerList.entries) :
    ∃ batch : List (Nat × Timer), batch.map (fun p => (keyOf p.2, some p.1)) = es ∧
      ∀ p ∈ batch, HasTimer q p.1 p.2 := by
  induction es with
  | nil => exact ⟨[], rfl, by simp⟩
  | cons e es ih =>
    obtain ⟨batch, hmap, hqueued⟩ := ih fun f hf => hes f (List.mem_cons_of_mem e hf)
    obtain ⟨a, t, hp, hkey, hq⟩ := hasTimer_of_entry h (hes e List.mem_cons_self)
    refine ⟨(a, t) :: batch, ?_, ?_⟩
    · rw [List.map_cons, hmap, hkey, ← hp]
    · intro p hp
      rcases List.mem_cons.mp hp with rfl | hp
      · exact hq
      · exact hqueued p hp

/-- The batch of `getExpiredTimers` as a list of timers: those that are due, in the order of
`timer_list_`. -/
structure IsBatch (q : TimerQueue) (now : Int) (batch : List (Nat × Timer)) : Prop where
  keys : batch.map (fun p => keyOf p.2) = expiredKeys q now
  mem : ∀ a t, (a, t) ∈ batch ↔ Expired q now a t
  sorted : batch.Pairwise fun p p' => keyOf p.2 < keyOf p'.2

lemma exists_batch (h : Indexed q) (now : Int) : ∃ batch, IsBatch q now batch := by
  have hes : ∀ e ∈ q.timerList.upTo ⟨now, kLLongMax⟩, e ∈ q.timerList.entries :=
    fun e he => (OrderedMap.mem_upTo.mp he).1
  obtain ⟨batch, hmap, hqueued⟩ := exists_timers h _ hes
  have hkeys : batch.map (fun p => keyOf p.2) = expiredKeys q now := by
    unfold expiredKeys
    rw [← hmap, List.map_map]
    rfl
  refine ⟨batch, hkeys, ?_, ?_⟩
  · intro a t
    rw [expired_iff h, ← hkeys]
    constructor
    · intro hmem
      exact ⟨hqueued (a, t) hmem, List.mem_map_of_mem (f := fun p : Nat × Timer => keyOf p.2) hmem⟩
    · rintro ⟨hq, hmem⟩
      obtain ⟨p, hp, hkey⟩ := List.mem_map.mp hmem
      obtain ⟨rfl, rfl⟩ := hasTimer_unique (hqueued p hp) hq hkey
      exact hp
  · have hsorted := OrderedMap.sorted_upTo (m := q.timerList) ⟨now, kLLongMax⟩
    rw [← hmap, List.pairwise_map] at hsorted
    exact hsorted

/-! ### The callbacks -/

/-- After the calls `done` of the callbacks of the batch: the timers added are in the queue, the
timers cancelled are collected, and `ran` are the timers whose callbacks have been invoked. -/
structure DuringBatch (s : TimerState) (batch : List (Nat × Timer)) (done : List TimerStep)
    (s' : TimerState) : Prop where
  inv : TimerInv s'
  progress : ∃ ran waiting, batch = ran ++ waiting ∧
    s'.phase = .firing s.queue.clock (expiredKeys s.queue s.queue.clock) (waiting.map fun p => keyOf p.2) ∧
    s'.fired = s.fired ++ ran.map (fun p => idOf p.1 p.2)
  queued : ∀ a t, HasTimer s'.queue a t ↔ HasTimer s.queue a t ∨ .addTimer a t ∈ done
  canceled : ∀ id, id ∈ s'.queue.cancelingTimerSet ↔ .cancelTimer id ∈ done

lemma hasTimer_addTimer (h : Indexed q) (ha : q.heap a = none)
    (hseq : ∀ e ∈ q.timerList.entries, e.1.sequence ≠ t.sequence) {b : Nat} {u : Timer} :
    HasTimer (q.addTimer a t) b u ↔ HasTimer q b u ∨ (b = a ∧ u = t) := by
  obtain ⟨fd, hadd⟩ := addTimer_added h ha hseq
  rw [hadd]
  unfold HasTimer
  simp only [added, allocated, OrderedMap.mem_insert]
  constructor
  · rintro ⟨heq | ⟨hmem, -⟩, hheap⟩
    · have hb : b = a := Option.some.inj (Prod.mk.inj heq).2
      subst hb
      rw [Function.update_self, Option.some.injEq] at hheap
      exact Or.inr ⟨rfl, hheap.symm⟩
    · by_cases hb : b = a
      · subst hb
        rw [Function.update_self, Option.some.injEq] at hheap
        exact Or.inr ⟨rfl, hheap.symm⟩
      · rw [Function.update_of_ne hb] at hheap
        exact Or.inl ⟨hmem, hheap⟩
  · rintro (⟨hmem, hheap⟩ | ⟨rfl, rfl⟩)
    · have hb : b ≠ a := by
        rintro rfl
        rw [ha] at hheap
        cases hheap
      refine ⟨Or.inr ⟨hmem, ?_⟩, by rw [Function.update_of_ne hb]; exact hheap⟩
      intro hkey
      exact hseq _ hmem (congrArg Entry.sequence hkey)
    · exact ⟨Or.inl rfl, Function.update_self ..⟩

section Callbacks

variable {s s₁ s₂ : TimerState} {batch : List (Nat × Timer)} {done : List TimerStep}

lemma DuringBatch.running (h : DuringBatch s batch done s₁) : s₁.queue.isRunningCallback = true := by
  obtain ⟨ran, waiting, -, hphase, -⟩ := h.progress
  exact (h.inv.firing hphase).1

/-- A step that changes neither the timers nor the progress of the batch. -/
lemma DuringBatch.of_eq (h : DuringBatch s batch done s₁) {a : TimerStep} (hinv : TimerInv s₂)
    (hphase : s₂.phase = s₁.phase) (hfired : s₂.fired = s₁.fired)
    (hlist : s₂.queue.timerList = s₁.queue.timerList) (hheap : s₂.queue.heap = s₁.queue.heap)
    (hcanceling : s₂.queue.cancelingTimerSet = s₁.queue.cancelingTimerSet)
    (hadd : ∀ b u, a ≠ .addTimer b u) (hcancel : ∀ id, a ≠ .cancelTimer id) :
    DuringBatch s batch (done ++ [a]) s₂ := by
  refine ⟨hinv, ?_, ?_, ?_⟩
  · obtain ⟨ran, waiting, hbatch, hph, hf⟩ := h.progress
    exact ⟨ran, waiting, hbatch, hphase.trans hph, hfired.trans hf⟩
  · intro b u
    rw [hasTimer_congr hlist hheap, h.queued, List.mem_append, List.mem_singleton, eq_comm,
      or_iff_left (hadd b u)]
  · intro id
    rw [hcanceling, h.canceled, List.mem_append, List.mem_singleton, eq_comm, or_iff_left (hcancel id)]

/-- The next callback is the one of the first timer that waits. -/
lemma DuringBatch.runEntry (hbatch : IsBatch s.queue s.queue.clock batch)
    (h : DuringBatch s batch done s₁) (hnext : timerMachine.next s₁ .runEntry = some s₂) :
    DuringBatch s batch (done ++ [.runEntry]) s₂ := by
  have hinv := timerInv_step h.inv hnext
  obtain ⟨ran, waiting, hsplit, hphase, hfired⟩ := h.progress
  cases timer_trans h.inv hnext with
  | runEntry now expired k rest p hph he =>
    rw [hphase, TimerPhase.firing.injEq] at hph
    obtain ⟨rfl, rfl, hkeys⟩ := hph
    cases waiting with
    | nil => cases hkeys
    | cons x waiting =>
      obtain ⟨hk, rfl⟩ := List.cons.inj hkeys
      have hx : HasTimer s₁.queue x.1 x.2 := by
        have hmem : (x.1, x.2) ∈ batch := by
          rw [hsplit]
          exact List.mem_append_right _ List.mem_cons_self
        exact (h.queued x.1 x.2).mpr (Or.inl ((hbatch.mem x.1 x.2).mp hmem).1)
      have hp : p = some x.1 := by
        have hentry := hx.1
        rw [show keyOf x.2 = k from hk] at hentry
        exact OrderedMap.value_unique he hentry
      refine ⟨hinv, ⟨ran ++ [x], waiting, ?_, rfl, ?_⟩, ?_, ?_⟩
      · rw [hsplit, List.append_assoc, List.singleton_append]
      · rw [hfired, hp, ← hk, List.map_append, ← List.append_assoc]
        rfl
      · intro b u
        rw [h.queued, List.mem_append]
        simp
      · intro id
        rw [h.canceled, List.mem_append]
        simp

theorem duringBatch_step (hbatch : IsBatch s.queue s.queue.clock batch) (done : List TimerStep)
    (s₁ : TimerState) (a : TimerStep) (s₂ : TimerState) (h : DuringBatch s batch done s₁)
    (ha : a ≠ .handleReadEnd) (hnext : timerMachine.next s₁ a = some s₂) :
    DuringBatch s batch (done ++ [a]) s₂ := by
  have hinv := timerInv_step h.inv hnext
  obtain ⟨ran, waiting, hsplit, hphase, hfired⟩ := h.progress
  cases a with
  | tick d =>
    cases timer_trans h.inv hnext with
    | tick d => exact h.of_eq hinv rfl rfl rfl rfl rfl (by simp) (by simp)
  | lag d =>
    cases timer_trans h.inv hnext with
    | lag d => exact h.of_eq hinv rfl rfl rfl rfl rfl (by simp) (by simp)
  | addTimer b u =>
    cases timer_trans h.inv hnext with
    | addTimer b u hb hseq =>
      have hnew := h.inv.new_sequence hseq
      refine ⟨hinv, ⟨ran, waiting, hsplit, hphase, hfired⟩, ?_, ?_⟩
      · intro c v
        rw [hasTimer_addTimer h.inv.indexed hb hnew, h.queued, List.mem_append, List.mem_singleton,
          TimerStep.addTimer.injEq, or_assoc]
      · intro id
        obtain ⟨fd, hadd⟩ := addTimer_added h.inv.indexed hb hnew
        have hcanceling : (s₁.queue.addTimer b u).cancelingTimerSet = s₁.queue.cancelingTimerSet := by
          rw [hadd]
          rfl
        rw [hcanceling, h.canceled, List.mem_append]
        simp
  | cancelTimer id =>
    cases timer_trans h.inv hnext with
    | cancelTimer id =>
      have hcancel : s₁.queue.cancelTimerInLoop id =
          { s₁.queue with cancelingTimerSet := s₁.queue.cancelingTimerSet.insert id } := by
        rw [cancelTimerInLoop_eq h.inv.indexed, if_pos h.running]
      refine ⟨hinv, ⟨ran, waiting, hsplit, hphase, hfired⟩, ?_, ?_⟩
      · intro c v
        rw [hcancel]
        refine (hasTimer_congr (q := s₁.queue) rfl rfl).trans ?_
        rw [h.queued, List.mem_append]
        simp
      · intro id'
        rw [hcancel, List.mem_insert_iff, h.canceled, List.mem_append, List.mem_singleton,
          TimerStep.cancelTimer.injEq, or_comm]
  | handleRead =>
    cases timer_trans h.inv hnext with
    | handleRead hidle =>
      rw [hphase] at hidle
      cases hidle
  | runEntry => exact h.runEntry hbatch hnext
  | handleReadEnd => exact absurd rfl ha

/-- The state in front of the first callback. -/
lemma duringBatch_start (h : TimerInv s) (hidle : s.phase = .idle)
    (hbatch : IsBatch s.queue s.queue.clock batch) (hnext : timerMachine.next s .handleRead = some s₁) :
    DuringBatch s batch [] s₁ := by
  have hinv := timerInv_step h hnext
  cases timer_trans h hnext with
  | handleRead hphase =>
    refine ⟨hinv, ⟨[], batch, rfl, ?_, by simp⟩, ?_, ?_⟩
    · rw [hbatch.keys]
    · intro a t
      refine (hasTimer_congr (q := s.queue) rfl rfl).trans ?_
      simp
    · intro id
      rw [(h.idle hidle).2]
      simp

lemma duringBatch_run (hbatch : IsBatch s.queue s.queue.clock batch) (h : DuringBatch s batch [] s₁)
    {calls : List TimerStep} (hcalls : .handleReadEnd ∉ calls)
    (hrun : timerMachine.run s₁ calls = some s₂) : DuringBatch s batch calls s₂ := by
  have hstep : ∀ done u a u', (.handleReadEnd ∉ done → DuringBatch s batch done u) →
      timerMachine.next u a = some u' → .handleReadEnd ∉ done ++ [a] → DuringBatch s batch (done ++ [a]) u' := by
    intro done u a u' hu hnext hnot
    rw [List.mem_append, not_or, List.mem_singleton] at hnot
    exact duringBatch_step hbatch done u a u' (hu hnot.1) (Ne.symm hnot.2) hnext
  have hstart : .handleReadEnd ∉ ([] : List TimerStep) → DuringBatch s batch [] s₁ := fun _ => h
  exact timerMachine.invariant_of_history
    (I := fun done u => .handleReadEnd ∉ done → DuringBatch s batch done u) hstep hstart hrun hcalls

/-- During the callbacks the keys of the batch are still those of the timers that were due. -/
lemma DuringBatch.expired_iff (hs : Indexed s.queue) (h : DuringBatch s batch done s₁) {a : Nat} {t : Timer}
    (ht : HasTimer s₁.queue a t) :
    Expired s.queue s.queue.clock a t ↔ keyOf t ∈ expiredKeys s.queue s.queue.clock := by
  rw [MylibMuduo.Proofs.expired_iff hs]
  refine and_iff_right_of_imp fun hkey => ?_
  obtain ⟨⟨p, hp⟩, -⟩ := (mem_expiredKeys hs).mp hkey
  obtain ⟨b, u, -, hu, hbu⟩ := hasTimer_of_entry hs hp
  obtain ⟨rfl, rfl⟩ := hasTimer_unique ((h.queued b u).mpr (Or.inl hbu)) ht hu
  exact hbu

end Callbacks

/-! ### The end of the batch -/

/-- The queue after `reset`: the timers that were not to be cancelled, unchanged outside the batch,
restarted in the batch, without the one-shot timers of the batch. -/
theorem hasTimer_resetTimers {expired : List Entry} (h : Indexed q)
    (hnodup : (expired.map Entry.sequence).Nodup)
    (hin : ∀ k ∈ expired, ∃ p, (k, p) ∈ q.timerList.entries) {t' : Timer} :
    HasTimer (resetTimers q expired now) a t' ↔
      ∃ t, HasTimer q a t ∧ idOf a t ∉ q.cancelingTimerSet ∧
        ((keyOf t ∉ expired ∧ t' = t) ∨
          (keyOf t ∈ expired ∧ t.isRepeat = true ∧ t' = { t with expiration := addTime now t.interval })) := by
  constructor
  · rintro ⟨hentry, hheap⟩
    obtain ⟨k, u, he, hseq, hu, hcases⟩ := resetTimers_entry h hnodup hin hentry
    obtain ⟨b, v, hb, hkey, hv⟩ := hasTimer_of_entry h he
    obtain rfl := Option.some.inj hb
    obtain rfl := Option.some.inj (hu.symm.trans hv.2)
    have hactive : idOf a u ∈ (resetTimers q expired now).activeTimerSet := by
      have hnum : u.sequence = t'.sequence := by
        have hkeyseq : u.sequence = k.sequence := congrArg Entry.sequence hkey
        exact hkeyseq.trans hseq
      unfold idOf
      rw [hnum]
      exact (resetTimers_step now expired h hnodup hin).1.indexed.mem_active.mpr ⟨_, hentry, rfl⟩
    refine ⟨u, hv, ?_, ?_⟩
    · intro hc
      exact (resetTimers_step now expired h hnodup hin).2 _ hc hactive
    · rw [hkey]
      rcases hcases with ⟨hk, -, hsame⟩ | ⟨hk, hrep, -, -, hrestart⟩
      · exact Or.inl ⟨hk, Option.some.inj (hheap.symm.trans hsame)⟩
      · refine Or.inr ⟨hk, hrep, ?_⟩
        rw [← restart_repeat hrep]
        exact Option.some.inj (hheap.symm.trans hrestart)
  · rintro ⟨u, hu, hkept, hcases⟩
    have hs : Scheduled q (keyOf u) a u := ⟨hu.1, hu.2, hkept⟩
    rcases hcases with ⟨hk, rfl⟩ | ⟨hk, hrep, rfl⟩
    · have hnew : Scheduled (resetTimers q expired now) (keyOf t') a t' :=
        scheduled_of_not_expired h hs hnodup hin hk
      exact ⟨hnew.entry, hnew.timer⟩
    · have hnew : Scheduled (resetTimers q expired now) (restartedKey (keyOf u) u now) a (u.restart now) :=
        scheduled_of_repeat h hs hnodup hin hrep hk
      rw [← restart_repeat hrep]
      refine ⟨?_, hnew.timer⟩
      have hkey : keyOf (u.restart now) = restartedKey (keyOf u) u now :=
        Entry.ext rfl (restart_sequence u now)
      rw [hkey]
      exact hnew.entry

lemma hasTimer_rearmed : HasTimer (rearmed q) a t ↔ HasTimer q a t := by
  obtain ⟨fd, hfd⟩ := rearmed_eq q
  rw [hfd]
  exact hasTimer_congr rfl rfl

/-- The whole of `handleRead`, called in a reachable state at the time `now` with callbacks that make
the calls `calls`: the timers that are due run in the order of their keys and no other timer runs;
then the queue holds the timers that were there or were added, without those that were cancelled and
without the one-shot timers that ran, and with the repeating timers that ran due again at the sum of
the time and their interval, in `int64_t`. -/
theorem handleRead_effect (clock : Int) (steps : List TimerStep) (s : TimerState)
    (hrun : timerMachine.run (TimerState.make clock) steps = some s) (hidle : s.phase = .idle)
    (calls : List TimerStep) (hcalls : .handleReadEnd ∉ calls) (s' : TimerState)
    (hrun' : timerMachine.run s (.handleRead :: calls ++ [.handleReadEnd]) = some s') :
    (∃ batch : List (Nat × Timer), (∀ a t, (a, t) ∈ batch ↔ Expired s.queue s.queue.clock a t) ∧
      batch.Pairwise (fun p p' => keyOf p.2 < keyOf p'.2) ∧
      s'.fired = s.fired ++ batch.map (fun p => idOf p.1 p.2)) ∧
    (∀ a t', HasTimer s'.queue a t' ↔
      ∃ t, (HasTimer s.queue a t ∨ .addTimer a t ∈ calls) ∧ .cancelTimer (idOf a t) ∉ calls ∧
        ((¬Expired s.queue s.queue.clock a t ∧ t' = t) ∨
          (Expired s.queue s.queue.clock a t ∧ t.isRepeat = true ∧
            t' = { t with expiration := addTime s.queue.clock t.interval }))) ∧
    s'.queue.cancelingTimerSet = [] ∧
    ∀ interval, -2 ^ 63 ≤ s.queue.clock + interval → s.queue.clock + interval ≤ kLLongMax →
      addTime s.queue.clock interval = s.queue.clock + interval := by
  have hinv := timerInv_run hrun
  obtain ⟨batch, hbatch⟩ := exists_batch hinv.indexed s.queue.clock
  obtain ⟨s₂, hmid, hlast⟩ := (timerMachine.run_append_eq_some _ _ _ _).mp hrun'
  obtain ⟨s₁, hbegin, hmid⟩ := (timerMachine.run_cons_eq_some _ _ _ _).mp hmid
  obtain ⟨s₃, hend, hlast⟩ := (timerMachine.run_cons_eq_some _ _ _ _).mp hlast
  rw [Machine.run, Option.some.injEq] at hlast
  subst hlast
  have h : DuringBatch s batch calls s₂ :=
    duringBatch_run hbatch (duringBatch_start hinv hidle hbatch hbegin) hcalls hmid
  obtain ⟨ran, waiting, hsplit, hphase, hfired⟩ := h.progress
  cases timer_trans h.inv hend with
  | handleReadEnd now expired hph =>
    rw [hphase, TimerPhase.firing.injEq, List.map_eq_nil_iff] at hph
    obtain ⟨rfl, rfl, rfl⟩ := hph
    rw [List.append_nil] at hsplit
    subst hsplit
    obtain ⟨-, hin, hnodup, -⟩ := h.inv.firing hphase
    refine ⟨⟨batch, hbatch.mem, hbatch.sorted, hfired⟩, ?_, ?_, fun _ => int64_of_fits⟩
    · intro a t'
      rw [(h.inv.handleReadEnd hphase).2.2, hasTimer_rearmed,
        hasTimer_resetTimers (stopped_indexed h.inv.indexed) hnodup hin]
      refine exists_congr fun t => ?_
      have hqueued : HasTimer (stopped s₂.queue) a t ↔ HasTimer s.queue a t ∨ .addTimer a t ∈ calls :=
        (hasTimer_congr (q := s₂.queue) rfl rfl).trans (h.queued a t)
      have hcanceled : idOf a t ∈ (stopped s₂.queue).cancelingTimerSet ↔ .cancelTimer (idOf a t) ∈ calls :=
        h.canceled (idOf a t)
      rw [hqueued, hcanceled]
      refine and_congr_right fun ht => and_congr_right fun _ => ?_
      rw [h.expired_iff hinv.indexed ((h.queued a t).mpr ht)]
    · obtain ⟨fd, hfd⟩ := rearmed_eq (resetTimers (stopped s₂.queue) (expiredKeys s.queue s.queue.clock)
        s.queue.clock)
      rw [(h.inv.handleReadEnd hphase).2.2, hfd]
      rfl

/-- A repeating timer and a one-shot timer that are due, and one that is not. -/
def beforeBatch : List TimerStep :=
  [.addTimer 0 sampleRepeating, .addTimer 1 sampleOneShot, .addTimer 2 sampleLater, .tick 20]

/-- The first callback adds an overdue timer and cancels the later one, the second cancels an unknown
timer and itself. -/
def batchCalls : List TimerStep :=
  [.runEntry, .addTimer 3 sampleOverdue, .cancelTimer ⟨some 2, 2⟩, .runEntry, .cancelTimer TimerId.default,
   .cancelTimer ⟨some 1, 1⟩]

theorem handleRead_effect_mixed_batch :
    ∃ s s', timerMachine.run (TimerState.make 1) beforeBatch = some s ∧
      timerMachine.run s (.handleRead :: batchCalls ++ [.handleReadEnd]) = some s' ∧
      s'.fired = [⟨some 0, 0⟩, ⟨some 1, 1⟩] ∧ HasTimer s'.queue 3 sampleOverdue ∧
      ¬HasTimer s'.queue 2 sampleLater ∧ s'.queue.cancelingTimerSet = [] := by
  have hend : ((timerMachine.run (TimerState.make 1) beforeBatch).bind fun s =>
      (timerMachine.run s (.handleRead :: batchCalls ++ [.handleReadEnd])).map fun s' =>
        (s.phase, s.queue.clock, s'.fired)) = some (.idle, 21, [⟨some 0, 0⟩, ⟨some 1, 1⟩]) := by
    decide +kernel
  have hheap : (timerMachine.run (TimerState.make 1) beforeBatch).map (fun s => s.queue.heap 3) =
      some none := by
    decide +kernel
  obtain ⟨s, hrun, hend⟩ := Option.bind_eq_some_iff.mp hend
  obtain ⟨s', hrun', hend⟩ := Option.map_eq_some_iff.mp hend
  simp only [Prod.mk.injEq] at hend
  obtain ⟨hidle, hclock, hfired⟩ := hend
  rw [hrun, Option.map_some, Option.some.injEq] at hheap
  obtain ⟨-, hqueue, hcanceling, -⟩ :=
    handleRead_effect 1 beforeBatch s hrun hidle batchCalls (by decide) s' hrun'
  refine ⟨s, s', hrun, hrun', hfired, ?_, ?_, hcanceling⟩
  · refine (hqueue 3 sampleOverdue).mpr ⟨sampleOverdue, Or.inr (by decide), by decide, Or.inl ⟨?_, rfl⟩⟩
    rintro ⟨⟨-, hsome⟩, -⟩
    rw [hheap] at hsome
    cases hsome
  · intro hlater
    obtain ⟨t, hin, hnot, hcases⟩ := (hqueue 2 sampleLater).mp hlater
    have hseq : t.sequence = 2 := by
      rcases hcases with ⟨-, rfl⟩ | ⟨-, -, heq⟩
      · rfl
      · exact (congrArg Timer.sequence heq).symm
    refine hnot ?_
    unfold idOf
    rw [hseq]
    decide

/-- The next expiration of a timer that has run is not the time plus its interval. -/
theorem restart_overflows :
    ∃ s s', timerMachine.run (TimerState.make 2000) [.addTimer 0 sampleHuge, .tick 200] = some s ∧
      s.phase = .idle ∧ Expired s.queue s.queue.clock 0 sampleHuge ∧
      timerMachine.run s (.handleRead :: [.runEntry] ++ [.handleReadEnd]) = some s' ∧
      ¬HasTimer s'.queue 0 { sampleHuge with expiration := s.queue.clock + sampleHuge.interval } := by
  have hend : ((timerMachine.run (TimerState.make 2000) [.addTimer 0 sampleHuge, .tick 200]).bind fun s =>
      (timerMachine.run s (.handleRead :: [.runEntry] ++ [.handleReadEnd])).map fun s' =>
        (s.phase, s.queue.clock, s'.queue.timerList.entries)) =
      some (.idle, 2200, [(⟨2200 + (2 ^ 63 - 1024) - 2 ^ 64, 0⟩, some 0)]) := by
    decide +kernel
  have hstart : (timerMachine.run (TimerState.make 2000) [.addTimer 0 sampleHuge, .tick 200]).map
      (fun s => (s.queue.timerList.entries, s.queue.heap 0)) = some ([(⟨10, 0⟩, some 0)], some sampleHuge) := by
    decide +kernel
  obtain ⟨s, hrun, hend⟩ := Option.bind_eq_some_iff.mp hend
  obtain ⟨s', hrun', hend⟩ := Option.map_eq_some_iff.mp hend
  simp only [Prod.mk.injEq] at hend
  obtain ⟨hidle, hclock, hentries'⟩ := hend
  rw [hrun, Option.map_some, Option.some.injEq, Prod.mk.injEq] at hstart
  obtain ⟨hentries, hheap⟩ := hstart
  refine ⟨s, s', hrun, hidle, ⟨⟨?_, hheap⟩, ?_⟩, hrun', ?_⟩
  · rw [hentries]
    decide
  · rw [hclock]
    decide
  · rintro ⟨hentry, -⟩
    rw [hentries', hclock] at hentry
    revert hentry
    decide

end MylibMuduo.Proofs
