import Mathlib.Data.List.Nodup
import MylibMuduo.TimerQueue

/-!
# The two indexes of the timer queue

`timer_list_` and `active_timer_set_` hold the same timers under different keys. `Indexed`
says so, with the expiration in the key equal to the one in the timer. Insertion, erasure and
the re-keying in `reset` keep it, and under it no assertion of the queue fails and no lookup
misses. While callbacks run, nothing erases an entry, so that the collected batch stays in
the list until `reset`.
-/

namespace MylibMuduo.Proofs

/-- The element of `active_timer_set_` for an entry of `timer_list_`. -/
def activeOf (e : Entry × Option Nat) : TimerId := ⟨e.2, e.1.sequence⟩

/-- The entry holds a timer with the expiration and the number of its key. -/
def HoldsTimer (q : TimerQueue) (e : Entry × Option Nat) : Prop :=
  ∃ a t, e.2 = some a ∧ q.heap a = some t ∧ t.expiration = e.1.expiration ∧ t.sequence = e.1.sequence

structure Indexed (q : TimerQueue) : Prop where
  perm : q.activeTimerSet.Perm (q.timerList.entries.map activeOf)
  timers : ∀ e ∈ q.timerList.entries, HoldsTimer q e
  sequences : ∀ e ∈ q.timerList.entries, ∀ f ∈ q.timerList.entries,
    e.1.sequence = f.1.sequence → e = f

section Indexed

variable {q : TimerQueue}

lemma Indexed.mem_active (h : Indexed q) {id : TimerId} :
    id ∈ q.activeTimerSet ↔ ∃ e ∈ q.timerList.entries, activeOf e = id := by
  rw [h.perm.mem_iff, List.mem_map]

lemma Indexed.size_eq (h : Indexed q) : q.timerList.size = q.activeTimerSet.length := by
  have hlen := h.perm.length_eq
  rw [List.length_map] at hlen
  exact hlen.symm

lemma assertSizes_eq (h : Indexed q) : q.assertSizes = q := by
  unfold TimerQueue.assertSizes TimerQueue.assert
  rw [h.size_eq]
  simp

/-- A timer is in one entry only. -/
lemma Indexed.address_ne (h : Indexed q) {e f : Entry × Option Nat} {a b : Nat}
    (he : e ∈ q.timerList.entries) (hf : f ∈ q.timerList.entries) (hne : e ≠ f) (ha : e.2 = some a)
    (hb : f.2 = some b) : a ≠ b := by
  intro hab
  obtain ⟨a', t, ha', ht, -, hseq⟩ := h.timers e he
  obtain ⟨b', u, hb', hu, -, hsequ⟩ := h.timers f hf
  rw [ha, Option.some.injEq] at ha'
  rw [hb, Option.some.injEq] at hb'
  rw [← ha'] at ht
  rw [← hb', ← hab, ht, Option.some.injEq] at hu
  apply hne
  apply h.sequences e he f hf
  rw [← hseq, hu, hsequ]

lemma Indexed.nodup_active (h : Indexed q) : q.activeTimerSet.Nodup := by
  rw [h.perm.nodup_iff]
  have hnodup : q.timerList.entries.Nodup := q.timerList.sorted.imp fun hlt heq => by
    rw [heq] at hlt
    exact lt_irrefl _ hlt
  refine List.Nodup.map_on ?_ hnodup
  intro e he f hf heq
  exact h.sequences e he f hf (congrArg TimerId.sequence heq)

/-- The queue after the insertion of a new timer. -/
def added (q : TimerQueue) (a : Nat) (t : Timer) : TimerQueue :=
  { q with
    timerList := q.timerList.insert ⟨t.expiration, t.sequence⟩ (some a)
    activeTimerSet := ⟨some a, t.sequence⟩ :: q.activeTimerSet }

lemma added_indexed (h : Indexed q) {a : Nat} {t : Timer} (ha : q.heap a = some t)
    (hseq : ∀ e ∈ q.timerList.entries, e.1.sequence ≠ t.sequence) : Indexed (added q a t) := by
  have hkey : ∀ e ∈ q.timerList.entries, e.1 ≠ ⟨t.expiration, t.sequence⟩ := by
    intro e he heq
    apply hseq e he
    rw [heq]
  have hperm := OrderedMap.perm_insert (v := some a) hkey
  refine ⟨?_, ?_, ?_⟩
  · exact (h.perm.cons _).trans (hperm.map activeOf).symm
  · intro e he
    rcases OrderedMap.mem_insert.mp he with rfl | ⟨he, -⟩
    · exact ⟨a, t, rfl, ha, rfl, rfl⟩
    · exact h.timers e he
  · intro e he f hf heq
    rcases OrderedMap.mem_insert.mp he with rfl | ⟨he, -⟩
    · rcases OrderedMap.mem_insert.mp hf with rfl | ⟨hf, -⟩
      · rfl
      · exact absurd heq.symm (hseq f hf)
    · rcases OrderedMap.mem_insert.mp hf with rfl | ⟨hf, -⟩
      · exact absurd heq (hseq e he)
      · exact h.sequences e he f hf heq

lemma insert_eq (h : Indexed q) {a : Nat} {t : Timer} (ha : q.heap a = some t)
    (hseq : ∀ e ∈ q.timerList.entries, e.1.sequence ≠ t.sequence) :
    q.insert a t = (q.earlyChanged t.expiration, added q a t) := by
  have hfind : q.timerList.find? ⟨t.expiration, t.sequence⟩ = none := by
    apply OrderedMap.find?_eq_none
    intro e he heq
    apply hseq e he
    rw [heq]
  have hnew : (⟨some a, t.sequence⟩ : TimerId) ∉ q.activeTimerSet := by
    intro hmem
    obtain ⟨e, he, heq⟩ := h.mem_active.mp hmem
    exact hseq e he (congrArg TimerId.sequence heq)
  have hassign : q.assign ⟨t.expiration, t.sequence⟩ (some a) =
      { q with timerList := q.timerList.insert ⟨t.expiration, t.sequence⟩ (some a) } := by
    simp only [TimerQueue.assign, hfind, Option.getD_none, TimerQueue.free]
  have hemplace : (q.assign ⟨t.expiration, t.sequence⟩ (some a)).emplaceActive ⟨some a, t.sequence⟩ =
      added q a t := by
    rw [hassign]
    simp [TimerQueue.emplaceActive, TimerQueue.assert, added, hnew]
  unfold TimerQueue.insert
  dsimp only
  rw [assertSizes_eq h, hemplace, assertSizes_eq (added_indexed h ha hseq)]

/-- The queue after the erasure of the entry `k` with the timer at `a`. -/
def removed (q : TimerQueue) (k : Entry) (a : Nat) : TimerQueue :=
  { q with
    heap := Function.update q.heap a none
    timerList := q.timerList.erase k
    activeTimerSet := q.activeTimerSet.erase ⟨some a, k.sequence⟩ }

lemma removed_indexed (h : Indexed q) {k : Entry} {a : Nat} (he : (k, some a) ∈ q.timerList.entries) :
    Indexed (removed q k a) := by
  refine ⟨?_, ?_, ?_⟩
  · have hperm := h.perm.trans ((OrderedMap.perm_erase he).map activeOf)
    have herase := hperm.erase ⟨some a, k.sequence⟩
    rw [List.map_cons, show activeOf (k, some a) = ⟨some a, k.sequence⟩ from rfl,
      List.erase_cons_head] at herase
    exact herase
  · intro f hf
    obtain ⟨hmem, hne⟩ := OrderedMap.mem_erase.mp hf
    obtain ⟨b, t, hb, ht, hexp, hseq⟩ := h.timers f hmem
    have hdiff : f ≠ (k, some a) := fun heq => hne (by rw [heq])
    have hba : b ≠ a := h.address_ne hmem he hdiff hb rfl
    exact ⟨b, t, hb, by simpa [removed, hba] using ht, hexp, hseq⟩
  · intro e hme f hmf heq
    exact h.sequences e (OrderedMap.mem_erase.mp hme).1 f (OrderedMap.mem_erase.mp hmf).1 heq

/-- `erase` removes the timer from both indexes and destroys it, or does nothing. -/
lemma erase_cases (h : Indexed q) (id : TimerId) :
    (id ∉ q.activeTimerSet ∧ q.erase id = q) ∨
      ∃ k a, (k, some a) ∈ q.timerList.entries ∧ id = ⟨some a, k.sequence⟩ ∧ q.erase id = removed q k a := by
  by_cases hid : id ∈ q.activeTimerSet
  · obtain ⟨e, he, heq⟩ := h.mem_active.mp hid
    obtain ⟨a, t, ha, ht, hexp, hseq⟩ := h.timers e he
    have hentry : (e.1, some a) ∈ q.timerList.entries := by
      rw [← ha]
      exact he
    have hkey : (⟨t.expiration, t.sequence⟩ : Entry) = e.1 := Entry.ext hexp hseq
    have hid' : id = ⟨some a, e.1.sequence⟩ := by
      rw [← heq, activeOf, ha]
    refine Or.inr ⟨e.1, a, hentry, hid', ?_⟩
    unfold TimerQueue.erase
    rw [if_pos hid, hid']
    simp only [TimerQueue.deref, ht, TimerQueue.eraseEntry, hkey, OrderedMap.find?_eq_some.mpr hentry,
      Option.getD_some, TimerQueue.free, removed]
  · refine Or.inl ⟨hid, ?_⟩
    unfold TimerQueue.erase
    rw [if_neg hid]

/-- The queue after the timer at `a` has moved from the entry `k` to its next expiration. -/
def rekeyed (q : TimerQueue) (k : Entry) (a : Nat) (t : Timer) : TimerQueue :=
  { q with
    heap := Function.update q.heap a (some t)
    timerList := (q.timerList.erase k).insert ⟨t.expiration, k.sequence⟩ (some a) }

lemma rekeyed_indexed (h : Indexed q) {k : Entry} {a : Nat} {t : Timer}
    (he : (k, some a) ∈ q.timerList.entries) (hseq : t.sequence = k.sequence) : Indexed (rekeyed q k a t) := by
  have hother : ∀ f ∈ (q.timerList.erase k).entries, f.1.sequence ≠ k.sequence := by
    intro f hf heq
    obtain ⟨hmem, hne⟩ := OrderedMap.mem_erase.mp hf
    have := h.sequences f hmem (k, some a) he heq
    exact hne (by rw [this])
  have hkey : ∀ f ∈ (q.timerList.erase k).entries, f.1 ≠ ⟨t.expiration, k.sequence⟩ := by
    intro f hf heq
    apply hother f hf
    rw [heq]
  refine ⟨?_, ?_, ?_⟩
  · have hold := h.perm.trans ((OrderedMap.perm_erase he).map activeOf)
    have hnew := (OrderedMap.perm_insert (v := some a) hkey).map activeOf
    exact hold.trans hnew.symm
  · intro f hf
    rcases OrderedMap.mem_insert.mp hf with rfl | ⟨hf, -⟩
    · exact ⟨a, t, rfl, by simp [rekeyed], rfl, hseq⟩
    · obtain ⟨hmem, hne⟩ := OrderedMap.mem_erase.mp hf
      obtain ⟨b, u, hb, hu, hexp, hsequ⟩ := h.timers f hmem
      have hdiff : f ≠ (k, some a) := fun heq => hne (by rw [heq])
      have hba : b ≠ a := h.address_ne hmem he hdiff hb rfl
      exact ⟨b, u, hb, by simpa [rekeyed, hba] using hu, hexp, hsequ⟩
  · intro e hme f hmf heq
    rcases OrderedMap.mem_insert.mp hme with rfl | ⟨hme, -⟩
    · rcases OrderedMap.mem_insert.mp hmf with rfl | ⟨hmf, -⟩
      · rfl
      · exact absurd heq.symm (hother f hmf)
    · rcases OrderedMap.mem_insert.mp hmf with rfl | ⟨hmf, -⟩
      · exact absurd heq (hother e hme)
      · exact h.sequences e (OrderedMap.mem_erase.mp hme).1 f (OrderedMap.mem_erase.mp hmf).1 heq

/-- What `erase` and the loops of `reset` do. -/
structure ResetStep (q q' : TimerQueue) : Prop where
  indexed : Indexed q'
  asserts : q'.assertsHold = q.assertsHold
  pointers : q'.pointersValid = q.pointersValid
  clock : q'.clock = q.clock
  running : q'.isRunningCallback = q.isRunningCallback
  active : ∀ id ∈ q'.activeTimerSet, id ∈ q.activeTimerSet
  canceled : ∀ id ∈ q.cancelingTimerSet, id ∈ q'.cancelingTimerSet ∨ id ∉ q'.activeTimerSet

lemma resetStep_refl (h : Indexed q) : ResetStep q q :=
  ⟨h, rfl, rfl, rfl, rfl, fun _ hid => hid, fun _ hid => Or.inl hid⟩

lemma ResetStep.trans {q₁ q₂ q₃ : TimerQueue} (h₁ : ResetStep q₁ q₂)
    (h₂ : ResetStep q₂ q₃) : ResetStep q₁ q₃ := by
  refine ⟨h₂.indexed, h₂.asserts.trans h₁.asserts, h₂.pointers.trans h₁.pointers,
    h₂.clock.trans h₁.clock, h₂.running.trans h₁.running, fun id hid => h₁.active id (h₂.active id hid), ?_⟩
  intro id hid
  rcases h₁.canceled id hid with hc | hn
  · exact h₂.canceled id hc
  · exact Or.inr (fun ha => hn (h₂.active id ha))

lemma not_active_removed (h : Indexed q) (k : Entry) (a : Nat) :
    (⟨some a, k.sequence⟩ : TimerId) ∉ (removed q k a).activeTimerSet :=
  h.nodup_active.not_mem_erase

lemma erase_step (h : Indexed q) (id : TimerId) :
    ResetStep q (q.erase id) ∧ id ∉ (q.erase id).activeTimerSet ∧
      (q.erase id).cancelingTimerSet = q.cancelingTimerSet := by
  rcases erase_cases h id with ⟨hid, heq⟩ | ⟨k, a, he, hid, heq⟩
  · rw [heq]
    exact ⟨resetStep_refl h, hid, rfl⟩
  · rw [heq]
    refine ⟨⟨removed_indexed h he, rfl, rfl, rfl, rfl, ?_, fun _ hc => Or.inl hc⟩, ?_, rfl⟩
    · intro j hj
      exact List.mem_of_mem_erase hj
    · rw [hid]
      exact not_active_removed h k a

lemma lookup_eq {k : Entry} {p : Option Nat} (he : (k, p) ∈ q.timerList.entries) : q.lookup k = (p, q) := by
  unfold TimerQueue.lookup
  rw [OrderedMap.find?_eq_some.mpr he]

/-- One round of the first loop of `reset`. -/
lemma resetEntry_eq (h : Indexed q) (now : Int) {k : Entry} {a : Nat} {t : Timer}
    (he : (k, some a) ∈ q.timerList.entries) (ht : q.heap a = some t) :
    q.resetEntry now k =
      if t.isRepeat ∧ ⟨some a, k.sequence⟩ ∉ q.cancelingTimerSet then rekeyed q k a (t.restart now)
      else { removed q k a with
        cancelingTimerSet := q.cancelingTimerSet.erase ⟨some a, k.sequence⟩ } := by
  have hother : ∀ f ∈ (q.timerList.erase k).entries, f.1 ≠ ⟨(t.restart now).expiration, k.sequence⟩ := by
    intro f hf heq
    obtain ⟨hmem, hne⟩ := OrderedMap.mem_erase.mp hf
    have hfe := h.sequences f hmem (k, some a) he (by rw [heq])
    exact hne (by rw [hfe])
  have herase : q.erase ⟨some a, k.sequence⟩ = removed q k a := by
    rcases erase_cases h ⟨some a, k.sequence⟩ with ⟨hid, -⟩ | ⟨k', a', he', hid, heq⟩
    · exact absurd (h.mem_active.mpr ⟨(k, some a), he, rfl⟩) hid
    · obtain ⟨ha, hk⟩ := TimerId.mk.inj hid
      have hsame := h.sequences (k, some a) he (k', some a') he' hk
      obtain ⟨hkk, -⟩ := Prod.mk.inj hsame
      rw [heq, ← hkk, ← Option.some.inj ha]
  unfold TimerQueue.resetEntry
  rw [lookup_eq he]
  simp only [TimerQueue.deref, ht]
  split
  · simp only [TimerQueue.assign, OrderedMap.erase_insert, OrderedMap.find?_eq_none hother, Option.getD_none,
      TimerQueue.free, rekeyed]
  · rw [herase]
    rfl

lemma restart_repeat {t : Timer} (h : t.isRepeat = true) (now : Int) :
    t.restart now = { t with expiration := addTime now t.interval } := by
  unfold Timer.restart
  rw [if_pos h]

lemma restart_sequence (t : Timer) (now : Int) : (t.restart now).sequence = t.sequence := by
  unfold Timer.restart
  split
  · rfl
  · rfl

lemma resetEntry_step (h : Indexed q) (now : Int) {k : Entry} {p : Option Nat}
    (he : (k, p) ∈ q.timerList.entries) :
    ResetStep q (q.resetEntry now k) ∧
      ∀ f ∈ q.timerList.entries, f.1.sequence ≠ k.sequence → f ∈ (q.resetEntry now k).timerList.entries := by
  obtain ⟨a, t, ha, ht, -, hseq⟩ := h.timers (k, p) he
  change p = some a at ha
  subst ha
  rw [resetEntry_eq h now he ht]
  split
  · have hindexed : Indexed (rekeyed q k a (t.restart now)) :=
      rekeyed_indexed h he ((restart_sequence t now).trans hseq)
    refine ⟨⟨hindexed, rfl, rfl, rfl, rfl, fun _ hid => hid, fun _ hid => Or.inl hid⟩, ?_⟩
    intro f hf hne
    refine OrderedMap.mem_insert.mpr (Or.inr ⟨OrderedMap.mem_erase.mpr ⟨hf, ?_⟩, ?_⟩)
    · intro heq
      exact hne (by rw [heq])
    · intro heq
      exact hne (by rw [heq])
  · have hremoved := removed_indexed h he
    refine ⟨⟨⟨hremoved.perm, hremoved.timers, hremoved.sequences⟩, rfl, rfl, rfl, rfl, ?_, ?_⟩, ?_⟩
    · intro id hid
      exact List.mem_of_mem_erase hid
    · intro id hid
      by_cases hac : id = ⟨some a, k.sequence⟩
      · rw [hac]
        exact Or.inr (not_active_removed h k a)
      · exact Or.inl ((List.mem_erase_of_ne hac).mpr hid)
    · intro f hf hne
      refine OrderedMap.mem_erase.mpr ⟨hf, ?_⟩
      intro heq
      exact hne (by rw [heq])

/-- The first loop of `reset` over a batch that is still in the list. -/
lemma resetEntries_step (now : Int) (expired : List Entry) (h : Indexed q)
    (hnodup : (expired.map Entry.sequence).Nodup)
    (hin : ∀ k ∈ expired, ∃ p, (k, p) ∈ q.timerList.entries) :
    ResetStep q (expired.foldl (fun q k => q.resetEntry now k) q) := by
  induction expired generalizing q with
  | nil => exact resetStep_refl h
  | cons k expired ih =>
    obtain ⟨hnot, hrest⟩ := List.nodup_cons.mp hnodup
    obtain ⟨p, hp⟩ := hin k List.mem_cons_self
    obtain ⟨hstep, hothers⟩ := resetEntry_step h now hp
    refine hstep.trans (ih hstep.indexed hrest ?_)
    intro k' hk'
    obtain ⟨p', hp'⟩ := hin k' (List.mem_cons_of_mem _ hk')
    refine ⟨p', hothers (k', p') hp' ?_⟩
    intro heq
    apply hnot
    rw [← heq]
    exact List.mem_map_of_mem hk'

/-- The second loop of `reset` leaves none of the timers to be cancelled. -/
lemma eraseAll_step (ids : List TimerId) (h : Indexed q) :
    ResetStep q (ids.foldl TimerQueue.erase q) ∧
      ∀ id ∈ ids, id ∉ (ids.foldl TimerQueue.erase q).activeTimerSet := by
  induction ids generalizing q with
  | nil => exact ⟨resetStep_refl h, by simp⟩
  | cons id ids ih =>
    obtain ⟨hstep, hid, -⟩ := erase_step h id
    obtain ⟨hrest, hids⟩ := ih hstep.indexed
    refine ⟨hstep.trans hrest, ?_⟩
    intro j hj
    rcases List.mem_cons.mp hj with rfl | hj
    · exact fun hactive => hid (hrest.active j hactive)
    · exact hids j hj

/-- The part of `reset` before the timerfd is armed again. -/
def resetTimers (q : TimerQueue) (expired : List Entry) (now : Int) : TimerQueue :=
  let q₁ := expired.foldl (fun q k => q.resetEntry now k) q
  { q₁.cancelingTimerSet.foldl TimerQueue.erase q₁ with cancelingTimerSet := [] }

/-- The queue with the timerfd armed for its first timer. -/
def rearmed (q : TimerQueue) : TimerQueue :=
  match q.timerList.first? with
  | some e => if vaild e.1.expiration then q.resetTimerFd e.1.expiration else q
  | none => q

lemma rearmed_eq (q : TimerQueue) : ∃ fd, rearmed q = { q with timerFd := fd } := by
  unfold rearmed
  split
  · split
    · exact ⟨_, rfl⟩
    · exact ⟨q.timerFd, rfl⟩
  · exact ⟨q.timerFd, rfl⟩

lemma reset_eq (expired : List Entry) (now : Int) :
    q.reset expired now = rearmed (resetTimers q expired now) :=
  rfl

/-- `reset` up to the arming: the indexes agree, and every timer that was to be cancelled is
gone. -/
theorem resetTimers_step (now : Int) (expired : List Entry) (h : Indexed q)
    (hnodup : (expired.map Entry.sequence).Nodup)
    (hin : ∀ k ∈ expired, ∃ p, (k, p) ∈ q.timerList.entries) :
    ResetStep q (resetTimers q expired now) ∧
      ∀ id ∈ q.cancelingTimerSet, id ∉ (resetTimers q expired now).activeTimerSet := by
  have hfirst := resetEntries_step now expired h hnodup hin
  obtain ⟨hsecond, herased⟩ := eraseAll_step
    (expired.foldl (fun q k => q.resetEntry now k) q).cancelingTimerSet hfirst.indexed
  have hgone : ∀ id ∈ q.cancelingTimerSet, id ∉ (resetTimers q expired now).activeTimerSet := by
    intro id hid
    rcases hfirst.canceled id hid with hc | hn
    · exact herased id hc
    · exact fun hactive => hn (hsecond.active id hactive)
  have hboth := hfirst.trans hsecond
  refine ⟨⟨⟨hboth.indexed.perm, hboth.indexed.timers, hboth.indexed.sequences⟩, hboth.asserts, hboth.pointers,
    hboth.clock, hboth.running, hboth.active, ?_⟩, hgone⟩
  intro id hid
  exact Or.inr (hgone id hid)

/-! ### Operations -/

/-- The queue with the new timer on the heap. -/
def allocated (q : TimerQueue) (a : Nat) (t : Timer) : TimerQueue :=
  { q with heap := Function.update q.heap a (some t) }

lemma allocated_indexed (h : Indexed q) {a : Nat} (t : Timer) (ha : q.heap a = none) :
    Indexed (allocated q a t) := by
  refine ⟨h.perm, ?_, h.sequences⟩
  intro e he
  obtain ⟨b, u, hb, hu, hexp, hseq⟩ := h.timers e he
  have hba : b ≠ a := by
    rintro rfl
    rw [ha] at hu
    simp at hu
  exact ⟨b, u, hb, by simpa [allocated, hba] using hu, hexp, hseq⟩

lemma addTimerInLoop_eq (h : Indexed q) {a : Nat} {t : Timer} (ha : q.heap a = some t)
    (hseq : ∀ e ∈ q.timerList.entries, e.1.sequence ≠ t.sequence) :
    q.addTimerInLoop a t = if q.earlyChanged t.expiration then
      (added q a t).resetTimerFd t.expiration else added q a t := by
  unfold TimerQueue.addTimerInLoop
  rw [insert_eq h ha hseq]

lemma addTimerInLoop_added (h : Indexed q) {a : Nat} {t : Timer} (ha : q.heap a = some t)
    (hseq : ∀ e ∈ q.timerList.entries, e.1.sequence ≠ t.sequence) :
    ∃ fd, q.addTimerInLoop a t = { added q a t with timerFd := fd } := by
  rw [addTimerInLoop_eq h ha hseq]
  split
  · exact ⟨_, rfl⟩
  · exact ⟨q.timerFd, rfl⟩

lemma allocated_heap (q : TimerQueue) (a : Nat) (t : Timer) : (allocated q a t).heap a = some t := by
  simp [allocated]

lemma addTimer_eq (h : Indexed q) {a : Nat} {t : Timer} (ha : q.heap a = none)
    (hseq : ∀ e ∈ q.timerList.entries, e.1.sequence ≠ t.sequence) :
    q.addTimer a t = if q.earlyChanged t.expiration then
      (added (allocated q a t) a t).resetTimerFd t.expiration else added (allocated q a t) a t :=
  addTimerInLoop_eq (allocated_indexed h t ha) (allocated_heap q a t) hseq

lemma addTimer_added (h : Indexed q) {a : Nat} {t : Timer} (ha : q.heap a = none)
    (hseq : ∀ e ∈ q.timerList.entries, e.1.sequence ≠ t.sequence) :
    ∃ fd, q.addTimer a t = { added (allocated q a t) a t with timerFd := fd } :=
  addTimerInLoop_added (allocated_indexed h t ha) (allocated_heap q a t) hseq

lemma cancelTimerInLoop_eq (h : Indexed q) (id : TimerId) :
    q.cancelTimerInLoop id = if q.isRunningCallback then
      { q with cancelingTimerSet := q.cancelingTimerSet.insert id } else q.erase id := by
  unfold TimerQueue.cancelTimerInLoop
  rw [assertSizes_eq h]
  dsimp only
  split
  · exact assertSizes_eq ⟨h.perm, h.timers, h.sequences⟩
  · exact assertSizes_eq (erase_step h id).1.indexed

lemma cancelTimerInLoop_indexed (h : Indexed q) (id : TimerId) : Indexed (q.cancelTimerInLoop id) := by
  rw [cancelTimerInLoop_eq h]
  split
  · exact ⟨h.perm, h.timers, h.sequences⟩
  · exact (erase_step h id).1.indexed

/-- The keys that `getExpiredTimers` collects at the time `now`. -/
def expiredKeys (q : TimerQueue) (now : Int) : List Entry :=
  (q.timerList.upTo ⟨now, kLLongMax⟩).map Prod.fst

lemma sequence_le_max (h : Indexed q) {e : Entry × Option Nat} (he : e ∈ q.timerList.entries) :
    e.1.sequence ≤ kLLongMax := by
  obtain ⟨a, t, -, -, -, hseq⟩ := h.timers e he
  rw [← hseq]
  exact t.sequence_le

/-- The batch holds the timers that are due, and no other. -/
lemma mem_expiredKeys (h : Indexed q) {now : Int} {k : Entry} :
    k ∈ expiredKeys q now ↔ (∃ p, (k, p) ∈ q.timerList.entries) ∧ k.expiration ≤ now := by
  unfold expiredKeys
  rw [List.mem_map]
  constructor
  · rintro ⟨e, he, rfl⟩
    obtain ⟨hmem, hle⟩ := OrderedMap.mem_upTo.mp he
    rw [Entry.le_iff] at hle
    refine ⟨⟨e.2, hmem⟩, ?_⟩
    dsimp only at hle
    omega
  · rintro ⟨⟨p, hp⟩, hle⟩
    have hseq := sequence_le_max h hp
    refine ⟨(k, p), OrderedMap.mem_upTo.mpr ⟨hp, ?_⟩, rfl⟩
    rw [Entry.le_iff]
    change k.expiration < now ∨ k.expiration = now ∧ k.sequence ≤ kLLongMax
    have hmax : k.sequence ≤ kLLongMax := hseq
    omega

lemma nodup_expiredKeys (h : Indexed q) (now : Int) :
    ((expiredKeys q now).map Entry.sequence).Nodup := by
  unfold expiredKeys
  rw [List.map_map]
  have hnodup : (q.timerList.upTo ⟨now, kLLongMax⟩).Nodup :=
    (OrderedMap.sorted_upTo _).imp fun hlt heq => by
      rw [heq] at hlt
      exact lt_irrefl _ hlt
  refine List.Nodup.map_on ?_ hnodup
  intro e he f hf heq
  exact h.sequences e (OrderedMap.mem_upTo.mp he).1 f (OrderedMap.mem_upTo.mp hf).1 heq

lemma endBeyond_eq (h : Indexed q) (now : Int) : q.endBeyond now = true := by
  unfold TimerQueue.endBeyond
  split
  · rfl
  · next e he =>
    obtain ⟨hmem, hlt⟩ := OrderedMap.lt_of_upperBound he
    obtain ⟨a, t, ha, ht, hexp, hseq⟩ := h.timers e hmem
    have hmax := t.sequence_le
    rw [ha]
    simp only [TimerQueue.deref, ht, decide_eq_true_eq]
    rw [Entry.lt_iff] at hlt
    dsimp only at hlt
    omega

lemma handleReadBegin_eq (h : Indexed q) :
    q.handleReadBegin = (expiredKeys q q.clock,
      { q with timerFd := q.timerFd.read q.clock, isRunningCallback := true }) := by
  have hread : Indexed q.readTimerFd := ⟨h.perm, h.timers, h.sequences⟩
  have hassert : q.readTimerFd.assert true = q.readTimerFd := by
    simp [TimerQueue.assert]
  unfold TimerQueue.handleReadBegin TimerQueue.getExpiredTimers
  rw [assertSizes_eq h]
  dsimp only
  rw [assertSizes_eq hread, endBeyond_eq hread, hassert]
  rfl

lemma runEntry_eq (h : Indexed q) {k : Entry} {p : Option Nat} (he : (k, p) ∈ q.timerList.entries) :
    q.runEntry k = (some ⟨p, k.sequence⟩, q) := by
  obtain ⟨a, t, ha, ht, -, hseq⟩ := h.timers (k, p) he
  change p = some a at ha
  subst ha
  unfold TimerQueue.runEntry
  rw [lookup_eq he]
  simp only [TimerQueue.deref, ht]
  rw [hseq]

lemma reset_indexed (now : Int) (expired : List Entry) (h : Indexed q)
    (hnodup : (expired.map Entry.sequence).Nodup)
    (hin : ∀ k ∈ expired, ∃ p, (k, p) ∈ q.timerList.entries) : Indexed (q.reset expired now) := by
  have hreset := (resetTimers_step now expired h hnodup hin).1.indexed
  obtain ⟨fd, hfd⟩ := rearmed_eq (resetTimers q expired now)
  rw [reset_eq, hfd]
  exact ⟨hreset.perm, hreset.timers, hreset.sequences⟩

/-- The queue when the callbacks of a batch have returned. -/
def stopped (q : TimerQueue) : TimerQueue := { q with isRunningCallback := false }

lemma stopped_indexed (h : Indexed q) : Indexed (stopped q) := ⟨h.perm, h.timers, h.sequences⟩

lemma handleReadEnd_eq (now : Int) (expired : List Entry) (h : Indexed q)
    (hnodup : (expired.map Entry.sequence).Nodup)
    (hin : ∀ k ∈ expired, ∃ p, (k, p) ∈ q.timerList.entries) :
    q.handleReadEnd expired now = rearmed (resetTimers (stopped q) expired now) :=
  assertSizes_eq (reset_indexed now expired (stopped_indexed h) hnodup hin)

end Indexed

/-! ### Runs -/

/-- What the phase of the loop adds to the state of the queue. -/
def PhaseInv (s : TimerState) : Prop :=
  match s.phase with
  | .idle => s.queue.isRunningCallback = false ∧ s.queue.cancelingTimerSet = []
  | .firing _ expired rest => s.queue.isRunningCallback = true ∧
      (∀ k ∈ expired, ∃ p, (k, p) ∈ s.queue.timerList.entries) ∧
      (expired.map Entry.sequence).Nodup ∧ rest <:+ expired

structure TimerInv (s : TimerState) : Prop where
  indexed : Indexed s.queue
  asserts : s.queue.assertsHold = true
  pointers : s.queue.pointersValid = true
  issued : ∀ id ∈ s.queue.activeTimerSet, id ∈ s.issued
  phase : PhaseInv s

section TimerInv

variable {s : TimerState} (h : TimerInv s)

include h

lemma TimerInv.new_sequence {t : Timer} (hseq : ∀ id ∈ s.issued, id.sequence ≠ t.sequence) :
    ∀ e ∈ s.queue.timerList.entries, e.1.sequence ≠ t.sequence := by
  intro e he
  exact hseq (activeOf e) (h.issued _ (h.indexed.mem_active.mpr ⟨e, he, rfl⟩))

lemma TimerInv.idle (hphase : s.phase = .idle) :
    s.queue.isRunningCallback = false ∧ s.queue.cancelingTimerSet = [] := by
  have hp := h.phase
  unfold PhaseInv at hp
  rw [hphase] at hp
  exact hp

lemma TimerInv.firing {now : Int} {expired rest : List Entry} (hphase : s.phase = .firing now expired rest) :
    s.queue.isRunningCallback = true ∧ (∀ k ∈ expired, ∃ p, (k, p) ∈ s.queue.timerList.entries) ∧
      (expired.map Entry.sequence).Nodup ∧ rest <:+ expired := by
  have hp := h.phase
  unfold PhaseInv at hp
  rw [hphase] at hp
  exact hp

/-- The end of `handleRead`: the loops of `reset`, and the timerfd armed again. -/
lemma TimerInv.handleReadEnd {now : Int} {expired : List Entry} (hphase : s.phase = .firing now expired []) :
    ResetStep (stopped s.queue) (resetTimers (stopped s.queue) expired now) ∧
      (∀ id ∈ s.queue.cancelingTimerSet,
        id ∉ (resetTimers (stopped s.queue) expired now).activeTimerSet) ∧
      s.queue.handleReadEnd expired now = rearmed (resetTimers (stopped s.queue) expired now) := by
  obtain ⟨-, hin, hnodup, -⟩ := h.firing hphase
  obtain ⟨hstep, hcanceled⟩ := resetTimers_step now expired (stopped_indexed h.indexed) hnodup hin
  exact ⟨hstep, hcanceled, handleReadEnd_eq now expired h.indexed hnodup hin⟩

end TimerInv

/-- Everything that a step can do in a state that satisfies the invariant. -/
inductive TimerTrans (s : TimerState) : TimerStep → TimerState → Prop
  | tick (d : Nat) :
      TimerTrans s (.tick d) { s with queue := { s.queue with clock := s.queue.clock + d } }
  | lag (d : Nat) : TimerTrans s (.lag d) { s with queue := { s.queue with lag := d } }
  | addTimer (a : Nat) (t : Timer) (ha : s.queue.heap a = none)
      (hseq : ∀ id ∈ s.issued, id.sequence ≠ t.sequence) :
      TimerTrans s (.addTimer a t)
        { s with queue := s.queue.addTimer a t, issued := s.issued ++ [⟨some a, t.sequence⟩] }
  | cancelTimer (id : TimerId) :
      TimerTrans s (.cancelTimer id) { s with queue := s.queue.cancelTimerInLoop id }
  | handleRead (hphase : s.phase = .idle) :
      TimerTrans s .handleRead
        { s with
          queue := { s.queue with
            timerFd := s.queue.timerFd.read s.queue.clock
            isRunningCallback := true }
          phase := .firing s.queue.clock (expiredKeys s.queue s.queue.clock)
            (expiredKeys s.queue s.queue.clock) }
  | runEntry (now : Int) (expired : List Entry) (k : Entry) (rest : List Entry) (p : Option Nat)
      (hphase : s.phase = .firing now expired (k :: rest)) (he : (k, p) ∈ s.queue.timerList.entries) :
      TimerTrans s .runEntry
        { s with phase := .firing now expired rest, fired := s.fired ++ [⟨p, k.sequence⟩] }
  | handleReadEnd (now : Int) (expired : List Entry) (hphase : s.phase = .firing now expired []) :
      TimerTrans s .handleReadEnd
        { s with queue := s.queue.handleReadEnd expired now, phase := .idle }

theorem timer_trans {s s' : TimerState} {a : TimerStep} (h : TimerInv s)
    (hnext : timerMachine.next s a = some s') : TimerTrans s a s' := by
  cases a with
  | tick d => exact Option.some.inj hnext ▸ .tick d
  | lag d => exact Option.some.inj hnext ▸ .lag d
  | addTimer a t =>
    simp only [timerMachine] at hnext
    split at hnext
    · next hguard => exact Option.some.inj hnext ▸ .addTimer a t hguard.2.1 hguard.2.2
    · simp at hnext
  | cancelTimer id =>
    simp only [timerMachine] at hnext
    split at hnext
    · exact Option.some.inj hnext ▸ .cancelTimer id
    · simp at hnext
  | handleRead =>
    simp only [timerMachine] at hnext
    split at hnext
    · next hphase =>
      rw [handleReadBegin_eq h.indexed] at hnext
      exact Option.some.inj hnext ▸ .handleRead hphase
    · simp at hnext
  | runEntry =>
    simp only [timerMachine] at hnext
    split at hnext
    · next now expired k rest hphase =>
      obtain ⟨-, hin, -, hsuffix⟩ := h.firing hphase
      obtain ⟨p, he⟩ := hin k (hsuffix.subset List.mem_cons_self)
      rw [runEntry_eq h.indexed he] at hnext
      exact Option.some.inj hnext ▸ .runEntry now expired k rest p hphase he
    · simp at hnext
  | handleReadEnd =>
    simp only [timerMachine] at hnext
    split at hnext
    · next now expired hphase => exact Option.some.inj hnext ▸ .handleReadEnd now expired hphase
    · simp at hnext

/-- The fields that a step of the phase does not look at. -/
lemma phaseInv_of_eq {s s' : TimerState} (h : PhaseInv s) (hphase : s'.phase = s.phase)
    (hrun : s'.queue.isRunningCallback = s.queue.isRunningCallback)
    (hcancel : s.phase = .idle → s'.queue.cancelingTimerSet = s.queue.cancelingTimerSet)
    (hkeys : s.phase ≠ .idle → ∀ e ∈ s.queue.timerList.entries, e ∈ s'.queue.timerList.entries) :
    PhaseInv s' := by
  unfold PhaseInv at h ⊢
  rw [hphase, hrun]
  cases hp : s.phase with
  | idle =>
    rw [hp] at h
    exact ⟨h.1, (hcancel hp).trans h.2⟩
  | firing now expired rest =>
    rw [hp] at h
    refine ⟨h.1, fun k hk => ?_, h.2.2⟩
    obtain ⟨p, he⟩ := h.2.1 k hk
    exact ⟨p, hkeys (by rw [hp]; simp) (k, p) he⟩

/-- `new` and the id that `addTimer` returns. -/
lemma timerInv_allocated {s : TimerState} (h : TimerInv s) {a : Nat} (t : Timer)
    (ha : s.queue.heap a = none) (id : TimerId) :
    TimerInv { s with queue := allocated s.queue a t, issued := s.issued ++ [id] } :=
  ⟨allocated_indexed h.indexed t ha, h.asserts, h.pointers,
    fun id hid => List.mem_append_left _ (h.issued id hid),
    phaseInv_of_eq h.phase rfl rfl (fun _ => rfl) (fun _ _ he => he)⟩

theorem timerInv_addTimerInLoop {s : TimerState} (h : TimerInv s) {a : Nat} {t : Timer}
    (ha : s.queue.heap a = some t) (hid : (⟨some a, t.sequence⟩ : TimerId) ∈ s.issued)
    (hnew : ∀ e ∈ s.queue.timerList.entries, e.1.sequence ≠ t.sequence) :
    TimerInv { s with queue := s.queue.addTimerInLoop a t } := by
  have hadded := added_indexed h.indexed ha hnew
  have hkeys : ∀ e ∈ s.queue.timerList.entries, e ∈ (added s.queue a t).timerList.entries := by
    intro e he
    refine OrderedMap.mem_insert.mpr (Or.inr ⟨he, ?_⟩)
    intro heq
    apply hnew e he
    rw [heq]
  obtain ⟨fd, hfd⟩ := addTimerInLoop_added h.indexed ha hnew
  rw [hfd]
  refine ⟨⟨hadded.perm, hadded.timers, hadded.sequences⟩, h.asserts, h.pointers, ?_,
    phaseInv_of_eq h.phase rfl rfl (fun _ => rfl) (fun _ => hkeys)⟩
  intro id hmem
  rcases List.mem_cons.mp hmem with rfl | hmem
  · exact hid
  · exact h.issued id hmem

theorem timerInv_addTimer {s : TimerState} (h : TimerInv s) {a : Nat} {t : Timer}
    (ha : s.queue.heap a = none) (hseq : ∀ id ∈ s.issued, id.sequence ≠ t.sequence) :
    TimerInv { s with
      queue := s.queue.addTimer a t
      issued := s.issued ++ [⟨some a, t.sequence⟩] } :=
  timerInv_addTimerInLoop (timerInv_allocated h t ha _) (allocated_heap s.queue a t)
    (List.mem_append_right _ List.mem_cons_self) (h.new_sequence hseq)

theorem timerInv_cancelTimer {s : TimerState} (h : TimerInv s) (id : TimerId) :
    TimerInv { s with queue := s.queue.cancelTimerInLoop id } := by
  obtain ⟨hstep, -, hcanceling⟩ := erase_step h.indexed id
  have hindexed := cancelTimerInLoop_indexed h.indexed id
  rw [cancelTimerInLoop_eq h.indexed] at hindexed ⊢
  by_cases hrun : s.queue.isRunningCallback = true
  · rw [if_pos hrun] at hindexed ⊢
    refine ⟨hindexed, h.asserts, h.pointers, h.issued, ?_⟩
    refine phaseInv_of_eq h.phase rfl rfl ?_ (fun _ e he => he)
    intro hidle
    rw [(h.idle hidle).1] at hrun
    simp at hrun
  · rw [if_neg hrun] at hindexed ⊢
    refine ⟨hindexed, hstep.asserts.trans h.asserts, hstep.pointers.trans h.pointers,
      fun j hj => h.issued j (hstep.active j hj), ?_⟩
    refine phaseInv_of_eq h.phase rfl hstep.running (fun _ => hcanceling) ?_
    intro hfiring
    cases hphase : s.phase with
    | idle => exact absurd hphase hfiring
    | firing now expired rest => exact absurd (h.firing hphase).1 hrun

theorem timerInv_handleReadEnd {s : TimerState} (h : TimerInv s) {now : Int} {expired : List Entry}
    (hphase : s.phase = .firing now expired []) :
    TimerInv { s with queue := s.queue.handleReadEnd expired now, phase := .idle } := by
  obtain ⟨hstep, -, hend⟩ := h.handleReadEnd hphase
  obtain ⟨fd, hfd⟩ := rearmed_eq (resetTimers (stopped s.queue) expired now)
  rw [hend, hfd]
  exact ⟨⟨hstep.indexed.perm, hstep.indexed.timers, hstep.indexed.sequences⟩,
    hstep.asserts.trans h.asserts, hstep.pointers.trans h.pointers,
    fun id hid => h.issued id (hstep.active id hid), hstep.running, rfl⟩

theorem timerInv_step {s s' : TimerState} {a : TimerStep} (h : TimerInv s)
    (hnext : timerMachine.next s a = some s') : TimerInv s' := by
  cases timer_trans h hnext with
  | tick d =>
    exact ⟨⟨h.indexed.perm, h.indexed.timers, h.indexed.sequences⟩, h.asserts, h.pointers, h.issued,
      phaseInv_of_eq h.phase rfl rfl (fun _ => rfl) (fun _ e he => he)⟩
  | lag d =>
    exact ⟨⟨h.indexed.perm, h.indexed.timers, h.indexed.sequences⟩, h.asserts, h.pointers, h.issued,
      phaseInv_of_eq h.phase rfl rfl (fun _ => rfl) (fun _ e he => he)⟩
  | addTimer a t ha hseq => exact timerInv_addTimer h ha hseq
  | cancelTimer id => exact timerInv_cancelTimer h id
  | handleRead hphase =>
    refine ⟨⟨h.indexed.perm, h.indexed.timers, h.indexed.sequences⟩, h.asserts, h.pointers, h.issued,
      rfl, ?_, nodup_expiredKeys h.indexed _, List.suffix_refl _⟩
    intro k hk
    exact ((mem_expiredKeys h.indexed).mp hk).1
  | runEntry now expired k rest p hphase he =>
    obtain ⟨hrun, hin, hnodup, hsuffix⟩ := h.firing hphase
    exact ⟨h.indexed, h.asserts, h.pointers, h.issued, hrun, hin, hnodup,
      (List.suffix_cons k rest).trans hsuffix⟩
  | handleReadEnd now expired hphase => exact timerInv_handleReadEnd h hphase

/-- The clock does not go back. -/
lemma clock_le_of_next {s s' : TimerState} {a : TimerStep} (h : TimerInv s)
    (hnext : timerMachine.next s a = some s') : s.queue.clock ≤ s'.queue.clock := by
  cases timer_trans h hnext with
  | tick d =>
    change s.queue.clock ≤ s.queue.clock + d
    omega
  | addTimer a t ha hseq =>
    obtain ⟨fd, hfd⟩ := addTimer_added h.indexed ha (h.new_sequence hseq)
    dsimp only
    rw [hfd]
    exact Int.le_refl _
  | cancelTimer id =>
    dsimp only
    rw [cancelTimerInLoop_eq h.indexed]
    split
    · exact Int.le_refl _
    · exact Int.le_of_eq (erase_step h.indexed id).1.clock.symm
  | handleReadEnd now expired hphase =>
    obtain ⟨hstep, -, hend⟩ := h.handleReadEnd hphase
    obtain ⟨fd, hfd⟩ := rearmed_eq (resetTimers (stopped s.queue) expired now)
    dsimp only
    rw [hend, hfd]
    exact Int.le_of_eq hstep.clock.symm
  | _ => exact Int.le_refl _

lemma timerInv_make (clock : Int) : TimerInv (TimerState.make clock) := by
  refine ⟨⟨List.Perm.refl _, ?_, ?_⟩, rfl, rfl, ?_, rfl, rfl⟩
  · intro e he
    simp [TimerState.make, TimerQueue.make, OrderedMap.empty] at he
  · intro e he
    simp [TimerState.make, TimerQueue.make, OrderedMap.empty] at he
  · intro id hid
    simp [TimerState.make, TimerQueue.make] at hid

lemma timerInv_run {clock : Int} {steps : List TimerStep} {s : TimerState}
    (hrun : timerMachine.run (TimerState.make clock) steps = some s) : TimerInv s :=
  timerMachine.invariant (fun _ _ _ => timerInv_step) (timerInv_make clock) hrun

/-- `timer_list_` maps a key to a timer exactly if `active_timer_set_` has the timer under the
key's number and the timer has the key's expiration and number, and it holds no null pointer. -/
def IndexesAgree (q : TimerQueue) : Prop :=
  (∀ k, q.timerList.find? k ≠ some none) ∧
    ∀ k a, q.timerList.find? k = some (some a) ↔
      ⟨some a, k.sequence⟩ ∈ q.activeTimerSet ∧
        ∃ t, q.heap a = some t ∧ t.expiration = k.expiration ∧ t.sequence = k.sequence

lemma Indexed.agree {q : TimerQueue} (h : Indexed q) : IndexesAgree q := by
  constructor
  · intro k hk
    obtain ⟨a, t, ha, -⟩ := h.timers (k, none) (OrderedMap.find?_eq_some.mp hk)
    simp at ha
  · intro k a
    rw [OrderedMap.find?_eq_some]
    constructor
    · intro he
      obtain ⟨b, t, hb, ht, hexp, hseq⟩ := h.timers (k, some a) he
      obtain rfl := Option.some.inj hb
      exact ⟨h.mem_active.mpr ⟨(k, some a), he, rfl⟩, t, ht, hexp, hseq⟩
    · rintro ⟨hmem, t, ht, hexp, hseq⟩
      obtain ⟨e, he, heq⟩ := h.mem_active.mp hmem
      obtain ⟨hptr, -⟩ := TimerId.mk.inj heq
      obtain ⟨b, u, hb, hu, hexpu, hsequ⟩ := h.timers e he
      rw [hptr, Option.some.injEq] at hb
      rw [← hb, ht, Option.some.injEq] at hu
      have hkey : e.1 = k := by
        apply Entry.ext
        · rw [← hexpu, ← hu, hexp]
        · rw [← hsequ, ← hu, hseq]
      rw [← hkey, ← hptr]
      exact he

/-- In every state of every run the two indexes agree, no assertion has failed, and every
lookup has found a timer. -/
theorem timer_indexes_agree (clock : Int) (steps : List TimerStep) (s : TimerState)
    (hrun : timerMachine.run (TimerState.make clock) steps = some s) :
    IndexesAgree s.queue ∧ s.queue.assertsHold = true ∧ s.queue.pointersValid = true := by
  have h := timerInv_run hrun
  exact ⟨h.indexed.agree, h.asserts, h.pointers⟩

/-- A repeating timer, due at 10 and then every 5 microseconds. -/
def sampleRepeating : Timer := ⟨10, 5, true, 0, by decide⟩

/-- A one-shot timer, due at 10. -/
def sampleOneShot : Timer := ⟨10, 0, false, 1, by decide⟩

/-- A one-shot timer, due at 30. -/
def sampleLater : Timer := ⟨30, 0, false, 2, by decide⟩

/-- A one-shot timer that is already due when a callback adds it. -/
def sampleOverdue : Timer := ⟨5, 0, false, 3, by decide⟩

/-- A repeating timer, due at 10 and then after almost `LLONG_MAX` microseconds. -/
def sampleHuge : Timer := ⟨10, 2 ^ 63 - 1024, true, 0, by decide⟩

/-- Two timers expire together; the callback of the first adds a third timer and cancels an
unknown one, the callback of the second cancels the first. -/
def sampleBatch : List TimerStep :=
  [.addTimer 0 sampleRepeating, .addTimer 1 sampleOneShot, .tick 20, .handleRead, .runEntry,
   .addTimer 2 sampleLater, .cancelTimer TimerId.default, .runEntry, .cancelTimer ⟨some 0, 0⟩,
   .handleReadEnd]

theorem timer_indexes_agree_batch :
    ∃ s, timerMachine.run (TimerState.make 1) sampleBatch = some s ∧
      s.queue.activeTimerSet = [⟨some 2, 2⟩] ∧ IndexesAgree s.queue ∧ s.queue.assertsHold = true := by
  have hend : (timerMachine.run (TimerState.make 1) sampleBatch).map (fun s => s.queue.activeTimerSet) =
      some [⟨some 2, 2⟩] := by
    decide +kernel
  obtain ⟨s, hrun, hs⟩ := Option.map_eq_some_iff.mp hend
  obtain ⟨hagree, hasserts, -⟩ := timer_indexes_agree 1 sampleBatch s hrun
  exact ⟨s, hrun, hs, hagree, hasserts⟩

end MylibMuduo.Proofs
