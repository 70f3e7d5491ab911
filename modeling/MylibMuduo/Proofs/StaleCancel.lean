import Mathlib.Tactic.FinCases
import MylibMuduo.Lib.Simulation
import MylibMuduo.Proofs.CrossThreadCancel

/-!
# Cancelling a timer that is gone

`cancelTimer` takes any `TimerId`: the default one, one of another loop, or one whose timer has fired
for the last time or was cancelled before. Outside of the callbacks such a call finds nothing to
erase; inside of them the id waits in `canceling_timer_set_` until the end of the batch. A run with
such calls goes through the same timers as the run without them.
-/

namespace MylibMuduo.Proofs

/-! ### The queue without some of the ids to be cancelled -/

/-- The queue with only those ids to be cancelled that `keep` allows. -/
def screened (keep : TimerId → Bool) (q : TimerQueue) : TimerQueue :=
  { q with cancelingTimerSet := q.cancelingTimerSet.filter keep }

/-- No timer of the queue is left out. -/
def KeepsActive (keep : TimerId → Bool) (q : TimerQueue) : Prop := ∀ id ∈ q.activeTimerSet, keep id = true

section Screened

variable {keep : TimerId → Bool} {q : TimerQueue}

lemma screened_indexed (h : Indexed q) : Indexed (screened keep q) := ⟨h.perm, h.timers, h.sequences⟩

lemma erase_eq_removed (h : Indexed q) {k : Entry} {a : Nat} (he : (k, some a) ∈ q.timerList.entries) :
    q.erase ⟨some a, k.sequence⟩ = removed q k a := by
  rcases erase_cases h ⟨some a, k.sequence⟩ with ⟨hid, -⟩ | ⟨k', a', he', hid, heq⟩
  · exact absurd (h.mem_active.mpr ⟨(k, some a), he, rfl⟩) hid
  · obtain ⟨ha, hk⟩ := TimerId.mk.inj hid
    obtain ⟨hkk, -⟩ := Prod.mk.inj (h.sequences (k, some a) he (k', some a') he' hk)
    rw [heq, ← hkk, ← Option.some.inj ha]

lemma screened_erase (h : Indexed q) (id : TimerId) : (screened keep q).erase id = screened keep (q.erase id) := by
  rcases erase_cases h id with ⟨hid, heq⟩ | ⟨k, a, he, hid, heq⟩
  · rw [heq]
    exact if_neg hid
  · rw [heq, hid]
    exact erase_eq_removed (screened_indexed h) he

lemma screened_resetEntry (h : Indexed q) (hkeep : KeepsActive keep q) (now : Int) {k : Entry} {p : Option Nat}
    (he : (k, p) ∈ q.timerList.entries) :
    (screened keep q).resetEntry now k = screened keep (q.resetEntry now k) := by
  obtain ⟨a, t, ha, ht, -, hseq⟩ := h.timers (k, p) he
  change p = some a at ha
  subst ha
  have hactive : keep ⟨some a, k.sequence⟩ = true := hkeep _ (h.mem_active.mpr ⟨(k, some a), he, rfl⟩)
  have hmem : (⟨some a, k.sequence⟩ : TimerId) ∈ (screened keep q).cancelingTimerSet ↔
      ⟨some a, k.sequence⟩ ∈ q.cancelingTimerSet := by
    change _ ∈ List.filter keep _ ↔ _
    rw [List.mem_filter, and_iff_left hactive]
  rw [resetEntry_eq h now he ht, resetEntry_eq (screened_indexed h) now he ht]
  by_cases hcond : t.isRepeat = true ∧ ⟨some a, k.sequence⟩ ∉ q.cancelingTimerSet
  · rw [if_pos hcond, if_pos ⟨hcond.1, fun hin => hcond.2 (hmem.mp hin)⟩]
    rfl
  · rw [if_neg hcond, if_neg fun hc => hcond ⟨hc.1, fun hin => hc.2 (hmem.mpr hin)⟩]
    unfold screened
    dsimp only
    rw [List.erase_filter]
    rfl

lemma screened_resetEntries (now : Int) (expired : List Entry) (h : Indexed q) (hkeep : KeepsActive keep q)
    (hnodup : (expired.map Entry.sequence).Nodup)
    (hin : ∀ k ∈ expired, ∃ p, (k, p) ∈ q.timerList.entries) :
    expired.foldl (fun q k => q.resetEntry now k) (screened keep q) =
      screened keep (expired.foldl (fun q k => q.resetEntry now k) q) := by
  induction expired generalizing q with
  | nil => rfl
  | cons k expired ih =>
    obtain ⟨hnot, hrest⟩ := List.nodup_cons.mp hnodup
    obtain ⟨p, hp⟩ := hin k List.mem_cons_self
    obtain ⟨hstep, hothers⟩ := resetEntry_step h now hp
    rw [List.foldl_cons, List.foldl_cons, screened_resetEntry h hkeep now hp]
    refine ih hstep.indexed (fun id hid => hkeep id (hstep.active id hid)) hrest fun k' hk' => ?_
    obtain ⟨p', hp'⟩ := hin k' (List.mem_cons_of_mem _ hk')
    refine ⟨p', hothers (k', p') hp' fun heq => hnot ?_⟩
    rw [← heq]
    exact List.mem_map_of_mem hk'

lemma screened_eraseAll (h : Indexed q) (ids : List TimerId) :
    ids.foldl TimerQueue.erase (screened keep q) = screened keep (ids.foldl TimerQueue.erase q) := by
  induction ids generalizing q with
  | nil => rfl
  | cons id ids ih =>
    rw [List.foldl_cons, List.foldl_cons, screened_erase h]
    exact ih (erase_step h id).1.indexed

/-- Only the ids of timers in the queue need to be erased. -/
lemma eraseAll_filter (h : Indexed q) (hkeep : KeepsActive keep q) (ids : List TimerId) :
    (ids.filter keep).foldl TimerQueue.erase q = ids.foldl TimerQueue.erase q := by
  induction ids generalizing q with
  | nil => rfl
  | cons id ids ih =>
    have hstep := (erase_step h id).1
    have hrest := ih hstep.indexed fun j hj => hkeep j (hstep.active j hj)
    cases hid : keep id with
    | true =>
      rw [List.filter_cons_of_pos hid, List.foldl_cons, List.foldl_cons]
      exact hrest
    | false =>
      have hnone : q.erase id = q := if_neg fun hactive => by
        rw [hkeep id hactive] at hid
        cases hid
      rw [List.filter_cons_of_neg (by simp [hid]), List.foldl_cons, hnone]
      exact ih h hkeep

lemma resetTimers_screened (now : Int) (expired : List Entry) (h : Indexed q) (hkeep : KeepsActive keep q)
    (hnodup : (expired.map Entry.sequence).Nodup)
    (hin : ∀ k ∈ expired, ∃ p, (k, p) ∈ q.timerList.entries) :
    resetTimers (screened keep q) expired now = resetTimers q expired now := by
  have hstep := resetEntries_step now expired h hnodup hin
  unfold resetTimers
  dsimp only
  rw [screened_resetEntries now expired h hkeep hnodup hin, screened_eraseAll hstep.indexed]
  change { screened keep ((List.filter keep _).foldl _ _) with cancelingTimerSet := [] } = _
  rw [eraseAll_filter hstep.indexed fun id hid => hkeep id (hstep.active id hid)]
  rfl

lemma screened_addTimer (h : Indexed q) {a : Nat} {t : Timer} (ha : q.heap a = none)
    (hseq : ∀ e ∈ q.timerList.entries, e.1.sequence ≠ t.sequence) :
    (screened keep q).addTimer a t = screened keep (q.addTimer a t) := by
  have hearly : (screened keep q).earlyChanged t.expiration = q.earlyChanged t.expiration := rfl
  rw [addTimer_eq h ha hseq, addTimer_eq (screened_indexed h) ha hseq, hearly]
  split
  · rfl
  · rfl

lemma filter_insert {ids : List TimerId} {id : TimerId} (hid : keep id = true) :
    (ids.insert id).filter keep = (ids.filter keep).insert id := by
  by_cases hmem : id ∈ ids
  · rw [List.insert_of_mem hmem, List.insert_of_mem (List.mem_filter.mpr ⟨hmem, hid⟩)]
  · rw [List.insert_of_not_mem hmem, List.insert_of_not_mem fun h => hmem (List.mem_filter.mp h).1,
      List.filter_cons_of_pos hid]

lemma screened_cancelTimerInLoop (h : Indexed q) {id : TimerId} (hid : keep id = true) :
    (screened keep q).cancelTimerInLoop id = screened keep (q.cancelTimerInLoop id) := by
  have hrunning : (screened keep q).isRunningCallback = q.isRunningCallback := rfl
  rw [cancelTimerInLoop_eq h, cancelTimerInLoop_eq (screened_indexed h), hrunning]
  split
  · unfold screened
    dsimp only
    rw [filter_insert hid]
  · exact screened_erase h id

end Screened

/-! ### Runs -/

/-- The state with only some of the ids to be cancelled. -/
def screenedState (keep : TimerId → Bool) (s : TimerState) : TimerState :=
  { s with queue := screened keep s.queue }

section Runs

variable {keep : TimerId → Bool} {foreign : Int → Bool} {s s' : TimerState} {a : TimerStep}

/-- At the end of a batch nothing is left to be cancelled. -/
lemma handleReadEnd_screened (h : TimerInv s) (hkeep : KeepsActive keep s.queue) {now : Int} {expired : List Entry}
    (hphase : s.phase = .firing now expired []) :
    (screened keep s.queue).handleReadEnd expired now = screened keep (s.queue.handleReadEnd expired now) := by
  obtain ⟨-, hin, hnodup, -⟩ := h.firing hphase
  have hreset := resetTimers_screened now expired (stopped_indexed h.indexed) hkeep hnodup hin
  obtain ⟨fd, hfd⟩ := rearmed_eq (resetTimers (stopped s.queue) expired now)
  rw [handleReadEnd_eq now expired h.indexed hnodup hin,
    handleReadEnd_eq now expired (screened_indexed h.indexed) hnodup hin]
  change rearmed (resetTimers (screened keep (stopped s.queue)) expired now) = _
  rw [hreset, hfd]
  rfl

/-- The queue makes the same steps if ids are left out that are none of its timers. -/
theorem screened_next (h : TimerInv s) (hkeep : KeepsActive keep s.queue)
    (hcancel : ∀ id, a = .cancelTimer id → keep id = true) (hnext : timerMachine.next s a = some s') :
    timerMachine.next (screenedState keep s) a = some (screenedState keep s') := by
  cases a with
  | tick d =>
    obtain rfl := Option.some.inj hnext
    rfl
  | lag d =>
    obtain rfl := Option.some.inj hnext
    rfl
  | addTimer ad t =>
    simp only [timerMachine, Option.ite_none_right_eq_some, Option.some.injEq] at hnext ⊢
    obtain ⟨⟨huser, had, hseq⟩, rfl⟩ := hnext
    refine ⟨⟨huser, had, hseq⟩, ?_⟩
    unfold screenedState
    dsimp only
    rw [screened_addTimer h.indexed had (h.new_sequence hseq)]
  | cancelTimer id =>
    simp only [timerMachine, Option.ite_none_right_eq_some, Option.some.injEq] at hnext ⊢
    obtain ⟨huser, rfl⟩ := hnext
    refine ⟨huser, ?_⟩
    unfold screenedState
    dsimp only
    rw [screened_cancelTimerInLoop h.indexed (hcancel id rfl)]
  | handleRead =>
    cases timer_trans h hnext with
    | handleRead hphase =>
      simp only [timerMachine, screenedState, hphase]
      rw [handleReadBegin_eq (screened_indexed h.indexed)]
      rfl
  | runEntry =>
    cases timer_trans h hnext with
    | runEntry now expired k rest p hphase he =>
      simp only [timerMachine, screenedState, hphase]
      rw [runEntry_eq (screened_indexed h.indexed) he]
      rfl
  | handleReadEnd =>
    cases timer_trans h hnext with
    | handleReadEnd now expired hphase =>
      simp only [timerMachine, screenedState, hphase]
      rw [handleReadEnd_screened h hkeep hphase]

/-- The id is not that of a timer in the queue, and never will be: it was given out before, it is the
default one, or its number is one of another loop. -/
def Stale (foreign : Int → Bool) (s : TimerState) (id : TimerId) : Prop :=
  id ∉ s.queue.activeTimerSet ∧ (id ∈ s.issued ∨ id.timer = none ∨ foreign id.sequence = true)

instance (foreign : Int → Bool) (s : TimerState) (id : TimerId) : Decidable (Stale foreign s id) :=
  inferInstanceAs (Decidable (_ ∧ _))

/-- The step draws no number that belongs to another loop. -/
def ownNumber (foreign : Int → Bool) : TimerStep → Prop
  | .addTimer _ t => foreign t.sequence = false
  | _ => True

/-- Only `addTimer` puts a timer into the queue. -/
lemma active_cases (h : TimerInv s) (hnext : timerMachine.next s a = some s') {id : TimerId}
    (hactive : id ∈ s'.queue.activeTimerSet) :
    id ∈ s.queue.activeTimerSet ∨ ∃ ad t, a = .addTimer ad t ∧ id = ⟨some ad, t.sequence⟩ ∧
      ∀ j ∈ s.issued, j.sequence ≠ t.sequence := by
  cases timer_trans h hnext with
  | addTimer ad t had hseq =>
    obtain ⟨fd, hfd⟩ := addTimer_added h.indexed had (h.new_sequence hseq)
    dsimp only at hactive
    rw [hfd] at hactive
    rcases List.mem_cons.mp hactive with heq | hmem
    · exact .inr ⟨ad, t, rfl, heq, hseq⟩
    · exact .inl hmem
  | cancelTimer j =>
    dsimp only at hactive
    rw [cancelTimerInLoop_eq h.indexed] at hactive
    split at hactive
    · exact .inl hactive
    · exact .inl ((erase_step h.indexed j).1.active id hactive)
  | handleReadEnd now expired hphase =>
    obtain ⟨hstep, -, hend⟩ := h.handleReadEnd hphase
    obtain ⟨fd, hfd⟩ := rearmed_eq (resetTimers (stopped s.queue) expired now)
    dsimp only at hactive
    rw [hend, hfd] at hactive
    exact .inl (hstep.active id hactive)
  | _ => exact .inl hactive

lemma issued_subset (h : TimerInv s) (hnext : timerMachine.next s a = some s') : s.issued ⊆ s'.issued := by
  cases timer_trans h hnext with
  | addTimer ad t had hseq => exact List.subset_append_left _ _
  | _ => exact List.Subset.refl _

lemma Stale.step {id : TimerId} (h : TimerInv s) (hstale : Stale foreign s id) (hown : ownNumber foreign a)
    (hnext : timerMachine.next s a = some s') : Stale foreign s' id := by
  refine ⟨fun hactive => ?_, hstale.2.imp_left fun hid => issued_subset h hnext hid⟩
  rcases active_cases h hnext hactive with hold | ⟨ad, t, rfl, rfl, hseq⟩
  · exact hstale.1 hold
  · rcases hstale.2 with hid | hnone | hforeign
    · exact hseq _ hid rfl
    · cases hnone
    · change foreign t.sequence = true at hforeign
      rw [hown] at hforeign
      cases hforeign

/-- The labels of a run without the calls that cancel a stale id. -/
def withoutStale (foreign : Int → Bool) (s : TimerState) : TimerStep → List TimerStep
  | .cancelTimer id => if Stale foreign s id then [] else [.cancelTimer id]
  | a => [a]

/-- The second state lacks only stale ids among those to be cancelled. -/
structure Screens (foreign : Int → Bool) (s r : TimerState) : Prop where
  inv : TimerInv s
  screened : ∃ keep, r = screenedState keep s ∧ ∀ id, keep id = false → Stale foreign s id

/-- A stale id finds nothing to erase, or joins the ids that are left out. -/
lemma screens_stale {id : TimerId} {r : TimerState} (h : Screens foreign s r) (hstale : Stale foreign s id)
    (hnext : timerMachine.next s (.cancelTimer id) = some s') : Screens foreign s' r := by
  obtain ⟨keep, rfl, hkeep⟩ := h.screened
  have hinv := timerInv_step h.inv hnext
  simp only [timerMachine, Option.ite_none_right_eq_some, Option.some.injEq] at hnext
  obtain ⟨-, rfl⟩ := hnext
  by_cases hadds : s.queue.isRunningCallback = true ∧ id ∉ s.queue.cancelingTimerSet
  · have hqueue : s.queue.cancelTimerInLoop id =
        { s.queue with cancelingTimerSet := id :: s.queue.cancelingTimerSet } := by
      rw [cancelTimerInLoop_eq h.inv.indexed, if_pos hadds.1, List.insert_of_not_mem hadds.2]
    refine ⟨hinv, fun j => keep j && decide (j ≠ id), ?_, fun j hj => ?_⟩
    · have hfilter : s.queue.cancelingTimerSet.filter keep =
          (id :: s.queue.cancelingTimerSet).filter fun j => keep j && decide (j ≠ id) := by
        rw [List.filter_cons_of_neg (by simp)]
        refine List.filter_congr fun j hj => ?_
        have hne : j ≠ id := fun heq => hadds.2 (heq ▸ hj)
        rw [decide_eq_true hne, Bool.and_true]
      rw [hqueue]
      unfold screenedState screened
      dsimp only
      rw [hfilter]
    · rw [hqueue]
      rcases Bool.and_eq_false_iff.mp hj with hj | hj
      · exact hkeep j hj
      · exact (not_not.mp (of_decide_eq_false hj)) ▸ hstale
  · have hqueue : s.queue.cancelTimerInLoop id = s.queue := by
      rw [cancelTimerInLoop_eq h.inv.indexed]
      by_cases hrunning : s.queue.isRunningCallback = true
      · have hmem : id ∈ s.queue.cancelingTimerSet := not_not.mp fun hnot => hadds ⟨hrunning, hnot⟩
        rw [if_pos hrunning, List.insert_of_mem hmem]
      · rw [if_neg hrunning]
        exact if_neg hstale.1
    rw [hqueue] at hinv ⊢
    exact ⟨hinv, keep, rfl, hkeep⟩

lemma Screens.step {r : TimerState} (h : Screens foreign s r) (hown : ownNumber foreign a)
    (hnext : timerMachine.next s a = some s') :
    ∃ r', timerMachine.run r (withoutStale foreign s a) = some r' ∧ Screens foreign s' r' := by
  by_cases hstale : ∃ id, a = .cancelTimer id ∧ Stale foreign s id
  · obtain ⟨id, rfl, hstale⟩ := hstale
    refine ⟨r, ?_, screens_stale h hstale hnext⟩
    rw [withoutStale, if_pos hstale]
    rfl
  · obtain ⟨keep, rfl, hkeep⟩ := h.screened
    have hlabels : withoutStale foreign s a = [a] := by
      cases a with
      | cancelTimer id => exact if_neg fun hid => hstale ⟨id, rfl, hid⟩
      | _ => rfl
    have hkept : ∀ id, ¬Stale foreign s id → keep id = true := fun id hid => by
      rw [← Bool.not_eq_false]
      exact fun hfalse => hid (hkeep id hfalse)
    have hscreened := screened_next h.inv (fun id hid => hkept id fun hs => hs.1 hid)
      (fun id ha => hkept id fun hs => hstale ⟨id, ha, hs⟩) hnext
    refine ⟨screenedState keep s', ?_, timerInv_step h.inv hnext, keep, rfl, fun id hid => ?_⟩
    · rw [hlabels, Machine.run_cons_eq_some]
      exact ⟨_, hscreened, rfl⟩
    · exact (hkeep id hid).step h.inv hown hnext

end Runs

/-- Cancelling a stale id does nothing: the run without such calls goes through the same timers,
callbacks and settings of the timerfd. Only `canceling_timer_set_` differs until the end of a batch. -/
theorem stale_cancels_do_nothing (foreign : Int → Bool) (clock : Int) (steps : List TimerStep) (s : TimerState)
    (hrun : timerMachine.run (TimerState.make clock) steps = some s) (hown : ∀ a ∈ steps, ownNumber foreign a) :
    ∃ r, timerMachine.run (TimerState.make clock)
        (timerMachine.emitted (withoutStale foreign) (TimerState.make clock) steps) = some r ∧
      r.fired = s.fired ∧ r.issued = s.issued ∧ r.phase = s.phase ∧
      r.queue = { s.queue with cancelingTimerSet := r.queue.cancelingTimerSet } ∧
      (s.phase = .idle → r = s) := by
  have hmake : Screens foreign (TimerState.make clock) (TimerState.make clock) :=
    ⟨timerInv_make clock, fun _ => true, rfl, fun _ h => by cases h⟩
  obtain ⟨r, hr, hscreens⟩ := timerMachine.run_emitted_of_meets
    (fun s r a s' hs hok hnext => Screens.step hs hok hnext) hmake (timerMachine.meets_of_forall _ hown) hrun
  obtain ⟨keep, rfl, -⟩ := hscreens.screened
  refine ⟨_, hr, rfl, rfl, rfl, rfl, fun hidle => ?_⟩
  have hnone := (hscreens.inv.idle hidle).2
  unfold screenedState screened
  rw [hnone, List.filter_nil, ← hnone]

/-- The callback of a timer cancels the default id and one of another loop, and the timer is cancelled
after it has fired for the last time. -/
def staleCancels : List TimerStep :=
  [.addTimer 3 sampleOneShot, .tick 200, .handleRead, .runEntry, .cancelTimer TimerId.default,
   .cancelTimer ⟨some 3, 99⟩, .handleReadEnd, .cancelTimer ⟨some 3, 1⟩]

theorem stale_cancels_do_nothing_once :
    timerMachine.emitted (withoutStale (· == 99)) (TimerState.make 0) staleCancels =
        [.addTimer 3 sampleOneShot, .tick 200, .handleRead, .runEntry, .handleReadEnd] ∧
      ∃ s, timerMachine.run (TimerState.make 0) staleCancels = some s ∧ s.fired = [⟨some 3, 1⟩] ∧
        timerMachine.run (TimerState.make 0)
          (timerMachine.emitted (withoutStale (· == 99)) (TimerState.make 0) staleCancels) = some s := by
  refine ⟨by decide +kernel, ?_⟩
  have hend : (timerMachine.run (TimerState.make 0) staleCancels).map (fun s => (s.fired, s.phase)) =
      some ([⟨some 3, 1⟩], .idle) := by
    decide +kernel
  obtain ⟨s, hrun, hend⟩ := Option.map_eq_some_iff.mp hend
  simp only [Prod.mk.injEq] at hend
  have hown : ∀ a ∈ staleCancels, ownNumber (· == 99) a := by
    intro a ha
    fin_cases ha <;> first | rfl | trivial
  obtain ⟨r, hr, -, -, -, -, hsame⟩ := stale_cancels_do_nothing (· == 99) 0 staleCancels s hrun hown
  exact ⟨s, hrun, hend.1, hsame hend.2 ▸ hr⟩

end MylibMuduo.Proofs
