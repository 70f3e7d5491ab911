import MylibMuduo.Proofs.TimerIndexes

/-!
# Cancellation of timers

Outside timer processing `cancelTimer` erases the timer at once. In a callback it only notes
the timer in `canceling_timer_set_`, which `reset` consults after the whole batch has run, while
the loop over the batch does not. A cancelled timer therefore never runs again exactly if its
callback was not still waiting in the batch when it was cancelled.
-/

namespace MylibMuduo.Proofs

/-- The timer is not one of the batch whose callback has not started. -/
def NotWaiting (s : TimerState) (id : TimerId) : Prop :=
  match s.phase with
  | .idle => True
  | .firing _ _ rest => ∀ k ∈ rest, k.sequence ≠ id.sequence

/-- Numbers identify the timers that were given out. -/
def IssuedOnce (s : TimerState) : Prop :=
  ∀ i ∈ s.issued, ∀ j ∈ s.issued, i.sequence = j.sequence → i = j

lemma still_issued {s s' : TimerState} {a : TimerStep} {id : TimerId} (h : TimerInv s) (hid : id ∈ s.issued)
    (hnext : timerMachine.next s a = some s') : id ∈ s'.issued := by
  cases timer_trans h hnext with
  | addTimer a t ha hseq => exact List.mem_append_left _ hid
  | _ => exact hid

lemma IssuedOnce.append {s s' : TimerState} {id : TimerId} (h : IssuedOnce s)
    (hnew : ∀ i ∈ s.issued, i.sequence ≠ id.sequence) (hissued : s'.issued = s.issued ++ [id]) :
    IssuedOnce s' := by
  intro i hi j hj heq
  rw [hissued, List.mem_append, List.mem_singleton] at hi hj
  rcases hi with hi | rfl
  · rcases hj with hj | rfl
    · exact h i hi j hj heq
    · exact absurd heq (hnew i hi)
  · rcases hj with hj | rfl
    · exact absurd heq.symm (hnew j hj)
    · rfl

lemma issuedOnce_step {s s' : TimerState} {a : TimerStep} (hinv : TimerInv s) (h : IssuedOnce s)
    (hnext : timerMachine.next s a = some s') : IssuedOnce s' := by
  cases timer_trans hinv hnext with
  | addTimer a t ha hseq => exact h.append hseq rfl
  | _ => exact h

lemma issuedOnce_run {clock : Int} {steps : List TimerStep} {s : TimerState}
    (hrun : timerMachine.run (TimerState.make clock) steps = some s) : IssuedOnce s := by
  have hmake : IssuedOnce (TimerState.make clock) := by
    intro i hi
    simp [TimerState.make] at hi
  have hboth := timerMachine.invariant (I := fun s => TimerInv s ∧ IssuedOnce s)
    (fun _ _ _ h hnext => ⟨timerInv_step h.1 hnext, issuedOnce_step h.1 h.2 hnext⟩)
    ⟨timerInv_make clock, hmake⟩ hrun
  exact hboth.2

/-- What remains of a cancelled timer: nothing, or an entry that `reset` will erase and whose
callback the batch does not invoke any more. -/
structure Cancelled (s : TimerState) (id : TimerId) : Prop where
  issued : id ∈ s.issued
  gone : id ∉ s.queue.activeTimerSet ∨
    (id ∈ s.queue.cancelingTimerSet ∧ s.phase ≠ .idle ∧ NotWaiting s id)

lemma cancelled_of_cancel {s s' : TimerState} {id : TimerId} (h : TimerInv s) (hid : id ∈ s.issued)
    (hwait : NotWaiting s id) (hnext : timerMachine.next s (.cancelTimer id) = some s') :
    Cancelled s' id ∧ s'.fired = s.fired := by
  cases timer_trans h hnext with
  | cancelTimer id =>
    refine ⟨⟨hid, ?_⟩, rfl⟩
    dsimp only
    rw [cancelTimerInLoop_eq h.indexed]
    cases hphase : s.phase with
    | idle =>
      rw [(h.idle hphase).1, if_neg Bool.false_ne_true]
      exact Or.inl (erase_step h.indexed id).2.1
    | firing now expired rest =>
      rw [if_pos (h.firing hphase).1]
      refine Or.inr ⟨List.mem_insert_self, by simp, ?_⟩
      unfold NotWaiting at hwait ⊢
      rw [hphase] at hwait
      exact hwait

lemma cancelled_addTimer {s : TimerState} {id : TimerId} {a : Nat} {t : Timer} (h : TimerInv s)
    (hc : Cancelled s id) (ha : s.queue.heap a = none) (hseq : ∀ id ∈ s.issued, id.sequence ≠ t.sequence) :
    Cancelled { s with queue := s.queue.addTimer a t, issued := s.issued ++ [⟨some a, t.sequence⟩] } id := by
  refine ⟨List.mem_append_left _ hc.issued, ?_⟩
  obtain ⟨fd, hfd⟩ := addTimer_added h.indexed ha (h.new_sequence hseq)
  rw [hfd]
  rcases hc.gone with hn | hw
  · left
    intro hmem
    rcases List.mem_cons.mp hmem with heq | hmem
    · exact hseq id hc.issued (congrArg TimerId.sequence heq)
    · exact hn hmem
  · exact Or.inr hw

lemma cancelled_cancelTimer {s : TimerState} {id : TimerId} (h : TimerInv s) (hc : Cancelled s id)
    (j : TimerId) : Cancelled { s with queue := s.queue.cancelTimerInLoop j } id := by
  refine ⟨hc.issued, ?_⟩
  dsimp only
  rw [cancelTimerInLoop_eq h.indexed]
  split
  · rcases hc.gone with hn | ⟨hcan, hfiring, hwait⟩
    · exact Or.inl hn
    · exact Or.inr ⟨List.mem_insert_of_mem hcan, hfiring, hwait⟩
  · obtain ⟨hstep, -, hcanceling⟩ := erase_step h.indexed j
    rcases hc.gone with hn | ⟨hcan, hfiring, hwait⟩
    · exact Or.inl (fun ha => hn (hstep.active id ha))
    · exact Or.inr ⟨by rw [hcanceling]; exact hcan, hfiring, hwait⟩

/-- The next entry of the batch is not the cancelled timer. -/
lemma Cancelled.ne_entry {s : TimerState} {id : TimerId} (h : TimerInv s) (hc : Cancelled s id)
    {now : Int} {expired rest : List Entry} {k : Entry} {p : Option Nat}
    (hphase : s.phase = .firing now expired (k :: rest)) (he : (k, p) ∈ s.queue.timerList.entries) :
    (⟨p, k.sequence⟩ : TimerId) ≠ id := by
  intro heq
  have hactive : id ∈ s.queue.activeTimerSet := by
    rw [← heq]
    exact h.indexed.mem_active.mpr ⟨(k, p), he, rfl⟩
  rcases hc.gone with hn | ⟨-, -, hwait⟩
  · exact hn hactive
  · unfold NotWaiting at hwait
    rw [hphase] at hwait
    exact hwait k List.mem_cons_self (congrArg TimerId.sequence heq)

/-- No step brings a cancelled timer back or invokes its callback. -/
theorem cancelled_step {s s' : TimerState} {a : TimerStep} {id : TimerId} (h : TimerInv s)
    (hc : Cancelled s id) (hnext : timerMachine.next s a = some s') :
    Cancelled s' id ∧ s'.fired.count id = s.fired.count id := by
  cases timer_trans h hnext with
  | tick d => exact ⟨⟨hc.issued, hc.gone⟩, rfl⟩
  | lag d => exact ⟨⟨hc.issued, hc.gone⟩, rfl⟩
  | addTimer a t ha hseq => exact ⟨cancelled_addTimer h hc ha hseq, rfl⟩
  | cancelTimer j => exact ⟨cancelled_cancelTimer h hc j, rfl⟩
  | handleRead hidle =>
    refine ⟨⟨hc.issued, ?_⟩, rfl⟩
    rcases hc.gone with hn | ⟨-, hfiring, -⟩
    · exact Or.inl hn
    · exact absurd hidle hfiring
  | runEntry now expired k rest p hphase he =>
    have hne := hc.ne_entry h hphase he
    refine ⟨⟨hc.issued, ?_⟩, by simp [hne]⟩
    rcases hc.gone with hn | ⟨hcan, -, hwait⟩
    · exact Or.inl hn
    · refine Or.inr ⟨hcan, by simp, ?_⟩
      unfold NotWaiting at hwait ⊢
      rw [hphase] at hwait
      exact fun k' hk' => hwait k' (List.mem_cons_of_mem _ hk')
  | handleReadEnd now expired hphase =>
    refine ⟨⟨hc.issued, Or.inl ?_⟩, rfl⟩
    obtain ⟨hstep, hcanceled, hend⟩ := h.handleReadEnd hphase
    obtain ⟨fd, hfd⟩ := rearmed_eq (resetTimers (stopped s.queue) expired now)
    rw [hend, hfd]
    rcases hc.gone with hn | ⟨hcan, -⟩
    · exact fun ha => hn (hstep.active id ha)
    · exact hcanceled id hcan

lemma cancelled_run {s t : TimerState} {steps : List TimerStep} {id : TimerId} (h : TimerInv s)
    (hc : Cancelled s id) (hrun : timerMachine.run s steps = some t) :
    t.fired.count id = s.fired.count id := by
  have hinv := timerMachine.invariant
    (I := fun u => TimerInv u ∧ Cancelled u id ∧ u.fired.count id = s.fired.count id) ?_ ⟨h, hc, rfl⟩ hrun
  · exact hinv.2.2
  · rintro u a u' ⟨hu, hcu, hcount⟩ hnext
    obtain ⟨hcu', hcount'⟩ := cancelled_step hu hcu hnext
    exact ⟨timerInv_step hu hnext, hcu', hcount'.trans hcount⟩

/-- The batch runs through to the callback of a waiting timer, whatever was cancelled. -/
lemma waiting_fires {s : TimerState} {id : TimerId} (h : TimerInv s) (hone : IssuedOnce s)
    (hid : id ∈ s.issued) {now : Int} {expired rest : List Entry}
    (hphase : s.phase = .firing now expired rest) (hwait : ∃ k ∈ rest, k.sequence = id.sequence) :
    ∃ steps t, timerMachine.run s steps = some t ∧ s.fired.count id < t.fired.count id := by
  induction rest generalizing s with
  | nil => simp at hwait
  | cons k rest ih =>
    obtain ⟨-, hin, -, hsuffix⟩ := h.firing hphase
    obtain ⟨p, he⟩ := hin k (hsuffix.subset List.mem_cons_self)
    have hnext : timerMachine.next s .runEntry = some { s with
        phase := .firing now expired rest
        fired := s.fired ++ [⟨p, k.sequence⟩] } := by
      simp only [timerMachine, hphase, runEntry_eq h.indexed he, Option.toList_some]
    have hactive : (⟨p, k.sequence⟩ : TimerId) ∈ s.issued :=
      h.issued _ (h.indexed.mem_active.mpr ⟨(k, p), he, rfl⟩)
    by_cases hk : k.sequence = id.sequence
    · have hfire : (⟨p, k.sequence⟩ : TimerId) = id := hone _ hactive id hid hk
      refine ⟨[.runEntry], _, (timerMachine.run_cons_eq_some _ _ _ _).mpr ⟨_, hnext, rfl⟩, ?_⟩
      rw [hfire]
      simp
    · have hrest : ∃ k' ∈ rest, k'.sequence = id.sequence := by
        obtain ⟨k', hk', hseq⟩ := hwait
        rcases List.mem_cons.mp hk' with rfl | hk'
        · exact absurd hseq hk
        · exact ⟨k', hk', hseq⟩
      obtain ⟨steps, t, hrun, hlt⟩ := ih (timerInv_step h hnext) (issuedOnce_step h hone hnext) hid rfl hrest
      refine ⟨.runEntry :: steps, t, (timerMachine.run_cons_eq_some _ _ _ _).mpr ⟨_, hnext, hrun⟩, ?_⟩
      have hle : s.fired.count id ≤ (s.fired ++ [(⟨p, k.sequence⟩ : TimerId)]).count id := by
        rw [List.count_append]
        omega
      exact Nat.lt_of_le_of_lt hle hlt

/-- In every reachable state: after the cancellation of a timer its callback is never invoked
again, if and only if it was not waiting in the batch. -/
theorem cancel_effective_iff (clock : Int) (steps : List TimerStep) (s s' : TimerState) (id : TimerId)
    (hrun : timerMachine.run (TimerState.make clock) steps = some s) (hid : id ∈ s.issued)
    (hcancel : timerMachine.next s (.cancelTimer id) = some s') :
    (∀ more t, timerMachine.run s' more = some t → t.fired.count id = s'.fired.count id) ↔
      NotWaiting s id := by
  have h := timerInv_run hrun
  have h' := timerInv_step h hcancel
  constructor
  · intro hnever
    unfold NotWaiting
    split
    · trivial
    · next now expired rest hphase =>
      intro k hk hseq
      have hsame : s'.phase = s.phase ∧ s'.issued = s.issued := by
        cases timer_trans h hcancel with
        | cancelTimer id => exact ⟨rfl, rfl⟩
      have hone := issuedOnce_step h (issuedOnce_run hrun) hcancel
      obtain ⟨more, t, ht, hlt⟩ := waiting_fires h' hone (by rw [hsame.2]; exact hid)
        (hsame.1.trans hphase) ⟨k, hk, hseq⟩
      have := hnever more t ht
      omega
  · intro hwait more t ht
    exact cancelled_run h' (cancelled_of_cancel h hid hwait hcancel).1 ht

/-- The first of two timers that expire together runs its callback. -/
def sampleCallback : List TimerStep :=
  [.addTimer 0 sampleRepeating, .addTimer 1 sampleOneShot, .tick 20, .handleRead, .runEntry]

/-- A callback cancels the timer that comes next in the batch, and its callback still runs. -/
theorem cancel_of_waiting_timer_ineffective :
    ¬∀ (clock : Int) (steps : List TimerStep) (s s' : TimerState) (id : TimerId),
      timerMachine.run (TimerState.make clock) steps = some s → id ∈ s.issued →
      timerMachine.next s (.cancelTimer id) = some s' →
      ∀ more t, timerMachine.run s' more = some t → t.fired.count id = s'.fired.count id := by
  intro hall
  have hfired : ((timerMachine.run (TimerState.make 1) sampleCallback).bind fun s =>
      (timerMachine.next s (.cancelTimer ⟨some 1, 1⟩)).bind fun s' =>
        (timerMachine.run s' [.runEntry]).map fun t =>
          (s.issued, s'.fired, t.fired)) =
      some ([⟨some 0, 0⟩, ⟨some 1, 1⟩], [⟨some 0, 0⟩], [⟨some 0, 0⟩, ⟨some 1, 1⟩]) := by
    decide +kernel
  obtain ⟨s, hrun, hfired⟩ := Option.bind_eq_some_iff.mp hfired
  obtain ⟨s', hcancel, hfired⟩ := Option.bind_eq_some_iff.mp hfired
  obtain ⟨t, hmore, hfired⟩ := Option.map_eq_some_iff.mp hfired
  simp only [Prod.mk.injEq] at hfired
  obtain ⟨hissued, hs', ht⟩ := hfired
  have hcount := hall 1 sampleCallback s s' ⟨some 1, 1⟩ hrun (by rw [hissued]; decide) hcancel _ t hmore
  rw [hs', ht] at hcount
  exact absurd hcount (by decide)

/-- A repeating timer cancels itself in its callback. -/
theorem cancel_effective_own_callback :
    ∃ s s', timerMachine.run (TimerState.make 1) sampleCallback = some s ∧
      timerMachine.next s (.cancelTimer ⟨some 0, 0⟩) = some s' ∧
      ∀ more t, timerMachine.run s' more = some t →
        t.fired.count ⟨some 0, 0⟩ = s'.fired.count ⟨some 0, 0⟩ := by
  have hstate : ((timerMachine.run (TimerState.make 1) sampleCallback).bind fun s =>
      (timerMachine.next s (.cancelTimer ⟨some 0, 0⟩)).map fun _ => (s.issued, s.phase)) =
      some ([⟨some 0, 0⟩, ⟨some 1, 1⟩], .firing 21 [⟨10, 0⟩, ⟨10, 1⟩] [⟨10, 1⟩]) := by
    decide +kernel
  obtain ⟨s, hrun, hstate⟩ := Option.bind_eq_some_iff.mp hstate
  obtain ⟨s', hcancel, hstate⟩ := Option.map_eq_some_iff.mp hstate
  obtain ⟨hissued, hphase⟩ := Prod.mk.inj hstate
  refine ⟨s, s', hrun, hcancel, ?_⟩
  refine (cancel_effective_iff 1 sampleCallback s s' ⟨some 0, 0⟩ hrun (by rw [hissued]; decide) hcancel).mpr ?_
  unfold NotWaiting
  rw [hphase]
  decide

end MylibMuduo.Proofs
