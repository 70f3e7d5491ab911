import MylibMuduo.Proofs.TimerFd

/-!
# Timers with a non-positive expiration

`reset` arms the timerfd only if the first expiration is positive, and `insert` arms it only for
an entry that is strictly the first. An entry with a non-positive expiration that a callback adds
behind another such entry is armed by neither of them, and the queue sleeps for ever if the
timerfd was read before. So it does if the sum of a restart overflows. In all other runs the timerfd
is set in time while there are timers, unless it was set for a time so far back that what is left
overflows.
-/

namespace MylibMuduo.Proofs

/-- In every run in which no callback adds a timer with a non-positive expiration behind the
first entry while the timerfd is not set, and no sum overflows: outside `handleRead`, while there are
timers, the timerfd has expired unread or is armed early enough for the first of them. -/
theorem timerfd_pending_of_armed_requests (clock : Int) (hclock : 0 < clock) (steps : List TimerStep)
    (s : TimerState) (e : Entry × Option Nat)
    (hok : timerMachine.Meets ArmedForRequest (TimerState.make clock) steps)
    (hrun : timerMachine.run (TimerState.make clock) steps = some s)
    (hmax : s.queue.clock ≤ kLLongMax) (hidle : s.phase = .idle)
    (hfirst : s.queue.timerList.first? = some e) :
    s.queue.timerFd.Due s.queue.clock ∨
      ArmedFor s.queue.timerFd s.queue.clock (e.1.expiration + s.queue.timerFd.late) := by
  have hinv := timerMachine.invariant_of_meets
    (I := fun s => TimerInv s ∧ 0 < s.queue.clock ∧ (s.queue.clock ≤ kLLongMax → FdInv s)) ?_
    ⟨timerInv_make clock, hclock, fun _ => fdInv_make clock⟩ hok hrun
  · exact (hinv.2.2 hmax).armed hidle hfirst
  · rintro s a s' ⟨hinv, hpos, hfd⟩ hok hnext
    have hlater := clock_le_of_next hinv hnext
    refine ⟨timerInv_step hinv hnext, Int.lt_of_lt_of_le hpos hlater, fun hmax => ?_⟩
    have hbefore := Int.le_trans hlater hmax
    exact fdInv_step (hfd hbefore) hinv hbefore (fun e _ => by omega) hok hnext

/-- One-shot timers that are due at once. -/
def sampleZero (sequence : Int) (h : sequence ≤ kLLongMax) : Timer := ⟨0, 0, false, sequence, h⟩

/-- A timer that is due at 0 fires, and its callback adds a timer that is due at 30 and, first in
the list, one that is due at -5. -/
def sampleEarlier : List TimerStep :=
  [.addTimer 0 (sampleZero 0 sampleRepeating.sequence_le), .tick 200, .handleRead, .runEntry,
   .addTimer 1 sampleLater, .addTimer 2 ⟨-5, 0, false, 3, sampleOverdue.sequence_le⟩, .handleReadEnd]

theorem timerfd_pending_of_armed_requests_earlier :
    ∃ s, timerMachine.run (TimerState.make 1) sampleEarlier = some s ∧
      s.queue.timerList.first? = some (⟨-5, 3⟩, some 2) ∧
      (s.queue.timerFd.Due s.queue.clock ∨
        ArmedFor s.queue.timerFd s.queue.clock (-5 + s.queue.timerFd.late)) := by
  have hend : (timerMachine.run (TimerState.make 1) sampleEarlier).map
      (fun s => (s.phase, s.queue.timerList.first?, s.queue.clock)) =
      some (.idle, some (⟨-5, 3⟩, some 2), 201) := by
    decide +kernel
  obtain ⟨s, hrun, hs⟩ := Option.map_eq_some_iff.mp hend
  simp only [Prod.mk.injEq] at hs
  obtain ⟨hidle, hfirst, hclock⟩ := hs
  have hok : timerMachine.Meets ArmedForRequest (TimerState.make 1) sampleEarlier := by
    decide +kernel
  exact ⟨s, hrun, hfirst, timerfd_pending_of_armed_requests 1 (by decide) sampleEarlier s _ hok hrun
    (by rw [hclock]; decide) hidle hfirst⟩

/-- A timer that is due at 0 fires, its callback adds another one, and a timer that is due at 30
is added later. -/
def sampleWedge : List TimerStep :=
  [.addTimer 0 (sampleZero 0 sampleRepeating.sequence_le), .tick 200, .handleRead, .runEntry,
   .addTimer 1 (sampleZero 1 sampleOneShot.sequence_le), .handleReadEnd, .addTimer 2 sampleLater]

/-- Two timers are in the list and the timerfd is not set. -/
theorem nonpositive_expiration_wedges :
    ¬∀ (clock : Int) (steps : List TimerStep) (s : TimerState), 0 < clock →
      timerMachine.run (TimerState.make clock) steps = some s → s.phase = .idle →
      s.queue.timerList.entries ≠ [] → Pending s.queue.timerFd := by
  intro hall
  have hend : (timerMachine.run (TimerState.make 1) sampleWedge).map
      (fun s => (s.phase, s.queue.timerList.entries, decide (Pending s.queue.timerFd))) =
      some (.idle, [(⟨0, 1⟩, some 1), (⟨30, 2⟩, some 2)], false) := by
    decide +kernel
  obtain ⟨s, hrun, hs⟩ := Option.map_eq_some_iff.mp hend
  simp only [Prod.mk.injEq, decide_eq_false_iff_not] at hs
  obtain ⟨hidle, hentries, hnot⟩ := hs
  exact hnot (hall 1 sampleWedge s (by decide) hrun hidle (by rw [hentries]; simp))

end MylibMuduo.Proofs
