import MylibMuduo.Proofs.TimerReset

/-!
# The timerfd

`timer_list_` and the kernel's timer meet at three places: an insertion before the first entry
arms the timer again, the end of `handleRead` arms it for the first entry that is left if that
expires after the epoch, and a cancellation leaves it alone. Between two calls of `handleRead` the
deadline is therefore never later than what `resetTimerFd` would ask for any entry of the list, as
long as the sums of `int64_t` do not overflow. What passes between the clock reading of
`resetTimerFd` and its `timerfd_settime` comes on top.
-/

namespace MylibMuduo.Proofs

/-- The timerfd was set and not read since: it is armed, or has expired unread. -/
def Pending (fd : TimerFd) : Prop := fd.consumed = false ∧ fd.armed ≠ none

instance (fd : TimerFd) : Decidable (Pending fd) := by
  unfold Pending
  infer_instance

/-- The last `timerfd_settime` has not been read, asked for a delay, and its deadline is early
enough for a timer that expires at `expiration`. -/
def Timely (fd : TimerFd) (expiration : Int) : Prop :=
  fd.consumed = false ∧ ∃ setAt deadline, fd.armed = some (setAt, deadline) ∧
    setAt < deadline ∧ deadline ≤ max (expiration + fd.late) (setAt + 100)

lemma Timely.mono {fd : TimerFd} {e f : Int} (h : Timely fd e) (hef : e ≤ f) : Timely fd f := by
  obtain ⟨hread, setAt, deadline, harmed, hdelay, hle⟩ := h
  exact ⟨hread, setAt, deadline, harmed, hdelay, by omega⟩

lemma Timely.pending {fd : TimerFd} {expiration : Int} (h : Timely fd expiration) : Pending fd := by
  obtain ⟨hread, setAt, deadline, harmed, -⟩ := h
  exact ⟨hread, by rw [harmed]; simp⟩

/-- The delay is what is left until the expiration, and at least 100 microseconds. -/
lemma howMuchTimeFromNow_total (expiration now : Int) :
    (howMuchTimeFromNow expiration now).sec * 1000000 +
      (howMuchTimeFromNow expiration now).nsec / 1000 = max (int64 (expiration - now)) 100 := by
  unfold howMuchTimeFromNow
  dsimp only
  split
  · omega
  · omega

lemma howMuchTimeFromNow_ne_zero (expiration now : Int) :
    ¬((howMuchTimeFromNow expiration now).sec = 0 ∧ (howMuchTimeFromNow expiration now).nsec = 0) := by
  intro hzero
  have htotal := howMuchTimeFromNow_total expiration now
  rw [hzero.1, hzero.2] at htotal
  omega

/-- The timerfd is armed in time if what is left until the expiration is an `int64_t`. -/
lemma resetTimerFd_timely (q : TimerQueue) {expiration : Int}
    (hfits : -2 ^ 63 ≤ expiration - (q.clock - q.lag)) :
    Timely (q.resetTimerFd expiration).timerFd expiration := by
  have htotal := howMuchTimeFromNow_total expiration (q.clock - q.lag)
  have hleft := int64_le hfits
  have hfd : (q.resetTimerFd expiration).timerFd =
      ⟨some (q.clock, q.clock + max (int64 (expiration - (q.clock - q.lag))) 100), q.lag, false⟩ := by
    unfold TimerQueue.resetTimerFd TimerFd.settime
    dsimp only
    rw [if_neg (howMuchTimeFromNow_ne_zero expiration _), Int.add_assoc, htotal]
  rw [hfd]
  refine ⟨rfl, q.clock, _, rfl, ?_, ?_⟩
  · omega
  · dsimp only
    omega

lemma earlyChanged_le {q : TimerQueue} {x : Int} (h : q.earlyChanged x = true) :
    ∀ e ∈ q.timerList.entries, x ≤ e.1.expiration := by
  intro e he
  unfold TimerQueue.earlyChanged at h
  split at h
  · next hnone =>
    rw [OrderedMap.first?_eq_none.mp hnone] at he
    simp at he
  · next f hfirst =>
    have hleast := OrderedMap.first?_least hfirst he
    rw [Entry.le_iff] at hleast
    rw [decide_eq_true_eq] at h
    omega

lemma le_of_not_earlyChanged {q : TimerQueue} {x : Int} (h : q.earlyChanged x ≠ true) :
    ∃ e ∈ q.timerList.entries, e.1.expiration ≤ x := by
  unfold TimerQueue.earlyChanged at h
  split at h
  · exact absurd rfl h
  · next f hfirst =>
    rw [ne_eq, decide_eq_true_eq, not_lt] at h
    exact ⟨f, OrderedMap.first?_mem hfirst, h⟩

/-! ### The timerfd in the loops of `reset` -/

lemma erase_timerFd {q : TimerQueue} (h : Indexed q) (id : TimerId) : (q.erase id).timerFd = q.timerFd := by
  rcases erase_cases h id with ⟨-, heq⟩ | ⟨k, a, -, -, heq⟩
  · rw [heq]
  · rw [heq]
    rfl

lemma eraseAll_timerFd {q : TimerQueue} (h : Indexed q) (ids : List TimerId) :
    (ids.foldl TimerQueue.erase q).timerFd = q.timerFd := by
  induction ids generalizing q with
  | nil => rfl
  | cons id ids ih => exact (ih (erase_step h id).1.indexed).trans (erase_timerFd h id)

lemma resetEntries_timerFd {q : TimerQueue} {now : Int} {expired : List Entry} (h : Indexed q)
    (hnodup : (expired.map Entry.sequence).Nodup)
    (hin : ∀ k ∈ expired, ∃ p, (k, p) ∈ q.timerList.entries) :
    (expired.foldl (fun q k => q.resetEntry now k) q).timerFd = q.timerFd := by
  induction expired generalizing q with
  | nil => rfl
  | cons k expired ih =>
    obtain ⟨hstep, ⟨p, hp⟩, hrest, -, hin'⟩ := batch_tail h hnodup hin
    obtain ⟨a, t, ha, ht, -, -⟩ := h.timers (k, p) hp
    change p = some a at ha
    subst ha
    refine (ih hstep.indexed hrest hin').trans ?_
    rw [resetEntry_eq h now hp ht]
    split <;> rfl

lemma resetTimers_timerFd {q : TimerQueue} {now : Int} {expired : List Entry} (h : Indexed q)
    (hnodup : (expired.map Entry.sequence).Nodup)
    (hin : ∀ k ∈ expired, ∃ p, (k, p) ∈ q.timerList.entries) :
    (resetTimers q expired now).timerFd = q.timerFd :=
  (eraseAll_timerFd (resetEntries_step now expired h hnodup hin).indexed _).trans
    (resetEntries_timerFd h hnodup hin)

/-- The timerfd is armed in time for every entry after it was armed for the first one. -/
lemma rearmed_timely {q : TimerQueue} (hclock : q.clock ≤ kLLongMax) {f : Entry × Option Nat}
    (hfirst : q.timerList.first? = some f) (hvalid : 0 < f.1.expiration) :
    ∀ e ∈ q.timerList.entries, Timely (rearmed q).timerFd e.1.expiration := by
  intro e he
  have hf : vaild f.1.expiration = true := decide_eq_true_eq.mpr hvalid
  have hleast := OrderedMap.first?_least hfirst he
  rw [Entry.le_iff] at hleast
  have harm : rearmed q = q.resetTimerFd f.1.expiration := by
    unfold rearmed
    rw [hfirst]
    exact if_pos hf
  unfold kLLongMax at hclock
  rw [harm]
  exact (resetTimerFd_timely q (by omega)).mono (by omega)

/-! ### Requests and restarts -/

/-- A requested expiration is valid. -/
def ValidRequest (_ : TimerState) : TimerStep → Prop
  | .addTimer _ t => vaild t.expiration = true
  | _ => True

instance (s : TimerState) (a : TimerStep) : Decidable (ValidRequest s a) := by
  unfold ValidRequest
  split
  · infer_instance
  · infer_instance

/-- The batch of a call of `handleRead`, with its time. -/
def batchOf : TimerPhase → Option (Int × List Entry)
  | .idle => none
  | .firing now expired _ => some (now, expired)

/-- The end of `handleRead` gives the timers that it restarts a valid expiration: for an interval
that is not negative, `addTime` does not overflow. -/
def RestartsValid (s : TimerState) : TimerStep → Prop
  | .handleReadEnd => ∀ b ∈ batchOf s.phase, ∀ e ∈ s.queue.timerList.entries, e.1 ∈ b.2 →
      ∀ t ∈ s.queue.deref e.2, t.isRepeat = true →
        (⟨e.2, e.1.sequence⟩ : TimerId) ∉ s.queue.cancelingTimerSet →
          vaild (addTime b.1 t.interval) = true
  | _ => True

instance (s : TimerState) (a : TimerStep) : Decidable (RestartsValid s a) := by
  unfold RestartsValid
  split
  · infer_instance
  · infer_instance

/-- A callback does not add a timer with a non-positive expiration behind the first entry while
the timerfd is not set, and a timer for which the timerfd is set does not lie further back than an
`int64_t` reaches. -/
def ArmedForRequest (s : TimerState) : TimerStep → Prop
  | .addTimer _ t => (s.phase = .idle ∨ 0 < t.expiration ∨ s.queue.earlyChanged t.expiration = true ∨
      Pending s.queue.timerFd) ∧
    (s.queue.earlyChanged t.expiration = true → -2 ^ 63 ≤ t.expiration - (s.queue.clock - s.queue.lag))
  | a => RestartsValid s a

instance (s : TimerState) (a : TimerStep) : Decidable (ArmedForRequest s a) := by
  unfold ArmedForRequest
  split
  · infer_instance
  · infer_instance

/-- An entry that `reset` leaves was there before and is not one of the batch, or is valid. -/
lemma entry_of_restartsValid {s : TimerState} (hinv : TimerInv s) (hok : RestartsValid s .handleReadEnd)
    {now : Int} {expired : List Entry} (hphase : s.phase = .firing now expired []) {e : Entry × Option Nat}
    (he : e ∈ (resetTimers (stopped s.queue) expired now).timerList.entries) :
    (e ∈ s.queue.timerList.entries ∧ e.1 ∉ expired) ∨ 0 < e.1.expiration := by
  obtain ⟨-, hin, hnodup, -⟩ := hinv.firing hphase
  have hindexed := stopped_indexed hinv.indexed
  have hstep := (resetTimers_step now expired hindexed hnodup hin).1
  obtain ⟨k, p⟩ := e
  obtain ⟨a, -, ha, -⟩ := hstep.indexed.timers (k, p) he
  change p = some a at ha
  subst ha
  obtain ⟨k₀, u, hold, -, hu, hcase⟩ := resetTimers_entry hindexed hnodup hin he
  rcases hcase with ⟨hnot, rfl, -⟩ | ⟨hexp, hrep, hkept, rfl, -⟩
  · exact Or.inl ⟨hold, hnot⟩
  · right
    have hbatch : (now, expired) ∈ batchOf s.phase := by
      rw [hphase]
      rfl
    have hpos : 0 < addTime now u.interval :=
      decide_eq_true_eq.mp (hok (now, expired) hbatch (k₀, some a) hold hexp u hu hrep hkept)
    rw [restartedKey, restart_repeat hrep]
    exact hpos

/-! ### The invariant -/

/-- Between two calls of `handleRead` the deadline is early enough for every entry. In a call it
is, or the timerfd has been read and only entries of the batch are not valid. -/
structure FdInv (s : TimerState) : Prop where
  idle : s.phase = .idle → ∀ e ∈ s.queue.timerList.entries, Timely s.queue.timerFd e.1.expiration
  firing : ∀ now expired rest, s.phase = .firing now expired rest →
    (∀ e ∈ s.queue.timerList.entries, Timely s.queue.timerFd e.1.expiration) ∨
      (¬Pending s.queue.timerFd ∧ ∀ e ∈ s.queue.timerList.entries, 0 < e.1.expiration ∨ e.1 ∈ expired)

/-- In any phase the deadline may be early enough for every entry. -/
lemma fdInv_of_timely {s : TimerState}
    (h : ∀ e ∈ s.queue.timerList.entries, Timely s.queue.timerFd e.1.expiration) : FdInv s :=
  ⟨fun _ => h, fun _ _ _ _ => Or.inl h⟩

/-- A step that leaves the phase and the timerfd alone and brings no entry. -/
lemma FdInv.of_subset {s s' : TimerState} (h : FdInv s) (hphase : s'.phase = s.phase)
    (hfd : s'.queue.timerFd = s.queue.timerFd)
    (hsub : ∀ e ∈ s'.queue.timerList.entries, e ∈ s.queue.timerList.entries) : FdInv s' := by
  constructor
  · intro hidle e he
    rw [hfd]
    exact h.idle (hphase ▸ hidle) e (hsub e he)
  · intro now expired rest hfiring
    rw [hfd]
    rcases h.firing now expired rest (hphase ▸ hfiring) with htimely | ⟨hread, hvalid⟩
    · exact Or.inl fun e he => htimely e (hsub e he)
    · exact Or.inr ⟨hread, fun e he => hvalid e (hsub e he)⟩

lemma mem_addTimer {s : TimerState} (hinv : TimerInv s) {a : Nat} {t : Timer} (ha : s.queue.heap a = none)
    (hseq : ∀ id ∈ s.issued, id.sequence ≠ t.sequence) {e : Entry × Option Nat}
    (he : e ∈ (s.queue.addTimer a t).timerList.entries) :
    e.1.expiration = t.expiration ∨ e ∈ s.queue.timerList.entries := by
  obtain ⟨fd, hfd⟩ := addTimer_added hinv.indexed ha (hinv.new_sequence hseq)
  rw [hfd] at he
  rcases OrderedMap.mem_insert.mp he with rfl | ⟨hold, -⟩
  · exact Or.inl rfl
  · exact Or.inr hold

lemma fdInv_addTimer {s : TimerState} {a : Nat} {t : Timer} {ids : List TimerId} (h : FdInv s)
    (hinv : TimerInv s) (ha : s.queue.heap a = none) (hseq : ∀ id ∈ s.issued, id.sequence ≠ t.sequence)
    (hok : ArmedForRequest s (.addTimer a t)) :
    FdInv { s with queue := s.queue.addTimer a t, issued := ids } := by
  have heq := addTimer_eq hinv.indexed ha (hinv.new_sequence hseq)
  by_cases hearly : s.queue.earlyChanged t.expiration = true
  · have hfd : Timely (s.queue.addTimer a t).timerFd t.expiration := by
      rw [heq, if_pos hearly]
      exact resetTimerFd_timely _ (hok.2 hearly)
    refine fdInv_of_timely fun e he => hfd.mono ?_
    rcases mem_addTimer hinv ha hseq he with hnew | hold
    · rw [hnew]
    · exact earlyChanged_le hearly e hold
  · have hfd : (s.queue.addTimer a t).timerFd = s.queue.timerFd := by
      rw [heq, if_neg hearly]
      rfl
    -- The new entry is behind one for which the deadline is early enough.
    have hmore : (∀ e ∈ s.queue.timerList.entries, Timely s.queue.timerFd e.1.expiration) →
        ∀ e ∈ (s.queue.addTimer a t).timerList.entries, Timely s.queue.timerFd e.1.expiration := by
      intro htimely e he
      rcases mem_addTimer hinv ha hseq he with hnew | hold
      · obtain ⟨f, hf, hle⟩ := le_of_not_earlyChanged hearly
        rw [hnew]
        exact (htimely f hf).mono hle
      · exact htimely e hold
    constructor
    · intro hidle
      dsimp only
      rw [hfd]
      exact hmore (h.idle hidle)
    · intro now expired rest hphase
      dsimp only
      rw [hfd]
      rcases h.firing now expired rest hphase with htimely | ⟨hread, hvalid⟩
      · exact Or.inl (hmore htimely)
      · refine Or.inr ⟨hread, fun e he => ?_⟩
        rcases mem_addTimer hinv ha hseq he with hnew | hold
        · rcases hok.1 with hidle | hpos | hfirst | hset
          · rw [hidle] at hphase
            cases hphase
          · exact Or.inl (hnew ▸ hpos)
          · exact absurd hfirst hearly
          · exact absurd hset hread
        · exact hvalid e hold

lemma cancelTimerInLoop_fd {q : TimerQueue} (h : Indexed q) (id : TimerId) :
    (q.cancelTimerInLoop id).timerFd = q.timerFd ∧
      ∀ e ∈ (q.cancelTimerInLoop id).timerList.entries, e ∈ q.timerList.entries := by
  rw [cancelTimerInLoop_eq h]
  split
  · exact ⟨rfl, fun _ he => he⟩
  · rcases erase_cases h id with ⟨-, heq⟩ | ⟨k, a, -, -, heq⟩
    · rw [heq]
      exact ⟨rfl, fun _ he => he⟩
    · rw [heq]
      exact ⟨rfl, fun _ he => (OrderedMap.mem_erase.mp he).1⟩

lemma fdInv_handleReadEnd {s : TimerState} {now : Int} {expired : List Entry} (h : FdInv s)
    (hinv : TimerInv s) (hclock : s.queue.clock ≤ kLLongMax) (hok : RestartsValid s .handleReadEnd)
    (hphase : s.phase = .firing now expired []) :
    FdInv { s with queue := s.queue.handleReadEnd expired now, phase := .idle } := by
  obtain ⟨-, hin, hnodup, -⟩ := hinv.firing hphase
  obtain ⟨hstep, -, hend⟩ := hinv.handleReadEnd hphase
  have hindexed := stopped_indexed hinv.indexed
  have hlist : (s.queue.handleReadEnd expired now).timerList =
      (resetTimers (stopped s.queue) expired now).timerList := by
    obtain ⟨fd, hfd⟩ := rearmed_eq (resetTimers (stopped s.queue) expired now)
    rw [hend, hfd]
  apply fdInv_of_timely
  dsimp only
  rw [hlist, hend]
  intro e he
  cases hfirst : (resetTimers (stopped s.queue) expired now).timerList.first? with
  | none =>
    rw [OrderedMap.first?_eq_none.mp hfirst] at he
    simp at he
  | some f =>
    by_cases hvalid : 0 < f.1.expiration
    · exact rearmed_timely (by rw [hstep.clock]; exact hclock) hfirst hvalid e he
    · -- The first entry is an old one, and the timerfd is as the callbacks have left it.
      have hsame : (rearmed (resetTimers (stopped s.queue) expired now)).timerFd = s.queue.timerFd := by
        unfold rearmed
        rw [hfirst]
        dsimp only
        rw [if_neg (by simpa [vaild] using hvalid), resetTimers_timerFd hindexed hnodup hin]
        rfl
      have hleast := OrderedMap.first?_least hfirst he
      rw [Entry.le_iff] at hleast
      rw [hsame]
      rcases entry_of_restartsValid hinv hok hphase (OrderedMap.first?_mem hfirst) with ⟨hold, hnot⟩ | hpos
      · rcases h.firing now expired [] hphase with htimely | ⟨-, hvalids⟩
        · exact (htimely f hold).mono (by omega)
        · rcases hvalids f hold with hpos | hexp
          · exact absurd hpos hvalid
          · exact absurd hexp hnot
      · exact absurd hpos hvalid

/-- `read` fails on a timerfd that is not due, and what it has read is not pending. -/
lemma not_pending_read {fd : TimerFd} {now : Int} (h : fd.Due now) : ¬Pending (fd.read now) := by
  unfold TimerFd.read
  rw [if_pos h]
  rintro ⟨hread, -⟩
  cases hread

theorem fdInv_step {s s' : TimerState} {a : TimerStep} (h : FdInv s) (hinv : TimerInv s)
    (hclock : s.queue.clock ≤ kLLongMax)
    (hdue : ∀ e ∈ s.queue.timerList.entries, 0 < e.1.expiration ∨ e.1.expiration ≤ s.queue.clock)
    (hok : ArmedForRequest s a) (hnext : timerMachine.next s a = some s') : FdInv s' := by
  cases timer_trans hinv hnext with
  | tick d => exact h.of_subset rfl rfl fun _ he => he
  | lag d => exact h.of_subset rfl rfl fun _ he => he
  | addTimer a t ha hseq => exact fdInv_addTimer h hinv ha hseq hok
  | cancelTimer id =>
    obtain ⟨hfd, hsub⟩ := cancelTimerInLoop_fd hinv.indexed id
    exact h.of_subset rfl hfd hsub
  | handleRead hphase =>
    refine ⟨fun hidle => by simp at hidle, ?_⟩
    intro now expired rest hfiring
    obtain ⟨rfl, rfl, -⟩ := TimerPhase.firing.inj hfiring
    by_cases hread : s.queue.timerFd.Due s.queue.clock
    · refine Or.inr ⟨not_pending_read hread, fun e he => ?_⟩
      exact (hdue e he).imp_right fun hle => (mem_expiredKeys hinv.indexed).mpr ⟨⟨e.2, he⟩, hle⟩
    · left
      dsimp only
      rw [TimerFd.read, if_neg hread]
      exact h.idle hphase
  | runEntry now expired k rest p hphase he =>
    refine ⟨fun hidle => by simp at hidle, ?_⟩
    intro now' expired' rest' hfiring
    obtain ⟨rfl, rfl, -⟩ := TimerPhase.firing.inj hfiring
    exact h.firing now expired (k :: rest) hphase
  | handleReadEnd now expired hphase => exact fdInv_handleReadEnd h hinv hclock hok hphase

lemma fdInv_make (clock : Int) : FdInv (TimerState.make clock) := by
  apply fdInv_of_timely
  intro e he
  simp [TimerState.make, TimerQueue.make, OrderedMap.empty] at he

/-- The timerfd runs, with a deadline that is at most `expiration` or 100 microseconds after the
last `timerfd_settime`. -/
def ArmedFor (fd : TimerFd) (now expiration : Int) : Prop :=
  fd.consumed = false ∧ ∃ setAt deadline, fd.armed = some (setAt, deadline) ∧ now < deadline ∧
    setAt < deadline ∧ deadline ≤ max expiration (setAt + 100)

lemma FdInv.armed {s : TimerState} (h : FdInv s) (hidle : s.phase = .idle) {e : Entry × Option Nat}
    (hfirst : s.queue.timerList.first? = some e) :
    s.queue.timerFd.Due s.queue.clock ∨
      ArmedFor s.queue.timerFd s.queue.clock (e.1.expiration + s.queue.timerFd.late) := by
  obtain ⟨hread, setAt, deadline, harmed, hdelay, hle⟩ := h.idle hidle e (OrderedMap.first?_mem hfirst)
  by_cases hdue : deadline ≤ s.queue.clock
  · left
    exact ⟨hread, (setAt, deadline), harmed, hdue⟩
  · right
    exact ⟨hread, setAt, deadline, harmed, by omega, hdelay, hle⟩

/-! ### Runs with valid requests -/

def ValidEntries (s : TimerState) : Prop := ∀ e ∈ s.queue.timerList.entries, 0 < e.1.expiration

/-- A requested expiration is valid, and so is that of a restarted timer. -/
def ValidExpirations (s : TimerState) (a : TimerStep) : Prop := ValidRequest s a ∧ RestartsValid s a

instance (s : TimerState) (a : TimerStep) : Decidable (ValidExpirations s a) :=
  inferInstanceAs (Decidable (_ ∧ _))

/-- The timerfd can be armed for a valid expiration. -/
lemma ValidExpirations.armed {s : TimerState} {a : TimerStep} (h : ValidExpirations s a)
    (hclock : s.queue.clock ≤ kLLongMax) : ArmedForRequest s a := by
  unfold kLLongMax at hclock
  cases a with
  | addTimer a t =>
    have hpos : 0 < t.expiration := decide_eq_true_eq.mp h.1
    exact ⟨Or.inr (Or.inl hpos), fun _ => by omega⟩
  | _ => exact h.2

lemma validEntries_step {s s' : TimerState} {a : TimerStep} (h : ValidEntries s) (hinv : TimerInv s)
    (hok : ValidExpirations s a) (hnext : timerMachine.next s a = some s') : ValidEntries s' := by
  cases timer_trans hinv hnext with
  | addTimer a t ha hseq =>
    intro e he
    rcases mem_addTimer hinv ha hseq he with hnew | hold
    · rw [hnew]
      exact decide_eq_true_eq.mp hok.1
    · exact h e hold
  | cancelTimer id => exact fun e he => h e ((cancelTimerInLoop_fd hinv.indexed id).2 e he)
  | handleReadEnd now expired hphase =>
    obtain ⟨-, -, hend⟩ := hinv.handleReadEnd hphase
    obtain ⟨fd, hfd⟩ := rearmed_eq (resetTimers (stopped s.queue) expired now)
    intro e he
    dsimp only at he
    rw [hend, hfd] at he
    rcases entry_of_restartsValid hinv hok.2 hphase he with ⟨hold, -⟩ | hpos
    · exact h e hold
    · exact hpos
  | _ => exact h

/-- In every run with valid expirations, outside `handleRead`, while there are timers: a read event
is due, or the timerfd is armed early enough for the first timer, later by what passed between the
two readings of the clock in the last `resetTimerFd`. -/
theorem timerfd_armed_for_first (clock : Int) (steps : List TimerStep) (s : TimerState)
    (e : Entry × Option Nat) (hok : timerMachine.Meets ValidExpirations (TimerState.make clock) steps)
    (hrun : timerMachine.run (TimerState.make clock) steps = some s)
    (hclock : s.queue.clock ≤ kLLongMax) (hidle : s.phase = .idle)
    (hfirst : s.queue.timerList.first? = some e) :
    s.queue.timerFd.Due s.queue.clock ∨
      ArmedFor s.queue.timerFd s.queue.clock (e.1.expiration + s.queue.timerFd.late) := by
  have hmake : ValidEntries (TimerState.make clock) := by
    intro e he
    simp [TimerState.make, TimerQueue.make, OrderedMap.empty] at he
  have hinv := timerMachine.invariant_of_meets
    (I := fun s => TimerInv s ∧ ValidEntries s ∧ (s.queue.clock ≤ kLLongMax → FdInv s)) ?_
    ⟨timerInv_make clock, hmake, fun _ => fdInv_make clock⟩ hok hrun
  · exact (hinv.2.2 hclock).armed hidle hfirst
  · rintro s a s' ⟨hinv, hvalid, hfd⟩ hok hnext
    refine ⟨timerInv_step hinv hnext, validEntries_step hvalid hinv hok hnext, fun hmax => ?_⟩
    have hbefore := Int.le_trans (clock_le_of_next hinv hnext) hmax
    exact fdInv_step (hfd hbefore) hinv hbefore (fun e he => Or.inl (hvalid e he)) (hok.armed hbefore) hnext

/-- The repeating timer fires at 21 and is due again at 26; its callback cancels the other
timer and adds one that is due at 30. -/
def sampleRearm : List TimerStep :=
  [.addTimer 0 sampleRepeating, .addTimer 1 sampleOneShot, .tick 20, .handleRead, .runEntry,
   .cancelTimer ⟨some 1, 1⟩, .addTimer 2 sampleLater, .runEntry, .handleReadEnd]

theorem timerfd_armed_for_first_rearm :
    ∃ s e, timerMachine.run (TimerState.make 1) sampleRearm = some s ∧
      s.queue.timerList.first? = some e ∧ e.1.expiration = 26 ∧
      (s.queue.timerFd.Due s.queue.clock ∨
        ArmedFor s.queue.timerFd s.queue.clock (e.1.expiration + s.queue.timerFd.late)) := by
  have hend : (timerMachine.run (TimerState.make 1) sampleRearm).map
      (fun s => (s.phase, s.queue.timerList.first?, s.queue.clock)) = some (.idle, some (⟨26, 0⟩, some 0), 21) := by
    decide +kernel
  obtain ⟨s, hrun, hs⟩ := Option.map_eq_some_iff.mp hend
  simp only [Prod.mk.injEq] at hs
  obtain ⟨hidle, hfirst, hclock⟩ := hs
  have hok : timerMachine.Meets ValidExpirations (TimerState.make 1) sampleRearm := by
    decide +kernel
  exact ⟨s, (⟨26, 0⟩, some 0), hrun, hfirst, rfl,
    timerfd_armed_for_first 1 sampleRearm s _ hok hrun (by rw [hclock]; decide) hidle hfirst⟩

/-- `resetTimerFd` reads the clock at 1 and sets the timerfd at 51, for a timer that is due at
1001. -/
def sampleDelayed : List TimerStep :=
  [.tick 50, .lag 50, .addTimer 0 ⟨1001, 0, false, 0, sampleRepeating.sequence_le⟩]

/-- A timer repeats after an interval of almost `LLONG_MAX` and fires once. -/
def sampleOverflow : List TimerStep :=
  [.addTimer 0 sampleHuge, .tick 200, .handleRead, .runEntry, .handleReadEnd]

/-- The timerfd is armed for a time after the expiration, and is not armed at all for a timer whose
next expiration has overflowed. -/
theorem timerfd_armed_late :
    (∃ s, timerMachine.Meets ValidRequest (TimerState.make 1) sampleDelayed ∧
      timerMachine.run (TimerState.make 1) sampleDelayed = some s ∧ s.phase = .idle ∧
      s.queue.timerList.first? = some (⟨1001, 0⟩, some 0) ∧
      ¬(s.queue.timerFd.Due s.queue.clock ∨ ArmedFor s.queue.timerFd s.queue.clock 1001)) ∧
    ∃ s, timerMachine.Meets ValidRequest (TimerState.make 2000) sampleOverflow ∧
      timerMachine.run (TimerState.make 2000) sampleOverflow = some s ∧ s.phase = .idle ∧
      s.queue.timerList.first? = some (⟨2200 + (2 ^ 63 - 1024) - 2 ^ 64, 0⟩, some 0) ∧
      ¬(s.queue.timerFd.Due s.queue.clock ∨
        ArmedFor s.queue.timerFd s.queue.clock (2200 + (2 ^ 63 - 1024) - 2 ^ 64)) := by
  constructor
  · have hend : (timerMachine.run (TimerState.make 1) sampleDelayed).map
        (fun s => (s.phase, s.queue.timerList.first?, s.queue.clock, s.queue.timerFd)) =
        some (.idle, some (⟨1001, 0⟩, some 0), 51, ⟨some (51, 1051), 50, false⟩) := by
      decide +kernel
    obtain ⟨s, hrun, hs⟩ := Option.map_eq_some_iff.mp hend
    simp only [Prod.mk.injEq] at hs
    obtain ⟨hidle, hfirst, hclock, hfd⟩ := hs
    refine ⟨s, by decide +kernel, hrun, hidle, hfirst, ?_⟩
    rw [hclock, hfd]
    rintro (⟨-, a, ha, hle⟩ | ⟨-, setAt, deadline, harmed, -, -, hle⟩)
    · obtain rfl := Option.some.inj ha
      omega
    · obtain ⟨rfl, rfl⟩ := Prod.mk.inj (Option.some.inj harmed)
      omega
  · have hend : (timerMachine.run (TimerState.make 2000) sampleOverflow).map
        (fun s => (s.phase, s.queue.timerList.first?, s.queue.timerFd.consumed)) =
        some (.idle, some (⟨2200 + (2 ^ 63 - 1024) - 2 ^ 64, 0⟩, some 0), true) := by
      decide +kernel
    obtain ⟨s, hrun, hs⟩ := Option.map_eq_some_iff.mp hend
    simp only [Prod.mk.injEq] at hs
    obtain ⟨hidle, hfirst, hread⟩ := hs
    refine ⟨s, by decide +kernel, hrun, hidle, hfirst, ?_⟩
    rintro (⟨hunread, -⟩ | ⟨hunread, -⟩)
    · rw [hread] at hunread
      cases hunread
    · rw [hread] at hunread
      cases hunread

end MylibMuduo.Proofs
