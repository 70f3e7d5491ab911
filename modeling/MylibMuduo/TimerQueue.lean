import Mathlib.Algebra.Group.Int.Defs
import Mathlib.Algebra.Group.Nat.Defs
import Mathlib.Data.Prod.Lex
import MylibMuduo.Lib.Machine
import MylibMuduo.Lib.OrderedMap

/-!
# TimerQueue

The functions of `TimerQueue.cc` and `Timer.cc` on the loop thread, with the timers on a heap,
the kernel's side of the timerfd and the monotonic clock. Times are whole microseconds. An
`assert` that fails and a dereference of a null or dangling pointer are recorded. The callbacks
of the timers are the environment's: they add and cancel timers by steps of their own.
-/

namespace MylibMuduo

/-- `LLONG_MAX`. -/
def kLLongMax : Int := 2 ^ 63 - 1

/-- The value of `n` as an `int64_t`. -/
def int64 (n : Int) : Int := Int.bmod n (2 ^ 64)

lemma int64_le {n : Int} (h : -2 ^ 63 ≤ n) : int64 n ≤ n := by
  unfold int64
  rw [Int.bmod_def]
  split
  · omega
  · omega

lemma le_int64 {n : Int} (h : n ≤ kLLongMax) : n ≤ int64 n := by
  unfold kLLongMax at h
  unfold int64
  rw [Int.bmod_def]
  split
  · omega
  · omega

lemma int64_of_fits {n : Int} (h : -2 ^ 63 ≤ n) (h' : n ≤ kLLongMax) : int64 n = n :=
  Int.le_antisymm (int64_le h) (le_int64 h')

/-- `MonotonicTimestamp::vaild`. -/
def vaild (t : Int) : Bool := decide (0 < t)

/-- A timer; `interval` is the interval in whole microseconds, as `addTime` takes it. -/
structure Timer where
  expiration : Int
  interval : Int
  isRepeat : Bool
  sequence : Int
  sequence_le : sequence ≤ kLLongMax
  deriving DecidableEq

/-- `addTime` of a time and an interval in whole microseconds. -/
def addTime (t interval : Int) : Int := int64 (t + interval)

/-- `Timer::restart`. -/
def Timer.restart (t : Timer) (now : Int) : Timer :=
  if t.isRepeat then { t with expiration := addTime now t.interval } else { t with expiration := 0 }

/-- The keys of `timer_list_`. -/
@[ext] structure Entry where
  expiration : Int
  sequence : Int
  deriving DecidableEq, Repr

namespace Entry

def toPair (e : Entry) : Int ×ₗ Int := toLex (e.expiration, e.sequence)

lemma toPair_injective : Function.Injective toPair := by
  intro a b h
  have hpair := Prod.mk.inj (toLex_inj.mp h)
  exact Entry.ext hpair.1 hpair.2

/-- The order of `std::pair`. -/
instance : LinearOrder Entry := LinearOrder.lift' toPair toPair_injective

lemma le_iff (a b : Entry) :
    a ≤ b ↔ a.expiration < b.expiration ∨ (a.expiration = b.expiration ∧ a.sequence ≤ b.sequence) :=
  Prod.Lex.toLex_le_toLex

lemma lt_iff (a b : Entry) :
    a < b ↔ a.expiration < b.expiration ∨ (a.expiration = b.expiration ∧ a.sequence < b.sequence) :=
  Prod.Lex.toLex_lt_toLex

end Entry

/-- A pointer to a timer with the timer's number, as in `ActiveTimer` and `TimerId`. -/
structure TimerId where
  timer : Option Nat
  sequence : Int
  deriving DecidableEq, Repr

/-- `TimerId::TimerId()`. -/
def TimerId.default : TimerId := ⟨none, 0⟩

/-- The relative time of `struct itimerspec`. -/
structure Timespec where
  sec : Int
  nsec : Int
  deriving DecidableEq, Repr

/-- `howMuchTimeFromNow` at the clock reading `now`. -/
def howMuchTimeFromNow (expiration now : Int) : Timespec :=
  let left := int64 (expiration - now)
  let microseconds := if left < 100 then 100 else left
  ⟨microseconds / 1000000, microseconds % 1000000 * 1000⟩

/-- The kernel's timer: the time of the last `timerfd_settime` with the deadline that it set, how
old the clock reading was then from which the delay was computed, and whether the expiration has
been read since. -/
structure TimerFd where
  armed : Option (Int × Int)
  late : Nat
  consumed : Bool
  deriving DecidableEq, Repr

namespace TimerFd

/-- `timerfd_settime` at the time `now`, with a delay from a clock reading that is `late` old; a
zero delay disarms the timer. -/
def settime (now : Int) (late : Nat) (delay : Timespec) : TimerFd :=
  if delay.sec = 0 ∧ delay.nsec = 0 then ⟨none, late, false⟩
  else ⟨some (now, now + delay.sec * 1000000 + delay.nsec / 1000), late, false⟩

/-- The deadline has passed and has not been read: the descriptor is readable. -/
def Due (fd : TimerFd) (now : Int) : Prop :=
  fd.consumed = false ∧ ∃ a ∈ fd.armed, a.2 ≤ now

instance (fd : TimerFd) (now : Int) : Decidable (fd.Due now) := by
  unfold Due
  infer_instance

/-- `read` of the timerfd at the time `now`; it fails if the timer is not due. -/
def read (fd : TimerFd) (now : Int) : TimerFd := if fd.Due now then { fd with consumed := true } else fd

end TimerFd

/-- `lag` is the time that `resetTimerFd` takes from its reading of the clock to its
`timerfd_settime`. -/
structure TimerQueue where
  clock : Int
  lag : Nat
  heap : Nat → Option Timer
  timerList : OrderedMap Entry (Option Nat)
  activeTimerSet : List TimerId
  cancelingTimerSet : List TimerId
  isRunningCallback : Bool
  timerFd : TimerFd
  assertsHold : Bool
  pointersValid : Bool

namespace TimerQueue

variable (q : TimerQueue)

/-- `TimerQueue::TimerQueue`. -/
def make (clock : Int) : TimerQueue where
  clock := clock
  lag := 0
  heap := fun _ => none
  timerList := OrderedMap.empty
  activeTimerSet := []
  cancelingTimerSet := []
  isRunningCallback := false
  timerFd := ⟨none, 0, false⟩
  assertsHold := true
  pointersValid := true

def assert (b : Bool) : TimerQueue := { q with assertsHold := q.assertsHold && b }

/-- `assert(timer_list_.size()==active_timer_set_.size())`. -/
def assertSizes : TimerQueue := q.assert (decide (q.timerList.size = q.activeTimerSet.length))

/-- A dereference of a null or dangling pointer. -/
def badPointer : TimerQueue := { q with pointersValid := false }

/-- The timer behind a pointer. -/
def deref : Option Nat → Option Timer
  | some a => q.heap a
  | none => none

/-- The destructor of a `unique_ptr`. -/
def free : Option Nat → TimerQueue
  | some a => { q with heap := Function.update q.heap a none }
  | none => q

/-- `timer_list_[entry]` as a value: a missing entry is inserted with a null pointer. -/
def lookup (entry : Entry) : Option Nat × TimerQueue :=
  match q.timerList.find? entry with
  | some p => (p, q)
  | none => (none, { q with timerList := q.timerList.insert entry none })

/-- `timer_list_[entry]=std::move(p)`, which destroys the timer that was there. -/
def assign (entry : Entry) (p : Option Nat) : TimerQueue :=
  let q₁ := q.free ((q.timerList.find? entry).getD none)
  { q₁ with timerList := q₁.timerList.insert entry p }

/-- `timer_list_.erase(entry)`. -/
def eraseEntry (entry : Entry) : TimerQueue :=
  let q₁ := q.free ((q.timerList.find? entry).getD none)
  { q₁ with timerList := q₁.timerList.erase entry }

/-- `resetTimerFd`. The clock that it has read was behind when `timerfd_settime` starts the delay. -/
def resetTimerFd (expiration : Int) : TimerQueue :=
  { q with timerFd := TimerFd.settime q.clock q.lag (howMuchTimeFromNow expiration (q.clock - q.lag)) }

def readTimerFd : TimerQueue := { q with timerFd := q.timerFd.read q.clock }

/-- `active_timer_set_.emplace` with the assertion that it succeeds. -/
def emplaceActive (id : TimerId) : TimerQueue :=
  let q₁ := { q with activeTimerSet := q.activeTimerSet.insert id }
  q₁.assert (decide (id ∉ q.activeTimerSet))

/-- Whether a new timer would be the first one. -/
def earlyChanged (expiration : Int) : Bool :=
  match q.timerList.first? with
  | none => true
  | some e => decide (expiration < e.1.expiration)

/-- `TimerQueue::insert` of the timer `t` at the address `a`. -/
def insert (a : Nat) (t : Timer) : Bool × TimerQueue :=
  let q₁ := q.assertSizes
  let early := q₁.earlyChanged t.expiration
  let q₂ := q₁.assign ⟨t.expiration, t.sequence⟩ (some a)
  (early, (q₂.emplaceActive ⟨some a, t.sequence⟩).assertSizes)

/-- `TimerQueue::erase`. -/
def erase (id : TimerId) : TimerQueue :=
  if id ∈ q.activeTimerSet then
    match q.deref id.timer with
    | some t =>
      let q₁ := { q with activeTimerSet := q.activeTimerSet.erase id }
      q₁.eraseEntry ⟨t.expiration, t.sequence⟩
    | none => q.badPointer
  else q

/-- `TimerQueue::addTimerInLoop` for the timer at the address `a`. -/
def addTimerInLoop (a : Nat) (t : Timer) : TimerQueue :=
  let r := q.insert a t
  if r.1 then r.2.resetTimerFd t.expiration else r.2

/-- `TimerQueue::addTimer` on the loop thread: `new` returns the address `a`. -/
def addTimer (a : Nat) (t : Timer) : TimerQueue :=
  { q with heap := Function.update q.heap a (some t) }.addTimerInLoop a t

/-- `TimerQueue::cancelTimerInLoop`. -/
def cancelTimerInLoop (id : TimerId) : TimerQueue :=
  let q₁ := q.assertSizes
  let q₂ := if q₁.isRunningCallback then
    { q₁ with cancelingTimerSet := q₁.cancelingTimerSet.insert id } else q₁.erase id
  q₂.assertSizes

/-- `end == timer_list_.end()|| end->second->expiration()>now`. -/
def endBeyond (now : Int) : Bool :=
  match q.timerList.upperBound ⟨now, kLLongMax⟩ with
  | none => true
  | some e =>
    match q.deref e.2 with
    | some t => decide (now < t.expiration)
    | none => false

/-- `TimerQueue::getExpiredTimers`. -/
def getExpiredTimers (now : Int) : List Entry × TimerQueue :=
  let q₁ := q.assertSizes
  ((q₁.timerList.upTo ⟨now, kLLongMax⟩).map Prod.fst, q₁.assert (q₁.endBeyond now))

/-- The part of `TimerQueue::handleRead` before the callbacks. -/
def handleReadBegin : List Entry × TimerQueue :=
  let r := (q.assertSizes.readTimerFd).getExpiredTimers q.clock
  (r.1, { r.2 with isRunningCallback := true })

/-- `timer_list_[entry]->run()`, with the timer whose callback it invokes. -/
def runEntry (entry : Entry) : Option TimerId × TimerQueue :=
  let r := q.lookup entry
  match r.2.deref r.1 with
  | some t => (some ⟨r.1, t.sequence⟩, r.2)
  | none => (none, r.2.badPointer)

/-- The body of the first loop of `TimerQueue::reset`. -/
def resetEntry (now : Int) (entry : Entry) : TimerQueue :=
  let r := q.lookup entry
  let ac : TimerId := ⟨r.1, entry.sequence⟩
  match r.1, r.2.deref r.1 with
  | some a, some t =>
    if t.isRepeat ∧ ac ∉ r.2.cancelingTimerSet then
      let t' := t.restart now
      -- The pointer is moved out, so that erasing the entry destroys nothing.
      let q₁ := { r.2 with
        heap := Function.update r.2.heap a (some t')
        timerList := (r.2.timerList.insert entry none).erase entry }
      q₁.assign ⟨t'.expiration, entry.sequence⟩ (some a)
    else
      let q₁ := r.2.erase ac
      { q₁ with cancelingTimerSet := q₁.cancelingTimerSet.erase ac }
  | _, _ => r.2.badPointer

/-- `TimerQueue::reset`. -/
def reset (expired : List Entry) (now : Int) : TimerQueue :=
  let q₁ := expired.foldl (fun q entry => q.resetEntry now entry) q
  let q₂ := q₁.cancelingTimerSet.foldl erase q₁
  let q₃ := { q₂ with cancelingTimerSet := [] }
  match q₃.timerList.first? with
  | some e => if vaild e.1.expiration then q₃.resetTimerFd e.1.expiration else q₃
  | none => q₃

/-- The part of `TimerQueue::handleRead` after the callbacks. -/
def handleReadEnd (expired : List Entry) (now : Int) : TimerQueue :=
  ({ q with isRunningCallback := false }.reset expired now).assertSizes

end TimerQueue

/-- Outside `handleRead`, or in its callbacks: `rest` are the entries of the batch `expired`
whose callback has not started. -/
inductive TimerPhase where
  | idle
  | firing (now : Int) (expired rest : List Entry)
  deriving DecidableEq, Repr

/-- The queue with the timers that `addTimer` has returned and the callbacks invoked so far. -/
structure TimerState where
  queue : TimerQueue
  phase : TimerPhase
  issued : List TimerId
  fired : List TimerId

inductive TimerStep where
  | tick (d : Nat)
  | lag (d : Nat)
  | addTimer (a : Nat) (t : Timer)
  | cancelTimer (id : TimerId)
  | handleRead
  | runEntry
  | handleReadEnd
  deriving DecidableEq

namespace TimerState

/-- A new queue at the clock reading `clock`. -/
def make (clock : Int) : TimerState := ⟨TimerQueue.make clock, .idle, [], []⟩

/-- User code runs: outside `handleRead`, or in a callback of the batch. -/
def InUserCode (s : TimerState) : Prop :=
  match s.phase with
  | .idle => True
  | .firing _ expired rest => rest.length < expired.length

instance (s : TimerState) : Decidable s.InUserCode := by
  unfold InUserCode
  split
  · infer_instance
  · infer_instance

end TimerState

/-- The runs of one queue on its loop thread. `new` returns an address that is not in use,
and numbers are given once. A step stands at the time of its `timerfd_settime`, if it has one. -/
def timerMachine : Machine TimerState TimerStep where
  next s
    | .tick d => some { s with queue := { s.queue with clock := s.queue.clock + d } }
    | .lag d => some { s with queue := { s.queue with lag := d } }
    | .addTimer a t =>
      if s.InUserCode ∧ s.queue.heap a = none ∧ ∀ id ∈ s.issued, id.sequence ≠ t.sequence then
        some { s with
          queue := s.queue.addTimer a t
          issued := s.issued ++ [⟨some a, t.sequence⟩] }
      else none
    | .cancelTimer id =>
      if s.InUserCode then some { s with queue := s.queue.cancelTimerInLoop id } else none
    | .handleRead =>
      match s.phase with
      | .idle =>
        let r := s.queue.handleReadBegin
        some { s with queue := r.2, phase := .firing s.queue.clock r.1 r.1 }
      | _ => none
    | .runEntry =>
      match s.phase with
      | .firing now expired (entry :: rest) =>
        let r := s.queue.runEntry entry
        some { s with
          queue := r.2
          phase := .firing now expired rest
          fired := s.fired ++ r.1.toList }
      | _ => none
    | .handleReadEnd =>
      match s.phase with
      | .firing now expired [] =>
        some { s with queue := s.queue.handleReadEnd expired now, phase := .idle }
      | _ => none

end MylibMuduo
