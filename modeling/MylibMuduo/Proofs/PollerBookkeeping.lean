import MylibMuduo.Lib.Machine
import MylibMuduo.Proofs.Registration

/-!
# The poller and the kernel's interest set

Any number of channels with different descriptors share one poller. An operation on one of
them keeps `Bookkept` for that channel and touches no other descriptor, so it holds for all
channels after any sequence of operations. It says which `epoll_ctl` call the next operation
makes on which state of the kernel, and none of these calls fails.
-/

namespace MylibMuduo

/-- The operations of a channel that reach the poller. -/
inductive ChannelCall where
  | enableReading | disableReading | enableWriting | disableWriting | disableAll | remove
  deriving DecidableEq, Repr

/-- The `epoll_ctl` call that `EPollPoller::updateChannel` makes. -/
def Channel.updateCtl (ch : Channel) : Option EpollOp :=
  match ch.index with
  | .kAdd => if ch.isNoneEvent then some .del else some .mod
  | _ => if ch.isNoneEvent then none else some .add

/-- The `epoll_ctl` call that `EPollPoller::removeChannel` makes. -/
def Channel.removeCtl (ch : Channel) : Option EpollOp :=
  match ch.index with
  | .kAdd => some .del
  | _ => none

/-- `epoll_ctl` fails: an add of a present descriptor, a change or removal of an absent one. -/
def EPollPoller.CtlFails {κ : Type} (p : EPollPoller κ) (fd : Nat) : EpollOp → Prop
  | .add => (p.interest fd).isSome
  | .mod => p.interest fd = none
  | .del => p.interest fd = none

namespace ChannelCall

/-- The mask after the operation. -/
def events (e : EventMask) : ChannelCall → EventMask
  | .enableReading => { e with epollin := true, epollpri := true }
  | .disableReading => { e with epollin := false, epollpri := false }
  | .enableWriting => { e with epollout := true }
  | .disableWriting => { e with epollout := false }
  | .disableAll => kNoneEvent
  | .remove => e

def apply {κ : Type} (p : EPollPoller κ) (key : κ) (ch : Channel) : ChannelCall → EPollPoller κ × Channel
  | .enableReading => ch.enableReading p key
  | .disableReading => ch.disableReading p key
  | .enableWriting => ch.enableWriting p key
  | .disableWriting => ch.disableWriting p key
  | .disableAll => ch.disableAll p key
  | .remove => ch.remove p key

/-- The `epoll_ctl` call that the operation makes. -/
def ctl (ch : Channel) : ChannelCall → Option EpollOp
  | .remove => ch.removeCtl
  | c => Channel.updateCtl { ch with events := c.events ch.events }

end ChannelCall

structure PollerState (κ : Type) where
  poller : EPollPoller κ
  channels : κ → Channel

/-- The channels are new, and none is known to the poller. -/
def PollerState.make {κ : Type} (fd : κ → Nat) : PollerState κ := ⟨EPollPoller.empty, fun k => Channel.make (fd k)⟩

/-- Any operation on any of the channels. -/
def pollerMachine (κ : Type) [DecidableEq κ] : Machine (PollerState κ) (κ × ChannelCall) where
  next s a :=
    let r := a.2.apply s.poller a.1 (s.channels a.1)
    some ⟨r.1, Function.update s.channels a.1 r.2⟩

namespace Proofs

variable {κ : Type}

/-- `updateChannel` enters a new channel into the map and makes the call. -/
lemma updateChannel_ctl (p : EPollPoller κ) (key : κ) (ch : Channel) :
    (p.updateChannel key ch).1 = match ch.updateCtl with
      | none => p
      | some op => (if ch.index = .kNew then
          { p with channels := Function.update p.channels ch.fd (some key) } else p).update op key ch := by
  unfold EPollPoller.updateChannel Channel.updateCtl
  cases hindex : ch.index with
  | kNew =>
    cases ch.isNoneEvent with
    | true => rfl
    | false => rfl
  | kAdd =>
    cases ch.isNoneEvent with
    | true => rfl
    | false => rfl
  | kDelete =>
    cases ch.isNoneEvent with
    | true => rfl
    | false => rfl

/-- `removeChannel` takes a known channel out of the map and makes the call. -/
lemma removeChannel_ctl (p : EPollPoller κ) (key : κ) (ch : Channel) :
    (p.removeChannel key ch).1 =
      let p₁ := if ch.index = .kNew then p else { p with channels := Function.update p.channels ch.fd none }
      match ch.removeCtl with
      | none => p₁
      | some op => p₁.update op key ch := by
  unfold EPollPoller.removeChannel Channel.removeCtl
  cases hindex : ch.index with
  | kNew => rfl
  | kAdd => rfl
  | kDelete => rfl

/-- The operation acts on the kernel's set by the one call that `ctl` names, and this call succeeds. -/
structure CtlMade (p : EPollPoller κ) (key : κ) (ch : Channel) (c : ChannelCall) : Prop where
  call : ∀ op, c.ctl ch = some op → ∃ p₁ : EPollPoller κ, p₁.interest = p.interest ∧ ¬p₁.CtlFails ch.fd op ∧
    (c.apply p key ch).1 = p₁.update op key { ch with events := c.events ch.events }
  silent : c.ctl ch = none → (c.apply p key ch).1.interest = p.interest

lemma ctlFails_congr {p q : EPollPoller κ} (h : q.interest = p.interest) (fd : Nat) (op : EpollOp) :
    q.CtlFails fd op ↔ p.CtlFails fd op := by
  cases op <;> simp only [EPollPoller.CtlFails, h]

lemma updateCtl_succeeds {p : EPollPoller κ} {key : κ} {ch : Channel} (e : EventMask) (h : Bookkept p key ch)
    {op : EpollOp} (hop : Channel.updateCtl { ch with events := e } = some op) : ¬p.CtlFails ch.fd op := by
  have hint := h.interest
  unfold Channel.updateCtl at hop
  cases hindex : ch.index with
  | kAdd =>
    rw [hindex, if_pos rfl] at hint
    simp only [hindex] at hop
    split at hop
    · rw [← Option.some.inj hop]
      simp [EPollPoller.CtlFails, hint]
    · rw [← Option.some.inj hop]
      simp [EPollPoller.CtlFails, hint]
  | kNew =>
    rw [hindex, if_neg (by simp)] at hint
    simp only [hindex] at hop
    split at hop
    · simp at hop
    · rw [← Option.some.inj hop]
      simp [EPollPoller.CtlFails, hint]
  | kDelete =>
    rw [hindex, if_neg (by simp)] at hint
    simp only [hindex] at hop
    split at hop
    · simp at hop
    · rw [← Option.some.inj hop]
      simp [EPollPoller.CtlFails, hint]

lemma removeCtl_succeeds {p : EPollPoller κ} {key : κ} {ch : Channel} (h : Bookkept p key ch) {op : EpollOp}
    (hop : ch.removeCtl = some op) : ¬p.CtlFails ch.fd op := by
  unfold Channel.removeCtl at hop
  split at hop
  · next hindex =>
    have hint := h.interest
    rw [hindex, if_pos rfl] at hint
    rw [← Option.some.inj hop]
    simp [EPollPoller.CtlFails, hint]
  · simp at hop

lemma updateCtl_made {p : EPollPoller κ} {key : κ} {ch : Channel} (e : EventMask) (h : Bookkept p key ch) :
    (∀ op, Channel.updateCtl { ch with events := e } = some op → ∃ p₁ : EPollPoller κ,
      p₁.interest = p.interest ∧ ¬p₁.CtlFails ch.fd op ∧
      (p.updateChannel key { ch with events := e }).1 = p₁.update op key { ch with events := e }) ∧
    (Channel.updateCtl { ch with events := e } = none →
      (p.updateChannel key { ch with events := e }).1.interest = p.interest) := by
  have hctl := updateChannel_ctl p key { ch with events := e }
  constructor
  · intro op hop
    rw [hop] at hctl
    refine ⟨_, ?_, ?_, hctl⟩
    · split
      · rfl
      · rfl
    · rw [ctlFails_congr (p := p) (by split <;> rfl)]
      exact updateCtl_succeeds e h hop
  · intro hop
    rw [hop] at hctl
    rw [hctl]

lemma removeCtl_made {p : EPollPoller κ} {key : κ} {ch : Channel} (h : Bookkept p key ch) :
    (∀ op, ch.removeCtl = some op → ∃ p₁ : EPollPoller κ,
      p₁.interest = p.interest ∧ ¬p₁.CtlFails ch.fd op ∧ (p.removeChannel key ch).1 = p₁.update op key ch) ∧
    (ch.removeCtl = none → (p.removeChannel key ch).1.interest = p.interest) := by
  have hctl := removeChannel_ctl p key ch
  constructor
  · intro op hop
    rw [hop] at hctl
    refine ⟨_, ?_, ?_, hctl⟩
    · split
      · rfl
      · rfl
    · rw [ctlFails_congr (p := p) (by split <;> rfl)]
      exact removeCtl_succeeds h hop
  · intro hop
    rw [hop] at hctl
    rw [hctl]
    dsimp only
    split
    · rfl
    · rfl

lemma ctl_made {p : EPollPoller κ} {key : κ} {ch : Channel} (h : Bookkept p key ch) (c : ChannelCall) :
    CtlMade p key ch c := by
  cases c with
  | remove => exact ⟨(removeCtl_made h).1, (removeCtl_made h).2⟩
  | enableReading => exact ⟨(updateCtl_made _ h).1, (updateCtl_made _ h).2⟩
  | disableReading => exact ⟨(updateCtl_made _ h).1, (updateCtl_made _ h).2⟩
  | enableWriting => exact ⟨(updateCtl_made _ h).1, (updateCtl_made _ h).2⟩
  | disableWriting => exact ⟨(updateCtl_made _ h).1, (updateCtl_made _ h).2⟩
  | disableAll => exact ⟨(updateCtl_made _ h).1, (updateCtl_made _ h).2⟩

lemma CtlMade.succeeds {p : EPollPoller κ} {key : κ} {ch : Channel} {c : ChannelCall} (h : CtlMade p key ch c)
    {op : EpollOp} (hop : c.ctl ch = some op) : ¬p.CtlFails ch.fd op := by
  obtain ⟨p₁, hinterest, hsucceeds, -⟩ := h.call op hop
  exact fun hfails => hsucceeds ((ctlFails_congr hinterest _ _).mpr hfails)

lemma apply_bookkept {p : EPollPoller κ} {key : κ} {ch : Channel} (h : Bookkept p key ch) (c : ChannelCall) :
    (c.apply p key ch).2.fd = ch.fd ∧ Bookkept (c.apply p key ch).1 key (c.apply p key ch).2 ∧
      SameElsewhere ch.fd p (c.apply p key ch).1 := by
  have hupdate : ∀ e, (p.updateChannel key { ch with events := e }).2.fd = ch.fd ∧
      Bookkept (p.updateChannel key { ch with events := e }).1 key
        (p.updateChannel key { ch with events := e }).2 ∧
      SameElsewhere ch.fd p (p.updateChannel key { ch with events := e }).1 := by
    intro e
    obtain ⟨hch, hbook, hsame⟩ := updateChannel_spec p key ch e h
    refine ⟨?_, hbook, hsame⟩
    rw [hch]
  cases c with
  | remove =>
    obtain ⟨hch, hbook, hsame⟩ := removeChannel_spec p key ch h
    refine ⟨?_, hbook, hsame⟩
    change (p.removeChannel key ch).2.fd = ch.fd
    rw [hch]
  | enableReading => exact hupdate _
  | disableReading => exact hupdate _
  | enableWriting => exact hupdate _
  | disableWriting => exact hupdate _
  | disableAll => exact hupdate _

/-- Every channel has its descriptor and is bookkept, and the process has not exited. -/
structure AllBookkept (fd : κ → Nat) (s : PollerState κ) : Prop where
  fds : ∀ k, (s.channels k).fd = fd k
  book : ∀ k, Bookkept s.poller k (s.channels k)
  running : s.poller.exited = false

lemma allBookkept_make (fd : κ → Nat) : AllBookkept fd (PollerState.make fd) :=
  ⟨fun _ => rfl, fun k => bookkept_make _ k (fd k) rfl rfl, rfl⟩

theorem allBookkept_step [DecidableEq κ] {fd : κ → Nat} (hfd : Function.Injective fd) {s s' : PollerState κ}
    {a : κ × ChannelCall} (h : AllBookkept fd s) (hnext : (pollerMachine κ).next s a = some s') :
    AllBookkept fd s' := by
  obtain ⟨k, c⟩ := a
  obtain ⟨hkeep, hbook, hexited, hsame⟩ := apply_bookkept (h.book k) c
  simp only [pollerMachine, Option.some.injEq] at hnext
  subst hnext
  refine ⟨?_, ?_, hexited.trans h.running⟩
  · intro j
    by_cases hj : j = k
    · subst hj
      simpa using hkeep.trans (h.fds j)
    · simpa [hj] using h.fds j
  · intro j
    by_cases hj : j = k
    · subst hj
      simpa using hbook
    · have hne : (s.channels j).fd ≠ (s.channels k).fd := by
        rw [h.fds j, h.fds k]
        exact fun heq => hj (hfd heq)
      obtain ⟨hchannels, hinterest⟩ := hsame _ hne
      have hj' := h.book j
      simp only [Function.update_of_ne hj]
      exact ⟨hchannels.trans hj'.channels, hinterest.trans hj'.interest, hj'.added, hj'.suspended⟩

/-- What the index of a channel says about the map, the kernel's set and the mask. -/
structure Mirrored (p : EPollPoller κ) (key : κ) (ch : Channel) : Prop where
  new_iff : ch.index = .kNew ↔ ¬p.HasChannel key ch
  add_iff : ch.index = .kAdd ↔ (p.interest ch.fd).isSome = true
  mask : ch.index = .kAdd → p.interest ch.fd = some (ch.events, key) ∧ ch.events ≠ kNoneEvent
  delete_iff : ch.index = .kDelete ↔ p.HasChannel key ch ∧ p.interest ch.fd = none
  suspended : ch.index = .kDelete → ch.events = kNoneEvent

lemma Bookkept.mirrored {p : EPollPoller κ} {key : κ} {ch : Channel} (h : Bookkept p key ch) :
    Mirrored p key ch := by
  obtain ⟨hchan, hint, hadd, hsusp⟩ := h
  cases hindex : ch.index with
  | kNew =>
    simp only [hindex, if_true, reduceCtorEq, if_false] at hchan hint
    exact ⟨by simp [hindex, EPollPoller.HasChannel, hchan], by simp [hindex, hint], by simp [hindex],
      by simp [hindex, EPollPoller.HasChannel, hchan], hsusp⟩
  | kAdd =>
    simp only [hindex, if_true, reduceCtorEq, if_false] at hchan hint
    exact ⟨by simp [hindex, EPollPoller.HasChannel, hchan], by simp [hindex, hint],
      fun hi => ⟨hint, hadd hi⟩, by simp [hindex, hint], hsusp⟩
  | kDelete =>
    simp only [hindex, reduceCtorEq, if_false] at hchan hint
    exact ⟨by simp [hindex, EPollPoller.HasChannel, hchan], by simp [hindex, hint], by simp [hindex],
      by simp [hindex, EPollPoller.HasChannel, hchan, hint], hsusp⟩

/-- After any sequence of operations the poller mirrors the kernel for every channel, the next
operation makes the `epoll_ctl` call that `ctl` names, if any, and no such call fails. -/
theorem poller_mirrors_kernel [DecidableEq κ] (fd : κ → Nat) (hfd : Function.Injective fd)
    (steps : List (κ × ChannelCall)) (s : PollerState κ)
    (hrun : (pollerMachine κ).run (PollerState.make fd) steps = some s) :
    (∀ k, Mirrored s.poller k (s.channels k)) ∧ s.poller.exited = false ∧
      (∀ k c op, ChannelCall.ctl (s.channels k) c = some op → ¬s.poller.CtlFails (s.channels k).fd op) ∧
      ∀ k c, CtlMade s.poller k (s.channels k) c := by
  have h := (pollerMachine κ).invariant (fun _ _ _ => allBookkept_step hfd) (allBookkept_make fd) hrun
  have hmade : ∀ k c, CtlMade s.poller k (s.channels k) c := fun k c => ctl_made (h.book k) c
  exact ⟨fun k => (h.book k).mirrored, h.running, fun k c _ hop => (hmade k c).succeeds hop, hmade⟩

/-- Channel 0 is suspended, channel 1 is removed while active and comes back for writing. -/
def sampleOperations : List (Nat × ChannelCall) :=
  [(0, .enableReading), (1, .enableReading), (0, .disableAll), (1, .remove), (0, .disableWriting),
   (1, .disableReading), (1, .enableWriting)]

theorem poller_mirrors_kernel_operations :
    ∃ s, (pollerMachine Nat).run (PollerState.make fun k => k + 3) sampleOperations = some s ∧
      (s.channels 0).index = .kDelete ∧ (s.channels 1).index = .kAdd ∧
      Mirrored s.poller 0 (s.channels 0) ∧ Mirrored s.poller 1 (s.channels 1) ∧ s.poller.exited = false := by
  have hend : ((pollerMachine Nat).run (PollerState.make fun k => k + 3) sampleOperations).map
      (fun s => ((s.channels 0).index, (s.channels 1).index)) = some (.kDelete, .kAdd) := by
    decide +kernel
  obtain ⟨s, hrun, hs⟩ := Option.map_eq_some_iff.mp hend
  obtain ⟨hzero, hone⟩ := Prod.mk.inj hs
  have hinj : Function.Injective fun k : Nat => k + 3 := fun _ _ => Nat.add_right_cancel
  obtain ⟨hall, hrunning, -⟩ := poller_mirrors_kernel (fun k => k + 3) hinj sampleOperations s hrun
  exact ⟨s, hrun, hzero, hone, hall 0, hall 1, hrunning⟩

end Proofs

end MylibMuduo
