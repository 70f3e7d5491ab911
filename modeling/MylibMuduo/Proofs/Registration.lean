import MylibMuduo.TcpConnection

/-!
# Registration of a channel

`Bookkept` says that the poller's map and the kernel's interest set agree with the index
and the mask of one channel. Every change of the mask keeps it, and touches no other
descriptor. For a connection that is registered for reading the operations of its channel
then become plain updates of the interest set.
-/

namespace MylibMuduo.Proofs

variable {κ : Type}

/-- The poller and the kernel agree with the channel on its descriptor. -/
structure Bookkept (p : EPollPoller κ) (key : κ) (ch : Channel) : Prop where
  channels : p.channels ch.fd = if ch.index = .kNew then none else some key
  interest : p.interest ch.fd = if ch.index = .kAdd then some (ch.events, key) else none
  added : ch.index = .kAdd → ch.events ≠ kNoneEvent
  suspended : ch.index = .kDelete → ch.events = kNoneEvent

/-- The index after an update to the mask `e`. -/
def updatedIndex (index : ChannelIndex) (e : EventMask) : ChannelIndex :=
  if e = kNoneEvent then (if index = .kAdd then .kDelete else index) else .kAdd

/-- Two pollers that differ on one descriptor only. -/
def SameElsewhere (fd : Nat) (p q : EPollPoller κ) : Prop :=
  q.exited = p.exited ∧ ∀ g, g ≠ fd → q.channels g = p.channels g ∧ q.interest g = p.interest g

lemma sameElsewhere_refl (fd : Nat) (p : EPollPoller κ) : SameElsewhere fd p p :=
  ⟨rfl, fun _ _ => ⟨rfl, rfl⟩⟩

lemma SameElsewhere.trans {fd : Nat} {p q r : EPollPoller κ} (h₁ : SameElsewhere fd p q)
    (h₂ : SameElsewhere fd q r) : SameElsewhere fd p r := by
  refine ⟨h₂.1.trans h₁.1, fun g hg => ?_⟩
  exact ⟨(h₂.2 g hg).1.trans (h₁.2 g hg).1, (h₂.2 g hg).2.trans (h₁.2 g hg).2⟩

lemma bookkept_make (p : EPollPoller κ) (key : κ) (fd : Nat) (hc : p.channels fd = none)
    (hi : p.interest fd = none) : Bookkept p key (Channel.make fd) := by
  refine ⟨?_, ?_, ?_, ?_⟩
  · simpa [Channel.make] using hc
  · simpa [Channel.make] using hi
  · simp [Channel.make]
  · simp [Channel.make]

lemma Bookkept.tie {p : EPollPoller κ} {key : κ} {ch : Channel} (h : Bookkept p key ch) (b : Bool) :
    Bookkept p key { ch with tied := b } :=
  ⟨h.channels, h.interest, h.added, h.suspended⟩

/-- What `updateChannel` does after any change of the mask. -/
theorem updateChannel_spec (p : EPollPoller κ) (key : κ) (ch : Channel) (e : EventMask)
    (h : Bookkept p key ch) :
    let r := p.updateChannel key { ch with events := e }
    r.2 = { ch with events := e, index := updatedIndex ch.index e } ∧
      Bookkept r.1 key r.2 ∧ SameElsewhere ch.fd p r.1 := by
  obtain ⟨hchan, hint, hadd, hsusp⟩ := h
  dsimp only
  unfold EPollPoller.updateChannel updatedIndex Channel.isNoneEvent
  cases hidx : ch.index with
  | kNew =>
    simp only [hidx, if_true, reduceCtorEq, if_false] at hchan hint ⊢
    by_cases he : e = kNoneEvent
    · simp only [he, decide_true, if_true]
      exact ⟨trivial, ⟨by simpa using hchan, by simpa using hint, by simp, by simp⟩,
        sameElsewhere_refl _ _⟩
    · simp only [he, decide_false, if_false, Bool.false_eq_true, EPollPoller.update, hint]
      refine ⟨trivial, ⟨by simp, by simp, by simpa using he, by simp⟩, rfl, ?_⟩
      intro g hg
      simp [hg]
  | kDelete =>
    simp only [hidx, reduceCtorEq, if_false] at hchan hint ⊢
    by_cases he : e = kNoneEvent
    · simp only [he, decide_true, if_true]
      exact ⟨trivial, ⟨by simpa using hchan, by simpa using hint, by simp, by simp⟩,
        sameElsewhere_refl _ _⟩
    · simp only [he, decide_false, if_false, Bool.false_eq_true, EPollPoller.update, hint]
      refine ⟨trivial, ⟨by simpa using hchan, by simp, by simpa using he, by simp⟩, rfl, ?_⟩
      intro g hg
      simp [hg]
  | kAdd =>
    simp only [hidx, if_true, reduceCtorEq, if_false] at hchan hint ⊢
    by_cases he : e = kNoneEvent
    · simp only [he, decide_true, if_true, EPollPoller.update, hint]
      refine ⟨trivial, ⟨by simpa using hchan, by simp, by simp, by simp⟩, rfl, ?_⟩
      intro g hg
      simp [hg]
    · simp only [he, decide_false, if_false, Bool.false_eq_true, EPollPoller.update, hint]
      refine ⟨trivial, ⟨by simpa using hchan, by simp, by simpa using he, by simp⟩, rfl, ?_⟩
      intro g hg
      simp [hg]

/-- What `removeChannel` does. -/
theorem removeChannel_spec (p : EPollPoller κ) (key : κ) (ch : Channel) (h : Bookkept p key ch) :
    let r := p.removeChannel key ch
    r.2 = { ch with index := .kNew } ∧ Bookkept r.1 key r.2 ∧ SameElsewhere ch.fd p r.1 := by
  obtain ⟨hchan, hint, hadd, hsusp⟩ := h
  dsimp only
  unfold EPollPoller.removeChannel
  cases hidx : ch.index with
  | kNew =>
    simp only [hidx, if_true, reduceCtorEq, if_false] at hchan hint ⊢
    exact ⟨by rw [← hidx], ⟨by simpa [hidx] using hchan, by simpa [hidx] using hint, by simp [hidx],
      by simp [hidx]⟩, sameElsewhere_refl _ _⟩
  | kDelete =>
    simp only [hidx, reduceCtorEq, if_false] at hchan hint ⊢
    refine ⟨trivial, ⟨by simp, by simpa using hint, by simp, by simp⟩, rfl, ?_⟩
    intro g hg
    simp [hg]
  | kAdd =>
    simp only [hidx, if_true, reduceCtorEq, if_false] at hchan hint ⊢
    simp only [EPollPoller.update, hint]
    refine ⟨trivial, ⟨by simp, by simp, by simp, by simp⟩, rfl, ?_⟩
    intro g hg
    simp [hg]

/-- A connection that is registered for reading. -/
structure Registered (w : ConnContext κ) : Prop where
  book : Bookkept w.poller w.key w.conn.channel
  added : w.conn.channel.index = .kAdd
  reading : w.conn.channel.events.epollin = true

/-- The mask `e` in the channel and in the interest set. -/
def setInterest (w : ConnContext κ) (e : EventMask) : ConnContext κ :=
  { w with
    poller := { w.poller with
      interest := Function.update w.poller.interest w.conn.channel.fd (some (e, w.key)) }
    conn := { w.conn with channel := { w.conn.channel with events := e } } }

lemma epollin_ne_none {e : EventMask} (h : e.epollin = true) : e ≠ kNoneEvent := by
  rintro rfl
  simp [kNoneEvent] at h

lemma updateChannel_registered {w : ConnContext κ} (h : Registered w) (e : EventMask)
    (he : e.epollin = true) :
    w.setChannel (w.poller.updateChannel w.key { w.conn.channel with events := e }) =
      setInterest w e := by
  have hint : w.poller.interest w.conn.channel.fd = some (w.conn.channel.events, w.key) := by
    rw [h.book.interest, if_pos h.added]
  simp only [EPollPoller.updateChannel, h.added, Channel.isNoneEvent, epollin_ne_none he,
    decide_false, Bool.false_eq_true, if_false, EPollPoller.update, hint, ConnContext.setChannel,
    setInterest]

lemma setInterest_registered {w : ConnContext κ} (h : Registered w) (e : EventMask)
    (he : e.epollin = true) : Registered (setInterest w e) := by
  have hchan := h.book.channels
  rw [if_neg (by rw [h.added]; simp)] at hchan
  refine ⟨⟨?_, ?_, fun _ => epollin_ne_none he, ?_⟩, h.added, he⟩
  · simpa [setInterest, h.added] using hchan
  · simp [setInterest, h.added]
  · simp [setInterest, h.added]

theorem enableWriting_registered {w : ConnContext κ} (h : Registered w) :
    w.enableWriting = setInterest w { w.conn.channel.events with epollout := true } :=
  updateChannel_registered h _ h.reading

theorem disableWriting_registered {w : ConnContext κ} (h : Registered w) :
    w.disableWriting = setInterest w { w.conn.channel.events with epollout := false } :=
  updateChannel_registered h _ h.reading

/-- The kernel's interest set asks for write events of the connection's descriptor. -/
def RegisteredForWriting (w : ConnContext κ) : Prop :=
  ∃ e, w.poller.interest w.conn.channel.fd = some (e, w.key) ∧ e.epollout = true

lemma registeredForWriting_iff {w : ConnContext κ} (h : Registered w) :
    RegisteredForWriting w ↔ w.conn.channel.isWriting = true := by
  have hint := h.book.interest
  rw [if_pos h.added] at hint
  unfold RegisteredForWriting Channel.isWriting
  rw [hint]
  constructor
  · rintro ⟨e, he, hout⟩
    simp only [Option.some.injEq, Prod.mk.injEq, and_true] at he
    exact he ▸ hout
  · intro hout
    exact ⟨_, rfl, hout⟩

end MylibMuduo.Proofs
