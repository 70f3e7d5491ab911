import Mathlib.Logic.Function.Basic
import Mathlib.Tactic.Common

/-!
# Channel and EPollPoller

A channel's interest in the events of its descriptor, and the poller that mirrors it in
the kernel's epoll set (`Channel.h`, `Channel.cc`, `Poller.cc`, `EPollPoller.cc`). The
poller is generic in the type `κ` of channel pointers.
-/

namespace MylibMuduo

/-- The bits of an epoll event mask that the library reads or writes. -/
structure EventMask where
  epollin : Bool
  epollpri : Bool
  epollout : Bool
  epollerr : Bool
  epollhup : Bool
  deriving DecidableEq, Repr

def kNoneEvent : EventMask := ⟨false, false, false, false, false⟩

/-- The value of `index_`: unknown to the poller, in the epoll set, or suspended. -/
inductive ChannelIndex where
  | kNew | kAdd | kDelete
  deriving DecidableEq, Repr

structure Channel where
  fd : Nat
  events : EventMask
  index : ChannelIndex
  tied : Bool
  deriving DecidableEq, Repr

namespace Channel

/-- `Channel::Channel`. -/
def make (fd : Nat) : Channel := ⟨fd, kNoneEvent, .kNew, false⟩

def isReading (ch : Channel) : Bool := ch.events.epollin || ch.events.epollpri

def isWriting (ch : Channel) : Bool := ch.events.epollout

def isNoneEvent (ch : Channel) : Bool := decide (ch.events = kNoneEvent)

end Channel

/-- The map `channels_`, the kernel's interest set with the `data.ptr` of each entry, and
whether `LOG_FATAL` has ended the process. -/
structure EPollPoller (κ : Type) where
  channels : Nat → Option κ
  interest : Nat → Option (EventMask × κ)
  exited : Bool

inductive EpollOp where
  | add | mod | del
  deriving DecidableEq, Repr

namespace EPollPoller

variable {κ : Type}

/-- The poller of a new loop. -/
def empty : EPollPoller κ := ⟨fun _ => none, fun _ => none, false⟩

/-- `EPollPoller::update`. `epoll_ctl` fails for an add of a present descriptor and for a
change or removal of an absent one; a failed removal is only logged. -/
def update (p : EPollPoller κ) (op : EpollOp) (key : κ) (ch : Channel) : EPollPoller κ :=
  match op, p.interest ch.fd with
  | .add, none => { p with interest := Function.update p.interest ch.fd (some (ch.events, key)) }
  | .add, some _ => { p with exited := true }
  | .mod, none => { p with exited := true }
  | .mod, some _ => { p with interest := Function.update p.interest ch.fd (some (ch.events, key)) }
  | .del, none => p
  | .del, some _ => { p with interest := Function.update p.interest ch.fd none }

def updateChannel (p : EPollPoller κ) (key : κ) (ch : Channel) : EPollPoller κ × Channel :=
  match ch.index with
  | .kNew =>
    if ch.isNoneEvent then (p, ch)
    else
      let p := { p with channels := Function.update p.channels ch.fd (some key) }
      (p.update .add key ch, { ch with index := .kAdd })
  | .kDelete =>
    if ch.isNoneEvent then (p, ch) else (p.update .add key ch, { ch with index := .kAdd })
  | .kAdd =>
    if ch.isNoneEvent then (p.update .del key ch, { ch with index := .kDelete })
    else (p.update .mod key ch, ch)

def removeChannel (p : EPollPoller κ) (key : κ) (ch : Channel) : EPollPoller κ × Channel :=
  match ch.index with
  | .kNew => (p, ch)
  | .kAdd =>
    let p := { p with channels := Function.update p.channels ch.fd none }
    (p.update .del key ch, { ch with index := .kNew })
  | .kDelete =>
    ({ p with channels := Function.update p.channels ch.fd none }, { ch with index := .kNew })

/-- `Poller::hasChannel`. -/
def HasChannel (p : EPollPoller κ) (key : κ) (ch : Channel) : Prop := p.channels ch.fd = some key

end EPollPoller

namespace Channel

variable {κ : Type} (p : EPollPoller κ) (key : κ) (ch : Channel)

def enableReading : EPollPoller κ × Channel :=
  p.updateChannel key { ch with events := { ch.events with epollin := true, epollpri := true } }

def disableReading : EPollPoller κ × Channel :=
  p.updateChannel key { ch with events := { ch.events with epollin := false, epollpri := false } }

def enableWriting : EPollPoller κ × Channel :=
  p.updateChannel key { ch with events := { ch.events with epollout := true } }

def disableWriting : EPollPoller κ × Channel :=
  p.updateChannel key { ch with events := { ch.events with epollout := false } }

def disableAll : EPollPoller κ × Channel :=
  p.updateChannel key { ch with events := kNoneEvent }

def remove : EPollPoller κ × Channel := p.removeChannel key ch

end Channel

end MylibMuduo
