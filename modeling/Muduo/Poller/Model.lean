import Muduo.Lib.System
import Muduo.Net.Channel

/-!
# The two pollers (`Poller.h`, `EPollPoller.cpp`, `PollPoller.cpp`)

A poller keeps `M_channels`, a map from descriptors to channels, and leaves a
mark of its own in each channel, `M_index`. `EPollPoller` uses it for the state
of the channel in the kernel's epoll set; `PollPoller` uses it for the slot of
the channel in `M_pollfds`. `Channel::isNoneEvent`, whose body assigns, is read
as the test `M_events == kNoneEvent`.

Channels are objects with an address: the poller's state includes the objects,
and a `Channel*` is a key into them. The kernel's epoll set is a map from
descriptors to the events and the `data.ptr` given for them.
-/

namespace Muduo.Poller

open Lib

/-- A `Channel*`. -/
abbrev ChannelPtr := Nat

/-- The interest operations of `Channel`, each of which ends with `update()`. -/
inductive Interest
  | enableReading | disableReading | enableWriting | disableWriting | disableAll
  deriving DecidableEq, Repr

def Interest.apply : Interest → Channel → Channel
  | .enableReading, ch => ch.enableReading
  | .disableReading, ch => ch.disableReading
  | .enableWriting, ch => ch.enableWriting
  | .disableWriting, ch => ch.disableWriting
  | .disableAll, ch => ch.disableAll

@[simp] theorem Interest.apply_fd (i : Interest) (ch : Channel) : (i.apply ch).fd = ch.fd := by
  cases i <;> rfl

@[simp] theorem Interest.apply_index (i : Interest) (ch : Channel) :
    (i.apply ch).index = ch.index := by
  cases i <;> rfl

/-- What reaches a poller. -/
inductive Act
  | change (ch : ChannelPtr) (i : Interest)
  /-- `disableAll(); remove()`. -/
  | remove (ch : ChannelPtr)
  deriving DecidableEq, Repr

/-- The assertions on the way, and the fatal failures of `epoll_ctl`. -/
inductive Fault
  | channelRemove
  | updateAbsent | updatePresent | updateSame | updateIndex | updateSlot
  | removePresent | removeSame | removeNone | removeIndex | removeSlot | removeErased
  | nullChannel
  | ctlAdd | ctlMod
  deriving DecidableEq, Repr

/-! ## `EPollPoller` -/

def kNew : Int := -1

def kAdded : Int := 1

def kDeleted : Int := 2

/-- The operations of `epoll_ctl`. -/
inductive CtlOp
  | EPOLL_CTL_ADD | EPOLL_CTL_MOD | EPOLL_CTL_DEL
  deriving DecidableEq, Repr

structure EPollPoller where
  objects : ChannelPtr → Channel
  channels : Int → Option ChannelPtr
  /-- The kernel's epoll set. -/
  epoll : Int → Option (Events × ChannelPtr)
  /-- The calls of `epoll_ctl` that failed and were only logged. -/
  failed : Nat

namespace EPollPoller

/-- A poller without channels, and channel objects that no poller knows; `fd`
is the descriptor each object was made for. -/
def new (fd : ChannelPtr → Int) : EPollPoller where
  objects := fun ch => Channel.new (fd ch)
  channels := fun _ => none
  epoll := fun _ => none
  failed := 0

def setObject (p : EPollPoller) (ch : ChannelPtr) (o : Channel) : EPollPoller :=
  { p with objects := Function.update p.objects ch o }

def setIndex (p : EPollPoller) (ch : ChannelPtr) (index : Int) : EPollPoller :=
  p.setObject ch { p.objects ch with index := index }

def setChannel (p : EPollPoller) (fd : Int) (ch : Option ChannelPtr) : EPollPoller :=
  { p with channels := Function.update p.channels fd ch }

def setEpoll (p : EPollPoller) (fd : Int) (e : Option (Events × ChannelPtr)) : EPollPoller :=
  { p with epoll := Function.update p.epoll fd e }

section Projections

variable (p : EPollPoller) (ch : ChannelPtr) (o : Channel) (index fd : Int)
  (c : Option ChannelPtr) (e : Option (Events × ChannelPtr))

@[simp] theorem setObject_objects : (p.setObject ch o).objects ch = o := Function.update_self ..

@[simp] theorem setIndex_objects :
    (p.setIndex ch index).objects ch = { p.objects ch with index := index } :=
  Function.update_self ..

@[simp] theorem setIndex_channels : (p.setIndex ch index).channels = p.channels := rfl

@[simp] theorem setIndex_epoll : (p.setIndex ch index).epoll = p.epoll := rfl

@[simp] theorem setChannel_objects : (p.setChannel fd c).objects = p.objects := rfl

@[simp] theorem setChannel_channels : (p.setChannel fd c).channels fd = c :=
  Function.update_self ..

@[simp] theorem setEpoll_objects : (p.setEpoll fd e).objects = p.objects := rfl

@[simp] theorem setEpoll_channels : (p.setEpoll fd e).channels = p.channels := rfl

@[simp] theorem setEpoll_epoll : (p.setEpoll fd e).epoll fd = e := Function.update_self ..

end Projections

/-- `update(operation, channel)`: a failing `EPOLL_CTL_DEL` is logged, the
other two are fatal. -/
def update (p : EPollPoller) (operation : CtlOp) (ch : ChannelPtr) : Except Fault EPollPoller :=
  let o := p.objects ch
  match operation, p.epoll o.fd with
  | .EPOLL_CTL_ADD, none => .ok (p.setEpoll o.fd (some (o.events, ch)))
  | .EPOLL_CTL_ADD, some _ => .error .ctlAdd
  | .EPOLL_CTL_MOD, some _ => .ok (p.setEpoll o.fd (some (o.events, ch)))
  | .EPOLL_CTL_MOD, none => .error .ctlMod
  | .EPOLL_CTL_DEL, some _ => .ok (p.setEpoll o.fd none)
  | .EPOLL_CTL_DEL, none => .ok { p with failed := p.failed + 1 }

def updateChannel (p : EPollPoller) (ch : ChannelPtr) : Except Fault EPollPoller := do
  let o := p.objects ch
  if o.index = kNew ∨ o.index = kDeleted then
    let p ← (if o.index = kNew then do
        check .updateAbsent (p.channels o.fd = none)
        return p.setChannel o.fd (some ch)
      else do
        check .updatePresent (p.channels o.fd ≠ none)
        check .updateSame (p.channels o.fd = some ch)
        return p : Except Fault EPollPoller)
    (p.setIndex ch kAdded).update .EPOLL_CTL_ADD ch
  else
    check .updatePresent (p.channels o.fd ≠ none)
    check .updateIndex (o.index = kAdded)
    if o.isNoneEvent = true then
      let p ← p.update .EPOLL_CTL_DEL ch
      return p.setIndex ch kDeleted
    else
      p.update .EPOLL_CTL_MOD ch

def removeChannel (p : EPollPoller) (ch : ChannelPtr) : Except Fault EPollPoller := do
  let o := p.objects ch
  check .removePresent (p.channels o.fd ≠ none)
  check .removeSame (p.channels o.fd = some ch)
  check .removeNone (o.isNoneEvent = true)
  check .removeIndex (o.index = kAdded ∨ o.index = kDeleted)
  check .removeErased (p.channels o.fd ≠ none)
  let p := p.setChannel o.fd none
  let p ← (if o.index = kAdded then p.update .EPOLL_CTL_DEL ch else .ok p : Except Fault EPollPoller)
  return p.setIndex ch kNew

/-- An interest operation of the channel, with the update it ends with. -/
def change (p : EPollPoller) (ch : ChannelPtr) (i : Interest) : Except Fault EPollPoller :=
  (p.setObject ch (i.apply (p.objects ch))).updateChannel ch

/-- `Channel::remove`. -/
def remove (p : EPollPoller) (ch : ChannelPtr) : Except Fault EPollPoller := do
  check .channelRemove ((p.objects ch).isNoneEvent = true)
  (p.setObject ch (p.objects ch).remove).removeChannel ch

def exec (p : EPollPoller) : Act → Except Fault EPollPoller
  | .change ch i => p.change ch i
  | .remove ch => do
      let p ← p.change ch .disableAll
      p.remove ch

end EPollPoller

/-! ## `PollPoller` -/

/-- `struct pollfd`. -/
structure PollFd where
  fd : Int
  events : Events
  revents : Events
  deriving DecidableEq, Repr

structure PollPoller where
  objects : ChannelPtr → Channel
  channels : Int → Option ChannelPtr
  pollfds : List PollFd

namespace PollPoller

def new (fd : ChannelPtr → Int) : PollPoller where
  objects := fun ch => Channel.new (fd ch)
  channels := fun _ => none
  pollfds := []

def setObject (p : PollPoller) (ch : ChannelPtr) (o : Channel) : PollPoller :=
  { p with objects := Function.update p.objects ch o }

def setIndex (p : PollPoller) (ch : ChannelPtr) (index : Int) : PollPoller :=
  p.setObject ch { p.objects ch with index := index }

def setChannel (p : PollPoller) (fd : Int) (ch : Option ChannelPtr) : PollPoller :=
  { p with channels := Function.update p.channels fd ch }

/-- `0 <= idx && idx < M_pollfds.size()`, and the slot `M_pollfds[idx]`. -/
def slot (p : PollPoller) (e : Fault) (idx : Int) : Except Fault PollFd :=
  if 0 ≤ idx then
    match p.pollfds[idx.toNat]? with
    | some pfd => .ok pfd
    | none => .error e
  else .error e

def updateChannel (p : PollPoller) (ch : ChannelPtr) : Except Fault PollPoller := do
  let o := p.objects ch
  if o.index < 0 then
    check .updateAbsent (p.channels o.fd = none)
    let pollfds := p.pollfds ++ [⟨o.fd, o.events, Events.kNoneEvent⟩]
    let idx : Nat := pollfds.length - 1
    return ({ p with pollfds := pollfds }.setIndex ch idx).setChannel o.fd (some ch)
  else
    check .updatePresent (p.channels o.fd ≠ none)
    check .updateSame (p.channels o.fd = some ch)
    let pfd ← p.slot .updateIndex o.index
    check .updateSlot (pfd.fd = o.fd ∨ pfd.fd = -o.fd - 1)
    let pfd : PollFd := { pfd with events := o.events, revents := Events.kNoneEvent }
    -- nothing undoes the negation when the mask is no longer empty
    let pfd := if o.isNoneEvent = true then { pfd with fd := -o.fd - 1 } else pfd
    return { p with pollfds := p.pollfds.set o.index.toNat pfd }

/-- The end of `removeChannel`: the last slot takes the place of slot `idx`. -/
def swapRemove (p : PollPoller) (idx : Nat) : Except Fault PollPoller :=
  if idx = p.pollfds.length - 1 then
    .ok { p with pollfds := p.pollfds.dropLast }
  else
    match p.pollfds.getLast? with
    | none => .error .removeSlot
    | some last =>
        let channelAtEnd := if last.fd < 0 then -last.fd - 1 else last.fd
        match p.channels channelAtEnd with
        | none => .error .nullChannel
        | some ch =>
            .ok ({ p with pollfds := (p.pollfds.set idx last).dropLast }.setIndex ch idx)

def removeChannel (p : PollPoller) (ch : ChannelPtr) : Except Fault PollPoller := do
  let o := p.objects ch
  check .removePresent (p.channels o.fd ≠ none)
  check .removeSame (p.channels o.fd = some ch)
  check .removeNone (o.isNoneEvent = true)
  let pfd ← p.slot .removeIndex o.index
  check .removeSlot (pfd.fd = -o.fd - 1 ∧ pfd.events = o.events)
  check .removeErased (p.channels o.fd ≠ none)
  (p.setChannel o.fd none).swapRemove o.index.toNat

def change (p : PollPoller) (ch : ChannelPtr) (i : Interest) : Except Fault PollPoller :=
  (p.setObject ch (i.apply (p.objects ch))).updateChannel ch

/-- `Channel::remove`. -/
def remove (p : PollPoller) (ch : ChannelPtr) : Except Fault PollPoller := do
  check .channelRemove ((p.objects ch).isNoneEvent = true)
  (p.setObject ch (p.objects ch).remove).removeChannel ch

def exec (p : PollPoller) : Act → Except Fault PollPoller
  | .change ch i => p.change ch i
  | .remove ch => do
      let p ← p.change ch .disableAll
      p.remove ch

end PollPoller

/-! ## Runs -/

def epollSys : Sys EPollPoller Act Fault := ⟨fun _ _ => True, EPollPoller.exec⟩

def pollSys : Sys PollPoller Act Fault := ⟨fun _ _ => True, PollPoller.exec⟩

end Muduo.Poller
