import Mathlib.Tactic

/-!
# Channels (`Channel.h`, `Channel.cpp`)

A channel is a file descriptor with an interest mask and the callbacks that
run for the events poll reports. Masks are `int`s of `poll(2)` flags; the
model names the flags the code uses and keeps one Boolean for each, so `|=`
and `&= ~` are the flag-wise operations.
-/

namespace Muduo

/-- A mask of `poll(2)` flags. -/
structure Events where
  pollin : Bool
  pollpri : Bool
  pollout : Bool
  pollerr : Bool
  pollhup : Bool
  pollnval : Bool
  pollrdhup : Bool
  deriving DecidableEq, Repr

namespace Events

/-- `M_events | e`. -/
def union (m e : Events) : Events where
  pollin := m.pollin || e.pollin
  pollpri := m.pollpri || e.pollpri
  pollout := m.pollout || e.pollout
  pollerr := m.pollerr || e.pollerr
  pollhup := m.pollhup || e.pollhup
  pollnval := m.pollnval || e.pollnval
  pollrdhup := m.pollrdhup || e.pollrdhup

/-- `M_events & ~e`. -/
def without (m e : Events) : Events where
  pollin := m.pollin && !e.pollin
  pollpri := m.pollpri && !e.pollpri
  pollout := m.pollout && !e.pollout
  pollerr := m.pollerr && !e.pollerr
  pollhup := m.pollhup && !e.pollhup
  pollnval := m.pollnval && !e.pollnval
  pollrdhup := m.pollrdhup && !e.pollrdhup

/-- `(M_events & e) != 0`. -/
def meets (m e : Events) : Bool :=
  m.pollin && e.pollin || m.pollpri && e.pollpri || m.pollout && e.pollout ||
    m.pollerr && e.pollerr || m.pollhup && e.pollhup || m.pollnval && e.pollnval ||
    m.pollrdhup && e.pollrdhup

def kNoneEvent : Events := ⟨false, false, false, false, false, false, false⟩

def kReadEvent : Events := { kNoneEvent with pollin := true, pollpri := true }

def kWriteEvent : Events := { kNoneEvent with pollout := true }

/-- What poll may report for a channel with this interest: flags it asked for,
and the error flags, which are always reported. -/
def Reports (mask revents : Events) : Prop :=
  (revents.pollin → mask.pollin) ∧ (revents.pollpri → mask.pollpri) ∧
    (revents.pollout → mask.pollout) ∧ (revents.pollrdhup → mask.pollrdhup)

instance (mask revents : Events) : Decidable (mask.Reports revents) :=
  inferInstanceAs (Decidable (_ ∧ _))

end Events

/-- The data members of `Channel` that the modelled functions use. -/
structure Channel where
  fd : Int
  events : Events
  index : Int
  tied : Bool
  addedToLoop : Bool
  deriving DecidableEq, Repr

/-- The callbacks `handleEventWithGuard` invokes. -/
inductive Callback
  | close | error | read | write
  deriving DecidableEq, Repr

namespace Channel

open Events

def new (fd : Int) : Channel where
  fd := fd
  events := kNoneEvent
  index := -1
  tied := false
  addedToLoop := false

/-- `update()`: the registration itself belongs to the poller. -/
def update (ch : Channel) : Channel := { ch with addedToLoop := true }

def isNoneEvent (ch : Channel) : Bool := ch.events = kNoneEvent

def isWriting (ch : Channel) : Bool := ch.events.meets kWriteEvent

def isReading (ch : Channel) : Bool := ch.events.meets kReadEvent

def enableReading (ch : Channel) : Channel :=
  update { ch with events := ch.events.union kReadEvent }

def disableReading (ch : Channel) : Channel :=
  update { ch with events := ch.events.without kReadEvent }

def enableWriting (ch : Channel) : Channel :=
  update { ch with events := ch.events.union kWriteEvent }

def disableWriting (ch : Channel) : Channel :=
  update { ch with events := ch.events.without kWriteEvent }

def disableAll (ch : Channel) : Channel :=
  update { ch with events := kNoneEvent }

/-- `remove()`, after its assertion. -/
def remove (ch : Channel) : Channel := { ch with addedToLoop := false }

def tie (ch : Channel) : Channel := { ch with tied := true }

/-- `handleEventWithGuard`: the callbacks that `M_revents` selects, in the
order they are tried. -/
def handleEventWithGuard (revents : Events) : List Callback :=
  (if revents.pollhup && !revents.pollin then [.close] else []) ++
  (if revents.pollerr || revents.pollnval then [.error] else []) ++
  (if revents.pollin || revents.pollpri || revents.pollrdhup then [.read] else []) ++
  (if revents.pollout then [.write] else [])

/-! ## How the interest operations act on the two interests -/

@[simp] theorem isWriting_new (fd : Int) : (new fd).isWriting = false := rfl

@[simp] theorem isWriting_enableWriting (ch : Channel) : ch.enableWriting.isWriting = true := by
  simp [isWriting, enableWriting, update, meets, union, kWriteEvent, kNoneEvent]

@[simp] theorem isWriting_disableWriting (ch : Channel) :
    ch.disableWriting.isWriting = false := by
  simp [isWriting, disableWriting, update, meets, without, kWriteEvent, kNoneEvent]

@[simp] theorem isWriting_enableReading (ch : Channel) :
    ch.enableReading.isWriting = ch.isWriting := by
  simp [isWriting, enableReading, update, meets, union, kReadEvent, kWriteEvent, kNoneEvent]

@[simp] theorem isWriting_disableReading (ch : Channel) :
    ch.disableReading.isWriting = ch.isWriting := by
  simp [isWriting, disableReading, update, meets, without, kReadEvent, kWriteEvent, kNoneEvent]

@[simp] theorem isWriting_disableAll (ch : Channel) : ch.disableAll.isWriting = false := rfl

@[simp] theorem isReading_enableReading (ch : Channel) : ch.enableReading.isReading = true := by
  simp [isReading, enableReading, update, meets, union, kReadEvent, kNoneEvent]

@[simp] theorem isReading_disableReading (ch : Channel) :
    ch.disableReading.isReading = false := by
  simp [isReading, disableReading, update, meets, without, kReadEvent, kNoneEvent]

@[simp] theorem isReading_enableWriting (ch : Channel) :
    ch.enableWriting.isReading = ch.isReading := by
  simp [isReading, enableWriting, update, meets, union, kReadEvent, kWriteEvent, kNoneEvent]

@[simp] theorem isReading_disableWriting (ch : Channel) :
    ch.disableWriting.isReading = ch.isReading := by
  simp [isReading, disableWriting, update, meets, without, kReadEvent, kWriteEvent, kNoneEvent]

@[simp] theorem isWriting_tie (ch : Channel) : ch.tie.isWriting = ch.isWriting := rfl

/-- A channel without interest does not write. -/
theorem isWriting_of_none {ch : Channel} (h : ch.events = kNoneEvent) :
    ch.isWriting = false := by
  rw [isWriting, h]
  rfl

/-- Withdrawing the read interest from a channel without interest changes
nothing. -/
theorem events_disableReading_of_none {ch : Channel} (h : ch.events = kNoneEvent) :
    ch.disableReading.events = kNoneEvent := by
  show ch.events.without kReadEvent = kNoneEvent
  rw [h]
  rfl

end Channel
end Muduo
