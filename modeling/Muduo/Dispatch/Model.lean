import Muduo.Poller.EPoll

/-!
# Dispatch (`EventLoop.cpp`, `Channel.cpp`, `EPollPoller.cpp`)

One turn of `loop()` polls, goes through `M_activeChannels` and calls `handleEvent` on
each. The callbacks of a channel may do anything to the channels of the loop, their own
included: change their interest, remove them, destroy them, make new ones; an address and
a descriptor may be used again. The pointers that wait in `M_activeChannels` are raw, so
the asserts of `EventLoop::removeChannel` and of `~Channel` are all that keeps `handleEvent`
away from an object that is gone.

The poller is the one of `Poller.Model`; here it is given the loop around it. Functors and
everything else the loop thread does outside the `for` are steps of the same kind.
-/

namespace Muduo.Dispatch

open Lib Poller

/-- Where `loop()` is. -/
inductive Place
  /-- Not in the `for`: functors run here. -/
  | outside
  /-- In the `for`, before the next of the channels that are left. -/
  | between (rest : List ChannelPtr)
  /-- In `handleEventWithGuard` of `ch`. -/
  | handling (ch : ChannelPtr) (rest : List ChannelPtr)
  deriving DecidableEq, Repr

/-- The channels the `for` has not reached. -/
def Place.rest : Place → List ChannelPtr
  | .outside => []
  | .between rest | .handling _ rest => rest

/-- Code of the user may run. -/
def Place.inCallback : Place → Bool
  | .between _ => false
  | _ => true

/-- The assertions on the way, and the uses of a channel that has been destroyed. -/
inductive Fault
  | poller (e : Poller.Fault)
  /-- `numEvents <= M_events.size()`, `it != M_channels.end()`. -/
  | fillSize | fillAbsent
  /-- `M_currentActiveChannel == channel`, or it is not active. -/
  | removeActive
  /-- Of `~Channel`. -/
  | dtorHandling | dtorAdded | dtorRegistered
  /-- In `fillActiveChannels`, before and after the callbacks. -/
  | danglingReport | danglingDispatch | danglingHandled
  deriving DecidableEq, Repr

structure Reactor where
  poller : EPollPoller
  /-- The size of the poller's `M_events`. -/
  eventsSize : Nat
  /-- The channels that have been constructed and not destroyed. -/
  alive : ChannelPtr → Bool
  /-- `M_revents` of each. -/
  revents : ChannelPtr → Events
  /-- `M_eventHandling` of each. -/
  handling : ChannelPtr → Bool
  eventHandling : Bool
  activeChannels : List ChannelPtr
  currentActiveChannel : Option ChannelPtr
  place : Place
  /-- The channels whose `handleEvent` was called since the last poll, with the callbacks
  it selected; no function reads it. -/
  handled : List (ChannelPtr × List Callback)

/-- `kInitEventListSize`. -/
def kInitEventListSize : Nat := 16

/-- A loop without channels; `fd` are the descriptors that stand in memory where channels
will be. -/
def Reactor.new (fd : ChannelPtr → Int) : Reactor where
  poller := .new fd
  eventsSize := kInitEventListSize
  alive := fun _ => false
  revents := fun _ => Events.kNoneEvent
  handling := fun _ => false
  eventHandling := false
  activeChannels := []
  currentActiveChannel := none
  place := .outside
  handled := []

inductive Act
  /-- `Channel(loop, fd)`, at the address `ch`. -/
  | construct (ch : ChannelPtr) (fd : Int)
  | tie (ch : ChannelPtr)
  | change (ch : ChannelPtr) (i : Interest)
  /-- `Channel::remove`. -/
  | remove (ch : ChannelPtr)
  /-- `~Channel`. -/
  | destroy (ch : ChannelPtr)
  /-- `M_poller->poll`, with what `epoll_wait` wrote. -/
  | poll (events : List (ChannelPtr × Events))
  /-- `handleEvent` of the next channel; `guard` is whether `M_tie.lock()` succeeds. -/
  | dispatch (guard : Bool)
  /-- The callbacks of the channel have returned. -/
  | handled
  /-- The end of the `for`. -/
  | finish
  deriving DecidableEq, Repr

namespace Reactor

def construct (s : Reactor) (ch : ChannelPtr) (fd : Int) : Reactor :=
  { s with
    poller := s.poller.setObject ch (Channel.new fd)
    alive := Function.update s.alive ch true
    revents := Function.update s.revents ch Events.kNoneEvent
    handling := Function.update s.handling ch false }

def tie (s : Reactor) (ch : ChannelPtr) : Reactor :=
  { s with poller := s.poller.setObject ch (s.poller.objects ch).tie }

def change (s : Reactor) (ch : ChannelPtr) (i : Interest) : Except Fault Reactor := do
  let p ← (s.poller.change ch i).mapError .poller
  return { s with poller := p }

/-- The assert of `EventLoop::removeChannel`. -/
def mayRemove (s : Reactor) (ch : ChannelPtr) : Prop :=
  s.eventHandling = true → s.currentActiveChannel = some ch ∨ ch ∉ s.activeChannels

instance (s : Reactor) (ch : ChannelPtr) : Decidable (s.mayRemove ch) :=
  inferInstanceAs (Decidable (_ → _))

/-- `Channel::remove`, with `EventLoop::removeChannel`. -/
def remove (s : Reactor) (ch : ChannelPtr) : Except Fault Reactor := do
  check (.poller .channelRemove) ((s.poller.objects ch).isNoneEvent = true)
  let p := s.poller.setObject ch (s.poller.objects ch).remove
  check .removeActive (s.mayRemove ch)
  let p ← (p.removeChannel ch).mapError .poller
  return { s with poller := p }

/-- `~Channel`, in the loop thread. -/
def destroy (s : Reactor) (ch : ChannelPtr) : Except Fault Reactor := do
  check .dtorHandling (s.handling ch = false)
  check .dtorAdded ((s.poller.objects ch).addedToLoop = false)
  check .dtorRegistered (s.poller.channels (s.poller.objects ch).fd ≠ some ch)
  return { s with alive := Function.update s.alive ch false }

/-- The loop of `fillActiveChannels`. -/
def fillLoop (s : Reactor) : List (ChannelPtr × Events) → Except Fault Reactor
  | [] => .ok s
  | (ch, revents) :: rest => do
      check .danglingReport (s.alive ch = true)
      check .fillAbsent (s.poller.channels (s.poller.objects ch).fd ≠ none)
      fillLoop { s with
        revents := Function.update s.revents ch revents
        activeChannels := s.activeChannels ++ [ch] } rest

/-- `M_events.size()` after a poll that reported `numEvents`. -/
def resize (s : Reactor) (numEvents : Nat) : Nat :=
  if numEvents = s.eventsSize then s.eventsSize * 2 else s.eventsSize

/-- `EPollPoller::poll`; an error of `epoll_wait` is one that reports nothing. -/
def epollPoll (s : Reactor) (events : List (ChannelPtr × Events)) : Except Fault Reactor := do
  if events.length > 0 then
    check .fillSize (events.length ≤ s.eventsSize)
    let s ← s.fillLoop events
    return { s with eventsSize := s.resize events.length }
  else return s

/-- `M_activeChannels.clear()`, the poll, and the beginning of the `for`. -/
def poll (s : Reactor) (events : List (ChannelPtr × Events)) : Except Fault Reactor := do
  let s ← epollPoll { s with activeChannels := [] } events
  return { s with eventHandling := true, place := .between s.activeChannels, handled := [] }

/-- `handleEvent` of `ch`, up to its callbacks: they run if the channel is not tied, or its
owner is still there. -/
def handleEvent (s : Reactor) (ch : ChannelPtr) (rest : List ChannelPtr) (guard : Bool) :
    Except Fault Reactor := do
  check .danglingDispatch (s.alive ch = true)
  if (s.poller.objects ch).tied = true ∧ guard = false then
    return { s with
      currentActiveChannel := some ch
      place := .between rest
      handled := s.handled ++ [(ch, [])] }
  else
    return { s with
      currentActiveChannel := some ch
      handling := Function.update s.handling ch true
      place := .handling ch rest
      handled := s.handled ++ [(ch, Channel.handleEventWithGuard (s.revents ch))] }

def dispatch (s : Reactor) (guard : Bool) : Except Fault Reactor :=
  match s.place with
  | .between (ch :: rest) => s.handleEvent ch rest guard
  | _ => .ok s

/-- `M_eventHandling = false`, at the end of `handleEventWithGuard`. -/
def handlingDone (s : Reactor) : Except Fault Reactor :=
  match s.place with
  | .handling ch rest => do
      check .danglingHandled (s.alive ch = true)
      return { s with handling := Function.update s.handling ch false, place := .between rest }
  | _ => .ok s

/-- `M_currentActiveChannel = NULL; M_eventHandling = false`. -/
def finish (s : Reactor) : Reactor :=
  { s with currentActiveChannel := none, eventHandling := false, place := .outside }

def exec (s : Reactor) : Act → Except Fault Reactor
  | .construct ch fd => .ok (s.construct ch fd)
  | .tie ch => .ok (s.tie ch)
  | .change ch i => s.change ch i
  | .remove ch => s.remove ch
  | .destroy ch => s.destroy ch
  | .poll events => s.poll events
  | .dispatch guard => s.dispatch guard
  | .handled => s.handlingDone
  | .finish => .ok s.finish

/-- What `epoll_wait` may write: entries of the epoll set, each at most once, with events
that were asked for or are always reported, and no more than there is room for. -/
structure Reported (s : Reactor) (events : List (ChannelPtr × Events)) : Prop where
  room : events.length ≤ s.eventsSize
  nodup : (events.map fun x => (s.poller.objects x.1).fd).Nodup
  entry : ∀ x ∈ events, ∃ mask,
    s.poller.epoll (s.poller.objects x.1).fd = some (mask, x.1) ∧ mask.Reports x.2

/-- Code of the user runs in callbacks and functors, and does not use a channel that it
has destroyed; the rest follows `loop()`. -/
def Enabled (s : Reactor) : Act → Prop
  | .construct ch _ => s.place.inCallback = true ∧ s.alive ch = false
  | .tie ch | .change ch _ | .remove ch | .destroy ch =>
      s.place.inCallback = true ∧ s.alive ch = true
  | .poll events => s.place = .outside ∧ s.Reported events
  | .dispatch _ => (s.place matches .between (_ :: _)) = true
  | .handled => (s.place matches .handling _ _) = true
  | .finish => s.place = .between []

instance (s : Reactor) (events : List (ChannelPtr × Events)) : Decidable (s.Reported events) :=
  decidable_of_iff (events.length ≤ s.eventsSize ∧
      (events.map fun x => (s.poller.objects x.1).fd).Nodup ∧
      ∀ x ∈ events, ∃ e ∈ s.poller.epoll (s.poller.objects x.1).fd, e.2 = x.1 ∧ e.1.Reports x.2) <| by
    constructor
    · rintro ⟨hroom, hnodup, hentry⟩
      refine ⟨hroom, hnodup, fun x hx => ?_⟩
      obtain ⟨⟨mask, ch⟩, he, rfl, hr⟩ := hentry x hx
      exact ⟨mask, he, hr⟩
    · rintro ⟨hroom, hnodup, hentry⟩
      refine ⟨hroom, hnodup, fun x hx => ?_⟩
      obtain ⟨mask, he, hr⟩ := hentry x hx
      exact ⟨(mask, x.1), he, rfl, hr⟩

instance (s : Reactor) : ∀ a, Decidable (s.Enabled a)
  | .construct _ _ | .tie _ | .change _ _ | .remove _ | .destroy _ | .poll _ =>
      inferInstanceAs (Decidable (_ ∧ _))
  | .dispatch _ | .handled => inferInstanceAs (Decidable (_ = true))
  | .finish => inferInstanceAs (Decidable (s.place = .between []))

theorem enabled_dispatch {s : Reactor} {guard : Bool} (h : s.Enabled (.dispatch guard)) :
    ∃ ch rest, s.place = .between (ch :: rest) := by
  cases hplace : s.place with
  | between rest => cases rest <;> simp_all [Enabled]
  | _ => simp_all [Enabled]

theorem enabled_handled {s : Reactor} (h : s.Enabled .handled) :
    ∃ ch rest, s.place = .handling ch rest := by
  cases hplace : s.place <;> simp_all [Enabled]

end Reactor

def reactorSys : Sys Reactor Act Fault := ⟨Reactor.Enabled, Reactor.exec⟩

instance (s : Reactor) (a : Act) : Decidable (reactorSys.enabled s a) :=
  inferInstanceAs (Decidable (s.Enabled a))

end Muduo.Dispatch
