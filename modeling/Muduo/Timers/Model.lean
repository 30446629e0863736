import Mathlib.Data.Prod.Lex
import Muduo.Lib.OrdSet
import Muduo.Lib.System

/-!
# The timer queue (`TimerQueue.h`, `TimerQueue.cpp`, `Timer.h`, `Timer.cpp`)

`Timer` objects live on a heap that the allocator manages: `new` takes any
free address, also one whose former `Timer` was deleted, and a dereference or a
`delete` of a free address is a fault. The queue keeps pointers in two sets,
one keyed by expiration and one by address and sequence number.

Timestamps are microseconds. An interval is what `addTime` adds for it, in
microseconds; whether a timer repeats is decided by the `double` it was given,
so the two are separate. `handleRead` is split at the callbacks it runs: they
are code of the user, and may add and cancel timers in between.
-/

namespace Muduo.Timers

open Lib

/-- A `Timer*`. -/
abbrev Addr := Nat

def UINTPTR_MAX : Addr := 2 ^ 64 - 1

/-- The data members of `Timer`, without the callback. -/
structure Timer where
  expiration : Int
  interval : Int
  repeats : Bool
  sequence : Nat
  deriving DecidableEq, Repr

/-- `restart(now)`. -/
def Timer.restart (t : Timer) (now : Int) : Timer :=
  { t with expiration := if t.repeats = true then now + t.interval else 0 }

/-- `std::pair<Timestamp, Timer*>`. -/
abbrev Entry := Int ×ₗ Addr

/-- `std::pair<Timer*, int64_t>`. -/
abbrev ActiveTimer := Addr ×ₗ Nat

def entry (expiration : Int) (timer : Addr) : Entry := toLex (expiration, timer)

def activeTimer (timer : Addr) (sequence : Nat) : ActiveTimer := toLex (timer, sequence)

/-- The `Timer*` of an entry. -/
def addr (e : Entry) : Addr := (ofLex e).2

/-- The assertions of `TimerQueue.cpp`, and the memory faults. -/
inductive Fault
  | sizes | eraseCount | inserted | expired
  | useAfterFree | doubleDelete
  deriving DecidableEq, Repr

/-- Where `handleRead` is: outside, or running the callbacks of the batch it
took out, the rest of which is still to run. -/
inductive Pc
  | idle
  | calling (now : Int) (expired rest : List Entry)

structure TimerQueue where
  heap : Addr → Option Timer
  /-- `Timer::s_numCreated`. -/
  numCreated : Nat
  /-- Timers created by `addTimer` whose `addTimerInLoop` has not run yet. -/
  created : List Addr
  timers : OrdSet Entry
  activeTimers : OrdSet ActiveTimer
  callingExpiredTimers : Bool
  cancelingTimers : OrdSet ActiveTimer
  /-- The timestamp given to the last `resetTimerfd` since `readTimerfd`. -/
  armed : Option Int
  pc : Pc
  /-- The callbacks run so far: sequence number and `now`, oldest first. -/
  ran : List (Nat × Int)
  /-- The sequence numbers of the deleted timers. -/
  deleted : List Nat

namespace TimerQueue

/-- `TimerQueue(loop)`, in a program that has created no timer yet. -/
def new : TimerQueue where
  heap := fun _ => none
  numCreated := 0
  created := []
  timers := .empty
  activeTimers := .empty
  callingExpiredTimers := false
  cancelingTimers := .empty
  armed := none
  pc := .idle
  ran := []
  deleted := []

/-! ## The heap -/

/-- `*timer`. -/
def deref (q : TimerQueue) (timer : Addr) : Except Fault Timer :=
  match q.heap timer with
  | some t => .ok t
  | none => .error .useAfterFree

def store (q : TimerQueue) (timer : Addr) (t : Option Timer) : TimerQueue :=
  { q with heap := Function.update q.heap timer t }

/-- `new Timer(cb, when, interval)`, which the allocator places at `timer`. -/
def newTimer (q : TimerQueue) (timer : Addr) (when interval : Int) (repeats : Bool) :
    TimerQueue :=
  let q := q.store timer (some ⟨when, interval, repeats, q.numCreated + 1⟩)
  { q with numCreated := q.numCreated + 1, created := timer :: q.created }

/-- `delete timer`. -/
def delete (q : TimerQueue) (timer : Addr) : Except Fault TimerQueue :=
  match q.heap timer with
  | some t => .ok { q.store timer none with deleted := t.sequence :: q.deleted }
  | none => .error .doubleDelete

def setTimers (q : TimerQueue) (timers : OrdSet Entry) : TimerQueue := { q with timers := timers }

def setActive (q : TimerQueue) (activeTimers : OrdSet ActiveTimer) : TimerQueue :=
  { q with activeTimers := activeTimers }

def resetTimerfd (q : TimerQueue) (expiration : Int) : TimerQueue :=
  { q with armed := some expiration }

/-- `assert(M_timers.size() == M_activeTimers.size())`. -/
def checkSizes (q : TimerQueue) : Except Fault Unit :=
  check .sizes (q.timers.size = q.activeTimers.size)

/-! ## Operations of the queue -/

/-- `it == M_timers.end() || when < it->first`, for `it = M_timers.begin()`. -/
def earliestChanged (q : TimerQueue) (when : Int) : Bool :=
  match q.timers.first? with
  | none => true
  | some e => when < (ofLex e).1

def insert (q : TimerQueue) (timer : Addr) : Except Fault (TimerQueue × Bool) := do
  q.checkSizes
  let t ← q.deref timer
  let changed := q.earliestChanged t.expiration
  check .inserted (entry t.expiration timer ∉ q.timers)
  let q := q.setTimers (q.timers.insert (entry t.expiration timer))
  check .inserted (activeTimer timer t.sequence ∉ q.activeTimers)
  let q := q.setActive (q.activeTimers.insert (activeTimer timer t.sequence))
  q.checkSizes
  return (q, changed)

/-- `addTimerInLoop(timer)`. -/
def addTimerInLoop (q : TimerQueue) (timer : Addr) : Except Fault TimerQueue := do
  let q := { q with created := q.created.erase timer }
  let (q, changed) ← q.insert timer
  if changed = true then
    let t ← q.deref timer
    return q.resetTimerfd t.expiration
  else
    return q

/-- `cancelInLoop(timerId)`. -/
def cancelInLoop (q : TimerQueue) (timer : Addr) (sequence : Nat) : Except Fault TimerQueue := do
  q.checkSizes
  if activeTimer timer sequence ∈ q.activeTimers then
    let t ← q.deref timer
    check .eraseCount (entry t.expiration timer ∈ q.timers)
    let q := q.setTimers (q.timers.erase (entry t.expiration timer))
    let q ← q.delete timer
    let q := q.setActive (q.activeTimers.erase (activeTimer timer sequence))
    q.checkSizes
    return q
  else
    -- an expired timer whose callback is running or done: `reset` must not restart it
    let q := if q.callingExpiredTimers = true then
      { q with cancelingTimers := q.cancelingTimers.insert (activeTimer timer sequence) } else q
    q.checkSizes
    return q

/-- The loop of `getExpired` over the entries it moved out. -/
def eraseActive (q : TimerQueue) : List Entry → Except Fault TimerQueue
  | [] => .ok q
  | e :: expired => do
      let t ← q.deref (addr e)
      check .eraseCount (activeTimer (addr e) t.sequence ∈ q.activeTimers)
      (q.setActive (q.activeTimers.erase (activeTimer (addr e) t.sequence))).eraseActive expired

/-- `end == M_timers.end() || now < end->first`, for the `end` that
`lower_bound` found. -/
def noneExpiredFrom (rest : OrdSet Entry) (now : Int) : Prop :=
  match rest.first? with
  | none => True
  | some e => now < (ofLex e).1

instance (rest : OrdSet Entry) (now : Int) : Decidable (noneExpiredFrom rest now) :=
  match h : rest.first? with
  | none => .isTrue (by simp [noneExpiredFrom, h])
  | some e => decidable_of_iff (now < (ofLex e).1) (by simp [noneExpiredFrom, h])

def getExpired (q : TimerQueue) (now : Int) : Except Fault (TimerQueue × List Entry) := do
  q.checkSizes
  -- above every entry that expires at `now`
  let sentry := entry now UINTPTR_MAX
  check .expired (noneExpiredFrom (q.timers.since sentry) now)
  let expired := q.timers.below sentry
  let q ← (q.setTimers (q.timers.since sentry)).eraseActive expired
  q.checkSizes
  return (q, expired)

/-- `handleRead`, up to the first callback. -/
def handleReadBegin (q : TimerQueue) (now : Int) : Except Fault TimerQueue := do
  let q := { q with armed := none }
  let (q, expired) ← q.getExpired now
  return { q with
    callingExpiredTimers := true, cancelingTimers := .empty, pc := .calling now expired expired }

/-- `it->second->run()`: the callback of the next timer of the batch. -/
def runNext (q : TimerQueue) : Except Fault TimerQueue :=
  match q.pc with
  | .calling now expired (e :: rest) => do
      let t ← q.deref (addr e)
      return { q with ran := q.ran ++ [(t.sequence, now)], pc := .calling now expired rest }
  | _ => .ok q

/-- One turn of the loop of `reset`. -/
def resetOne (q : TimerQueue) (now : Int) (timer : Addr) : Except Fault TimerQueue := do
  let t ← q.deref timer
  if t.repeats = true ∧ activeTimer timer t.sequence ∉ q.cancelingTimers then
    let r ← (q.store timer (some (t.restart now))).insert timer
    return r.1
  else
    q.delete timer

def resetAll (q : TimerQueue) (now : Int) : List Entry → Except Fault TimerQueue
  | [] => .ok q
  | e :: expired => do
      let q ← q.resetOne now (addr e)
      q.resetAll now expired

/-- `nextExpire`; a default `Timestamp` is 0. -/
def nextExpire (q : TimerQueue) : Except Fault Int :=
  match q.timers.first? with
  | none => .ok 0
  | some e => do
      let t ← q.deref (addr e)
      return t.expiration

def reset (q : TimerQueue) (expired : List Entry) (now : Int) : Except Fault TimerQueue := do
  let q ← q.resetAll now expired
  let next ← q.nextExpire
  return if 0 < next then q.resetTimerfd next else q

/-- The end of `handleRead`, after the last callback. -/
def handleReadEnd (q : TimerQueue) : Except Fault TimerQueue :=
  match q.pc with
  | .calling now expired _ =>
      { q with callingExpiredTimers := false, pc := .idle }.reset expired now
  | .idle => .ok q

end TimerQueue

/-! ## Runs -/

inductive Act
  /-- `addTimer`, in any thread: the creation of the timer. -/
  | newTimer (timer : Addr) (when interval : Int) (repeats : Bool)
  | addTimerInLoop (timer : Addr)
  | cancelInLoop (timer : Addr) (sequence : Nat)
  | handleRead (now : Int)
  /-- The next callback of the batch. -/
  | runNext
  /-- The end of `handleRead`. -/
  | reset
  deriving DecidableEq, Repr

def exec (q : TimerQueue) : Act → Except Fault TimerQueue
  | .newTimer timer when interval repeats => .ok (q.newTimer timer when interval repeats)
  | .addTimerInLoop timer => q.addTimerInLoop timer
  | .cancelInLoop timer sequence => q.cancelInLoop timer sequence
  | .handleRead now => q.handleReadBegin now
  | .runNext => q.runNext
  | .reset => q.handleReadEnd

/-- `new` returns a free address that an object can have; `addTimerInLoop` runs
once for every timer that `addTimer` created; the rest follows `handleRead`.
`cancelInLoop` may be called with any identifier. -/
def enabled (q : TimerQueue) : Act → Bool
  | .newTimer timer _ _ _ => 0 < timer && timer < UINTPTR_MAX && (q.heap timer).isNone
  | .addTimerInLoop timer => timer ∈ q.created
  | .cancelInLoop _ _ => true
  | .handleRead _ => (q.pc matches .idle)
  | .runNext => (q.pc matches .calling _ _ (_ :: _))
  | .reset => (q.pc matches .calling _ _ [])

def timerSys : Sys TimerQueue Act Fault := ⟨fun q a => enabled q a = true, exec⟩

instance (q : TimerQueue) (a : Act) : Decidable (timerSys.enabled q a) :=
  inferInstanceAs (Decidable (enabled q a = true))

end Muduo.Timers
