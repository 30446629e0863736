import Mathlib
import Muduo.Lib.System

/-!
# The event loop (`EventLoop.h`, `EventLoop.cpp`)

One thread runs `loop()`; any number of others call `queueInLoop` and `quit`.
What the mutex makes atomic is one step of the model: a push, and the swap of
`doPendingFunctors`. Everything else a thread does is a step of its own, so
other threads may move between the push and the `wakeup()` of a `queueInLoop`,
between the two statements of `quit`, and between any two statements of the
loop thread that others can observe.

Functors are opaque: `F` is an arbitrary type. While one runs, or while an
event callback runs, the loop thread may itself call `queueInLoop` and `quit`.
-/

namespace Muduo.Loop

open Lib

variable {F : Type}

/-- The assertion of `loop()`. -/
inductive Assert
  | notLooping
  deriving DecidableEq, Repr

/-- An active channel: `M_wakeupChannel`, or one whose callbacks belong to the
user of the loop. -/
inductive Active
  | wakeupChannel
  | userChannel
  deriving DecidableEq, Repr

/-- Where the loop thread is. -/
inductive Pc (F : Type)
  /-- Outside `loop()`. -/
  | idle
  /-- At the condition of the `while`. -/
  | test
  /-- About to enter `M_poller->poll`, or blocked in it. -/
  | poll
  /-- In the `for` over `M_activeChannels`: the channel whose `handleEvent` was
  called last, and those still to come. -/
  | handling (current : Option Active) (rest : List Active)
  /-- In `doPendingFunctors`, before the swap. -/
  | swapping
  /-- In `doPendingFunctors`, after the swap: the functor called last, and the
  rest of the batch. -/
  | running (current : Option F) (rest : List F)
  deriving DecidableEq, Repr

structure EventLoop (F : Type) where
  looping : Bool
  quit : Bool
  eventHandling : Bool
  callingPendingFunctors : Bool
  pendingFunctors : List F
  /-- The counter of the eventfd `M_wakeupFd`. -/
  wakeupFd : Nat
  pc : Pc F
  /-- The loop thread is in `queueInLoop`, past its push. -/
  queueing : Bool
  /-- Other threads in `queueInLoop`, past their push and before `wakeup()`. -/
  waking : List Nat
  /-- Other threads in `quit`, past the assignment and before `wakeup()`. -/
  quitting : List Nat
  /-- The functors called so far, in order. -/
  executed : List F

/-- `EventLoop()`. -/
def EventLoop.new : EventLoop F where
  looping := false
  quit := false
  eventHandling := false
  callingPendingFunctors := false
  pendingFunctors := []
  wakeupFd := 0
  pc := .idle
  queueing := false
  waking := []
  quitting := []
  executed := []

/-- The largest value an eventfd counter takes; a write that would exceed it
fails with `EAGAIN`. -/
def kMaxCounter : Nat := 2 ^ 64 - 2

inductive Act (F : Type)
  /-- `loop()` is called. -/
  | enter
  | test
  | pollReturn (active : List Active)
  /-- `handleEvent` of the next active channel. -/
  | dispatch
  /-- `M_callingPendingFunctors = true`. -/
  | beginPending
  | swap
  /-- `functors[i]()`. -/
  | call
  /-- `M_callingPendingFunctors = false`. -/
  | endPending
  /-- `queueInLoop` in the loop thread: the push. -/
  | queue (f : F)
  /-- Its end: the test of the flag, and `wakeup()`. -/
  | queueEnd
  /-- `quit` in the loop thread. -/
  | quit
  /-- `queueInLoop` in thread `t`: the push. -/
  | threadQueue (t : Nat) (f : F)
  | threadWakeup (t : Nat)
  /-- `quit` in thread `t`: the assignment. -/
  | threadQuit (t : Nat)
  | threadQuitWakeup (t : Nat)
  deriving DecidableEq, Repr

namespace EventLoop

def wakeup (s : EventLoop F) : EventLoop F :=
  { s with wakeupFd := min (s.wakeupFd + 1) kMaxCounter }

/-- `handleRead`. Reading an eventfd returns its counter and resets it; when
the counter is 0 the read fails and leaves it so. -/
def handleRead (s : EventLoop F) : EventLoop F := { s with wakeupFd := 0 }

def push (s : EventLoop F) (f : F) : EventLoop F :=
  { s with pendingFunctors := s.pendingFunctors ++ [f] }

def setPc (s : EventLoop F) (pc : Pc F) : EventLoop F := { s with pc := pc }

/-- The beginning of `loop()`; its `M_loop = true` is read as `M_looping`. -/
def enter (s : EventLoop F) : Except Assert (EventLoop F) := do
  check .notLooping (s.looping = false)
  return { s with looping := true, quit := false, pc := .test }

/-- `while(!M_quit)`. -/
def test (s : EventLoop F) : EventLoop F :=
  if s.quit = true then { s with looping := false, pc := .idle } else s.setPc .poll

def pollReturn (s : EventLoop F) (active : List Active) : EventLoop F :=
  { s with eventHandling := true, pc := .handling none active }

/-- `handleEvent` of the next channel: the wakeup channel reads the eventfd,
any other runs callbacks of the user. -/
def dispatch (s : EventLoop F) : EventLoop F :=
  match s.pc with
  | .handling _ (.wakeupChannel :: rest) =>
      s.handleRead.setPc (.handling (some .wakeupChannel) rest)
  | .handling _ (.userChannel :: rest) => s.setPc (.handling (some .userChannel) rest)
  | _ => s

def beginPending (s : EventLoop F) : EventLoop F :=
  { s with eventHandling := false, callingPendingFunctors := true, pc := .swapping }

/-- `functors.swap(M_pendingFunctors)`. -/
def swap (s : EventLoop F) : EventLoop F :=
  { s with pendingFunctors := [], pc := .running none s.pendingFunctors }

def call (s : EventLoop F) : EventLoop F :=
  match s.pc with
  | .running _ (f :: rest) =>
      { s with executed := s.executed ++ [f], pc := .running (some f) rest }
  | _ => s

def endPending (s : EventLoop F) : EventLoop F :=
  { s with callingPendingFunctors := false, pc := .test }

/-- `queueInLoop` in the loop thread, up to the end of the critical section. -/
def queue (s : EventLoop F) (f : F) : EventLoop F := { s.push f with queueing := true }

/-- `if(!isInLoopThread() || M_callingPendingFunctors) wakeup()`, in the loop
thread. -/
def queueEnd (s : EventLoop F) : EventLoop F :=
  let s := { s with queueing := false }
  if s.callingPendingFunctors = true then s.wakeup else s

def threadQueue (s : EventLoop F) (t : Nat) (f : F) : EventLoop F :=
  { s.push f with waking := t :: s.waking }

def threadWakeup (s : EventLoop F) (t : Nat) : EventLoop F :=
  { s.wakeup with waking := s.waking.erase t }

def threadQuit (s : EventLoop F) (t : Nat) : EventLoop F :=
  { s with quit := true, quitting := t :: s.quitting }

def threadQuitWakeup (s : EventLoop F) (t : Nat) : EventLoop F :=
  { s.wakeup with quitting := s.quitting.erase t }

/-- Is code of the user running in the loop thread, inside `loop()`? -/
def inCallback (s : EventLoop F) : Bool :=
  match s.pc with
  | .handling (some .userChannel) _ => true
  | .running (some _) _ => true
  | _ => false

end EventLoop

open EventLoop

def exec (s : EventLoop F) : Act F → Except Assert (EventLoop F)
  | .enter => s.enter
  | .test => .ok s.test
  | .pollReturn active => .ok (s.pollReturn active)
  | .dispatch => .ok s.dispatch
  | .beginPending => .ok s.beginPending
  | .swap => .ok s.swap
  | .call => .ok s.call
  | .endPending => .ok s.endPending
  | .queue f => .ok (s.queue f)
  | .queueEnd => .ok s.queueEnd
  | .quit => .ok { s with quit := true }
  | .threadQueue t f => .ok (s.threadQueue t f)
  | .threadWakeup t => .ok (s.threadWakeup t)
  | .threadQuit t => .ok (s.threadQuit t)
  | .threadQuitWakeup t => .ok (s.threadQuitWakeup t)

/-- Is the step one of the program's at this point? The loop thread follows
its code, and does nothing else while it is in `queueInLoop`; another thread
makes one call at a time. -/
def enabled (s : EventLoop F) : Act F → Bool
  | .enter => (s.pc matches .idle)
  | .test => (s.pc matches .test)
  | .pollReturn _ => (s.pc matches .poll)
  | .dispatch => !s.queueing && (s.pc matches .handling _ (_ :: _))
  | .beginPending => !s.queueing && (s.pc matches .handling _ [])
  | .swap => (s.pc matches .swapping)
  | .call => !s.queueing && (s.pc matches .running _ (_ :: _))
  | .endPending => !s.queueing && (s.pc matches .running _ [])
  | .queue _ | .quit => !s.queueing && s.inCallback
  | .queueEnd => s.queueing
  | .threadQueue t _ | .threadQuit t => !s.waking.elem t && !s.quitting.elem t
  | .threadWakeup t => s.waking.elem t
  | .threadQuitWakeup t => s.quitting.elem t

def loopSys : Sys (EventLoop F) (Act F) Assert := ⟨fun s a => enabled s a = true, exec⟩

instance (s : EventLoop F) (a : Act F) : Decidable (loopSys.enabled s a) :=
  inferInstanceAs (Decidable (enabled s a = true))

/-- The rest of the batch that `doPendingFunctors` is running. -/
def EventLoop.batch (s : EventLoop F) : List F :=
  match s.pc with
  | .running _ rest => rest
  | _ => []

/-- The functor a step pushes. -/
def Act.push? : Act F → Option F
  | .queue f | .threadQueue _ f => some f
  | _ => none

/-- All functors pushed by a run, in push order. -/
def pushes (acts : List (Act F)) : List F := acts.filterMap Act.push?

end Muduo.Loop
