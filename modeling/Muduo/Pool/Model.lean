import Muduo.Lib.Condition
import Muduo.Lib.System

/-!
# The thread pool (`ThreadPool.h`, `ThreadPool.cpp`)

The threads are a list of program points: first the workers, which run
`runInThread`, then the threads that only call `run`. A critical section under
`M_mutex` is one step; `Condition::wait` ends it with the thread blocked, and the
step in which the thread comes back re-enters the loop around the wait. A task
may call `run`, so a worker can be blocked on `M_notFull` in the middle of one.

A `Task` is a `boost::function`, which may be empty.
-/

namespace Muduo.Pool

open Lib

/-- `boost::function<void ()>`; `none` is the empty one. -/
abbrev Task (τ : Type) := Option τ

/-- Where a thread is. -/
inductive Pc (τ : Type)
  /-- Not in the pool. -/
  | outside
  /-- A worker, at the test of `while(M_running)`. -/
  | loop
  /-- A worker, at its call of `take()`. -/
  | calling
  | waitNotEmpty (signalled : Bool)
  /-- A worker that executes a task. -/
  | running (task : τ)
  /-- In `run(task)`; `caller` is the task that called it, `none` for a thread
  that is not a worker. -/
  | waitNotFull (task : Task τ) (caller : Option τ) (signalled : Bool)
  | exited
  deriving DecidableEq, Repr

inductive Fault
  | runIsFull
  deriving DecidableEq, Repr

structure ThreadPool (τ : Type) where
  maxQueueSize : Nat
  running : Bool
  queue : List (Task τ)
  /-- `M_threads.size()`. -/
  workers : Nat
  threads : List (Pc τ)
  /-- The tasks that `run` has pushed, in this order. -/
  pushed : List (Task τ)
  /-- What the calls of `take` have returned, in this order. -/
  returned : List (Task τ)

variable {τ : Type}

def notEmpty : CondVar (Pc τ) where
  blocked
    | .waitNotEmpty s => !s
    | _ => false
  signalled
    | .waitNotEmpty s => s
    | _ => false
  signal
    | .waitNotEmpty _ => .waitNotEmpty true
    | pc => pc
  blocked_signal pc := by cases pc <;> rfl
  signalled_signal pc := by cases pc <;> simp
  signal_of_not_blocked pc := by cases pc <;> simp
  not_both pc := by cases pc <;> simp

def notFull : CondVar (Pc τ) where
  blocked
    | .waitNotFull _ _ s => !s
    | _ => false
  signalled
    | .waitNotFull _ _ s => s
    | _ => false
  signal
    | .waitNotFull task caller _ => .waitNotFull task caller true
    | pc => pc
  blocked_signal pc := by cases pc <;> rfl
  signalled_signal pc := by cases pc <;> simp
  signal_of_not_blocked pc := by cases pc <;> simp
  not_both pc := by cases pc <;> simp

namespace ThreadPool

/-- The pool after `start(workers)`, with `others` threads beside the workers. -/
def start (maxQueueSize workers others : Nat) : ThreadPool τ where
  maxQueueSize := maxQueueSize
  running := true
  queue := []
  workers := workers
  threads := List.replicate workers .loop ++ List.replicate others .outside
  pushed := []
  returned := []

def isFull (p : ThreadPool τ) : Bool :=
  p.maxQueueSize > 0 && p.queue.length ≥ p.maxQueueSize

def setPc (p : ThreadPool τ) (i : Nat) (pc : Pc τ) : ThreadPool τ :=
  { p with threads := p.threads.set i pc }

def notifyNotEmpty (p : ThreadPool τ) (woken : List Nat) : ThreadPool τ :=
  { p with threads := notEmpty.notify woken p.threads }

def notifyNotFull (p : ThreadPool τ) (woken : List Nat) : ThreadPool τ :=
  { p with threads := notFull.notify woken p.threads }

/-- The point a call of `run` returns to. -/
def callerPc : Option τ → Pc τ
  | some task => .running task
  | none => .outside

/-- `run(task)` from the test of its loop on. -/
def run (p : ThreadPool τ) (i : Nat) (task : Task τ) (caller : Option τ) (woken : List Nat) :
    Except Fault (ThreadPool τ) :=
  if p.isFull then
    .ok (p.setPc i (.waitNotFull task caller false))
  else do
    check .runIsFull (p.isFull = false)
    let p := { p with queue := p.queue ++ [task], pushed := p.pushed ++ [task] }
    return (p.setPc i (callerPc caller)).notifyNotEmpty woken

/-- Where `runInThread` goes on with the result of `take()`: an empty task is not
called. -/
def takenPc : Task τ → Pc τ
  | some t => .running t
  | none => .loop

def takeReturn (p : ThreadPool τ) (i : Nat) (task : Task τ) : ThreadPool τ :=
  { p with returned := p.returned ++ [task] }.setPc i (takenPc task)

/-- `take()` from the test of its loop on. -/
def take (p : ThreadPool τ) (i : Nat) (woken : List Nat) : ThreadPool τ :=
  if p.queue.isEmpty && p.running then
    p.setPc i (.waitNotEmpty false)
  else
    match p.queue with
    | [] => p.takeReturn i none
    | task :: rest =>
        let p := { p with queue := rest }
        let p := p.takeReturn i task
        if p.maxQueueSize > 0 then p.notifyNotFull woken else p

/-- The critical section of `stop()`. -/
def stop (p : ThreadPool τ) : ThreadPool τ :=
  { p with running := false, threads := notEmpty.notifyAll p.threads }

end ThreadPool

/-- The steps of the threads. `woken` are the threads that the `notify` of the
step signals, if it comes to one. -/
inductive Act (τ : Type)
  /-- Thread `i` calls `run(task)`. -/
  | run (i : Nat) (task : Task τ) (woken : List Nat)
  /-- Thread `i` returns from `M_notFull.wait()`, signalled or not. -/
  | wakeRun (i : Nat) (woken : List Nat)
  /-- Worker `i` tests `M_running`. -/
  | test (i : Nat)
  /-- Worker `i` calls `take()`. -/
  | take (i : Nat) (woken : List Nat)
  /-- Worker `i` returns from `M_notEmpty.wait()`, signalled or not. -/
  | wakeTake (i : Nat) (woken : List Nat)
  /-- The task of worker `i` returns. -/
  | finish (i : Nat)
  | stop
  deriving DecidableEq, Repr

/-- The thread can call `run`. -/
def Pc.mayRun : Pc τ → Bool
  | .outside | .running _ => true
  | _ => false

/-- The thread is inside `M_notFull.wait()`. -/
def Pc.inNotFull : Pc τ → Bool
  | .waitNotFull .. => true
  | _ => false

/-- The thread is inside `M_notEmpty.wait()`. -/
def Pc.inNotEmpty : Pc τ → Bool
  | .waitNotEmpty _ => true
  | _ => false

/-- The thread is about to test `M_running`. -/
def Pc.inLoop : Pc τ → Bool
  | .loop => true
  | _ => false

/-- The thread is about to call `take()`. -/
def Pc.inCall : Pc τ → Bool
  | .calling => true
  | _ => false

/-- The thread executes a task. -/
def Pc.inTask : Pc τ → Bool
  | .running _ => true
  | _ => false

namespace ThreadPool

/-- Thread `i` is at a place. -/
def isAt (p : ThreadPool τ) (i : Nat) (place : Pc τ → Bool) : Prop :=
  ∃ pc ∈ p.threads[i]?, place pc = true

instance (p : ThreadPool τ) (i : Nat) (place : Pc τ → Bool) : Decidable (p.isAt i place) :=
  inferInstanceAs (Decidable (∃ pc ∈ _, _))

/-- A `notify` signals at least one of the threads that wait, if there is one. -/
def enabled (p : ThreadPool τ) : Act τ → Prop
  | .run i _ woken => p.isAt i Pc.mayRun ∧ notEmpty.Wakes woken p.threads
  | .wakeRun i woken => p.isAt i Pc.inNotFull ∧ notEmpty.Wakes woken p.threads
  | .test i => p.isAt i Pc.inLoop
  | .take i woken => p.isAt i Pc.inCall ∧ notFull.Wakes woken p.threads
  | .wakeTake i woken => p.isAt i Pc.inNotEmpty ∧ notFull.Wakes woken p.threads
  | .finish i => p.isAt i Pc.inTask
  | .stop => True

instance decidableEnabled (p : ThreadPool τ) : ∀ a, Decidable (p.enabled a)
  | .run .. => inferInstanceAs (Decidable (_ ∧ _))
  | .wakeRun .. => inferInstanceAs (Decidable (_ ∧ _))
  | .test i => inferInstanceAs (Decidable (p.isAt i _))
  | .take .. => inferInstanceAs (Decidable (_ ∧ _))
  | .wakeTake .. => inferInstanceAs (Decidable (_ ∧ _))
  | .finish i => inferInstanceAs (Decidable (p.isAt i _))
  | .stop => inferInstanceAs (Decidable True)

def exec (p : ThreadPool τ) : Act τ → Except Fault (ThreadPool τ)
  | .run i task woken =>
      -- without workers, the caller executes the task itself
      if p.workers = 0 then .ok p
      else
        match p.threads[i]? with
        | some (.running t) => p.run i task (some t) woken
        | some .outside => p.run i task none woken
        | _ => .ok p
  | .wakeRun i woken =>
      match p.threads[i]? with
      | some (.waitNotFull task caller _) => p.run i task caller woken
      | _ => .ok p
  | .test i => .ok (p.setPc i (if p.running then .calling else .exited))
  | .take i woken => .ok (p.take i woken)
  | .wakeTake i woken => .ok (p.take i woken)
  | .finish i => .ok (p.setPc i .loop)
  | .stop => .ok p.stop

end ThreadPool

def poolSys : Sys (ThreadPool τ) (Act τ) Fault := ⟨ThreadPool.enabled, ThreadPool.exec⟩

instance (p : ThreadPool τ) (a : Act τ) : Decidable (poolSys.enabled p a) :=
  p.decidableEnabled a

end Muduo.Pool
