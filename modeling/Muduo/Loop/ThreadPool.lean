import Mathlib
import Muduo.Lib.CInt

/-!
# A pool of loops (`EventLoopThreadPool.h`, `EventLoopThreadPool.cpp`)

`start` makes one loop in each of `M_numThreads` threads. `getNextLoop` hands them out
in turn: it keeps the index of the next one and sets it back to 0 at the end. Without
threads there is `M_baseLoop` alone; there the function ends without a `return`.

All functions are called in the thread of `M_baseLoop`, as they assert.
-/

namespace Muduo.Loop

open Lib

/-- `EventLoop*`: `M_baseLoop`, or the loop of the thread that was started as number `i`. -/
inductive LoopPtr
  | base
  | thread (i : Nat)
  deriving DecidableEq, Repr

inductive PoolFault
  | started
  | notStarted
  /-- `M_loops[i]` with no such element. -/
  | outOfRange
  /-- Of `++M_next`. -/
  | int (e : IntFault)
  /-- The end of a function with a result, without a `return`. -/
  | noReturn
  deriving DecidableEq, Repr

/-- `implicit_cast<size_t>`. -/
def implicitCast (x : Int) : Nat := (x % 2 ^ 64).toNat

structure EventLoopThreadPool where
  started : Bool
  numThreads : Int
  next : Int
  loops : List LoopPtr
  /-- The loops the init callback has been called on. -/
  initialised : List LoopPtr
  deriving DecidableEq, Repr

namespace EventLoopThreadPool

def new : EventLoopThreadPool where
  started := false
  numThreads := 0
  next := 0
  loops := []
  initialised := []

def setThreadNum (p : EventLoopThreadPool) (numThreads : Int) : EventLoopThreadPool :=
  { p with numThreads := numThreads }

/-- One round of the loop of `start`: a thread is made, calls `cb`, and publishes its
loop. -/
def startThread (cb : Bool) (p : EventLoopThreadPool) (i : Nat) : EventLoopThreadPool :=
  { p with
    loops := p.loops ++ [.thread i]
    initialised := p.initialised ++ if cb then [.thread i] else [] }

/-- The end of `start`: without threads, `cb` is called on `M_baseLoop`. -/
def initBase (cb : Bool) (p : EventLoopThreadPool) : EventLoopThreadPool :=
  if p.numThreads = 0 ∧ cb = true then { p with initialised := p.initialised ++ [.base] } else p

/-- `start(cb)`; the argument says whether there is a callback. -/
def start (p : EventLoopThreadPool) (cb : Bool) : Except PoolFault EventLoopThreadPool := do
  check .started (p.started = false)
  return initBase cb
    ((List.range p.numThreads.toNat).foldl (startThread cb) { p with started := true })

/-- `M_loops[i]`. -/
def loopAt (p : EventLoopThreadPool) (i : Nat) : Except PoolFault LoopPtr :=
  match p.loops[i]? with
  | some loop => .ok loop
  | none => .error .outOfRange

def getNextLoop (p : EventLoopThreadPool) :
    Except PoolFault (LoopPtr × EventLoopThreadPool) := do
  check .notStarted (p.started = true)
  if p.loops ≠ [] then
    let loop ← p.loopAt (implicitCast p.next)
    let next ← (CInt.add p.next 1).mapError .int
    return (loop, { p with next := if implicitCast next ≥ p.loops.length then 0 else next })
  else
    .error .noReturn

def getLoopForHash (p : EventLoopThreadPool) (hashCode : Nat) : Except PoolFault LoopPtr :=
  if p.loops ≠ [] then p.loopAt (hashCode % p.loops.length) else .ok .base

def getAllLoops (p : EventLoopThreadPool) : Except PoolFault (List LoopPtr) := do
  check .notStarted (p.started = true)
  return if p.loops = [] then [.base] else p.loops

/-- `k` calls of `getNextLoop`, with their results in order. -/
def getLoops : Nat → EventLoopThreadPool →
    Except PoolFault (List LoopPtr × EventLoopThreadPool)
  | 0, p => .ok ([], p)
  | k + 1, p => do
      let calls ← getLoops k p
      let call ← calls.2.getNextLoop
      return (calls.1 ++ [call.1], call.2)

end EventLoopThreadPool

open EventLoopThreadPool

/-! ## Starting the pool -/

/-- The loops of a pool of `n` threads. -/
def threadLoops (n : Nat) : List LoopPtr := (List.range n).map .thread

@[simp] theorem length_threadLoops (n : Nat) : (threadLoops n).length = n := by
  simp [threadLoops]

theorem threadLoops_succ (n : Nat) : threadLoops (n + 1) = threadLoops n ++ [.thread n] := by
  simp [threadLoops, List.range_succ]

theorem threadLoops_ne_nil {n : Nat} (h : 0 < n) : threadLoops n ≠ [] :=
  List.ne_nil_of_length_pos (by rwa [length_threadLoops])

theorem threadLoops_getElem? {n i : Nat} (h : i < n) :
    (threadLoops n)[i]? = some (.thread i) := by
  simp [threadLoops, h]

/-- The loop of `start` makes the threads one after another. -/
theorem foldl_startThread (cb : Bool) (n : Nat) (p : EventLoopThreadPool) :
    (List.range n).foldl (startThread cb) p =
      { p with
        loops := p.loops ++ threadLoops n
        initialised := p.initialised ++ if cb then threadLoops n else [] } := by
  induction n with
  | zero => simp [threadLoops]
  | succ n ih =>
      rw [List.range_succ, List.foldl_append, ih]
      cases cb with
      | true => simp [startThread, threadLoops_succ]
      | false => simp [startThread, threadLoops_succ]

/-- The loops a started pool of `n` threads hands out: its threads', or the base loop. -/
def available (n : Nat) : List LoopPtr := if n = 0 then [.base] else threadLoops n

/-- A pool of `n` threads after `start(cb)`; `next` is 0 at first. -/
def startedPool (n : Nat) (cb : Bool) (next : Int) : EventLoopThreadPool where
  started := true
  numThreads := n
  next := next
  loops := threadLoops n
  initialised := if cb then available n else []

theorem start_eq (n : Nat) (cb : Bool) :
    (new.setThreadNum n).start cb = .ok (startedPool n cb 0) := by
  have hstarted : (new.setThreadNum n).started = false := rfl
  rw [start, check_of _ hstarted, ok_bind]
  show Except.ok (initBase cb ((List.range n).foldl (startThread cb) _)) = _
  rw [foldl_startThread]
  cases n with
  | zero =>
      cases cb with
      | true => rfl
      | false => rfl
  | succ n =>
      rw [initBase, if_neg fun h => absurd h.1 (Int.natCast_ne_zero.mpr n.succ_ne_zero)]
      simp [startedPool, available, setThreadNum, new]

theorem getAllLoops_eq (n : Nat) (cb : Bool) (next : Int) :
    (startedPool n cb next).getAllLoops = .ok (available n) := by
  cases n with
  | zero => rfl
  | succ n => exact congrArg Except.ok (if_neg (threadLoops_ne_nil (Nat.add_one_pos n)))

/-- The same hash code is given the same loop, whatever has been handed out; also
without threads. -/
theorem getLoopForHash_eq (n : Nat) (cb : Bool) (next : Int) (hashCode : Nat) :
    (startedPool n cb next).getLoopForHash hashCode =
      .ok (if n = 0 then .base else .thread (hashCode % n)) := by
  cases n with
  | zero => rfl
  | succ n =>
      have hlt : hashCode % (n + 1) < n + 1 := Nat.mod_lt _ (Nat.add_one_pos n)
      simp only [getLoopForHash, startedPool, length_threadLoops, loopAt]
      rw [if_pos (threadLoops_ne_nil (Nat.add_one_pos n)), threadLoops_getElem? hlt,
        if_neg (Nat.add_one_ne_zero n)]

/-! ## Handing out loops -/

/-- The loop that call number `k` should return. -/
def nthLoop (n k : Nat) : LoopPtr := if n = 0 then .base else .thread (k % n)

theorem implicitCast_of_lt {n : Nat} (h : n < 2 ^ 31) : implicitCast n = n := by
  unfold implicitCast
  omega

/-- Adding one modulo `n`, by a comparison. -/
theorem succ_mod_eq_ite {n : Nat} (h : 0 < n) (k : Nat) :
    (k + 1) % n = if k % n + 1 ≥ n then 0 else k % n + 1 := by
  have hlt := Nat.mod_lt k h
  rw [Nat.add_mod]
  split
  · have hone : k % n = n - 1 := by omega
    rcases Nat.lt_or_ge 1 n with hn | hn
    · rw [hone, Nat.mod_eq_of_lt hn, Nat.sub_add_cancel h, Nat.mod_self]
    · obtain rfl : n = 1 := by omega
      simp [Nat.mod_one]
  · rw [Nat.mod_eq_of_lt (show 1 < n by omega), Nat.mod_eq_of_lt (by omega)]

/-- One call, where there are loops. -/
theorem getNextLoop_of {p : EventLoopThreadPool} {loop : LoopPtr} (hstarted : p.started = true)
    (hloops : p.loops ≠ []) (hat : p.loopAt (implicitCast p.next) = .ok loop)
    (hadd : CInt.add p.next 1 = .ok (p.next + 1)) :
    p.getNextLoop = .ok (loop, { p with
      next := if implicitCast (p.next + 1) ≥ p.loops.length then 0 else p.next + 1 }) := by
  rw [getNextLoop, check_of _ hstarted, ok_bind, if_pos hloops, hat, ok_bind, hadd]
  rfl

/-- One call, with `n` threads: the loop whose turn it is, and the index moves on. -/
theorem getNextLoop_eq {n : Nat} (h : 0 < n) (hn : n < 2 ^ 31) (cb : Bool) (k : Nat) :
    (startedPool n cb (k % n : Nat)).getNextLoop =
      .ok (nthLoop n k, startedPool n cb ((k + 1) % n : Nat)) := by
  have hlt := Nat.mod_lt k h
  have hat : (startedPool n cb (k % n : Nat)).loopAt
      (implicitCast (k % n : Nat)) = .ok (nthLoop n k) := by
    rw [implicitCast_of_lt (by omega), loopAt, show (startedPool n cb (k % n : Nat)).loops = threadLoops n from rfl,
      threadLoops_getElem? hlt, nthLoop, if_neg h.ne']
  have hnext : (if implicitCast ((k % n : Nat) + 1) ≥ (startedPool n cb (k % n : Nat)).loops.length then 0
      else ((k % n : Nat) : Int) + 1) = ((k + 1) % n : Nat) := by
    rw [← Int.natCast_succ, implicitCast_of_lt (by omega), succ_mod_eq_ite h]
    show (if k % n + 1 ≥ (threadLoops n).length then _ else _) = _
    rw [length_threadLoops]
    split
    · rfl
    · rfl
  have hadd : CInt.add (k % n : Nat) 1 = .ok ((k % n : Nat) + 1) :=
    CInt.add_eq (by omega) (by omega)
  rw [getNextLoop_of rfl (threadLoops_ne_nil h) hat hadd]
  exact congrArg (fun next => Except.ok (nthLoop n k, startedPool n cb next)) hnext

/-- Without threads the call has no result. -/
theorem getNextLoop_zero (cb : Bool) : (startedPool 0 cb 0).getNextLoop = .error .noReturn := rfl

/-- The results of `k` calls. -/
theorem getLoops_eq {n : Nat} (h : 0 < n) (hn : n < 2 ^ 31) (cb : Bool) (k : Nat) :
    (startedPool n cb 0).getLoops k =
      .ok ((List.range k).map (nthLoop n), startedPool n cb (k % n : Nat)) := by
  induction k with
  | zero =>
      rw [Nat.zero_mod]
      rfl
  | succ k ih =>
      rw [getLoops, ih, ok_bind, getNextLoop_eq h hn, ok_bind, List.range_succ, List.map_append]
      rfl

/-- How often a loop has been handed out. -/
theorem count_nthLoop {n i : Nat} (hi : i < n) (k : Nat) :
    ((List.range k).map (nthLoop n)).count (.thread i) = k / n + if i < k % n then 1 else 0 := by
  have h : 0 < n := Nat.zero_lt_of_lt hi
  have hcount : ∀ k, ((List.range k).map (nthLoop n)).count (.thread i) =
      Nat.count (· ≡ i [MOD n]) k := by
    intro k
    induction k with
    | zero => rfl
    | succ k ih =>
        rw [List.range_succ, List.map_append, List.count_append, ih, Nat.count_succ]
        simp only [List.map_cons, List.map_nil, List.count_singleton, nthLoop, if_neg h.ne',
          Nat.ModEq, Nat.mod_eq_of_lt hi, beq_iff_eq, LoopPtr.thread.injEq]
  rw [hcount, Nat.count_modEq_card k h, Nat.mod_eq_of_lt hi]

/-- A pool of `n` threads hands out its loops in turn: every number of calls returns,
each call the loop whose turn it is, which is one of the pool's; the index stays in
range, and no loop is handed out twice more often than another. -/
def RoundRobin (n : Nat) (cb : Bool) : Prop :=
  ∀ k, Lands ((new.setThreadNum n).start cb >>= getLoops k) fun (loops, p) =>
    loops = (List.range k).map (nthLoop n) ∧
    Lands p.getAllLoops (fun all => (∀ loop ∈ loops, loop ∈ all) ∧
      ∀ a ∈ all, ∀ b ∈ all, loops.count a ≤ loops.count b + 1) ∧
    0 ≤ p.next ∧ p.next < max n 1

/-- **Loops are handed out in turn if there are threads.** -/
theorem round_robin_iff (n : Nat) (hn : n < 2 ^ 31) (cb : Bool) : RoundRobin n cb ↔ 0 < n := by
  constructor
  · intro hfair
    rcases Nat.eq_zero_or_pos n with rfl | hpos
    · obtain ⟨r, hr, -⟩ := hfair 1
      rw [start_eq, ok_bind, getLoops, getLoops, ok_bind, getNextLoop_zero] at hr
      exact absurd hr (by simp)
    · exact hpos
  · intro h k
    have hmod := Nat.mod_lt k h
    rw [start_eq, ok_bind, getLoops_eq h hn]
    refine .ok ⟨rfl, ?_, Int.natCast_nonneg _, ?_⟩
    · rw [getAllLoops_eq, available, if_neg h.ne']
      refine .ok ⟨fun loop hloop => ?_, fun a ha b hb => ?_⟩
      · obtain ⟨j, -, rfl⟩ := List.mem_map.mp hloop
        rw [nthLoop, if_neg h.ne']
        exact List.mem_map_of_mem (List.mem_range.mpr (Nat.mod_lt j h))
      · obtain ⟨i, hi, rfl⟩ := List.mem_map.mp ha
        obtain ⟨j, hj, rfl⟩ := List.mem_map.mp hb
        rw [count_nthLoop (List.mem_range.mp hi), count_nthLoop (List.mem_range.mp hj)]
        split
        · omega
        · omega
    · show ((k % n : Nat) : Int) < _
      omega

theorem round_robin_iff_three : 3 < 2 ^ 31 ∧ RoundRobin 3 true :=
  ⟨by decide, (round_robin_iff 3 (by decide) true).mpr (by decide)⟩

/-- The default, no threads: `TcpServer::newConnection` is given no loop, where
`getLoopForHash` returns the base loop. -/
theorem round_robin_default :
    ((new.start false) >>= getNextLoop) = .error .noReturn ∧
      ((new.start false) >>= fun p => p.getLoopForHash 0) = .ok .base ∧ ¬ RoundRobin 0 false :=
  ⟨rfl, rfl, fun hfair => by
    obtain ⟨r, hr, -⟩ := hfair 1
    rw [start_eq, ok_bind, getLoops, getLoops, ok_bind, getNextLoop_zero] at hr
    exact absurd hr (by simp)⟩

end Muduo.Loop
