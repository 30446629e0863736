import Muduo.Lib.System
import Muduo.Loop.ThreadPool

/-!
# Starting a server (`TcpServer::start`)

`start` may be called any number of times and, as its comment says, in any thread:
`M_started.getAndSet(1)` lets one caller in. This one starts the thread pool and has the
acceptor listen, and from then on the loop accepts connections and deals them out. The
callers run at the same time; between the exchange and the two calls behind it the others
may come in.

`EventLoopThreadPool::start` asserts that it runs in the thread of `M_baseLoop`. So the
thread that is let in must be this one, whoever comes after it.
-/

namespace Muduo.Server

open Lib Loop EventLoopThreadPool

/-- The thread of `M_loop`. The others have the numbers from 1 on. -/
def loopThread : Nat := 0

inductive StartFault
  /-- `assert(0 <= numThreads)`. -/
  | numThreads
  /-- `assert(!M_acceptor->listening())`. -/
  | listening
  | notInLoopThread
  | pool (e : PoolFault)
  deriving DecidableEq, Repr

/-- What a caller of `start` has still to do. -/
inductive Chosen
  | startPool | listen
  deriving DecidableEq, Repr

structure StartingServer where
  started : Int
  threadPool : EventLoopThreadPool
  listening : Bool
  /-- Is there a callback for the threads of the pool? -/
  threadInitCallback : Bool
  /-- The threads that have been let in. -/
  callers : Nat → Option Chosen
  /-- How often `Acceptor::listen` is in the queue of the loop. -/
  pending : Nat
  /-- How often it has run. -/
  listens : Nat
  /-- The loops of the connections, in the order they were accepted. -/
  dealt : List LoopPtr

namespace StartingServer

def new (threadInitCallback : Bool) : StartingServer where
  started := 0
  threadPool := .new
  listening := false
  threadInitCallback := threadInitCallback
  callers := fun _ => none
  pending := 0
  listens := 0
  dealt := []

def setThreadNum (s : StartingServer) (numThreads : Int) : Except StartFault StartingServer := do
  check .numThreads (0 ≤ numThreads)
  return { s with threadPool := s.threadPool.setThreadNum numThreads }

def setCaller (s : StartingServer) (thread : Nat) (c : Option Chosen) : StartingServer :=
  { s with callers := Function.update s.callers thread c }

/-- `if(M_started.getAndSet(1) == 0)`. -/
def getAndSet (s : StartingServer) (thread : Nat) : StartingServer :=
  if s.started = 0 then { s with started := 1 }.setCaller thread (some .startPool)
  else { s with started := 1 }

/-- `M_threadPool->start(M_threadInitCallback)`. -/
def startPool (s : StartingServer) (thread : Nat) : Except StartFault StartingServer := do
  let pool ← (s.threadPool.start s.threadInitCallback).mapError .pool
  check .notInLoopThread (thread = loopThread)
  return { s with threadPool := pool }.setCaller thread (some .listen)

/-- `Acceptor::listen`. -/
def listen (s : StartingServer) : StartingServer :=
  { s with listening := true, listens := s.listens + 1 }

/-- The end of `start`: `M_loop->runInLoop(boost::bind(&Acceptor::listen, ..))`. -/
def runListen (s : StartingServer) (thread : Nat) : Except StartFault StartingServer := do
  check .listening (s.listening = false)
  let s := s.setCaller thread none
  return if thread = loopThread then s.listen else { s with pending := s.pending + 1 }

def proceed (s : StartingServer) (thread : Nat) : Except StartFault StartingServer :=
  match s.callers thread with
  | some .startPool => s.startPool thread
  | some .listen => s.runListen thread
  | none => .ok s

/-- `newConnection`, as far as the pool is concerned. -/
def accept (s : StartingServer) : Except StartFault StartingServer := do
  let (ioLoop, pool) ← s.threadPool.getNextLoop.mapError .pool
  return { s with threadPool := pool, dealt := s.dealt ++ [ioLoop] }

end StartingServer

inductive StartAct
  | setThreadNum (numThreads : Int)
  /-- A call of `start`, up to the test of what `getAndSet` returns. -/
  | start (thread : Nat)
  /-- The thread that was let in goes on. -/
  | proceed (thread : Nat)
  /-- The loop runs a queued `Acceptor::listen`. -/
  | runListen
  /-- The acceptor has a connection. -/
  | accept
  deriving DecidableEq, Repr

namespace StartingServer

def exec (s : StartingServer) : StartAct → Except StartFault StartingServer
  | .setThreadNum numThreads => s.setThreadNum numThreads
  | .start thread => .ok (s.getAndSet thread)
  | .proceed thread => s.proceed thread
  | .runListen => .ok { s with pending := s.pending - 1 }.listen
  | .accept => s.accept

/-- The loop does nothing else while its thread is in `start`. The init callback may call
`start` again. -/
def Enabled (s : StartingServer) : StartAct → Prop
  | .setThreadNum numThreads => s.callers loopThread = none ∧ Fits numThreads
  | .start _ => True
  | .proceed thread => s.callers thread ≠ none
  | .runListen => s.callers loopThread = none ∧ 0 < s.pending
  | .accept => s.callers loopThread = none ∧ s.listening = true

instance decidableEnabled (s : StartingServer) : ∀ a, Decidable (s.Enabled a)
  | .setThreadNum numThreads =>
      inferInstanceAs (Decidable (s.callers loopThread = none ∧ Fits numThreads))
  | .start _ => inferInstanceAs (Decidable True)
  | .proceed thread => inferInstanceAs (Decidable (s.callers thread ≠ none))
  | .runListen => inferInstanceAs (Decidable (s.callers loopThread = none ∧ 0 < s.pending))
  | .accept => inferInstanceAs (Decidable (s.callers loopThread = none ∧ s.listening = true))

end StartingServer

def startingSys : Sys StartingServer StartAct StartFault :=
  ⟨StartingServer.Enabled, StartingServer.exec⟩

instance (s : StartingServer) (a : StartAct) : Decidable (startingSys.enabled s a) :=
  s.decidableEnabled a

namespace StartingServer

/-- What the server promises to who starts it. -/
structure Safe (s : StartingServer) : Prop where
  /-- Who was let in gets through. -/
  through : ∀ thread, s.callers thread ≠ none → Lands (s.proceed thread) fun _ => True
  once : s.listens ≤ 1
  /-- No connection comes before the pool is complete. -/
  complete : s.listening = true → s.threadPool.started = true ∧
    s.threadPool.loops = threadLoops s.threadPool.loops.length ∧
    s.threadPool.initialised =
      if s.threadInitCallback then available s.threadPool.loops.length else []
  dealt : s.dealt = (List.range s.dealt.length).map (nthLoop s.threadPool.loops.length)

/-- The thread of the loop is let in, and the pool has threads when a connection comes. -/
def Proper (s : StartingServer) : StartAct → Prop
  | .start thread => s.started = 0 → thread = loopThread
  | .accept => s.threadPool.loops ≠ []
  | _ => True

instance (s : StartingServer) : ∀ a, Decidable (s.Proper a)
  | .start thread => inferInstanceAs (Decidable (s.started = 0 → thread = loopThread))
  | .accept => inferInstanceAs (Decidable (s.threadPool.loops ≠ []))
  | .setThreadNum _ | .proceed _ | .runListen => inferInstanceAs (Decidable True)

/-! ## The states of a start -/

/-- Nobody has called `start`. -/
def before (cb : Bool) (n : Nat) : StartingServer :=
  { new cb with threadPool := EventLoopThreadPool.new.setThreadNum n }

/-- `thread` has been let in. -/
def letIn (cb : Bool) (n thread : Nat) : StartingServer :=
  { before cb n with started := 1 }.setCaller thread (some .startPool)

/-- The pool has been started. -/
def pooled (cb : Bool) (n : Nat) : StartingServer :=
  { before cb n with started := 1, threadPool := startedPool n cb 0 }.setCaller loopThread
    (some .listen)

/-- `k` connections have been accepted. What the number of threads is set to after the start
is not read any more. -/
def serving (cb : Bool) (n k : Nat) (numThreads : Int) : StartingServer where
  started := 1
  threadPool := (startedPool n cb (k % n : Nat)).setThreadNum numThreads
  listening := true
  threadInitCallback := cb
  callers := fun _ => none
  pending := 0
  listens := 1
  dealt := (List.range k).map (nthLoop n)

/-- There are no other states. -/
inductive Stage (cb : Bool) : StartingServer → Prop
  | before (n : Nat) (hn : n < 2 ^ 31) : Stage cb (before cb n)
  | letIn (n thread : Nat) (hn : n < 2 ^ 31) : Stage cb (letIn cb n thread)
  | pooled (n : Nat) (hn : n < 2 ^ 31) : Stage cb (pooled cb n)
  | serving (n k : Nat) (numThreads : Int) (hn : n < 2 ^ 31) : Stage cb (serving cb n k numThreads)

section Stages

variable {cb : Bool} {n k thread : Nat} {numThreads : Int}

theorem letIn_callers (t : Nat) :
    (letIn cb n thread).callers t = if t = thread then some .startPool else none :=
  Function.update_apply _ _ _ _

theorem pooled_callers (t : Nat) :
    (pooled cb n).callers t = if t = loopThread then some .listen else none :=
  Function.update_apply _ _ _ _

/-- Only the thread of the loop can start the pool. -/
theorem proceed_letIn : (letIn cb n thread).proceed thread =
    if thread = loopThread then .ok (pooled cb n) else .error .notInLoopThread := by
  have hcaller : (letIn cb n thread).callers thread = some .startPool := by
    rw [letIn_callers, if_pos rfl]
  have hpool : (letIn cb n thread).threadPool.start (letIn cb n thread).threadInitCallback =
      .ok (startedPool n cb 0) := start_eq n cb
  simp only [proceed, hcaller, startPool, hpool]
  by_cases hthread : thread = loopThread
  · subst hthread
    rw [if_pos rfl]
    show Except.ok _ = _
    refine congrArg Except.ok ?_
    simp only [pooled, letIn, setCaller, Function.update_idem]
  · rw [if_neg hthread]
    show (check StartFault.notInLoopThread (thread = loopThread) >>= _) = _
    rw [check_of_not _ hthread]
    rfl

theorem proceed_pooled : (pooled cb n).proceed loopThread = .ok (serving cb n 0 n) := by
  have hcaller : (pooled cb n).callers loopThread = some .listen := by
    rw [pooled_callers, if_pos rfl]
  have hquiet : (pooled cb n).listening = false := rfl
  have hnobody : Function.update (pooled cb n).callers loopThread none = fun _ => none := by
    funext t
    rw [Function.update_apply, pooled_callers]
    split
    · rfl
    · rfl
  have hlisten : ((pooled cb n).setCaller loopThread none).listen =
      { serving cb n 0 n with
        callers := Function.update (pooled cb n).callers loopThread none
        threadPool := startedPool n cb 0 } := rfl
  simp only [proceed, hcaller]
  rw [runListen, check_of _ hquiet, ok_bind]
  dsimp only
  rw [if_pos rfl, hlisten, hnobody]
  simp only [serving, Nat.zero_mod]
  rfl

theorem getNextLoop_setThreadNum {p p' : EventLoopThreadPool} {loop : LoopPtr}
    (h : p.getNextLoop = .ok (loop, p')) :
    (p.setThreadNum numThreads).getNextLoop = .ok (loop, p'.setThreadNum numThreads) := by
  unfold getNextLoop at h ⊢
  obtain ⟨u, hstarted, h⟩ := bind_eq_ok h
  rw [show check PoolFault.notStarted ((p.setThreadNum numThreads).started = true) = .ok u
    from hstarted, ok_bind]
  split at h
  · rename_i hloops
    rw [if_pos (show (p.setThreadNum numThreads).loops ≠ [] from hloops)]
    obtain ⟨l, hat, h⟩ := bind_eq_ok h
    obtain ⟨next, hnext, h⟩ := bind_eq_ok h
    obtain ⟨rfl, rfl⟩ := Prod.mk.inj (Except.ok.inj h)
    rw [show (p.setThreadNum numThreads).loopAt
        (implicitCast (p.setThreadNum numThreads).next) = .ok l from hat, ok_bind,
      show (CInt.add (p.setThreadNum numThreads).next 1).mapError PoolFault.int = .ok next
        from hnext]
    rfl
  · exact absurd h (by simp)

/-- The connections are dealt out to the loops in turn. -/
theorem accept_serving (h : 0 < n) (hn : n < 2 ^ 31) :
    (serving cb n k numThreads).accept = .ok (serving cb n (k + 1) numThreads) := by
  have hnext : (serving cb n k numThreads).threadPool.getNextLoop = _ :=
    getNextLoop_setThreadNum (getNextLoop_eq h hn cb k)
  unfold accept
  rw [hnext]
  refine congrArg Except.ok ?_
  simp only [serving, List.range_succ, List.map_append, List.map_cons, List.map_nil]

/-- Without threads `getNextLoop` has no result. -/
theorem accept_serving_zero :
    (serving cb 0 k numThreads).accept = .error (.pool .noReturn) := rfl

/-! ## What is promised in each -/

theorem safe_before : Safe (before cb n) :=
  ⟨fun _ h => absurd rfl h, Nat.zero_le _, fun h => absurd h (by simp [before, new]), rfl⟩

theorem safe_letIn_iff : Safe (letIn cb n thread) ↔ thread = loopThread := by
  have hcaller : (letIn cb n thread).callers thread ≠ none := by
    rw [letIn_callers, if_pos rfl]
    simp
  constructor
  · intro hsafe
    obtain ⟨s', hs', -⟩ := hsafe.through thread hcaller
    rw [proceed_letIn] at hs'
    by_contra hthread
    rw [if_neg hthread] at hs'
    exact absurd hs' (by simp)
  · rintro rfl
    refine ⟨fun t ht => ?_, Nat.zero_le _,
      fun h => absurd h (by simp [letIn, before, new, setCaller]), rfl⟩
    obtain rfl : t = loopThread := by
      by_contra hne
      rw [letIn_callers, if_neg hne] at ht
      exact ht rfl
    rw [proceed_letIn, if_pos rfl]
    exact .ok trivial

theorem safe_pooled : Safe (pooled cb n) := by
  refine ⟨fun t ht => ?_, Nat.zero_le _,
    fun h => absurd h (by simp [pooled, before, new, setCaller]), rfl⟩
  obtain rfl : t = loopThread := by
    by_contra hne
    rw [pooled_callers, if_neg hne] at ht
    exact ht rfl
  rw [proceed_pooled]
  exact .ok trivial

theorem safe_serving : Safe (serving cb n k numThreads) := by
  have hlength : (serving cb n k numThreads).threadPool.loops.length = n := length_threadLoops n
  refine ⟨fun _ h => absurd rfl h, le_rfl, fun _ => ⟨rfl, ?_, ?_⟩, ?_⟩
  · rw [hlength]
    rfl
  · rw [hlength]
    rfl
  · rw [hlength]
    simp [serving]

end Stages

/-! ## Steps -/

section Steps

variable {cb : Bool} {n k thread : Nat} {numThreads : Int} {a : StartAct}

/-- The step ends where `Stage` says, and well if and only if it is proper. -/
def StepEnds (cb : Bool) (s : StartingServer) (a : StartAct) : Prop :=
  Ends (s.exec a) (fun s' => Stage cb s' ∧ (Safe s' ↔ s.Proper a)) fun e =>
    e = .numThreads ↔ s.Proper a

theorem before_step (hn : n < 2 ^ 31) (hen : (before cb n).Enabled a) :
    StepEnds cb (before cb n) a := by
  cases a with
  | setThreadNum numThreads =>
      refine .check_bind (fun _ => iff_of_true rfl trivial) fun hnonneg => ?_
      obtain ⟨m, rfl⟩ := Int.eq_ofNat_of_zero_le hnonneg
      have hfits : (m : Int) ≤ kMaxInt := hen.2.2
      unfold kMaxInt at hfits
      exact .ok ⟨.before m (by omega), iff_of_true safe_before trivial⟩
  | start thread =>
      refine .ok ⟨.letIn n thread hn, safe_letIn_iff.trans ⟨fun h _ => h, fun h => h rfl⟩⟩
  | proceed thread => exact absurd rfl hen
  | runListen => exact absurd hen.2 (Nat.not_lt_zero 0)
  | accept => exact absurd hen.2 (by simp [before, new])

theorem letIn_step (hn : n < 2 ^ 31) (hthread : thread = loopThread)
    (hen : (letIn cb n thread).Enabled a) : StepEnds cb (letIn cb n thread) a := by
  subst hthread
  have hbusy : (letIn cb n loopThread).callers loopThread ≠ none := by
    rw [letIn_callers, if_pos rfl]
    simp
  cases a with
  | setThreadNum numThreads => exact absurd hen.1 hbusy
  | start thread =>
      -- the exchange returns 1
      refine .ok ⟨.letIn n loopThread hn, iff_of_true (safe_letIn_iff.mpr rfl) fun h => ?_⟩
      exact absurd h (by simp [letIn, setCaller])
  | proceed thread =>
      obtain rfl : thread = loopThread := by
        by_contra hne
        exact hen (by rw [letIn_callers, if_neg hne])
      show Ends ((letIn cb n loopThread).proceed loopThread) _ _
      rw [proceed_letIn, if_pos rfl]
      exact .ok ⟨.pooled n hn, iff_of_true safe_pooled trivial⟩
  | runListen => exact absurd hen.1 hbusy
  | accept => exact absurd hen.1 hbusy

theorem pooled_step (hn : n < 2 ^ 31) (hen : (pooled cb n).Enabled a) :
    StepEnds cb (pooled cb n) a := by
  have hbusy : (pooled cb n).callers loopThread ≠ none := by
    rw [pooled_callers, if_pos rfl]
    simp
  cases a with
  | setThreadNum numThreads => exact absurd hen.1 hbusy
  | start thread =>
      refine .ok ⟨.pooled n hn, iff_of_true safe_pooled fun h => ?_⟩
      exact absurd h (by simp [pooled, setCaller])
  | proceed thread =>
      obtain rfl : thread = loopThread := by
        by_contra hne
        exact hen (by rw [pooled_callers, if_neg hne])
      show Ends ((pooled cb n).proceed loopThread) _ _
      rw [proceed_pooled]
      exact .ok ⟨.serving n 0 n hn, iff_of_true safe_serving trivial⟩
  | runListen => exact absurd hen.1 hbusy
  | accept => exact absurd hen.1 hbusy

theorem serving_step (hn : n < 2 ^ 31) (hen : (serving cb n k numThreads).Enabled a) :
    StepEnds cb (serving cb n k numThreads) a := by
  cases a with
  | setThreadNum numThreads =>
      refine .check_bind (fun _ => iff_of_true rfl trivial) fun _ => ?_
      exact .ok ⟨.serving n k numThreads hn, iff_of_true safe_serving trivial⟩
  | start thread =>
      refine .ok ⟨.serving n k numThreads hn, iff_of_true safe_serving fun h => ?_⟩
      exact absurd h (by simp [serving])
  | proceed thread => exact absurd rfl hen
  | runListen => exact absurd hen.2 (Nat.not_lt_zero 0)
  | accept =>
      show Ends (serving cb n k numThreads).accept _ _
      rcases Nat.eq_zero_or_pos n with rfl | hpos
      · rw [accept_serving_zero]
        refine ⟨fun _ h => absurd h (by simp), fun e he => ?_⟩
        obtain rfl := Except.error.inj he
        exact iff_of_false (by simp) fun hloops => hloops rfl
      · rw [accept_serving hpos hn]
        refine .ok ⟨.serving n (k + 1) numThreads hn, iff_of_true safe_serving ?_⟩
        exact threadLoops_ne_nil hpos

/-- Where another thread was let in, its next step stops the program. -/
theorem letIn_other (hn : n < 2 ^ 31) (hthread : thread ≠ loopThread)
    (hen : (letIn cb n thread).Enabled a) : Post ((letIn cb n thread).exec a) (Stage cb) := by
  cases a with
  | setThreadNum numThreads =>
      refine .check_bind fun hnonneg => ?_
      obtain ⟨m, rfl⟩ := Int.eq_ofNat_of_zero_le hnonneg
      have hfits : (m : Int) ≤ kMaxInt := hen.2.2
      unfold kMaxInt at hfits
      exact .ok (.letIn m thread (by omega))
  | start _ => exact .ok (.letIn n thread hn)
  | proceed t =>
      obtain rfl : t = thread := by
        by_contra hne
        exact hen (by rw [letIn_callers, if_neg hne])
      show Post ((letIn cb n t).proceed t) _
      rw [proceed_letIn, if_neg hthread]
      exact fun _ h => absurd h (by simp)
  | runListen => exact absurd hen.2 (Nat.not_lt_zero 0)
  | accept => exact absurd hen.2 (by simp [letIn, before, new, setCaller])

theorem stage_keeps {s : StartingServer} (h : Stage cb s) (hen : s.Enabled a) :
    Post (s.exec a) (Stage cb) := by
  cases h with
  | before n hn => exact (before_step hn hen).1.mono fun _ h => h.1
  | letIn n thread hn =>
      by_cases hthread : thread = loopThread
      · exact (letIn_step hn hthread hen).1.mono fun _ h => h.1
      · exact letIn_other hn hthread hen
  | pooled n hn => exact (pooled_step hn hen).1.mono fun _ h => h.1
  | serving n k numThreads hn => exact (serving_step hn hen).1.mono fun _ h => h.1

theorem stage_step {s : StartingServer} (h : Stage cb s) (hsafe : Safe s) (hen : s.Enabled a) :
    StepEnds cb s a := by
  cases h with
  | before n hn => exact before_step hn hen
  | letIn n thread hn => exact letIn_step hn (safe_letIn_iff.mp hsafe) hen
  | pooled n hn => exact pooled_step hn hen
  | serving n k numThreads hn => exact serving_step hn hen

end Steps

end StartingServer

open StartingServer

end Muduo.Server
