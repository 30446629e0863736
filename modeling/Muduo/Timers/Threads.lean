import Muduo.Timers.Cancel

/-!
# Timers from several threads

The calls of `addTimer` and `cancel`, as the loop's threads make them: inline in
the loop thread, through the functor queue from any other. A call in another
thread is two steps, the `new Timer` and the push. Functors run between
dispatches, so never inside `handleRead`.

The queue keeps the calls of the other threads in order, so a queued `cancel` of
an identifier that `addTimer` has returned comes after the queued
`addTimerInLoop` of its timer (`CallsInv.order`).
-/

namespace Muduo.Timers

open Lib TimerQueue

/-- What `addTimer` and `cancel` queue on the loop. -/
inductive Functor
  | addTimerInLoop (timer : Addr)
  /-- `returned`: some `addTimer` had returned the identifier when `cancel` was
  called with it. -/
  | cancelInLoop (timer : Addr) (sequence : Nat) (returned : Bool)
  deriving DecidableEq, Repr

/-- The timer of a queued `addTimerInLoop`. -/
def Functor.added : Functor → Option Addr
  | .addTimerInLoop timer => some timer
  | .cancelInLoop .. => none

structure Calls where
  q : TimerQueue
  /-- The functors of the timer queue in the loop's queue. -/
  pending : List Functor
  /-- The timers of `addTimer` calls in other threads that are not pushed yet. -/
  adding : List (Addr × Nat)
  /-- The identifiers that `addTimer` has returned. -/
  returned : List (Addr × Nat)
  /-- The timers for whose returned identifiers `cancelInLoop` has been executed. -/
  cancelled : List Nat

namespace Calls

def new : Calls := ⟨TimerQueue.new, [], [], [], []⟩

/-- `addTimer` in the loop thread. -/
def addTimer (s : Calls) (timer : Addr) (when interval : Int) (repeats : Bool) :
    Except Fault Calls := do
  let q ← (s.q.newTimer timer when interval repeats).addTimerInLoop timer
  return { s with q := q, returned := (timer, s.q.numCreated + 1) :: s.returned }

/-- `cancelInLoop`, of an identifier that was returned or not. -/
def cancelInLoop (s : Calls) (timer : Addr) (sequence : Nat) (returned : Bool) :
    Except Fault Calls := do
  let q ← s.q.cancelInLoop timer sequence
  return { s with
    q := q
    cancelled := if returned = true then sequence :: s.cancelled else s.cancelled }

def runFunctor (s : Calls) : Functor → Except Fault Calls
  | .addTimerInLoop timer => do
      let q ← s.q.addTimerInLoop timer
      return { s with q := q }
  | .cancelInLoop timer sequence returned => s.cancelInLoop timer sequence returned

/-- A step of `handleRead`. -/
def onQueue (s : Calls) (x : Except Fault TimerQueue) : Except Fault Calls := do
  let q ← x
  return { s with q := q }

end Calls

inductive Call
  | addTimer (timer : Addr) (when interval : Int) (repeats : Bool)
  | cancel (timer : Addr) (sequence : Nat)
  /-- `addTimer` in another thread: `new Timer`, then the push. -/
  | threadNew (timer : Addr) (when interval : Int) (repeats : Bool)
  | threadPush (timer : Addr) (sequence : Nat)
  | threadCancel (timer : Addr) (sequence : Nat)
  /-- The loop runs the oldest queued functor. -/
  | runFunctor
  | handleRead (now : Int)
  | runNext
  | reset
  deriving DecidableEq, Repr

namespace Calls

def exec (s : Calls) : Call → Except Fault Calls
  | .addTimer timer when interval repeats => s.addTimer timer when interval repeats
  | .cancel timer sequence =>
      s.cancelInLoop timer sequence (decide ((timer, sequence) ∈ s.returned))
  | .threadNew timer when interval repeats =>
      .ok { s with
        q := s.q.newTimer timer when interval repeats
        adding := (timer, s.q.numCreated + 1) :: s.adding }
  | .threadPush timer sequence =>
      .ok { s with
        adding := s.adding.erase (timer, sequence)
        pending := s.pending ++ [.addTimerInLoop timer]
        returned := (timer, sequence) :: s.returned }
  | .threadCancel timer sequence =>
      .ok { s with pending := s.pending ++
        [.cancelInLoop timer sequence (decide ((timer, sequence) ∈ s.returned))] }
  | .runFunctor =>
      match s.pending with
      | f :: rest => { s with pending := rest }.runFunctor f
      | [] => .ok s
  | .handleRead now => s.onQueue (s.q.handleReadBegin now)
  | .runNext => s.onQueue s.q.runNext
  | .reset => s.onQueue s.q.handleReadEnd

/-- `new` returns a free address; functors run outside `handleRead`. -/
def enabled (s : Calls) : Call → Bool
  | .addTimer timer when interval repeats | .threadNew timer when interval repeats =>
      Timers.enabled s.q (.newTimer timer when interval repeats)
  | .cancel _ _ | .threadCancel _ _ => true
  | .threadPush timer sequence => (timer, sequence) ∈ s.adding
  | .runFunctor => !s.pending.isEmpty && (s.q.pc matches .idle)
  | .handleRead now => Timers.enabled s.q (.handleRead now)
  | .runNext => Timers.enabled s.q .runNext
  | .reset => Timers.enabled s.q .reset

end Calls

def callSys : Sys Calls Call Fault := ⟨fun s a => s.enabled a = true, Calls.exec⟩

instance (s : Calls) (a : Call) : Decidable (callSys.enabled s a) :=
  inferInstanceAs (Decidable (s.enabled a = true))

/-- The timers of the batch whose callbacks are still to run. -/
def due (q : TimerQueue) : List Addr :=
  match q.pc with
  | .calling _ _ rest => rest.map addr
  | .idle => []

/-- A `cancel` in the loop thread finds the timer: it is not one that waits for its
`addTimerInLoop`, nor one of the running batch whose callback is still to run. -/
def Found (s : Calls) : Call → Prop
  | .cancel timer sequence => (timer, sequence) ∈ s.returned →
      ∀ t ∈ s.q.heap timer, t.sequence = sequence → timer ∉ s.q.created ∧ timer ∉ due s.q
  | _ => True

instance decidableFound (s : Calls) : ∀ a, Decidable (Found s a)
  | .cancel timer sequence => inferInstanceAs (Decidable ((timer, sequence) ∈ s.returned →
      ∀ t ∈ s.q.heap timer, t.sequence = sequence → timer ∉ s.q.created ∧ timer ∉ due s.q))
  | .addTimer .. | .threadNew .. | .threadPush .. | .threadCancel .. | .runFunctor
  | .handleRead _ | .runNext | .reset => inferInstanceAs (Decidable True)

/-! ## What the operations do to the allocated timers -/

/-- `q'` comes after `q`: its timers are those of `q`, or newer. -/
structure Later (q q' : TimerQueue) : Prop where
  timers : ∀ b t, q'.heap b = some t →
    (∃ u, q.heap b = some u ∧ u.sequence = t.sequence) ∨ q.numCreated < t.sequence
  numCreated : q.numCreated ≤ q'.numCreated
  calling : (q.pc ≠ .idle → q.callingExpiredTimers = true) →
    q'.pc ≠ .idle → q'.callingExpiredTimers = true

section Later

variable {q q' : TimerQueue}

/-- The heap is the same, or has lost a timer. -/
theorem Later.of_still {q₀ : TimerQueue} (hstill : Still q₀ q')
    (hheap : ∀ b t, q'.heap b = some t → ∃ u, q.heap b = some u ∧ u.sequence = t.sequence)
    (hnum : q₀.numCreated = q.numCreated) (hpc : q₀.pc = q.pc)
    (hcalling : q₀.callingExpiredTimers = q.callingExpiredTimers) :
    Later q q' := by
  refine ⟨fun b t ht => .inl (hheap b t ht), ?_, ?_⟩
  · rw [hstill.numCreated, hnum]
  · rw [hstill.pc, hstill.calling, hpc, hcalling]
    exact id

theorem later_newTimer (q : TimerQueue) (a : Addr) (when interval : Int) (repeats : Bool) :
    Later q (q.newTimer a when interval repeats) := by
  refine ⟨fun b t ht => ?_, Nat.le_succ _, id⟩
  rcases heap_store_cases ht with ⟨-, hnew⟩ | ⟨-, hold⟩
  · obtain rfl := Option.some.inj hnew
    exact .inr (Nat.lt_succ_self _)
  · exact .inl ⟨t, hold, rfl⟩

theorem later_addTimerInLoop (q : TimerQueue) (a : Addr) :
    Post (q.addTimerInLoop a) fun q' =>
      Later q q' ∧ q'.created = q.created.erase a ∧ q'.ran = q.ran := by
  refine (addTimerInLoop_post q a).mono fun q' hq' => ?_
  obtain ⟨-, -, hstill, hheap, -, -⟩ := hq'
  refine ⟨.of_still hstill (fun b t ht => ⟨t, ?_, rfl⟩) rfl rfl rfl, hstill.created, hstill.ran⟩
  rw [← hheap]
  exact ht

theorem later_cancelInLoop (q : TimerQueue) (a : Addr) (n : Nat) :
    Post (q.cancelInLoop a n) fun q' =>
      Later q q' ∧ q'.created = q.created ∧ q'.ran = q.ran := by
  refine (cancelInLoop_post q a n).mono fun q' hq' => ?_
  rcases hq' with ⟨-, -, -, hstill, hheap, -, -⟩ | ⟨-, rfl⟩
  · refine ⟨.of_still hstill (fun b t ht => ?_) rfl rfl rfl, hstill.created, hstill.ran⟩
    rw [hheap] at ht
    rcases heap_store_cases (q := q) ht with ⟨-, hnone⟩ | ⟨-, hold⟩
    · exact absurd hnone (by simp)
    · exact ⟨t, hold, rfl⟩
  · exact ⟨⟨fun b t ht => .inl ⟨t, ht, rfl⟩, le_rfl, id⟩, rfl, rfl⟩

theorem later_handleReadBegin (q : TimerQueue) (now : Int) :
    Post (q.handleReadBegin now) fun q' =>
      Later q q' ∧ q'.created = q.created ∧ q'.ran = q.ran := by
  refine (handleReadBegin_post q now).mono fun q' hq' => ?_
  obtain ⟨hstill, hheap, -, -⟩ := hq'
  refine ⟨⟨fun b t ht => .inl ⟨t, ?_, rfl⟩, ?_, fun _ _ => hstill.calling⟩, hstill.created,
    hstill.ran⟩
  · rw [← hheap]
    exact ht
  · rw [hstill.numCreated]

theorem later_runNext (q : TimerQueue) :
    Post q.runNext fun q' => Later q q' ∧ q'.created = q.created := by
  unfold runNext
  split
  · rename_i now expired e rest hpc
    refine (deref_post q (addr e)).bind fun t _ => .ok ⟨⟨fun b u hu => .inl ⟨u, hu, rfl⟩, le_rfl,
      fun h _ => h ?_⟩, rfl⟩
    rw [hpc]
    simp
  · exact .ok ⟨⟨fun b u hu => .inl ⟨u, hu, rfl⟩, le_rfl, id⟩, rfl⟩

/-- `reset` restarts timers and deletes timers. -/
theorem later_handleReadEnd (q : TimerQueue) :
    Post q.handleReadEnd fun q' =>
      Later q q' ∧ q'.created = q.created ∧ q'.ran = q.ran := by
  cases hpc : q.pc with
  | idle =>
      unfold handleReadEnd
      rw [hpc]
      exact .ok ⟨⟨fun b t ht => .inl ⟨t, ht, rfl⟩, le_rfl, id⟩, rfl, rfl⟩
  | calling now expired rest =>
      refine (handleReadEnd_post hpc).mono fun q' hq' => ?_
      obtain ⟨hstill, hheap⟩ := hq'
      refine ⟨⟨fun b t ht => .inl ?_, ?_, fun hbusy => ?_⟩, hstill.created, hstill.ran⟩
      · obtain ⟨u, hu, ⟨-, rfl⟩ | ⟨-, -, -, rfl⟩⟩ := hheap b t ht
        · exact ⟨t, hu, rfl⟩
        · exact ⟨u, hu, rfl⟩
      · rw [hstill.numCreated]
      · exact fun hidle => absurd hstill.pc hidle

end Later

/-! ## The calls in order -/

/-- Timer `n` is allocated, at address `a`. -/
def Holds (q : TimerQueue) (a : Addr) (n : Nat) : Prop := ∃ t, q.heap a = some t ∧ t.sequence = n

/-- Timer `n` was created, and at address `a`. -/
structure Named (q : TimerQueue) (a : Addr) (n : Nat) : Prop where
  le : n ≤ q.numCreated
  home : ∀ b, Holds q b n → b = a

section Names

variable {q q' : TimerQueue} {a : Addr} {n : Nat}

/-- A timer that is old enough was allocated before. -/
theorem Holds.before (h : Holds q' a n) (hl : Later q q') (hn : n ≤ q.numCreated) : Holds q a n := by
  obtain ⟨t, ht, htn⟩ := h
  rcases hl.timers a t ht with ⟨u, hu, hut⟩ | hnew
  · exact ⟨u, hu, hut.trans htn⟩
  · omega

theorem Named.later (h : Named q a n) (hl : Later q q') : Named q' a n :=
  ⟨h.le.trans hl.numCreated, fun b hb => h.home b (hb.before hl h.le)⟩

/-- The timer that `new` has just created. -/
theorem named_newTimer (h : QueueInv q) (when interval : Int) (repeats : Bool) :
    Named (q.newTimer a when interval repeats) a (q.numCreated + 1) := by
  refine ⟨le_rfl, fun b hb => ?_⟩
  obtain ⟨t, ht, htn⟩ := hb
  rcases heap_store_cases ht with ⟨hba, -⟩ | ⟨-, hold⟩
  · exact hba
  · have := h.owned.seqs.le_numCreated hold
    omega

end Names

structure CallsInv (s : Calls) : Prop where
  queue : QueueInv s.q
  calling : s.q.pc ≠ .idle → s.q.callingExpiredTimers = true
  /-- A timer that is not inserted yet is in a thread that will push it, or its
  `addTimerInLoop` is queued. -/
  created : s.q.created.Perm (s.adding.map Prod.fst ++ s.pending.filterMap Functor.added)
  returned : ∀ a n, (a, n) ∈ s.returned → Named s.q a n
  adding : ∀ a n, (a, n) ∈ s.adding → Named s.q a n
  /-- The timer of a returned identifier is not on its way to the queue. -/
  settled : ∀ a n, (a, n) ∈ s.returned → Holds s.q a n → a ∉ s.adding.map Prod.fst
  flagged : ∀ a n, .cancelInLoop a n true ∈ s.pending → (a, n) ∈ s.returned
  /-- A queued `cancelInLoop` comes after the `addTimerInLoop` of its timer. -/
  order : ∀ pre a n post, s.pending = pre ++ .cancelInLoop a n true :: post →
    Holds s.q a n → a ∈ s.q.created → .addTimerInLoop a ∈ pre
  dead : ∀ n ∈ s.cancelled, n ≤ s.q.numCreated ∧ Dead s.q n

section Steps

variable {s : Calls}

theorem CallsInv.created_nodup (h : CallsInv s) : s.q.created.Nodup :=
  (List.nodup_append.mp (List.nodup_append.mp h.queue.owned.nodup).1).2.1

/-- A queued `cancelInLoop` of a returned identifier. -/
theorem CallsInv.returned_of_split (h : CallsInv s) {pre post : List Functor} {a : Addr} {n : Nat}
    (hpending : s.pending = pre ++ .cancelInLoop a n true :: post) : (a, n) ∈ s.returned := by
  refine h.flagged a n ?_
  rw [hpending]
  exact List.mem_append_right pre List.mem_cons_self

/-- What was cancelled is old, and stays dead when a step keeps it so. -/
theorem CallsInv.dead_later (h : CallsInv s) {q' : TimerQueue} (hl : Later s.q q')
    (hdead : ∀ n, n ≤ s.q.numCreated → Dead s.q n → Dead q' n) :
    ∀ n ∈ s.cancelled, n ≤ q'.numCreated ∧ Dead q' n := by
  intro n hn
  obtain ⟨hle, hd⟩ := h.dead n hn
  exact ⟨hle.trans hl.numCreated, hdead n hle hd⟩

/-- A created timer of a returned identifier has its `addTimerInLoop` queued. -/
theorem CallsInv.queued (h : CallsInv s) {a : Addr} {n : Nat} (hret : (a, n) ∈ s.returned)
    (hholds : Holds s.q a n) (hcreated : a ∈ s.q.created) : .addTimerInLoop a ∈ s.pending := by
  rcases List.mem_append.mp (h.created.mem_iff.mp hcreated) with hadding | hpending
  · exact absurd hadding (h.settled a n hret hholds)
  · obtain ⟨f, hf, hadded⟩ := List.mem_filterMap.mp hpending
    cases f with
    | addTimerInLoop b =>
        obtain rfl : b = a := Option.some.inj hadded
        exact hf
    | cancelInLoop b m fl => exact absurd hadded (by simp [Functor.added])

/-- A step of the queue that inserts nothing and creates nothing. -/
theorem CallsInv.step (h : CallsInv s) {q' : TimerQueue} {cancelled : List Nat}
    (hq : QueueInv q') (hl : Later s.q q') (hcreated : q'.created = s.q.created)
    (hdead : ∀ n ∈ cancelled, n ≤ q'.numCreated ∧ Dead q' n) :
    CallsInv { s with q := q', cancelled := cancelled } := by
  refine ⟨hq, hl.calling h.calling, ?_, fun a n hret => (h.returned a n hret).later hl,
    fun a n hadd => (h.adding a n hadd).later hl, fun a n hret hholds => ?_, h.flagged,
    fun pre a n post hpending hholds hmem => ?_, hdead⟩
  · show q'.created.Perm _
    rw [hcreated]
    exact h.created
  · exact h.settled a n hret (hholds.before hl (h.returned a n hret).le)
  · have hret : (a, n) ∈ s.returned := h.returned_of_split hpending
    refine h.order pre a n post hpending (hholds.before hl (h.returned a n hret).le) ?_
    rw [← hcreated]
    exact hmem

/-- `cancelInLoop`, of a timer that it finds if its identifier was returned. -/
theorem CallsInv.cancel (h : CallsInv s) (a : Addr) (n : Nat) (returned : Bool)
    (hret : returned = true → (a, n) ∈ s.returned)
    (hfound : returned = true → Holds s.q a n → a ∉ s.q.created ∧ a ∉ due s.q) :
    Lands (s.cancelInLoop a n returned) fun s' => CallsInv s' ∧ s'.q.ran = s.q.ran ∧
      ∀ m ∈ s.cancelled, m ∈ s'.cancelled := by
  obtain ⟨q', hq', hinv⟩ := exec_inv h.queue (.cancelInLoop a n) rfl
  have hexec : s.q.cancelInLoop a n = .ok q' := hq'
  obtain ⟨hl, hcreated, hran⟩ := later_cancelInLoop s.q a n q' hexec
  have hdead := h.dead_later hl fun m _ hd => cancelInLoop_dead hd a n q' hexec
  unfold Calls.cancelInLoop
  rw [hexec, ok_bind]
  cases returned with
  | false => exact .ok ⟨h.step hinv hl hcreated hdead, hran, fun m hm => hm⟩
  | true =>
      have hnamed := h.returned a n (hret rfl)
      refine .ok ⟨h.step hinv hl hcreated fun m hm => ?_, hran, fun m hm => List.mem_cons_of_mem n hm⟩
      rcases List.mem_cons.mp hm with rfl | hm
      · refine ⟨hnamed.le.trans hl.numCreated, cancelInLoop_kills h.queue h.calling
          (fun b t ht htn => hnamed.home b ⟨t, ht, htn⟩) (fun t ht htn => ?_)
          (fun now expired rest hpc t ht htn => ?_) q' hexec⟩
        · exact (hfound rfl ⟨t, ht, htn⟩).1
        · have := (hfound rfl ⟨t, ht, htn⟩).2
          rwa [due, hpc] at this
      · exact hdead m hm

/-- `new Timer` in another thread. -/
theorem CallsInv.threadNew (h : CallsInv s) {a : Addr} {when interval : Int} {repeats : Bool}
    (hen : enabled s.q (.newTimer a when interval repeats) = true) :
    CallsInv { s with
      q := s.q.newTimer a when interval repeats
      adding := (a, s.q.numCreated + 1) :: s.adding } := by
  have hfree : s.q.heap a = none := by
    simp only [enabled, Bool.and_eq_true, Option.isNone_iff_eq_none] at hen
    exact hen.2
  have hl : Later s.q (s.q.newTimer a when interval repeats) :=
    later_newTimer s.q a when interval repeats
  have hinv : QueueInv (s.q.newTimer a when interval repeats) :=
    (exec_inv h.queue (.newTimer a when interval repeats) hen).post _ rfl
  -- nothing was at the address before
  have hne : ∀ {b n}, Holds s.q b n → b ≠ a := by
    rintro b n ⟨t, ht, -⟩ rfl
    rw [hfree] at ht
    exact absurd ht (by simp)
  refine ⟨hinv, h.calling, h.created.cons a, fun b n hret => (h.returned b n hret).later hl, ?_, ?_,
    h.flagged, ?_, h.dead_later hl fun n hle hd => newTimer_dead hd hle a when interval repeats⟩
  · intro b n hadd
    rcases List.mem_cons.mp hadd with heq | hadd
    · obtain ⟨rfl, rfl⟩ := Prod.mk.inj heq
      exact named_newTimer h.queue when interval repeats
    · exact (h.adding b n hadd).later hl
  · intro b n hret hholds hmem
    have hbefore := hholds.before hl (h.returned b n hret).le
    rcases List.mem_cons.mp hmem with rfl | hmem
    · exact hne hbefore rfl
    · exact h.settled b n hret hbefore hmem
  · intro pre b n post hpending hholds hmem
    have hret : (b, n) ∈ s.returned := h.returned_of_split hpending
    have hbefore := hholds.before hl (h.returned b n hret).le
    rcases List.mem_cons.mp hmem with rfl | hmem
    · exact absurd rfl (hne hbefore)
    · exact h.order pre b n post hpending hbefore hmem

/-- The push of an `addTimerInLoop`, after which `addTimer` returns. -/
theorem CallsInv.threadPush (h : CallsInv s) {a : Addr} {n : Nat} (hadd : (a, n) ∈ s.adding) :
    CallsInv { s with
      adding := s.adding.erase (a, n)
      pending := s.pending ++ [.addTimerInLoop a]
      returned := (a, n) :: s.returned } := by
  have hperm : (s.adding.map Prod.fst).Perm (a :: (s.adding.erase (a, n)).map Prod.fst) :=
    (List.perm_cons_erase hadd).map Prod.fst
  have hnot : a ∉ (s.adding.erase (a, n)).map Prod.fst := by
    have hnodup := (List.nodup_append.mp (h.created.nodup_iff.mp h.created_nodup)).1
    exact (List.nodup_cons.mp (hperm.nodup_iff.mp hnodup)).1
  refine ⟨h.queue, h.calling, ?_, ?_, fun b m hb => h.adding b m (List.mem_of_mem_erase hb), ?_, ?_,
    ?_, h.dead⟩
  · refine h.created.trans ?_
    rw [List.filterMap_append]
    refine (hperm.append_right _).trans ?_
    exact (List.perm_append_singleton a _).symm.trans (by simp [Functor.added])
  · intro b m hret
    rcases List.mem_cons.mp hret with heq | hret
    · obtain ⟨rfl, rfl⟩ := Prod.mk.inj heq
      exact h.adding b m hadd
    · exact h.returned b m hret
  · intro b m hret hholds hmem
    rcases List.mem_cons.mp hret with heq | hret
    · obtain ⟨rfl, rfl⟩ := Prod.mk.inj heq
      exact hnot hmem
    · refine h.settled b m hret hholds ?_
      exact hperm.mem_iff.mpr (List.mem_cons_of_mem a hmem)
  · intro b m hmem
    rcases List.mem_append.mp hmem with hmem | hmem
    · exact List.mem_cons_of_mem _ (h.flagged b m hmem)
    · exact absurd hmem (by simp)
  · intro pre b m post hpending hholds hmem
    rcases split_concat hpending with ⟨-, -, hf⟩ | ⟨post', -, hsplit⟩
    · exact absurd hf (by simp)
    · exact h.order pre b m post' hsplit hholds hmem

/-- The push of a `cancelInLoop`. -/
theorem CallsInv.threadCancel (h : CallsInv s) (a : Addr) (n : Nat) :
    CallsInv { s with pending := s.pending ++
      [.cancelInLoop a n (decide ((a, n) ∈ s.returned))] } := by
  refine ⟨h.queue, h.calling, ?_, h.returned, h.adding, h.settled, ?_, ?_, h.dead⟩
  · have hnone : [Functor.cancelInLoop a n (decide ((a, n) ∈ s.returned))].filterMap
        Functor.added = [] := rfl
    rw [List.filterMap_append, hnone, List.append_nil]
    exact h.created
  · intro b m hmem
    rcases List.mem_append.mp hmem with hmem | hmem
    · exact h.flagged b m hmem
    · obtain ⟨rfl, rfl, hret⟩ : b = a ∧ m = n ∧ (a, n) ∈ s.returned := by simpa using hmem
      exact hret
  · intro pre b m post hpending hholds hmem
    rcases split_concat hpending with ⟨-, rfl, hf⟩ | ⟨post', -, hsplit⟩
    · -- everything that was pushed before is before it
      obtain ⟨rfl, rfl, hret⟩ : a = b ∧ n = m ∧ (a, n) ∈ s.returned := by simpa using hf
      exact h.queued hret hholds hmem
    · exact h.order pre b m post' hsplit hholds hmem

/-- `addTimer` in the loop thread: the timer is created and inserted at once. -/
theorem CallsInv.addTimer (h : CallsInv s) {a : Addr} {when interval : Int} {repeats : Bool}
    (hen : enabled s.q (.newTimer a when interval repeats) = true) :
    Lands (s.addTimer a when interval repeats) fun s' => CallsInv s' ∧ s'.q.ran = s.q.ran ∧
      s'.cancelled = s.cancelled := by
  have h₁ := h.threadNew hen
  have hfree : s.q.heap a = none := by
    simp only [enabled, Bool.and_eq_true, Option.isNone_iff_eq_none] at hen
    exact hen.2
  have hl₁ := later_newTimer s.q a when interval repeats
  have hmem : a ∈ (s.q.newTimer a when interval repeats).created := List.mem_cons_self
  obtain ⟨q', hq', hinv⟩ := exec_inv h₁.queue (.addTimerInLoop a) (decide_eq_true hmem)
  have hexec : (s.q.newTimer a when interval repeats).addTimerInLoop a = .ok q' := hq'
  obtain ⟨hl, hcreated, hran⟩ := later_addTimerInLoop _ a q' hexec
  have hcreated' : q'.created = s.q.created := hcreated.trans (List.erase_cons_head a s.q.created)
  -- the threads' timers are at other addresses
  have hnot : a ∉ s.adding.map Prod.fst := by
    have hnodup := (List.nodup_append.mp (h₁.created.nodup_iff.mp h₁.created_nodup)).1
    exact (List.nodup_cons.mp hnodup).1
  have hbefore : ∀ {b n}, n ≤ s.q.numCreated → Holds q' b n → Holds s.q b n := by
    intro b n hn hholds
    exact (hholds.before hl (hn.trans hl₁.numCreated)).before hl₁ hn
  unfold Calls.addTimer
  rw [hexec, ok_bind]
  refine .ok ⟨⟨hinv, hl.calling h₁.calling, ?_, ?_, ?_, ?_, ?_, ?_,
    h₁.dead_later hl fun n _ hd => addTimerInLoop_dead hd a q' hexec⟩, hran, rfl⟩
  · show q'.created.Perm _
    rw [hcreated']
    exact h.created
  · intro b n hret
    rcases List.mem_cons.mp hret with heq | hret
    · obtain ⟨rfl, rfl⟩ := Prod.mk.inj heq
      exact (h₁.adding b _ List.mem_cons_self).later hl
    · exact ((h.returned b n hret).later hl₁).later hl
  · intro b n hadd
    exact ((h.adding b n hadd).later hl₁).later hl
  · intro b n hret hholds
    rcases List.mem_cons.mp hret with heq | hret
    · obtain ⟨rfl, rfl⟩ := Prod.mk.inj heq
      exact hnot
    · exact h.settled b n hret (hbefore (h.returned b n hret).le hholds)
  · intro b n hf
    exact List.mem_cons_of_mem _ (h.flagged b n hf)
  · intro pre b n post hpending hholds hmem
    have hret : (b, n) ∈ s.returned := h.returned_of_split hpending
    refine h.order pre b n post hpending (hbefore (h.returned b n hret).le hholds) ?_
    rw [← hcreated']
    exact hmem

/-- The oldest functor is an `addTimerInLoop`. -/
theorem CallsInv.runAdd (h : CallsInv s) {a : Addr} {rest : List Functor}
    (hpending : s.pending = .addTimerInLoop a :: rest) :
    Lands ({ s with pending := rest }.runFunctor (.addTimerInLoop a)) fun s' =>
      CallsInv s' ∧ s'.q.ran = s.q.ran ∧ s'.cancelled = s.cancelled := by
  have hperm : s.q.created.Perm (a :: (s.adding.map Prod.fst ++ rest.filterMap Functor.added)) := by
    refine h.created.trans ?_
    rw [hpending]
    exact List.perm_middle
  have hmem : a ∈ s.q.created := hperm.mem_iff.mpr List.mem_cons_self
  obtain ⟨q', hq', hinv⟩ := exec_inv h.queue (.addTimerInLoop a) (decide_eq_true hmem)
  have hexec : s.q.addTimerInLoop a = .ok q' := hq'
  obtain ⟨hl, hcreated, hran⟩ := later_addTimerInLoop s.q a q' hexec
  have hsub : ∀ b n, .cancelInLoop b n true ∈ rest → (b, n) ∈ s.returned := by
    intro b n hf
    refine h.flagged b n ?_
    rw [hpending]
    exact List.mem_cons_of_mem _ hf
  simp only [Calls.runFunctor]
  rw [hexec, ok_bind]
  refine .ok ⟨⟨hinv, hl.calling h.calling, ?_, fun b n hret => (h.returned b n hret).later hl,
    fun b n hadd => (h.adding b n hadd).later hl, ?_, hsub, ?_,
    h.dead_later hl fun n _ hd => addTimerInLoop_dead hd a q' hexec⟩, hran, rfl⟩
  · show q'.created.Perm _
    rw [hcreated]
    exact (hperm.erase a).trans (by rw [List.erase_cons_head])
  · intro b n hret hholds
    exact h.settled b n hret (hholds.before hl (h.returned b n hret).le)
  · intro pre b n post hsplit hholds hb
    have hsplit' : rest = pre ++ .cancelInLoop b n true :: post := hsplit
    have hret : (b, n) ∈ s.returned := hsub b n (by rw [hsplit']; simp)
    have hb' : b ∈ s.q.created.erase a := by
      rw [← hcreated]
      exact hb
    obtain ⟨hne, hold⟩ := h.created_nodup.mem_erase_iff.mp hb'
    have hpre := h.order (.addTimerInLoop a :: pre) b n post (by rw [hpending, hsplit']; rfl)
      (hholds.before hl (h.returned b n hret).le) hold
    -- it waits for another `addTimerInLoop` than the one that has run
    rcases List.mem_cons.mp hpre with heq | hpre
    · exact absurd (by simpa using heq) hne
    · exact hpre

/-- The oldest functor is a `cancelInLoop`: what was queued before it has run. -/
theorem CallsInv.runCancel (h : CallsInv s) {a : Addr} {n : Nat} {returned : Bool}
    {rest : List Functor} (hpending : s.pending = .cancelInLoop a n returned :: rest)
    (hidle : s.q.pc = .idle) :
    Lands ({ s with pending := rest }.runFunctor (.cancelInLoop a n returned)) fun s' =>
      CallsInv s' ∧ s'.q.ran = s.q.ran ∧ ∀ m ∈ s.cancelled, m ∈ s'.cancelled := by
  have hpop : CallsInv { s with pending := rest } := by
    refine ⟨h.queue, h.calling, ?_, h.returned, h.adding, h.settled, ?_, ?_, h.dead⟩
    · have := h.created
      rw [hpending] at this
      exact this
    · intro b m hf
      refine h.flagged b m ?_
      rw [hpending]
      exact List.mem_cons_of_mem _ hf
    · intro pre b m post hsplit hholds hb
      have hsplit' : rest = pre ++ .cancelInLoop b m true :: post := hsplit
      have hpre := h.order (.cancelInLoop a n returned :: pre) b m post
        (by rw [hpending, hsplit']; rfl) hholds hb
      rcases List.mem_cons.mp hpre with heq | hpre
      · exact absurd heq (by simp)
      · exact hpre
  refine hpop.cancel a n returned ?_ ?_
  · rintro rfl
    refine h.flagged a n ?_
    rw [hpending]
    exact List.mem_cons_self
  · rintro rfl hholds
    refine ⟨fun hmem => ?_, ?_⟩
    · exact absurd (h.order [] a n rest (by rw [hpending]; rfl) hholds hmem) (by simp)
    · show a ∉ due s.q
      rw [due, hidle]
      simp

/-- A step that starts no callback. -/
theorem starts_none {q q' : TimerQueue} (h : q'.ran = q.ran) (P : Nat × Int → Prop) :
    ∃ more, q'.ran = q.ran ++ more ∧ ∀ y ∈ more, P y :=
  ⟨[], by rw [h, List.append_nil], by simp⟩

/-- A step of `handleRead`: it starts no callback of a dead timer. -/
theorem CallsInv.onQueue (h : CallsInv s) {x : Except Fault TimerQueue} (hx : Lands x QueueInv)
    (hl : Post x fun q' => Later s.q q' ∧ q'.created = s.q.created)
    (hdead : ∀ n, Dead s.q n → Post x fun q' => Dead q' n)
    (hran : Post x fun q' => ∃ more, q'.ran = s.q.ran ++ more ∧
      ∀ y ∈ more, ∀ n, Dead s.q n → y.1 ≠ n) :
    Lands (s.onQueue x) fun s' => CallsInv s' ∧
      (∃ more, s'.q.ran = s.q.ran ++ more ∧ ∀ y ∈ more, y.1 ∉ s.cancelled) ∧
      ∀ n ∈ s.cancelled, n ∈ s'.cancelled := by
  obtain ⟨q', rfl, hinv⟩ := hx
  obtain ⟨hlater, hcreated⟩ := hl q' rfl
  obtain ⟨more, hmore, hnone⟩ := hran q' rfl
  have hdead' := h.dead_later hlater fun n _ hd => hdead n hd q' rfl
  refine .ok ⟨h.step hinv hlater hcreated hdead', ⟨more, hmore, fun y hy hmem => ?_⟩, fun n hn => hn⟩
  exact hnone y hy y.1 (h.dead y.1 hmem).2 rfl

/-- One step: no assertion fails, no callback of a cancelled timer is started, and
what was cancelled stays cancelled. -/
theorem exec_callsInv (h : CallsInv s) (a : Call) (hen : s.enabled a = true) (hfound : Found s a) :
    Lands (s.exec a) fun s' => CallsInv s' ∧
      (∃ more, s'.q.ran = s.q.ran ++ more ∧ ∀ y ∈ more, y.1 ∉ s.cancelled) ∧
      ∀ n ∈ s.cancelled, n ∈ s'.cancelled := by
  cases a with
  | addTimer timer when interval repeats =>
      refine (h.addTimer hen).mono fun s' hs' => ⟨hs'.1, starts_none hs'.2.1 _, fun n hn => ?_⟩
      rw [hs'.2.2]
      exact hn
  | cancel timer sequence =>
      refine (h.cancel timer sequence _ of_decide_eq_true fun hret hholds => ?_).mono
        fun s' hs' => ⟨hs'.1, starts_none hs'.2.1 _, hs'.2.2⟩
      obtain ⟨t, ht, hn⟩ := hholds
      exact hfound (of_decide_eq_true hret) t ht hn
  | threadNew timer when interval repeats =>
      exact .ok ⟨h.threadNew hen, starts_none rfl _, fun n hn => hn⟩
  | threadPush timer sequence =>
      exact .ok ⟨h.threadPush (of_decide_eq_true hen), starts_none rfl _, fun n hn => hn⟩
  | threadCancel timer sequence =>
      exact .ok ⟨h.threadCancel timer sequence, starts_none rfl _, fun n hn => hn⟩
  | runFunctor =>
      cases hpending : s.pending with
      | nil =>
          rw [Calls.enabled, hpending] at hen
          exact absurd hen (by simp)
      | cons f rest =>
          simp only [Calls.exec, hpending]
          cases f with
          | addTimerInLoop timer =>
              refine (h.runAdd hpending).mono fun s' hs' =>
                ⟨hs'.1, starts_none hs'.2.1 _, fun n hn => ?_⟩
              rw [hs'.2.2]
              exact hn
          | cancelInLoop timer sequence returned =>
              have hidle : s.q.pc = .idle := by
                simp only [Calls.enabled, Bool.and_eq_true] at hen
                exact idle_of_matches hen.2
              exact (h.runCancel hpending hidle).mono fun s' hs' =>
                ⟨hs'.1, starts_none hs'.2.1 _, hs'.2.2⟩
  | handleRead now =>
      have hidle : s.q.pc = .idle := idle_of_matches hen
      have hl := later_handleReadBegin s.q now
      exact h.onQueue (exec_inv h.queue (.handleRead now) hen)
        (hl.mono fun q' hq' => ⟨hq'.1, hq'.2.1⟩)
        (fun n hd => handleReadBegin_dead hd hidle now)
        (hl.mono fun q' hq' => starts_none hq'.2.2 _)
  | runNext =>
      exact h.onQueue (exec_inv h.queue .runNext hen) (later_runNext s.q) (fun n => runNext_dead)
        (runNext_ran s.q)
  | reset =>
      have hl := later_handleReadEnd s.q
      exact h.onQueue (exec_inv h.queue .reset hen) (hl.mono fun q' hq' => ⟨hq'.1, hq'.2.1⟩)
        (fun n => handleReadEnd_dead)
        (hl.mono fun q' hq' => starts_none hq'.2.2 _)

end Steps

theorem new_callsInv : CallsInv Calls.new := by
  refine ⟨new_inv, fun hpc => absurd rfl hpc, .refl _, ?_, ?_, ?_, ?_, ?_, ?_⟩
  · intro a n hmem
    exact absurd hmem (by simp [Calls.new])
  · intro a n hmem
    exact absurd hmem (by simp [Calls.new])
  · intro a n hmem
    exact absurd hmem (by simp [Calls.new])
  · intro a n hmem
    exact absurd hmem (by simp [Calls.new])
  · intro pre a n post hpending
    exact absurd hpending (by simp [Calls.new])
  · intro n hmem
    exact absurd hmem (by simp [Calls.new])

/-- Along a run, the callbacks started are not those of the timers that were
cancelled at its start. -/
theorem run_callsInv {s : Calls} (h : CallsInv s) {acts : List Call}
    (hacts : callSys.Meets (fun s a => callSys.enabled s a ∧ Found s a) s acts) :
    Lands (callSys.runFrom s acts) fun s' => CallsInv s' ∧
      (∃ more, s'.q.ran = s.q.ran ++ more ∧ ∀ y ∈ more, y.1 ∉ s.cancelled) ∧
      ∀ n ∈ s.cancelled, n ∈ s'.cancelled := by
  refine Sys.invariant_lands (S := callSys) (I := fun s' => CallsInv s' ∧
    (∃ more, s'.q.ran = s.q.ran ++ more ∧ ∀ y ∈ more, y.1 ∉ s.cancelled) ∧
    ∀ n ∈ s.cancelled, n ∈ s'.cancelled) ?_ ⟨h, starts_none rfl _, fun n hn => hn⟩ hacts
  rintro s₁ a ⟨hinv, ⟨more, hran, hnone⟩, hkeep⟩ ⟨hen, hfound⟩
  refine (exec_callsInv hinv a hen hfound).mono fun s₂ hs₂ => ?_
  obtain ⟨hinv₂, ⟨more₂, hran₂, hnone₂⟩, hkeep₂⟩ := hs₂
  refine ⟨hinv₂, ⟨more ++ more₂, ?_, fun y hy hmem => ?_⟩, fun n hn => hkeep₂ n (hkeep n hn)⟩
  · rw [hran₂, hran, List.append_assoc]
  · rcases List.mem_append.mp hy with hy | hy
    · exact hnone y hy hmem
    · exact hnone₂ y hy (hkeep y.1 hmem)

/-- **Cancellation is final.** In every run whose loop-thread cancels find their
timers, for every way to cut it in two: no callback that the second part starts is
that of a timer whose `cancelInLoop` was executed in the first. -/
theorem cancel_is_final (p r : List Call) (h : callSys.Legal Calls.new (p ++ r))
    (hfound : callSys.Meets Found Calls.new (p ++ r)) :
    Lands (callSys.runFrom Calls.new p) fun s =>
      Lands (callSys.runFrom s r) fun s' =>
        ∃ more, s'.q.ran = s.q.ran ++ more ∧ ∀ y ∈ more, y.1 ∉ s.cancelled := by
  obtain ⟨hp, hr⟩ := Sys.meets_append.mp (Sys.meets_and.mpr ⟨h, hfound⟩)
  obtain ⟨s, hs, hinv, -, -⟩ := run_callsInv new_callsInv hp
  exact ⟨s, hs, (run_callsInv hinv (hr s hs)).mono fun s' hs' => hs'.2.1⟩

/-- A repeating timer is cancelled in its own callback, after a timer that is not
due; another thread adds a timer and cancels it before the loop has run either
functor. None of the three runs again. -/
theorem cancel_is_final_in_callback :
    Lands (callSys.runFrom Calls.new
      [.addTimer 16 100 50 true, .addTimer 32 900 0 false, .handleRead 100, .runNext, .cancel 32 2,
        .cancel 16 1, .threadNew 48 200 0 false, .threadPush 48 3, .threadCancel 48 3, .reset,
        .runFunctor, .runFunctor]) fun s => Lands (callSys.runFrom s
      [.addTimer 16 1000 0 false, .handleRead 1000, .runNext, .reset]) fun s' =>
        ∃ more, s'.q.ran = s.q.ran ++ more ∧ ∀ y ∈ more, y.1 ∉ s.cancelled :=
  cancel_is_final _ _ (by decide +kernel) (by decide +kernel)

/-- A callback cancels a timer of its own batch whose turn is still to come; and the
loop thread cancels a timer whose `addTimerInLoop` is still queued. Both timers run
after their `cancelInLoop`. -/
theorem cancelled_timers_run :
    (callSys.Legal Calls.new [.addTimer 16 100 0 false, .addTimer 32 100 0 false, .handleRead 100,
        .runNext, .cancel 32 2, .runNext] ∧
      Lands (callSys.runFrom Calls.new [.addTimer 16 100 0 false, .addTimer 32 100 0 false,
        .handleRead 100, .runNext, .cancel 32 2]) fun s => s.cancelled = [2] ∧
      Lands (callSys.runFrom s [.runNext]) fun s' => s'.q.ran = s.q.ran ++ [(2, 100)]) ∧
    (callSys.Legal Calls.new [.threadNew 16 100 0 false, .threadPush 16 1, .cancel 16 1,
        .runFunctor, .handleRead 100, .runNext] ∧
      Lands (callSys.runFrom Calls.new [.threadNew 16 100 0 false, .threadPush 16 1, .cancel 16 1])
        fun s => s.cancelled = [1] ∧
      Lands (callSys.runFrom s [.runFunctor, .handleRead 100, .runNext]) fun s' =>
        s'.q.ran = s.q.ran ++ [(1, 100)]) := by
  decide +kernel

end Muduo.Timers
