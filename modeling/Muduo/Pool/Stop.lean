import Muduo.Pool.Wakeups

/-!
# Stopping the pool

`stop()` wakes the workers that wait for a task. A thread that waits for a free
slot is woken only by a `take()` that finds a task, and a worker makes no new
`take()` once it has seen `M_running` false. So what a stopped pool still owes its
producers is counted by the calls of `take()` that are under way (`takers`) and by
the tasks they will find: when more producers than that are left waiting, some of
them wait for ever.
-/

namespace Muduo.Pool

open Lib ThreadPool

variable {τ : Type}

/-- The worker has a call of `take()` to finish. -/
def Pc.inTake (pc : Pc τ) : Bool := pc.inCall || pc.inNotEmpty

namespace ThreadPool

/-- The number of calls of `take()` that are under way. -/
def takers (p : ThreadPool τ) : Nat := p.threads.countP Pc.inTake

/-- The producers that wait for a slot and have no signal pending, when thread `i`
comes to wait too. -/
def waitingWith (p : ThreadPool τ) (i : Nat) : Nat :=
  notFull.waiting (p.threads.set i (.waitNotFull none none false))

/-- Every worker has returned from `runInThread`, so `stop()` has joined them all. -/
def stopped (p : ThreadPool τ) : Prop :=
  p.running = false ∧ ∀ i < p.workers, p.threads[i]? = some .exited

instance (p : ThreadPool τ) [DecidableEq τ] : Decidable p.stopped :=
  inferInstanceAs (Decidable (_ ∧ _))

end ThreadPool

/-- The producers that wait when `stop()` is called, and those that find the queue
full after it, are no more than the calls of `take()` under way and the tasks in
the queue. -/
def Released (p : ThreadPool τ) : Act τ → Prop
  | .stop => notFull.waiting p.threads ≤ min p.takers p.queue.length
  | .run i _ _ | .wakeRun i _ =>
      p.running = false → p.isFull = true → p.waitingWith i ≤ min p.takers p.queue.length
  | _ => True

instance decidableReleased (p : ThreadPool τ) : ∀ a, Decidable (Released p a)
  | .stop => inferInstanceAs (Decidable (_ ≤ _))
  | .run .. | .wakeRun .. => inferInstanceAs (Decidable (_ → _ → _))
  | .test _ | .take .. | .wakeTake .. | .finish _ => inferInstanceAs (Decidable True)

/-- A thread that is no worker is outside the pool or waits for a slot. -/
def Pc.isOther : Pc τ → Bool
  | .outside | .waitNotFull _ none _ => true
  | _ => false

structure StopInv (p : ThreadPool τ) : Prop where
  /-- Nobody waits for a slot of a queue without bound. -/
  limited : 0 < notFull.waiting p.threads → 0 < p.maxQueueSize
  others : ∀ i pc, p.threads[i]? = some pc → p.workers ≤ i → pc.isOther = true
  owed : p.running = false → notFull.waiting p.threads ≤ min p.takers p.queue.length

section Signals

variable (pc : Pc τ)

theorem inTake_notEmpty_signal : (notEmpty.signal pc).inTake = pc.inTake := by
  cases pc <;> rfl

theorem inTake_notFull_signal : (notFull.signal pc).inTake = pc.inTake := by
  cases pc <;> rfl

theorem isOther_notEmpty_signal : (notEmpty.signal pc).isOther = pc.isOther := by
  cases pc <;> rfl

theorem isOther_notFull_signal (h : pc.isOther = true) : (notFull.signal pc).isOther = true := by
  cases pc with
  | waitNotFull task caller s => cases caller with
      | none => rfl
      | some t => exact absurd h (by simp [Pc.isOther])
  | _ => exact h

end Signals

section Steps

variable {p : ThreadPool τ} {i : Nat} {pc : Pc τ} {woken : List Nat}

/-- The counts when thread `i`, which waits for no slot, moves on. -/
theorem counts_set (hi : p.threads[i]? = some pc) {pc' : Pc τ}
    (hwait : notFull.blocked pc' = false) (htake : pc'.inTake = pc.inTake) :
    notFull.waiting (p.threads.set i pc') ≤ notFull.waiting p.threads ∧
      (p.threads.set i pc').countP Pc.inTake = p.takers := by
  have htakers := CondVar.countP_set_of_getElem? Pc.inTake hi pc'
  rw [htake] at htakers
  refine ⟨notFull.waiting_set_le hi hwait, ?_⟩
  unfold takers
  omega

/-- `run`, by a thread that calls it or comes back from its wait. -/
theorem run_stopInv (h : StopInv p) (hi : p.threads[i]? = some pc) (hpc : pc.inTake = false)
    {caller : Option τ} (hcaller : p.workers ≤ i → caller = none) (task : Task τ)
    (hrel : p.running = false → p.isFull = true → p.waitingWith i ≤ min p.takers p.queue.length) :
    Lands (p.run i task caller woken) StopInv := by
  unfold ThreadPool.run
  by_cases hfull : p.isFull = true
  · rw [if_pos hfull]
    obtain ⟨hmax, -⟩ : 0 < p.maxQueueSize ∧ p.maxQueueSize ≤ p.queue.length := by
      simpa [ThreadPool.isFull] using hfull
    refine .ok ⟨fun _ => hmax, ?_, fun hstop => ?_⟩
    · refine CondVar.forall_set h.others fun hle => ?_
      rw [hcaller hle]
      rfl
    · -- the thread is one more that waits, whatever it waits with
      have hwith := hrel hstop hfull
      have hnew := CondVar.countP_set_of_getElem? notFull.blocked hi (.waitNotFull task caller false)
      have hsame := CondVar.countP_set_of_getElem? notFull.blocked hi
        (.waitNotFull (none : Task τ) none false)
      have htakers := CondVar.countP_set_of_getElem? Pc.inTake hi (.waitNotFull task caller false)
      rw [hpc] at htakers
      have hblocked : notFull.blocked (.waitNotFull task caller false : Pc τ) =
          notFull.blocked (.waitNotFull (none : Task τ) none false : Pc τ) := rfl
      have hidle : Pc.inTake (.waitNotFull task caller false : Pc τ) = false := rfl
      rw [hblocked] at hnew
      rw [hidle] at htakers
      unfold waitingWith CondVar.waiting takers at hwith
      show (p.threads.set i (.waitNotFull task caller false)).countP notFull.blocked ≤
        min ((p.threads.set i (.waitNotFull task caller false)).countP Pc.inTake) p.queue.length
      omega
  · rw [if_neg hfull]
    refine .check_bind (by simpa using hfull) (.ok ?_)
    have hback : notFull.blocked (callerPc caller) = false := (callerPc_free caller).2.1
    have htake : (callerPc caller).inTake = pc.inTake := by
      rw [hpc]
      cases caller <;> rfl
    obtain ⟨hle, htakers⟩ := counts_set hi hback htake
    have hwait : notFull.waiting (notEmpty.notify woken (p.threads.set i (callerPc caller))) =
        notFull.waiting (p.threads.set i (callerPc caller)) :=
      CondVar.countP_notify notFull_blocked_notEmpty_signal woken _
    refine ⟨fun hw => ?_, ?_, fun hstop => ?_⟩
    · have hw : 0 < notFull.waiting
          (notEmpty.notify woken (p.threads.set i (callerPc caller))) := hw
      rw [hwait] at hw
      exact h.limited (lt_of_lt_of_le hw hle)
    · refine CondVar.forall_notify (fun j x hx hj => ?_) woken
        (CondVar.forall_set h.others fun hj => ?_)
      · rw [isOther_notEmpty_signal]
        exact hx hj
      · rw [hcaller hj]
        rfl
    · have howed := h.owed hstop
      have htakers' : (notEmpty.notify woken (p.threads.set i (callerPc caller))).countP
          Pc.inTake = p.takers :=
        (CondVar.countP_notify inTake_notEmpty_signal woken _).trans htakers
      show notFull.waiting (notEmpty.notify woken (p.threads.set i (callerPc caller))) ≤
        min ((notEmpty.notify woken (p.threads.set i (callerPc caller))).countP Pc.inTake)
          (p.queue ++ [task]).length
      rw [hwait, htakers', List.length_append, List.length_singleton]
      omega

/-- A step of a worker outside the critical sections. -/
theorem setPc_stopInv (h : StopInv p) (hi : p.threads[i]? = some pc)
    (hworker : i < p.workers) {pc' : Pc τ} (hwait : notFull.blocked pc' = false)
    (htake : p.running = false → pc'.inTake = pc.inTake) : StopInv (p.setPc i pc') := by
  refine ⟨fun hw => ?_, ?_, fun hstop => ?_⟩
  · exact h.limited (lt_of_lt_of_le hw (notFull.waiting_set_le hi hwait))
  · exact CondVar.forall_set h.others fun hle => absurd hworker (Nat.not_lt.mpr hle)
  · obtain ⟨hle, htakers⟩ := counts_set hi hwait (htake hstop)
    have howed := h.owed hstop
    show notFull.waiting (p.threads.set i pc') ≤
      min ((p.threads.set i pc').countP Pc.inTake) p.queue.length
    omega

/-- `take`, by a worker that calls it or comes back from its wait. After `stop()` a
call that finds no task is one that no producer waits for. -/
theorem take_stopInv (h : StopInv p) (hi : p.threads[i]? = some pc) (hpc : pc.inTake = true)
    (hworker : i < p.workers) (hfree : notFull.blocked pc = false)
    (hwakes : notFull.Wakes woken p.threads) : StopInv (p.take i woken) := by
  unfold ThreadPool.take
  cases hq : p.queue with
  | nil =>
      cases hr : p.running with
      | true =>
          rw [if_pos (by simp)]
          refine setPc_stopInv h hi hworker rfl fun hstop => ?_
          rw [hr] at hstop
          exact absurd hstop (by simp)
      | false =>
          rw [if_neg (by simp)]
          have howed := h.owed hr
          have hle := notFull.waiting_set_le (y := .loop) hi rfl
          rw [hq, List.length_nil] at howed
          refine ⟨fun hw => h.limited (lt_of_lt_of_le hw hle), ?_, fun _ => ?_⟩
          · exact CondVar.forall_set h.others fun hj => absurd hworker (Nat.not_lt.mpr hj)
          · show notFull.waiting (p.threads.set i .loop) ≤ _
            omega
  | cons task rest =>
      rw [if_neg (by simp)]
      have hback : notFull.blocked (takenPc task) = false := (takenPc_free task).2.1
      have hleft : (takenPc task).inTake = false := by cases task <;> rfl
      have hle := notFull.waiting_set_le hi hback
      have htakers := CondVar.countP_set_of_getElem? Pc.inTake hi (takenPc task)
      rw [hpc, hleft] at htakers
      simp only [Bool.toNat_true, Bool.toNat_false] at htakers
      have hlimited : 0 < notFull.waiting (p.threads.set i (takenPc task)) → 0 < p.maxQueueSize :=
        fun hw => h.limited (lt_of_lt_of_le hw hle)
      have hothers : ∀ j x, (p.threads.set i (takenPc task))[j]? = some x → p.workers ≤ j →
          x.isOther = true := CondVar.forall_set h.others fun hj => absurd hworker (by omega)
      have howed : p.running = false →
          notFull.waiting (p.threads.set i (takenPc task)) ≤ min p.takers (rest.length + 1) := by
        intro hstop
        have := h.owed hstop
        rw [hq, List.length_cons] at this
        omega
      show StopInv (if p.maxQueueSize > 0
        then ({ p with queue := rest }.takeReturn i task).notifyNotFull woken
        else { p with queue := rest }.takeReturn i task)
      unfold takers at howed
      by_cases hmax : p.maxQueueSize > 0
      · -- one call and one task fewer, and one producer fewer that waits
        rw [if_pos hmax]
        refine ⟨fun _ => hmax, ?_, fun hstop => ?_⟩
        · exact CondVar.forall_notify (fun j x hx hj => isOther_notFull_signal x (hx hj))
            woken hothers
        · have hnotify := CondVar.waiting_notify_lt (hwakes.set hi hfree hback)
          have hnotify' := CondVar.waiting_notify_le notFull woken (p.threads.set i (takenPc task))
          have hsame := CondVar.countP_notify inTake_notFull_signal woken
            (p.threads.set i (takenPc task))
          have := howed hstop
          show notFull.waiting (notFull.notify woken (p.threads.set i (takenPc task))) ≤
            min ((notFull.notify woken (p.threads.set i (takenPc task))).countP Pc.inTake)
              rest.length
          omega
      · rw [if_neg hmax]
        refine ⟨hlimited, hothers, fun hstop => ?_⟩
        show notFull.waiting (p.threads.set i (takenPc task)) ≤ _
        omega

theorem stop_stopInv (h : StopInv p)
    (hrel : notFull.waiting p.threads ≤ min p.takers p.queue.length) : StopInv p.stop := by
  have hwait : notFull.waiting (notEmpty.notifyAll p.threads) = notFull.waiting p.threads :=
    CondVar.countP_notifyAll notFull_blocked_notEmpty_signal _
  have htakers : (notEmpty.notifyAll p.threads).countP Pc.inTake = p.takers :=
    CondVar.countP_notifyAll inTake_notEmpty_signal _
  refine ⟨fun hw => h.limited (hwait ▸ hw), fun i pc hi hle => ?_, fun _ => ?_⟩
  · obtain ⟨x, hx, rfl⟩ := Option.map_eq_some_iff.mp ((List.getElem?_map ..).symm.trans hi)
    rw [isOther_notEmpty_signal]
    exact h.others i x hx hle
  · show notFull.waiting (notEmpty.notifyAll p.threads) ≤
      min ((notEmpty.notifyAll p.threads).countP Pc.inTake) p.queue.length
    rw [hwait, htakers]
    exact hrel

/-- A thread inside a task, a call of `take()` or the loop of `runInThread` is a
worker. -/
theorem StopInv.worker (h : StopInv p) (hi : p.threads[i]? = some pc) (hpc : pc.isOther = false) :
    i < p.workers := by
  by_contra hle
  have := h.others i pc hi (by omega)
  rw [hpc] at this
  exact absurd this (by simp)

theorem exec_stopInv (h : StopInv p) {a : Act τ} (ha : p.enabled a) (hrel : Released p a) :
    Lands (p.exec a) StopInv := by
  cases a with
  | run i task woken =>
      obtain ⟨⟨pc, hi, hpc⟩, -⟩ := ha
      have hi : p.threads[i]? = some pc := hi
      simp only [ThreadPool.exec]
      by_cases hworkers : p.workers = 0
      · rw [if_pos hworkers]
        exact .ok h
      · rw [if_neg hworkers, hi]
        cases pc with
        | outside => exact run_stopInv h hi rfl (fun _ => rfl) task hrel
        | running t =>
            have hworker := h.worker hi rfl
            exact run_stopInv h hi rfl (fun hle => absurd hworker (Nat.not_lt.mpr hle)) task hrel
        | _ => exact absurd hpc (by simp [Pc.mayRun])
  | wakeRun i woken =>
      obtain ⟨⟨pc, hi, hpc⟩, -⟩ := ha
      have hi : p.threads[i]? = some pc := hi
      simp only [ThreadPool.exec, hi]
      cases pc with
      | waitNotFull task caller s =>
          refine run_stopInv h hi rfl (fun hle => ?_) task hrel
          cases caller with
          | none => rfl
          | some t => exact absurd (h.worker hi rfl) (Nat.not_lt.mpr hle)
      | _ => exact absurd hpc (by simp [Pc.inNotFull])
  | test i =>
      obtain ⟨pc, hi, hpc⟩ := ha
      cases pc with
      | loop =>
          refine .ok (setPc_stopInv h hi (h.worker hi rfl) ?_ fun hstop => ?_)
          · cases p.running <;> rfl
          · rw [hstop]
            rfl
      | _ => exact absurd hpc (by simp [Pc.inLoop])
  | take i woken =>
      obtain ⟨⟨pc, hi, hpc⟩, hwakes⟩ := ha
      cases pc with
      | calling => exact .ok (take_stopInv h hi rfl (h.worker hi rfl) rfl hwakes)
      | _ => exact absurd hpc (by simp [Pc.inCall])
  | wakeTake i woken =>
      obtain ⟨⟨pc, hi, hpc⟩, hwakes⟩ := ha
      cases pc with
      | waitNotEmpty s => exact .ok (take_stopInv h hi rfl (h.worker hi rfl) rfl hwakes)
      | _ => exact absurd hpc (by simp [Pc.inNotEmpty])
  | finish i =>
      obtain ⟨pc, hi, hpc⟩ := ha
      cases pc with
      | running t => exact .ok (setPc_stopInv h hi (h.worker hi rfl) rfl fun _ => rfl)
      | _ => exact absurd hpc (by simp [Pc.inTask])
  | stop => exact .ok (stop_stopInv h hrel)

end Steps

theorem start_stopInv (maxQueueSize workers others : Nat) :
    StopInv (ThreadPool.start maxQueueSize workers others : ThreadPool τ) := by
  refine ⟨fun hw => ?_, fun i pc hi hle => ?_, fun hstop => absurd hstop (by simp [start])⟩
  · have hnone : notFull.waiting
        (ThreadPool.start maxQueueSize workers others : ThreadPool τ).threads = 0 := by
      simp [CondVar.waiting, ThreadPool.start, notFull]
    rw [hnone] at hw
    exact absurd hw (by omega)
  · have hi : (List.replicate workers Pc.loop ++ List.replicate others Pc.outside)[i]? = some pc :=
      hi
    have hle : workers ≤ i := hle
    rw [List.getElem?_append_right (by simpa using hle), List.getElem?_replicate] at hi
    split at hi
    · obtain rfl := Option.some.inj hi
      rfl
    · exact absurd hi (by simp)

/-- When all workers have left, no call of `take()` is under way. -/
theorem takers_of_stopped {p : ThreadPool τ} (h : StopInv p) (hp : p.stopped) : p.takers = 0 := by
  refine List.countP_eq_zero.mpr fun pc hpc => ?_
  obtain ⟨i, hi⟩ := List.mem_iff_getElem?.mp hpc
  rcases Nat.lt_or_ge i p.workers with hlt | hge
  · obtain rfl := Option.some.inj (hi.symm.trans (hp.2 i hlt))
    simp [Pc.inTake, Pc.inCall, Pc.inNotEmpty]
  · have := h.others i pc hi hge
    cases pc with
    | outside => simp [Pc.inTake, Pc.inCall, Pc.inNotEmpty]
    | waitNotFull task caller s => simp [Pc.inTake, Pc.inCall, Pc.inNotEmpty]
    | _ => exact absurd this (by simp [Pc.isOther])

/-- **`stop()` releases the producers it has calls of `take()` for.** In a run in
which the producers left waiting at `stop()`, and those that find the queue full
after it, never outnumber the calls of `take()` under way or the tasks in the
queue, no thread is blocked in `run()` without a signal once all workers are
joined. -/
theorem stop_releases (maxQueueSize workers others : Nat) (acts : List (Act τ))
    (hlegal : poolSys.Legal (ThreadPool.start maxQueueSize workers others) acts)
    (hrel : poolSys.Meets Released (ThreadPool.start maxQueueSize workers others) acts) :
    Lands (poolSys.runFrom (ThreadPool.start maxQueueSize workers others) acts) fun p =>
      p.stopped → notFull.waiting p.threads = 0 := by
  have hmeets : poolSys.Meets (fun p a => poolSys.enabled p a ∧ Released p a)
      (ThreadPool.start maxQueueSize workers others) acts := Sys.meets_and.mpr ⟨hlegal, hrel⟩
  have hrun : Lands (poolSys.runFrom (ThreadPool.start maxQueueSize workers others) acts)
      StopInv :=
    Sys.invariant_lands (S := poolSys) (fun p a h ha => exec_stopInv h ha.1 ha.2)
      (start_stopInv _ _ _) hmeets
  refine hrun.mono fun p h hp => ?_
  have howed := h.owed hp.1
  rw [takers_of_stopped h hp] at howed
  omega

/-- The worker is signalled for a task when `stop()` is called, and the producer
that waits for its slot gets it. -/
theorem stop_releases_one :
    Lands (poolSys.runFrom (ThreadPool.start 1 1 2 : ThreadPool Nat)
      [.test 0, .take 0 [], .run 1 (some 7) [0], .run 2 (some 8) [], .stop, .wakeTake 0 [2],
        .finish 0, .test 0]) fun p =>
      p.stopped ∧ notFull.waiting p.threads = 0 := by
  have hspec := stop_releases 1 1 2
    [.test 0, .take 0 [], .run 1 (some 7) [0], .run 2 (some 8) [], .stop, .wakeTake 0 [2],
      .finish 0, .test 0] (by decide) (by decide)
  have hrun : Lands (poolSys.runFrom (ThreadPool.start 1 1 2 : ThreadPool Nat)
      [.test 0, .take 0 [], .run 1 (some 7) [0], .run 2 (some 8) [], .stop, .wakeTake 0 [2],
        .finish 0, .test 0]) ThreadPool.stopped := by
    decide
  obtain ⟨p, hp, hstopped⟩ := hrun
  exact ⟨p, hp, hstopped, hspec.post p hp hstopped⟩

/-- The one worker executes a task while the queue is full and a producer waits for
its slot. `stop()` notifies `M_notEmpty` only; the worker leaves without another
`take()`, and the producer waits for ever. -/
theorem stop_leaves_producer :
    ¬ ∀ (maxQueueSize workers others : Nat) (acts : List (Act Nat)),
      poolSys.Legal (ThreadPool.start maxQueueSize workers others) acts →
      Lands (poolSys.runFrom (ThreadPool.start maxQueueSize workers others) acts) fun p =>
        p.stopped → notFull.waiting p.threads = 0 := by
  intro h
  have hspec := h 1 1 2
    [.test 0, .take 0 [], .run 1 (some 7) [0], .wakeTake 0 [], .run 1 (some 8) [],
      .run 2 (some 9) [], .stop, .finish 0, .test 0] (by decide)
  revert hspec
  decide

end Muduo.Pool
