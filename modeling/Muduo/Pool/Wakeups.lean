import Muduo.Pool.Model

/-!
# The pool as a bounded buffer

`M_queue` is a bounded queue, and a worker or a producer that waits for it does
not wait in vain: while a worker is blocked, there are no more tasks than workers
that have been signalled and have not resumed, and likewise for producers and
free slots. Both are `Covered` of `Lib.Condition`, with the tasks and with the
free slots as the items; each operation is an instance of its rules.
-/

namespace Muduo.Pool

open Lib ThreadPool

variable {τ : Type}

structure Inv (p : ThreadPool τ) : Prop where
  running : p.running = true
  order : p.returned ++ p.queue = p.pushed
  bound : 0 < p.maxQueueSize → p.queue.length ≤ p.maxQueueSize
  /-- Nobody waits for a slot of a queue without bound. -/
  limited : 0 < notFull.waiting p.threads → 0 < p.maxQueueSize
  workers : notEmpty.Covered p.threads p.queue.length
  producers : notFull.Covered p.threads (p.maxQueueSize - p.queue.length)

/-- A thread that does not wait on the condition variable. -/
def Free (c : CondVar (Pc τ)) (pc : Pc τ) : Prop := c.blocked pc = false ∧ c.signalled pc = false

section Signals

variable (pc : Pc τ)

@[simp] theorem notEmpty_blocked_notFull_signal :
    notEmpty.blocked (notFull.signal pc) = notEmpty.blocked pc := by
  cases pc <;> rfl

@[simp] theorem notEmpty_signalled_notFull_signal :
    notEmpty.signalled (notFull.signal pc) = notEmpty.signalled pc := by
  cases pc <;> rfl

@[simp] theorem notFull_blocked_notEmpty_signal :
    notFull.blocked (notEmpty.signal pc) = notFull.blocked pc := by
  cases pc <;> rfl

@[simp] theorem notFull_signalled_notEmpty_signal :
    notFull.signalled (notEmpty.signal pc) = notFull.signalled pc := by
  cases pc <;> rfl

end Signals

theorem callerPc_free (caller : Option τ) :
    Free notEmpty (callerPc caller) ∧ Free notFull (callerPc caller) := by
  cases caller <;> exact ⟨⟨rfl, rfl⟩, ⟨rfl, rfl⟩⟩

theorem takenPc_free (task : Task τ) :
    Free notEmpty (takenPc task) ∧ Free notFull (takenPc task) := by
  cases task <;> exact ⟨⟨rfl, rfl⟩, ⟨rfl, rfl⟩⟩

theorem not_isFull_iff (p : ThreadPool τ) :
    p.isFull = false ↔ (0 < p.maxQueueSize → p.queue.length < p.maxQueueSize) := by
  simp [ThreadPool.isFull]

section Steps

variable {p : ThreadPool τ} {i : Nat} {pc : Pc τ} {woken : List Nat}

/-- `run`, by a thread that calls it or comes back from its wait: what counts is
that it does not wait for a task. -/
theorem run_inv (h : Inv p) (hi : p.threads[i]? = some pc) (hfree : Free notEmpty pc)
    (hwakes : notEmpty.Wakes woken p.threads) (task : Task τ) (caller : Option τ) :
    Lands (p.run i task caller woken) Inv := by
  unfold ThreadPool.run
  by_cases hfull : p.isFull = true
  · rw [if_pos hfull]
    obtain ⟨hmax, hlen⟩ : 0 < p.maxQueueSize ∧ p.maxQueueSize ≤ p.queue.length := by
      simpa [ThreadPool.isFull] using hfull
    have hslots : p.maxQueueSize - p.queue.length = 0 := by omega
    refine .ok ⟨h.running, h.order, h.bound, fun _ => hmax, ?_, ?_⟩
    · exact h.workers.set hi hfree.1.symm hfree.2.symm
    · show notFull.Covered _ (p.maxQueueSize - p.queue.length)
      rw [hslots]
      exact .zero _ _
  · have hroom := (not_isFull_iff p).mp (by simpa using hfull)
    rw [if_neg hfull]
    refine .check_bind (by simpa using hfull) (.ok ?_)
    obtain ⟨hback, hback'⟩ := callerPc_free caller
    refine ⟨h.running, ?_, fun hmax => ?_, fun hw => ?_, ?_, ?_⟩
    · show p.returned ++ (p.queue ++ [task]) = p.pushed ++ [task]
      rw [← List.append_assoc, h.order]
    · have := hroom hmax
      show (p.queue ++ [task]).length ≤ p.maxQueueSize
      rw [List.length_append, List.length_singleton]
      omega
    · have hle := notFull.waiting_set_le hi hback'.1
      refine h.limited (lt_of_lt_of_le ?_ hle)
      rw [CondVar.waiting, ← CondVar.countP_notify (c := notEmpty)
        notFull_blocked_notEmpty_signal woken]
      exact hw
    · -- one more task, one `notify`
      show notEmpty.Covered _ (p.queue ++ [task]).length
      rw [List.length_append, List.length_singleton]
      refine CondVar.Covered.notify ?_ (hwakes.set hi hfree.1 hback.1)
      exact h.workers.set hi (hback.1.trans hfree.1.symm) (hback.2.trans hfree.2.symm)
    · refine CondVar.Covered.notify_other notFull_blocked_notEmpty_signal
        notFull_signalled_notEmpty_signal ?_ woken
      show notFull.Covered _ (p.maxQueueSize - (p.queue ++ [task]).length)
      rw [List.length_append, List.length_singleton]
      rcases Nat.eq_zero_or_pos p.maxQueueSize with hmax | hmax
      · rw [hmax, Nat.zero_sub]
        exact .zero _ _
      · -- the slot it takes is one of those that were counted
        have := hroom hmax
        refine CondVar.Covered.resume (h.producers.mono ?_) hi hback'.1 hback'.2
        omega

/-- `take`, by a worker that calls it or comes back from its wait. -/
theorem take_inv (h : Inv p) (hi : p.threads[i]? = some pc) (hfree : Free notFull pc)
    (hwakes : notFull.Wakes woken p.threads) : Inv (p.take i woken) := by
  unfold ThreadPool.take
  cases hq : p.queue with
  | nil =>
      rw [if_pos (by simp [h.running])]
      refine ⟨h.running, h.order, h.bound, fun hw => ?_, ?_, ?_⟩
      · have hle := notFull.waiting_set_le (y := .waitNotEmpty false) hi rfl
        exact h.limited (lt_of_lt_of_le hw hle)
      · show notEmpty.Covered _ p.queue.length
        rw [hq]
        exact .zero _ _
      · exact h.producers.set hi hfree.1.symm hfree.2.symm
  | cons task rest =>
      rw [if_neg (by simp)]
      obtain ⟨hback, hback'⟩ := takenPc_free task
      have horder : p.returned ++ [task] ++ rest = p.pushed := by
        rw [← h.order, hq, List.append_assoc, List.singleton_append]
      have hworkers : notEmpty.Covered (p.threads.set i (takenPc task)) rest.length := by
        have := h.workers
        rw [hq] at this
        exact this.resume hi hback.1 hback.2
      have hlimited : 0 < notFull.waiting (p.threads.set i (takenPc task)) → 0 < p.maxQueueSize :=
        fun hw => h.limited (lt_of_lt_of_le hw (notFull.waiting_set_le hi hback'.1))
      have hproducers : notFull.Covered (p.threads.set i (takenPc task))
          (p.maxQueueSize - p.queue.length) :=
        h.producers.set hi (hback'.1.trans hfree.1.symm) (hback'.2.trans hfree.2.symm)
      have hlen : p.queue.length = rest.length + 1 := by rw [hq, List.length_cons]
      show Inv (if p.maxQueueSize > 0
        then ({ p with queue := rest }.takeReturn i task).notifyNotFull woken
        else { p with queue := rest }.takeReturn i task)
      by_cases hmax : p.maxQueueSize > 0
      · -- one more free slot, one `notify`
        have hbound := h.bound hmax
        have hslots : p.maxQueueSize - rest.length = p.maxQueueSize - p.queue.length + 1 := by omega
        rw [if_pos hmax]
        refine ⟨h.running, horder, fun _ => ?_, fun _ => hmax, ?_, ?_⟩
        · show rest.length ≤ p.maxQueueSize
          omega
        · exact CondVar.Covered.notify_other notEmpty_blocked_notFull_signal
            notEmpty_signalled_notFull_signal hworkers woken
        · show notFull.Covered _ (p.maxQueueSize - rest.length)
          rw [hslots]
          exact hproducers.notify (hwakes.set hi hfree.1 hback'.1)
      · have hslots : p.maxQueueSize - rest.length = 0 := by omega
        rw [if_neg hmax]
        refine ⟨h.running, horder, fun hpos => absurd hpos hmax, hlimited, hworkers, ?_⟩
        show notFull.Covered _ (p.maxQueueSize - rest.length)
        rw [hslots]
        exact .zero _ _

/-- A step of a worker outside the critical sections. -/
theorem setPc_inv (h : Inv p) (hi : p.threads[i]? = some pc) (hold : Free notEmpty pc)
    (hold' : Free notFull pc) {pc' : Pc τ} (hnew : Free notEmpty pc') (hnew' : Free notFull pc') :
    Inv (p.setPc i pc') := by
  refine ⟨h.running, h.order, h.bound, fun hw => ?_, ?_, ?_⟩
  · exact h.limited (lt_of_lt_of_le hw (notFull.waiting_set_le hi hnew'.1))
  · exact h.workers.set hi (hnew.1.trans hold.1.symm) (hnew.2.trans hold.2.symm)
  · exact h.producers.set hi (hnew'.1.trans hold'.1.symm) (hnew'.2.trans hold'.2.symm)

/-- Every step but `stop` keeps the invariant. -/
theorem exec_inv (h : Inv p) {a : Act τ} (ha : p.enabled a) (hstop : a ≠ .stop) :
    Lands (p.exec a) Inv := by
  cases a with
  | run i task woken =>
      obtain ⟨⟨pc, hi, hpc⟩, hwakes⟩ := ha
      have hi : p.threads[i]? = some pc := hi
      simp only [ThreadPool.exec]
      by_cases hworkers : p.workers = 0
      · rw [if_pos hworkers]
        exact .ok h
      · rw [if_neg hworkers, hi]
        cases pc with
        | outside => exact run_inv h hi ⟨rfl, rfl⟩ hwakes task none
        | running t => exact run_inv h hi ⟨rfl, rfl⟩ hwakes task (some t)
        | _ => exact absurd hpc (by simp [Pc.mayRun])
  | wakeRun i woken =>
      obtain ⟨⟨pc, hi, hpc⟩, hwakes⟩ := ha
      have hi : p.threads[i]? = some pc := hi
      simp only [ThreadPool.exec, hi]
      cases pc with
      | waitNotFull task caller s => exact run_inv h hi ⟨rfl, rfl⟩ hwakes task caller
      | _ => exact absurd hpc (by simp [Pc.inNotFull])
  | test i =>
      obtain ⟨pc, hi, hpc⟩ := ha
      simp only [ThreadPool.exec, h.running]
      cases pc with
      | loop => exact .ok (setPc_inv h hi ⟨rfl, rfl⟩ ⟨rfl, rfl⟩ ⟨rfl, rfl⟩ ⟨rfl, rfl⟩)
      | _ => exact absurd hpc (by simp [Pc.inLoop])
  | take i woken =>
      obtain ⟨⟨pc, hi, hpc⟩, hwakes⟩ := ha
      cases pc with
      | calling => exact .ok (take_inv h hi ⟨rfl, rfl⟩ hwakes)
      | _ => exact absurd hpc (by simp [Pc.inCall])
  | wakeTake i woken =>
      obtain ⟨⟨pc, hi, hpc⟩, hwakes⟩ := ha
      cases pc with
      | waitNotEmpty s => exact .ok (take_inv h hi ⟨rfl, rfl⟩ hwakes)
      | _ => exact absurd hpc (by simp [Pc.inNotEmpty])
  | finish i =>
      obtain ⟨pc, hi, hpc⟩ := ha
      cases pc with
      | running t => exact .ok (setPc_inv h hi ⟨rfl, rfl⟩ ⟨rfl, rfl⟩ ⟨rfl, rfl⟩ ⟨rfl, rfl⟩)
      | _ => exact absurd hpc (by simp [Pc.inTask])
  | stop => exact absurd rfl hstop

end Steps

theorem start_inv (maxQueueSize workers others : Nat) :
    Inv (ThreadPool.start maxQueueSize workers others : ThreadPool τ) := by
  have hnone : ∀ c : CondVar (Pc τ), c = notEmpty ∨ c = notFull →
      c.waiting (ThreadPool.start maxQueueSize workers others : ThreadPool τ).threads = 0 := by
    rintro c (rfl | rfl)
    · simp [CondVar.waiting, ThreadPool.start, notEmpty]
    · simp [CondVar.waiting, ThreadPool.start, notFull]
  refine ⟨rfl, rfl, fun _ => Nat.zero_le _, fun hw => ?_, .zero _ _, fun hw => ?_⟩
  · rw [hnone _ (.inr rfl)] at hw
    exact absurd hw (by omega)
  · rw [hnone _ (.inr rfl)] at hw
    exact absurd hw (by omega)

theorem run_maxQueueSize (p : ThreadPool τ) (i : Nat) (task : Task τ) (caller : Option τ)
    (woken : List Nat) :
    Post (p.run i task caller woken) fun p' => p'.maxQueueSize = p.maxQueueSize := by
  unfold ThreadPool.run
  by_cases hfull : p.isFull = true
  · rw [if_pos hfull]
    exact .ok rfl
  · rw [if_neg hfull]
    exact .check_bind fun _ => .ok rfl

theorem take_maxQueueSize (p : ThreadPool τ) (i : Nat) (woken : List Nat) :
    (p.take i woken).maxQueueSize = p.maxQueueSize := by
  unfold ThreadPool.take
  split
  · rfl
  · split
    · rfl
    · dsimp only
      split <;> rfl

/-- `setMaxQueueSize` must be called before `start()`: no step changes the
bound. -/
theorem exec_maxQueueSize (p : ThreadPool τ) (a : Act τ) :
    Post (p.exec a) fun p' => p'.maxQueueSize = p.maxQueueSize := by
  cases a with
  | run i task woken =>
      simp only [ThreadPool.exec]
      split
      · exact .ok rfl
      · split
        · exact run_maxQueueSize _ _ _ _ _
        · exact run_maxQueueSize _ _ _ _ _
        · exact .ok rfl
  | wakeRun i woken =>
      simp only [ThreadPool.exec]
      split
      · exact run_maxQueueSize _ _ _ _ _
      · exact .ok rfl
  | test i => exact .ok rfl
  | take i woken => exact .ok (take_maxQueueSize ..)
  | wakeTake i woken => exact .ok (take_maxQueueSize ..)
  | finish i => exact .ok rfl
  | stop => exact .ok rfl

/-- **A bounded buffer without lost wake-ups.** In every run before `stop()`: what
`take()` has returned, followed by the queue, is what `run()` has pushed; the
queue keeps its bound; while a worker is blocked on `M_notEmpty`, the queue is no
longer than the workers that are signalled and have not resumed are many; and
while a producer is blocked on `M_notFull`, the free slots are no more than the
producers that are signalled and have not resumed. -/
theorem pool_bounded_buffer (maxQueueSize workers others : Nat) (acts : List (Act τ))
    (hlegal : poolSys.Legal (ThreadPool.start maxQueueSize workers others) acts)
    (hstop : .stop ∉ acts) :
    Lands (poolSys.runFrom (ThreadPool.start maxQueueSize workers others) acts) fun p =>
      p.maxQueueSize = maxQueueSize ∧
      p.returned ++ p.queue = p.pushed ∧
      (0 < maxQueueSize → p.queue.length ≤ maxQueueSize) ∧
      (0 < notEmpty.waiting p.threads → p.queue.length ≤ notEmpty.resuming p.threads) ∧
      (0 < notFull.waiting p.threads →
        0 < maxQueueSize ∧ maxQueueSize - p.queue.length ≤ notFull.resuming p.threads) := by
  have hno : ∀ a ∈ acts, a ≠ Act.stop := by
    rintro a ha rfl
    exact hstop ha
  have hmeets : poolSys.Meets (fun p a => poolSys.enabled p a ∧ a ≠ .stop)
      (ThreadPool.start maxQueueSize workers others) acts :=
    Sys.meets_and.mpr ⟨hlegal, Sys.meets_of_forall hno _⟩
  have hrun : Lands (poolSys.runFrom (ThreadPool.start maxQueueSize workers others) acts)
      fun p => Inv p ∧ p.maxQueueSize = maxQueueSize := by
    refine Sys.invariant_lands (S := poolSys) ?_ ⟨start_inv _ _ _, rfl⟩ hmeets
    rintro p a ⟨h, hmax⟩ ⟨ha, hne⟩
    obtain ⟨p', hexec, h'⟩ := exec_inv h ha hne
    exact ⟨p', hexec, h', (exec_maxQueueSize p a p' hexec).trans hmax⟩
  refine hrun.mono fun p hp => ?_
  obtain ⟨h, rfl⟩ := hp
  exact ⟨rfl, h.order, h.bound, h.workers, fun hw => ⟨h.limited hw, h.producers hw⟩⟩

/-- Two workers wait; a task is pushed, and a third worker takes it before the one
that was signalled for it. A producer is blocked on the one slot meanwhile. -/
theorem pool_bounded_buffer_barging :
    Lands (poolSys.runFrom (ThreadPool.start 1 3 2 : ThreadPool Nat)
      [.test 0, .take 0 [], .test 1, .take 1 [], .run 3 (some 7) [1], .run 4 (some 8) [0],
        .test 2, .take 2 [4], .wakeTake 1 [], .run 3 (some 9) [0]]) fun p =>
      p.returned = [some 7] ∧ p.queue = [some 9] ∧
        (0 < notEmpty.waiting p.threads ∧ p.queue.length ≤ notEmpty.resuming p.threads) := by
  have hspec := pool_bounded_buffer 1 3 2
    [.test 0, .take 0 [], .test 1, .take 1 [], .run 3 (some 7) [1], .run 4 (some 8) [0],
      .test 2, .take 2 [4], .wakeTake 1 [], .run 3 (some 9) [0]] (by decide) (by decide)
  have hrun : Lands (poolSys.runFrom (ThreadPool.start 1 3 2 : ThreadPool Nat)
      [.test 0, .take 0 [], .test 1, .take 1 [], .run 3 (some 7) [1], .run 4 (some 8) [0],
        .test 2, .take 2 [4], .wakeTake 1 [], .run 3 (some 9) [0]]) fun p =>
      p.returned = [some 7] ∧ p.queue = [some 9] ∧ 0 < notEmpty.waiting p.threads := by
    decide
  obtain ⟨p, hp, hreturned, hqueue, hwaiting⟩ := hrun
  exact ⟨p, hp, hreturned, hqueue, hwaiting, (hspec.post p hp).2.2.2.1 hwaiting⟩

end Muduo.Pool
