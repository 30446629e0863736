import Muduo.Lib.Condition
import Muduo.Lib.System

/-!
# The blocking queue (`BlockingQueue.h`)

An unbounded queue under a mutex: `put` pushes and notifies, `take` waits for an item. As
in the thread pool a critical section is one step, and `Condition::wait` ends it with the
thread blocked. The guards without a name are read as the guards that the macro in `Mutex.h`
asks for.

One `notify` for each item is enough: while a thread is blocked there are no more items
than threads that are signalled and have not resumed. So there is always a thread that can
go on where there is something to take, and the takers empty the queue by themselves.
-/

namespace Muduo.Queue

open Lib

/-- Where a thread is: outside the queue, or in `M_notEmpty.wait()`. -/
inductive Pc
  | outside
  | waitNotEmpty (signalled : Bool)
  deriving DecidableEq, Repr

inductive Fault
  /-- `assert(!M_queue.empty())`. -/
  | takeEmpty
  deriving DecidableEq, Repr

variable {α : Type}

structure BlockingQueue (α : Type) where
  queue : List α
  threads : List Pc
  /-- The items that `put` has pushed, with the threads that called it. -/
  puts : List (Nat × α)
  /-- What the calls of `take` have returned, with the threads they returned to. -/
  takes : List (Nat × α)

def notEmpty : CondVar Pc where
  blocked
    | .waitNotEmpty s => !s
    | .outside => false
  signalled
    | .waitNotEmpty s => s
    | .outside => false
  signal
    | .waitNotEmpty _ => .waitNotEmpty true
    | .outside => .outside
  blocked_signal pc := by cases pc <;> rfl
  signalled_signal pc := by cases pc <;> simp
  signal_of_not_blocked pc := by cases pc <;> simp
  not_both pc := by cases pc <;> simp

/-- The steps of the threads; `woken` are the threads that the `notify` signals. -/
inductive Act (α : Type)
  | put (i : Nat) (x : α) (woken : List Nat)
  | take (i : Nat)
  /-- Thread `i` returns from `M_notEmpty.wait()`, signalled or not. -/
  | wakeTake (i : Nat)
  deriving DecidableEq, Repr

namespace BlockingQueue

/-- An empty queue, and `threads` threads that may use it. -/
def new (threads : Nat) : BlockingQueue α where
  queue := []
  threads := List.replicate threads .outside
  puts := []
  takes := []

def put (q : BlockingQueue α) (i : Nat) (x : α) (woken : List Nat) : BlockingQueue α :=
  { q with
    queue := q.queue ++ [x]
    puts := q.puts ++ [(i, x)]
    threads := notEmpty.notify woken q.threads }

/-- `take()` past its loop. -/
def takeFront (q : BlockingQueue α) (i : Nat) : Except Fault (BlockingQueue α) :=
  match q.queue with
  | [] => .error .takeEmpty
  | front :: rest => .ok { q with
      queue := rest
      takes := q.takes ++ [(i, front)]
      threads := q.threads.set i .outside }

/-- `take()` from the test of its loop on. -/
def take (q : BlockingQueue α) (i : Nat) : Except Fault (BlockingQueue α) :=
  if q.queue.isEmpty then .ok { q with threads := q.threads.set i (.waitNotEmpty false) }
  else q.takeFront i

def exec (q : BlockingQueue α) : Act α → Except Fault (BlockingQueue α)
  | .put i x woken => .ok (q.put i x woken)
  | .take i => q.take i
  | .wakeTake i => q.take i

/-- Thread `i` is in `M_notEmpty.wait()`. -/
def Waits (q : BlockingQueue α) (i : Nat) : Prop :=
  q.threads[i]? = some (.waitNotEmpty false) ∨ q.threads[i]? = some (.waitNotEmpty true)

/-- Thread `i` is in `M_notEmpty.wait()`, and has been signalled. -/
def Signalled (q : BlockingQueue α) (i : Nat) : Prop :=
  q.threads[i]? = some (.waitNotEmpty true)

instance (q : BlockingQueue α) (i : Nat) : Decidable (q.Waits i) :=
  inferInstanceAs (Decidable (_ ∨ _))

/-- A thread is in one call at a time; a `notify` signals at least one of the threads that
wait, if there is one. -/
def enabled (q : BlockingQueue α) : Act α → Prop
  | .put i _ woken => q.threads[i]? = some .outside ∧ notEmpty.Wakes woken q.threads
  | .take i => q.threads[i]? = some .outside
  | .wakeTake i => q.Waits i

instance decidableEnabled (q : BlockingQueue α) : ∀ a, Decidable (q.enabled a)
  | .put .. => inferInstanceAs (Decidable (_ ∧ _))
  | .take i => inferInstanceAs (Decidable (q.threads[i]? = some .outside))
  | .wakeTake i => inferInstanceAs (Decidable (q.Waits i))

/-- The step is a signalled thread coming back from its wait. -/
def Resumes (q : BlockingQueue α) (a : Act α) : Prop := ∃ j, a = .wakeTake j ∧ q.Signalled j

end BlockingQueue

def queueSys : Sys (BlockingQueue α) (Act α) Fault := ⟨BlockingQueue.enabled, BlockingQueue.exec⟩

instance (q : BlockingQueue α) (a : Act α) : Decidable (queueSys.enabled q a) :=
  q.decidableEnabled a

structure Inv (q : BlockingQueue α) : Prop where
  order : q.takes.map Prod.snd ++ q.queue = q.puts.map Prod.snd
  covered : notEmpty.Covered q.threads q.queue.length

section Steps

variable {q : BlockingQueue α} {i : Nat} {pc : Pc}

theorem take_of_empty (hq : q.queue = []) (i : Nat) :
    q.take i = .ok { q with threads := q.threads.set i (.waitNotEmpty false) } := by
  rw [BlockingQueue.take, hq]
  rfl

theorem take_of_cons {front : α} {rest : List α} (hq : q.queue = front :: rest) (i : Nat) :
    q.take i = .ok { q with
      queue := rest
      takes := q.takes ++ [(i, front)]
      threads := q.threads.set i .outside } := by
  rw [BlockingQueue.take, hq]
  show q.takeFront i = _
  rw [BlockingQueue.takeFront, hq]

/-- `take`, by a thread that calls it or comes back from its wait. -/
theorem take_inv (h : Inv q) (hi : q.threads[i]? = some pc) : Lands (q.take i) Inv := by
  cases hq : q.queue with
  | nil =>
      rw [take_of_empty hq]
      refine .ok ⟨h.order, ?_⟩
      show notEmpty.Covered _ q.queue.length
      rw [hq]
      exact .zero _ _
  | cons front rest =>
      have horder := h.order
      have hcovered := h.covered
      rw [hq] at horder hcovered
      rw [take_of_cons hq]
      refine .ok ⟨?_, hcovered.resume hi rfl rfl⟩
      rw [← horder, List.map_append, List.append_assoc]
      rfl

/-- One more item, one `notify`. -/
theorem put_inv (h : Inv q) (i : Nat) (x : α) {woken : List Nat}
    (hwakes : notEmpty.Wakes woken q.threads) : Inv (q.put i x woken) := by
  refine ⟨?_, ?_⟩
  · show q.takes.map Prod.snd ++ (q.queue ++ [x]) = (q.puts ++ [(i, x)]).map Prod.snd
    rw [← List.append_assoc, h.order, List.map_append]
    rfl
  · show notEmpty.Covered _ (q.queue ++ [x]).length
    rw [List.length_append, List.length_singleton]
    exact h.covered.notify hwakes

theorem exec_inv (h : Inv q) {a : Act α} (ha : q.enabled a) : Lands (q.exec a) Inv := by
  cases a with
  | put i x woken => exact .ok (put_inv h i x ha.2)
  | take i => exact take_inv h ha
  | wakeTake i =>
      rcases ha with hi | hi
      · exact take_inv h hi
      · exact take_inv h hi

theorem new_inv (threads : Nat) : Inv (.new threads : BlockingQueue α) := ⟨rfl, .zero _ _⟩

theorem run_inv {threads : Nat} {acts : List (Act α)}
    (hlegal : queueSys.Legal (.new threads) acts) :
    Lands (queueSys.runFrom (.new threads) acts) Inv :=
  Sys.invariant_lands (S := queueSys) (fun _ _ h ha => exec_inv h ha) (new_inv threads) hlegal

/-- Where something can be taken and a thread waits, one of them is signalled. -/
theorem Inv.exists_signalled (h : Inv q) (hq : q.queue ≠ []) (hi : q.Waits i) :
    ∃ j, q.Signalled j := by
  rcases hi with hi | hi
  · have hwaiting : 0 < notEmpty.waiting q.threads :=
      List.countP_pos_iff.mpr ⟨_, List.mem_of_getElem? hi, rfl⟩
    have hresuming : 0 < notEmpty.resuming q.threads :=
      lt_of_lt_of_le (List.length_pos_iff.mpr hq) (h.covered hwaiting)
    obtain ⟨pc, hmem, hsignalled⟩ := List.countP_pos_iff.mp hresuming
    obtain ⟨j, hj⟩ := List.mem_iff_getElem?.mp hmem
    cases pc with
    | outside => exact absurd hsignalled (by simp [notEmpty])
    | waitNotEmpty s =>
        obtain rfl : s = true := hsignalled
        exact ⟨j, hj⟩
  · exact ⟨i, hi⟩

/-- The takers that are signalled go on, one by one, until nothing is left to take or
nobody waits. -/
theorem takers_run (h : Inv q) : ∃ acts, queueSys.Meets BlockingQueue.Resumes q acts ∧
    Lands (queueSys.runFrom q acts) fun q' =>
      q'.puts = q.puts ∧ (q'.queue = [] ∨ ∀ i, ¬ q'.Waits i) := by
  have hstep : ∀ q₁, (Inv q₁ ∧ q₁.puts = q.puts) →
      ¬ (q₁.queue = [] ∨ ∀ i, ¬ q₁.Waits i) → ∃ a, q₁.Resumes a ∧
        Lands (queueSys.exec q₁ a) fun q₂ =>
          (Inv q₂ ∧ q₂.puts = q.puts) ∧ q₂.queue.length < q₁.queue.length := by
    rintro q₁ ⟨h₁, hputs⟩ hgoal
    push Not at hgoal
    obtain ⟨hne, i, hi⟩ := hgoal
    obtain ⟨j, hj⟩ := h₁.exists_signalled hne hi
    obtain ⟨front, rest, hq⟩ := List.exists_cons_of_ne_nil hne
    refine ⟨.wakeTake j, ⟨j, rfl, hj⟩, ?_⟩
    obtain ⟨q₂, hq₂, h₂⟩ : Lands (q₁.take j) Inv := take_inv h₁ hj
    refine ⟨q₂, hq₂, ⟨h₂, ?_⟩, ?_⟩
    · obtain rfl := Except.ok.inj ((take_of_cons hq j).symm.trans hq₂)
      exact hputs
    · obtain rfl := Except.ok.inj ((take_of_cons hq j).symm.trans hq₂)
      show rest.length < q₁.queue.length
      rw [hq, List.length_cons]
      exact Nat.lt_succ_self _
  obtain ⟨acts, hmeets, hrun⟩ := Sys.exists_run (S := queueSys)
    (fun q' : BlockingQueue α => q'.queue.length) hstep ⟨h, rfl⟩
  exact ⟨acts, hmeets, hrun.mono fun q' hq' => ⟨hq'.1.2, hq'.2⟩⟩

end Steps

/-- **Every item is taken once, in order.** In every run, with any number of threads and
with waits that end by themselves: the assert holds, and what `take` has returned, followed
by the queue, is what `put` has pushed. -/
theorem takes_in_order (threads : Nat) (acts : List (Act α))
    (hlegal : queueSys.Legal (.new threads) acts) :
    Lands (queueSys.runFrom (.new threads) acts) fun q =>
      q.takes.map Prod.snd ++ q.queue = q.puts.map Prod.snd ∧
      (0 < notEmpty.waiting q.threads → q.queue.length ≤ notEmpty.resuming q.threads) :=
  (run_inv hlegal).mono fun _ h => ⟨h.order, h.covered⟩

/-- A third thread takes the item before the one that was signalled for it. -/
theorem takes_in_order_barging :
    Lands (queueSys.runFrom (.new 3 : BlockingQueue Nat)
      [.take 0, .put 1 7 [0], .take 2, .wakeTake 0, .put 1 8 [0], .put 1 9 []]) fun q =>
      q.takes = [(2, 7)] ∧ q.takes.map Prod.snd ++ q.queue = q.puts.map Prod.snd := by
  have hspec := takes_in_order 3 [.take 0, .put 1 7 [0], .take 2, .wakeTake 0, .put 1 8 [0],
    .put 1 9 []] (by decide)
  have hrun : Lands (queueSys.runFrom (.new 3 : BlockingQueue Nat)
      [.take 0, .put 1 7 [0], .take 2, .wakeTake 0, .put 1 8 [0], .put 1 9 []]) fun q =>
      q.takes = [(2, 7)] := by decide
  obtain ⟨q, hq, htakes⟩ := hrun
  exact ⟨q, hq, htakes, (hspec.post q hq).1⟩

/-- **No taker sleeps on a queue that is not empty.** From every reachable state the
threads that have been signalled can go on by themselves, without a new `put` and without a
spurious wake-up, until the queue is empty or no thread waits. -/
theorem takers_drain (threads : Nat) (acts : List (Act α))
    (hlegal : queueSys.Legal (.new threads) acts) :
    Lands (queueSys.runFrom (.new threads) acts) fun q =>
      ∃ resumes, queueSys.Meets BlockingQueue.Resumes q resumes ∧
        Lands (queueSys.runFrom q resumes) fun q' =>
          q'.puts = q.puts ∧ (q'.queue = [] ∨ ∀ i, ¬ q'.Waits i) :=
  (run_inv hlegal).mono fun _ h => takers_run h

/-- Two threads wait, and two items are put. -/
theorem takers_drain_two :
    Lands (queueSys.runFrom (.new 3 : BlockingQueue Nat)
      [.take 0, .take 1, .put 2 7 [0], .put 2 8 [1]]) fun q =>
      ∃ resumes, Lands (queueSys.runFrom q resumes) fun q' =>
        q'.puts = q.puts ∧ (q'.queue = [] ∨ ∀ i, ¬ q'.Waits i) := by
  refine (takers_drain 3 [.take 0, .take 1, .put 2 7 [0], .put 2 8 [1]] (by decide)).mono ?_
  rintro q ⟨resumes, -, hrun⟩
  exact ⟨resumes, hrun⟩

end Muduo.Queue
