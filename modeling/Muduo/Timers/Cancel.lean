import Muduo.Timers.Effects

/-!
# Cancelled timers

`addTimer` and `cancel` may be called in any thread. In the loop thread they run
`addTimerInLoop` and `cancelInLoop` inline, also inside the callback of a timer;
from another thread these go through the loop's functor queue, which is run
between dispatches.

A timer that `cancelInLoop` has found is dead: it is deleted, or it is in the
running batch, has had its turn, and is marked so that `reset` deletes it
(`Dead`). Two timers are not found by a `cancel` in the loop thread: one whose
`addTimerInLoop` is still in the queue, and one of the running batch whose turn is
still to come. The runs in which the loop thread cancels neither are those in
which cancellation is final (`Found`).
-/

namespace Muduo.Timers

open Lib TimerQueue

/-! ## Dead timers -/

/-- Timer `n` will not run any more: it is not allocated, or it is in the running
batch, has had its turn, and is marked as cancelled. -/
def Dead (q : TimerQueue) (n : Nat) : Prop :=
  ∀ a t, q.heap a = some t → t.sequence = n → ∃ now expired rest,
    q.pc = .calling now expired rest ∧ a ∈ expired.map addr ∧ a ∉ rest.map addr ∧
      activeTimer a n ∈ q.cancelingTimers

section Death

variable {q q' : TimerQueue} {n : Nat}

/-- No timer with the number is allocated. -/
theorem Dead.of_absent (h : ∀ a t, q.heap a = some t → t.sequence ≠ n) : Dead q n :=
  fun a t ht hn => absurd hn (h a t ht)

theorem Dead.absent_of_idle (h : Dead q n) (hidle : q.pc = .idle) :
    ∀ a t, q.heap a = some t → t.sequence ≠ n := by
  intro a t ht hn
  obtain ⟨now, expired, rest, hpc, -⟩ := h a t ht hn
  rw [hidle] at hpc
  exact absurd hpc (by simp)

/-- A step that allocates nothing with the number, between two turns. -/
theorem Dead.keep (h : Dead q n)
    (hheap : ∀ a t, q'.heap a = some t → t.sequence = n → ∃ u, q.heap a = some u ∧ u.sequence = n)
    (hpc : q'.pc = q.pc) (hmark : ∀ x, x ∈ q.cancelingTimers → x ∈ q'.cancelingTimers) :
    Dead q' n := by
  intro a t ht hn
  obtain ⟨u, hu, hun⟩ := hheap a t ht hn
  obtain ⟨now, expired, rest, hcalling, hmem, hrest, hmarked⟩ := h a u hu hun
  exact ⟨now, expired, rest, hpc.trans hcalling, hmem, hrest, hmark _ hmarked⟩

theorem newTimer_dead (h : Dead q n) (hn : n ≤ q.numCreated) (a : Addr) (when interval : Int)
    (repeats : Bool) : Dead (q.newTimer a when interval repeats) n := by
  refine h.keep (fun b t ht htn => ?_) rfl fun _ hx => hx
  rcases heap_store_cases ht with ⟨-, hnew⟩ | ⟨-, hold⟩
  · -- the new timer has a number above `n`
    obtain rfl := Option.some.inj hnew
    have : q.numCreated + 1 = n := htn
    omega
  · exact ⟨t, hold, htn⟩

theorem addTimerInLoop_dead (h : Dead q n) (a : Addr) :
    Post (q.addTimerInLoop a) fun q' => Dead q' n := by
  refine (addTimerInLoop_post q a).mono fun q' hq' => ?_
  obtain ⟨-, -, hstill, hheap, -, -⟩ := hq'
  refine h.keep (fun b t ht htn => ?_) hstill.pc fun x hx => ?_
  · rw [hheap] at ht
    exact ⟨t, ht, htn⟩
  · rw [hstill.canceling]
    exact hx

theorem cancelInLoop_dead (h : Dead q n) (a : Addr) (m : Nat) :
    Post (q.cancelInLoop a m) fun q' => Dead q' n := by
  refine (cancelInLoop_post q a m).mono fun q' hq' => ?_
  rcases hq' with ⟨-, u, -, hmoved⟩ | ⟨-, rfl⟩
  · refine h.keep (fun b t ht htn => ?_) hmoved.still.pc fun x hx => ?_
    · rw [hmoved.heap] at ht
      rcases heap_store_cases (q := q) ht with ⟨-, hnone⟩ | ⟨-, hold⟩
      · exact absurd hnone (by simp)
      · exact ⟨t, hold, htn⟩
    · rw [hmoved.still.canceling]
      exact hx
  · refine h.keep (fun b t ht htn => ⟨t, ht, htn⟩) rfl fun x hx => ?_
    show x ∈ if q.callingExpiredTimers = true then _ else q.cancelingTimers
    split
    · exact OrdSet.mem_insert.mpr (.inr hx)
    · exact hx

/-- A new batch begins when nothing of the last one is left. -/
theorem handleReadBegin_dead (h : Dead q n) (hidle : q.pc = .idle) (now : Int) :
    Post (q.handleReadBegin now) fun q' => Dead q' n := by
  refine (handleReadBegin_post q now).mono fun q' hq' => .of_absent fun a t ht => ?_
  rw [hq'.2.1] at ht
  exact h.absent_of_idle hidle a t ht

theorem runNext_dead (h : Dead q n) : Post q.runNext fun q' => Dead q' n := by
  unfold runNext
  split
  · rename_i now expired e rest hpc
    refine (deref_post q (addr e)).bind fun t ht => .ok ?_
    intro a u hu hun
    obtain ⟨now', expired', rest', hcalling, hmem, hrest, hmarked⟩ := h a u hu hun
    rw [hpc] at hcalling
    injection hcalling with h₁ h₂ h₃
    subst h₁ h₂ h₃
    refine ⟨now, expired, rest, rfl, hmem, fun hin => hrest ?_, hmarked⟩
    exact List.mem_cons_of_mem _ hin
  · exact .ok h

/-- The next callback is not that of a dead timer. -/
theorem runNext_ran (q : TimerQueue) : Post q.runNext fun q' =>
    ∃ more, q'.ran = q.ran ++ more ∧ ∀ x ∈ more, ∀ n, Dead q n → x.1 ≠ n := by
  unfold runNext
  split
  · rename_i now expired e rest hpc
    refine (deref_post q (addr e)).bind fun t ht => .ok ⟨[(t.sequence, now)], rfl, ?_⟩
    -- it is among those that are still to run
    intro x hx n hdead hxn
    obtain rfl := List.mem_singleton.mp hx
    obtain ⟨now', expired', rest', hcalling, -, hrest, -⟩ := hdead (addr e) t ht hxn
    rw [hpc] at hcalling
    injection hcalling with h₁ h₂ h₃
    subst h₃
    exact hrest List.mem_cons_self
  · exact .ok ⟨[], by simp, by simp⟩

/-- `reset` deletes the marked timers of the batch. -/
theorem handleReadEnd_dead (h : Dead q n) : Post q.handleReadEnd fun q' => Dead q' n := by
  cases hpc : q.pc with
  | idle =>
      unfold handleReadEnd
      rw [hpc]
      exact .ok h
  | calling now expired rest =>
      refine (handleReadEnd_post hpc).mono fun q' hq' => .of_absent fun a u hu hn => ?_
      obtain ⟨t, ht, hcase⟩ := hq'.2 a u hu
      have hseq : t.sequence = u.sequence := by
        rcases hcase with ⟨-, rfl⟩ | ⟨-, -, -, rfl⟩
        · rfl
        · rfl
      obtain ⟨now', expired', rest', hcalling, hmem, -, hmarked⟩ := h a t ht (hseq.trans hn)
      rw [hpc] at hcalling
      obtain ⟨rfl, rfl, rfl⟩ := Pc.calling.inj hcalling
      rcases hcase with ⟨hout, -⟩ | ⟨-, -, hfree, -⟩
      · exact hout hmem
      · -- a marked timer is not restarted
        rw [hseq, hn] at hfree
        exact hfree hmarked

/-- What `cancelInLoop` makes of timer `n`, once created at `a`: it is dead, unless
it waits to be inserted or its turn in the batch is still to come. -/
theorem cancelInLoop_kills {a : Addr} (h : QueueInv q)
    (hcalling : q.pc ≠ .idle → q.callingExpiredTimers = true)
    (hnamed : ∀ b t, q.heap b = some t → t.sequence = n → b = a)
    (hcreated : ∀ t, q.heap a = some t → t.sequence = n → a ∉ q.created)
    (hdue : ∀ now expired rest, q.pc = .calling now expired rest →
      ∀ t, q.heap a = some t → t.sequence = n → a ∉ rest.map addr) :
    Post (q.cancelInLoop a n) fun q' => Dead q' n := by
  refine (cancelInLoop_post q a n).mono fun q' hq' => ?_
  rcases hq' with ⟨-, u, -, hmoved⟩ | ⟨hactive, rfl⟩
  · -- it was queued, and has been deleted
    refine .of_absent fun b t ht htn => ?_
    rw [hmoved.heap] at ht
    rcases heap_store_cases (q := q) ht with ⟨-, hnone⟩ | ⟨hne, hold⟩
    · exact absurd hnone (by simp)
    · exact hne (hnamed b t hold htn)
  · intro b t ht htn
    obtain rfl : b = a := hnamed b t ht htn
    have hbatch : b ∈ batch q := by
      rcases List.mem_append.mp ((h.owned.alloc b).mpr ⟨t, ht⟩) with hloose | hqueued
      · rcases List.mem_append.mp hloose with hbatch | hnew
        · exact hbatch
        · exact absurd hnew (hcreated t ht htn)
      · -- a queued timer is active
        obtain ⟨e, he, rfl⟩ := List.mem_map.mp hqueued
        obtain ⟨u, hu, hkey⟩ := h.owned.keyed e he
        obtain rfl : t = u := Option.some.inj (ht.symm.trans hu)
        have he' : entry t.expiration (addr e) ∈ q.timers := hkey ▸ he
        exact absurd ((h.owned.active _ _).mpr ⟨t, ht, htn, he'⟩) hactive
    cases hpc : q.pc with
    | idle =>
        rw [batch, hpc] at hbatch
        exact absurd hbatch (by simp)
    | calling now expired rest =>
        rw [batch, hpc] at hbatch
        have hflag : q.callingExpiredTimers = true := hcalling (by rw [hpc]; simp)
        rw [if_pos hflag]
        refine ⟨now, expired, rest, rfl, hbatch, hdue now expired rest hpc t ht htn, ?_⟩
        exact OrdSet.mem_insert.mpr (.inl rfl)

end Death

end Muduo.Timers
