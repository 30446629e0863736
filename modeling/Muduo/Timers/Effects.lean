import Muduo.Timers.Runs

/-!
# What the operations of the timer queue do

For each operation, what its result is when it returns: the heap, the set ordered by
expiration and the timerfd, and what it leaves alone (`Still`). The invariant plays
no part here.
-/

namespace Muduo.Timers

open Lib TimerQueue

/-- Everything but the heap, the two sets and the timerfd. -/
structure Still (q q' : TimerQueue) : Prop where
  numCreated : q'.numCreated = q.numCreated
  created : q'.created = q.created
  calling : q'.callingExpiredTimers = q.callingExpiredTimers
  canceling : q'.cancelingTimers = q.cancelingTimers
  pc : q'.pc = q.pc
  ran : q'.ran = q.ran

theorem Still.refl (q : TimerQueue) : Still q q := ⟨rfl, rfl, rfl, rfl, rfl, rfl⟩

theorem Still.trans {q₁ q₂ q₃ : TimerQueue} (h : Still q₁ q₂) (h' : Still q₂ q₃) : Still q₁ q₃ where
  numCreated := h'.numCreated.trans h.numCreated
  created := h'.created.trans h.created
  calling := h'.calling.trans h.calling
  canceling := h'.canceling.trans h.canceling
  pc := h'.pc.trans h.pc
  ran := h'.ran.trans h.ran

/-- `q'` is `q` with this heap and this set, and the timerfd armed as it was. -/
structure Moved (q q' : TimerQueue) (heap : Addr → Option Timer) (timers : OrdSet Entry) :
    Prop where
  still : Still q q'
  heap : q'.heap = heap
  timers : q'.timers = timers
  armed : q'.armed = q.armed

section Effects

variable {q q' : TimerQueue} {a : Addr}

theorem deref_post (q : TimerQueue) (a : Addr) : Post (q.deref a) fun t => q.heap a = some t := by
  intro t ht
  unfold deref at ht
  cases h : q.heap a with
  | none => rw [h] at ht; exact absurd ht (by simp)
  | some u =>
      rw [h] at ht
      exact congrArg some (Except.ok.inj ht)

theorem insert_post (q : TimerQueue) (a : Addr) :
    Post (q.insert a) fun r => ∃ t, q.heap a = some t ∧ r.2 = q.earliestChanged t.expiration ∧
      Moved q r.1 q.heap (q.timers.insert (entry t.expiration a)) := by
  unfold TimerQueue.insert checkSizes
  refine .check_bind fun _ => (deref_post q a).bind fun t ht => ?_
  refine .check_bind fun _ => .check_bind fun _ => .check_bind fun _ => .ok ⟨t, ht, rfl, ?_⟩
  exact ⟨⟨rfl, rfl, rfl, rfl, rfl, rfl⟩, rfl, rfl, rfl⟩

theorem delete_post (q : TimerQueue) (a : Addr) :
    Post (q.delete a) fun q' => Moved q q' (Function.update q.heap a none) q.timers := by
  unfold delete
  cases q.heap a with
  | none =>
      intro q' hq'
      exact absurd hq' (by simp)
  | some t => exact .ok ⟨⟨rfl, rfl, rfl, rfl, rfl, rfl⟩, rfl, rfl, rfl⟩

/-- `addTimerInLoop` takes the timer out of the created ones, and arms the timerfd for
it if it is the first to expire. -/
theorem addTimerInLoop_post (q : TimerQueue) (a : Addr) :
    Post (q.addTimerInLoop a) fun q' => ∃ t, q.heap a = some t ∧
      Still { q with created := q.created.erase a } q' ∧ q'.heap = q.heap ∧
      q'.timers = q.timers.insert (entry t.expiration a) ∧
      q'.armed = if q.earliestChanged t.expiration = true then some t.expiration else q.armed := by
  unfold addTimerInLoop
  refine (insert_post { q with created := q.created.erase a } a).bind fun r hr => ?_
  obtain ⟨q₁, changed⟩ := r
  obtain ⟨t, ht, hchanged, h₁⟩ := hr
  have hchanged : changed = q.earliestChanged t.expiration := hchanged
  dsimp only
  split
  · rename_i hfirst
    refine (deref_post q₁ a).bind fun u hu => .ok ⟨t, ht, ?_, h₁.heap, h₁.timers, ?_⟩
    · exact h₁.still.trans ⟨rfl, rfl, rfl, rfl, rfl, rfl⟩
    · obtain rfl : t = u := Option.some.inj (ht.symm.trans ((congrFun h₁.heap a).symm.trans hu))
      rw [← hchanged, if_pos hfirst]
      rfl
  · rename_i hlater
    refine .ok ⟨t, ht, h₁.still, h₁.heap, h₁.timers, ?_⟩
    rw [← hchanged, if_neg hlater]
    exact h₁.armed

/-- `cancelInLoop` deletes an active timer; otherwise it marks it, if a batch is
running. -/
theorem cancelInLoop_post (q : TimerQueue) (a : Addr) (n : Nat) :
    Post (q.cancelInLoop a n) fun q' =>
      (activeTimer a n ∈ q.activeTimers ∧ ∃ t, q.heap a = some t ∧
        Moved q q' (Function.update q.heap a none) (q.timers.erase (entry t.expiration a))) ∨
      (activeTimer a n ∉ q.activeTimers ∧
        q' = { q with cancelingTimers := if q.callingExpiredTimers = true then
          q.cancelingTimers.insert (activeTimer a n) else q.cancelingTimers }) := by
  unfold cancelInLoop checkSizes
  refine .check_bind fun _ => ?_
  split
  · rename_i hactive
    refine (deref_post q a).bind fun t ht => .check_bind fun _ => ?_
    refine (delete_post _ a).bind fun q₁ h₁ => .check_bind fun _ => .ok (.inl ⟨hactive, t, ht, ?_⟩)
    obtain ⟨⟨h₂, h₃, h₄, h₅, h₆, h₇⟩, hheap, htimers, harmed⟩ := h₁
    exact ⟨⟨h₂, h₃, h₄, h₅, h₆, h₇⟩, hheap, htimers, harmed⟩
  · rename_i hactive
    refine .check_bind fun _ => .ok (.inr ⟨hactive, ?_⟩)
    split
    · rfl
    · rfl

theorem eraseActive_post (expired : List Entry) (q : TimerQueue) :
    Post (q.eraseActive expired) fun q' => Moved q q' q.heap q.timers := by
  induction expired generalizing q with
  | nil => exact .ok ⟨.refl q, rfl, rfl, rfl⟩
  | cons e expired ih =>
      unfold eraseActive
      refine (deref_post q (addr e)).bind fun t _ => .check_bind fun _ => ?_
      refine (ih _).mono fun q' hq' => ?_
      obtain ⟨⟨h₁, h₂, h₃, h₄, h₅, h₆⟩, hheap, htimers, harmed⟩ := hq'
      exact ⟨⟨h₁, h₂, h₃, h₄, h₅, h₆⟩, hheap, htimers, harmed⟩

/-- `handleRead` takes the entries before the sentry out of the set. -/
theorem handleReadBegin_post (q : TimerQueue) (now : Int) :
    Post (q.handleReadBegin now) fun q' =>
      Still { q with
        callingExpiredTimers := true
        cancelingTimers := .empty
        pc := .calling now (q.timers.below (entry now UINTPTR_MAX))
          (q.timers.below (entry now UINTPTR_MAX)) } q' ∧
      q'.heap = q.heap ∧ q'.timers = q.timers.since (entry now UINTPTR_MAX) ∧
      q'.armed = none := by
  unfold handleReadBegin getExpired checkSizes
  refine Post.bind (P := fun r => r.2 = q.timers.below (entry now UINTPTR_MAX) ∧
    Moved { q with armed := none } r.1 q.heap (q.timers.since (entry now UINTPTR_MAX)))
    ?_ fun r hr => ?_
  · refine .check_bind fun _ => .check_bind fun _ => ?_
    refine (eraseActive_post _ _).bind fun q₁ h₁ => .check_bind fun _ => .ok ⟨rfl, ?_⟩
    obtain ⟨⟨h₂, h₃, h₄, h₅, h₆, h₇⟩, hheap, htimers, harmed⟩ := h₁
    exact ⟨⟨h₂, h₃, h₄, h₅, h₆, h₇⟩, hheap, htimers, harmed⟩
  · obtain ⟨q₁, expired⟩ := r
    obtain ⟨rfl, ⟨h₂, h₃, -, -, -, h₇⟩, hheap, htimers, harmed⟩ := hr
    exact .ok ⟨⟨h₂, h₃, rfl, rfl, rfl, h₇⟩, hheap, htimers, harmed⟩

/-- One turn of the loop of `reset`: a repeating timer that is not marked goes back
into the set with its new expiration, any other is deleted. -/
theorem resetOne_post (q : TimerQueue) (now : Int) (a : Addr) :
    Post (q.resetOne now a) fun q' => ∃ t, q.heap a = some t ∧
      ((t.repeats = true ∧ activeTimer a t.sequence ∉ q.cancelingTimers ∧
        Moved q q' (Function.update q.heap a (some (t.restart now)))
          (q.timers.insert (entry (t.restart now).expiration a))) ∨
      (¬ (t.repeats = true ∧ activeTimer a t.sequence ∉ q.cancelingTimers) ∧
        Moved q q' (Function.update q.heap a none) q.timers)) := by
  unfold resetOne
  refine (deref_post q a).bind fun t ht => ?_
  split
  · rename_i hkeep
    refine (insert_post _ a).bind fun r hr => .ok ⟨t, ht, .inl ⟨hkeep.1, hkeep.2, ?_⟩⟩
    obtain ⟨u, hu, -, ⟨h₁, h₂, h₃, h₄, h₅, h₆⟩, hheap, htimers, harmed⟩ := hr
    obtain rfl : t.restart now = u := Option.some.inj ((heap_store_self ..).symm.trans hu)
    exact ⟨⟨h₁, h₂, h₃, h₄, h₅, h₆⟩, hheap, htimers, harmed⟩
  · rename_i hdrop
    exact (delete_post q a).mono fun q' hq' => ⟨t, ht, .inr ⟨hdrop, hq'⟩⟩

/-- The loop of `reset`: a timer that is left was not in the batch, or has been
restarted. -/
theorem resetAll_post (expired : List Entry) (now : Int) (q : TimerQueue) :
    Post (q.resetAll now expired) fun q' => Still q q' ∧ q'.armed = q.armed ∧
      ∀ a u, q'.heap a = some u → ∃ t, q.heap a = some t ∧
        (a ∉ expired.map addr ∧ u = t ∨
          a ∈ expired.map addr ∧ t.repeats = true ∧
            activeTimer a t.sequence ∉ q.cancelingTimers ∧ u = t.restart now) := by
  induction expired generalizing q with
  | nil => exact .ok ⟨.refl q, rfl, fun a u hu => ⟨u, hu, .inl ⟨by simp, rfl⟩⟩⟩
  | cons e expired ih =>
      unfold resetAll
      refine (resetOne_post q now (addr e)).bind fun q₁ h₁ => ?_
      obtain ⟨v, hv, hturn⟩ := h₁
      -- the first turn
      have hfirst : Still q q₁ ∧ q₁.armed = q.armed ∧ ∀ a t, q₁.heap a = some t →
          (a ≠ addr e ∧ q.heap a = some t) ∨
          (a = addr e ∧ v.repeats = true ∧ activeTimer a v.sequence ∉ q.cancelingTimers ∧
            t = v.restart now) := by
        rcases hturn with ⟨hrepeats, hfree, hmoved⟩ | ⟨-, hmoved⟩
        · refine ⟨hmoved.still, hmoved.armed, fun a t ht => ?_⟩
          rw [hmoved.heap] at ht
          rcases heap_store_cases (q := q) ht with ⟨rfl, hnew⟩ | hold
          · exact .inr ⟨rfl, hrepeats, hfree, (Option.some.inj hnew).symm⟩
          · exact .inl hold
        · refine ⟨hmoved.still, hmoved.armed, fun a t ht => ?_⟩
          rw [hmoved.heap] at ht
          rcases heap_store_cases (q := q) ht with ⟨-, hnone⟩ | hold
          · exact absurd hnone (by simp)
          · exact .inl hold
      obtain ⟨hstill, harmed, hheap⟩ := hfirst
      refine (ih q₁).mono fun q' hq' => ?_
      obtain ⟨hstill', harmed', hleft⟩ := hq'
      refine ⟨hstill.trans hstill', harmed'.trans harmed, fun a u hu => ?_⟩
      obtain ⟨t, ht, hcase⟩ := hleft a u hu
      rw [hstill.canceling] at hcase
      rcases hheap a t ht with ⟨hne, hold⟩ | ⟨rfl, hrepeats, hfree, rfl⟩
      · refine ⟨t, hold, hcase.imp (fun hcase => ⟨?_, hcase.2⟩) fun hcase => ⟨?_, hcase.2⟩⟩
        · rw [List.map_cons, List.mem_cons]
          exact fun hmem => hmem.elim hne hcase.1
        · exact List.mem_cons_of_mem _ hcase.1
      · -- restarted twice at `now` is as good as once
        refine ⟨v, hv, .inr ⟨List.mem_cons_self, hrepeats, hfree, ?_⟩⟩
        rcases hcase with ⟨-, rfl⟩ | ⟨-, -, -, rfl⟩
        · rfl
        · rfl

/-- After its loop, `reset` only arms the timerfd. -/
theorem reset_post (expired : List Entry) (now : Int)
    {P : TimerQueue → Prop} (h : Post (q.resetAll now expired) P)
    (hframe : ∀ q₁ expiration, P q₁ → P (q₁.resetTimerfd expiration)) :
    Post (q.reset expired now) P := by
  unfold reset
  refine h.bind fun q₁ h₁ => Post.bind (P := fun _ => True) (fun _ _ => trivial) fun next _ => .ok ?_
  split
  · exact hframe q₁ next h₁
  · exact h₁

/-- The end of `handleRead`, for the timers that are left. -/
theorem handleReadEnd_post {now : Int} {expired rest : List Entry}
    (hpc : q.pc = .calling now expired rest) :
    Post q.handleReadEnd fun q' =>
      Still { q with callingExpiredTimers := false, pc := .idle } q' ∧
      ∀ a u, q'.heap a = some u → ∃ t, q.heap a = some t ∧
        (a ∉ expired.map addr ∧ u = t ∨
          a ∈ expired.map addr ∧ t.repeats = true ∧
            activeTimer a t.sequence ∉ q.cancelingTimers ∧ u = t.restart now) := by
  have hloop := (resetAll_post expired now
    { q with callingExpiredTimers := false, pc := .idle }).mono fun q₁ h₁ =>
      And.intro h₁.1 h₁.2.2
  unfold handleReadEnd
  rw [hpc]
  refine reset_post expired now hloop fun q₁ expiration h₁ => ⟨?_, h₁.2⟩
  exact h₁.1.trans ⟨rfl, rfl, rfl, rfl, rfl, rfl⟩

end Effects

end Muduo.Timers
