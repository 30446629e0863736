import Muduo.Timers.Effects

/-!
# One batch of expired timers

What a whole call of `handleRead` does, whatever its callbacks and the other threads
do in between. `InTimers` reads `M_timers` as a set of timers; each operation
inside the batch adds the timer it inserts and takes away the one it cancels
(`During`), so at every point of the batch `M_timers` is known from its start and
the steps made since (`Midway`). `reset` then puts back the timers of the batch that
repeat and were not cancelled.
-/

namespace Muduo.Timers

open Lib TimerQueue

/-- Timer `t`, at address `a`, is in `M_timers`. -/
def InTimers (q : TimerQueue) (a : Addr) (t : Timer) : Prop :=
  q.heap a = some t ∧ entry t.expiration a ∈ q.timers

/-- What can happen between the first callback of a batch and its end. -/
def Act.inBatch : Act → Bool
  | .handleRead _ | .reset => false
  | _ => true

/-- `addTimerInLoop` inserted the timer in the course of the batch, and it was not
cancelled after that. -/
def AddedMeanwhile (q : TimerQueue) (now : Int) (body : List Act) (a : Addr) (t : Timer) : Prop :=
  ∃ pre post s, body = pre ++ .addTimerInLoop a :: post ∧
    timerSys.runFrom q (.handleRead now :: pre) = .ok s ∧ s.heap a = some t ∧
    .cancelInLoop a t.sequence ∉ post

/-- What one call of `handleRead(now)` has done to the queue. -/
structure Handled (q : TimerQueue) (now : Int) (body : List Act) (q' : TimerQueue) : Prop where
  /-- The callbacks: one for each timer due on entry, in the order of expiration. -/
  ran : ∃ batch : List (Addr × Timer),
    (∀ a t, (a, t) ∈ batch ↔ InTimers q a t ∧ t.expiration ≤ now) ∧ batch.Nodup ∧
    batch.Pairwise (fun x y => x.2.expiration ≤ y.2.expiration) ∧
    q'.ran = q.ran ++ batch.map fun x => (x.2.sequence, now)
  /-- `M_timers`: what was not due, what repeats, what was added; each unless it was
  cancelled. -/
  timers : ∀ a u, InTimers q' a u ↔
    (InTimers q a u ∧ now < u.expiration ∧ .cancelInLoop a u.sequence ∉ body) ∨
    (∃ t, InTimers q a t ∧ t.expiration ≤ now ∧ t.repeats = true ∧
      .cancelInLoop a t.sequence ∉ body ∧ u = { t with expiration := now + t.interval }) ∨
    AddedMeanwhile q now body a u
  /-- `M_timers` holds nothing else. -/
  keyed : ∀ x a, entry x a ∈ q'.timers → ∃ t, InTimers q' a t ∧ t.expiration = x

section Moves

variable {q q' : TimerQueue} {a b : Addr} {t u : Timer} {o : Option Timer}

/-- The timer at `a` goes into the set. -/
theorem inTimers_insert (hheap : q'.heap = q.heap)
    (htimers : q'.timers = q.timers.insert (entry t.expiration a)) (ht : q.heap a = some t) :
    InTimers q' b u ↔ InTimers q b u ∨ b = a ∧ q.heap b = some u := by
  unfold InTimers
  rw [hheap, htimers, OrdSet.mem_insert, entry_inj]
  constructor
  · rintro ⟨hu, ⟨-, rfl⟩ | he⟩
    · exact .inr ⟨rfl, hu⟩
    · exact .inl ⟨hu, he⟩
  · rintro (⟨hu, he⟩ | ⟨rfl, hu⟩)
    · exact ⟨hu, .inr he⟩
    · obtain rfl : t = u := Option.some.inj (ht.symm.trans hu)
      exact ⟨hu, .inl ⟨rfl, rfl⟩⟩

/-- A write to an address that has no entry. -/
theorem inTimers_store (hentry : ∀ e ∈ q.timers, addr e ≠ a)
    (hheap : q'.heap = Function.update q.heap a o) (htimers : q'.timers = q.timers) :
    InTimers q' b u ↔ InTimers q b u := by
  unfold InTimers
  rw [hheap, htimers]
  by_cases hb : b = a
  · subst hb
    constructor
    · rintro ⟨-, he⟩
      exact absurd rfl (hentry _ he)
    · rintro ⟨-, he⟩
      exact absurd rfl (hentry _ he)
  · rw [Function.update_of_ne hb]

/-- The timer at `a` is taken out of the set and deleted. -/
theorem inTimers_erase (hheap : q'.heap = Function.update q.heap a none)
    (htimers : q'.timers = q.timers.erase (entry t.expiration a)) :
    InTimers q' b u ↔ InTimers q b u ∧ b ≠ a := by
  unfold InTimers
  rw [hheap, htimers, OrdSet.mem_erase]
  by_cases hb : b = a
  · subst hb
    rw [Function.update_self]
    simp
  · rw [Function.update_of_ne hb]
    have hne : entry u.expiration b ≠ entry t.expiration a := fun heq => hb (entry_inj.mp heq).2
    simp [hb, hne]

end Moves

/-! ## The steps inside a batch -/

/-- What a step inside a batch does to `M_timers`, to the timers of the batch and to
the marks of those that were cancelled. -/
structure During (s : TimerQueue) (act : Act) (s' : TimerQueue) : Prop where
  timers : ∀ a u, InTimers s' a u ↔
    (InTimers s a u ∧ act ≠ .cancelInLoop a u.sequence) ∨
    (act = .addTimerInLoop a ∧ s.heap a = some u)
  heap : ∀ a ∈ batch s, s'.heap a = s.heap a
  marks : ∀ a ∈ batch s, ∀ t, s.heap a = some t →
    (activeTimer a t.sequence ∈ s'.cancelingTimers ↔
      activeTimer a t.sequence ∈ s.cancelingTimers ∨ act = .cancelInLoop a t.sequence)
  calling : s'.callingExpiredTimers = true

section Steps

variable {s s' : TimerQueue}

theorem QueueInv.batch_alloc (h : QueueInv s) {a : Addr} (ha : a ∈ batch s) :
    ∃ t, s.heap a = some t :=
  h.owned.loose_alloc (List.mem_append_left _ ha)

theorem newTimer_during (h : QueueInv s) (hcalling : s.callingExpiredTimers = true) {a : Addr}
    (hfree : s.heap a = none) (when interval : Int) (repeats : Bool) :
    During s (.newTimer a when interval repeats) (s.newTimer a when interval repeats) := by
  have hentry : ∀ e ∈ s.timers, addr e ≠ a := by
    rintro e he rfl
    obtain ⟨t, ht, -⟩ := h.owned.keyed e he
    rw [hfree] at ht
    exact absurd ht (by simp)
  refine ⟨fun b u => ?_, fun b hb => heap_store_of_ne s ?_ _, fun b _ t _ => ?_, hcalling⟩
  · have hsame : InTimers (s.newTimer a when interval repeats) b u ↔ InTimers s b u :=
      inTimers_store hentry rfl rfl
    rw [hsame]
    simp
  · rintro rfl
    obtain ⟨t, ht⟩ := h.batch_alloc hb
    rw [hfree] at ht
    exact absurd ht (by simp)
  · show _ ∈ s.cancelingTimers ↔ _
    simp

theorem addTimerInLoop_during (hcalling : s.callingExpiredTimers = true) (a : Addr) :
    Post (s.addTimerInLoop a) fun s' => During s (.addTimerInLoop a) s' := by
  refine (addTimerInLoop_post s a).mono fun s' hs' => ?_
  obtain ⟨t, ht, hstill, hheap, htimers, -⟩ := hs'
  refine ⟨fun b u => ?_, fun b _ => congrFun hheap b, fun b _ u _ => ?_, ?_⟩
  · rw [inTimers_insert hheap htimers ht]
    constructor
    · rintro (hu | ⟨rfl, hu⟩)
      · exact .inl ⟨hu, by simp⟩
      · exact .inr ⟨rfl, hu⟩
    · rintro (⟨hu, -⟩ | ⟨hact, hu⟩)
      · exact .inl hu
      · exact .inr ⟨(Act.addTimerInLoop.inj hact).symm, hu⟩
  · rw [hstill.canceling]
    simp
  · exact hstill.calling.trans hcalling

theorem cancelInLoop_during (h : QueueInv s) (hcalling : s.callingExpiredTimers = true) (a : Addr)
    (n : Nat) : Post (s.cancelInLoop a n) fun s' => During s (.cancelInLoop a n) s' := by
  have hact : ∀ b (u : Timer), (Act.cancelInLoop a n ≠ .cancelInLoop b u.sequence) ↔
      ¬ (b = a ∧ u.sequence = n) := by
    intro b u
    rw [Ne, Act.cancelInLoop.injEq, eq_comm, @eq_comm _ n]
  refine (cancelInLoop_post s a n).mono fun s' hs' => ?_
  rcases hs' with ⟨hactive, t, ht, hstill, hheap, htimers, -⟩ | ⟨hnot, hs'⟩
  · obtain ⟨v, hv, rfl, he⟩ := (h.owned.active a n).mp hactive
    obtain rfl : t = v := Option.some.inj (ht.symm.trans hv)
    -- it is in the set, so it is not one of the batch
    have hbatch : ∀ b ∈ batch s, b ≠ a := by
      rintro b hb rfl
      exact h.owned.not_entry (List.mem_append_left _ hb) _ he rfl
    refine ⟨fun b u => ?_, fun b hb => ?_, fun b hb u hu => ?_, hstill.calling.trans hcalling⟩
    · rw [inTimers_erase hheap htimers, hact]
      constructor
      · rintro ⟨hu, hne⟩
        exact .inl ⟨hu, fun heq => hne heq.1⟩
      · rintro (⟨hu, hne⟩ | ⟨heq, -⟩)
        · refine ⟨hu, ?_⟩
          rintro rfl
          obtain rfl : t = u := Option.some.inj (ht.symm.trans hu.1)
          exact hne ⟨rfl, rfl⟩
        · exact absurd heq (by simp)
    · rw [hheap, Function.update_of_ne (hbatch b hb)]
    · rw [hstill.canceling, Act.cancelInLoop.injEq]
      simp [(hbatch b hb).symm]
  · rw [if_pos hcalling] at hs'
    subst hs'
    refine ⟨fun b u => ?_, fun b _ => rfl, fun b _ u _ => ?_, hcalling⟩
    · rw [hact]
      constructor
      · intro hu
        refine .inl ⟨hu, ?_⟩
        rintro ⟨rfl, rfl⟩
        exact hnot ((h.owned.active _ _).mpr ⟨u, hu.1, rfl, hu.2⟩)
      · rintro (⟨hu, -⟩ | ⟨heq, -⟩)
        · exact hu
        · exact absurd heq (by simp)
    · show _ ∈ s.cancelingTimers.insert _ ↔ _
      rw [OrdSet.mem_insert, activeTimer_inj, Act.cancelInLoop.injEq, or_comm, @eq_comm _ b,
        @eq_comm _ u.sequence]

theorem runNext_during (hcalling : s.callingExpiredTimers = true) :
    Post s.runNext fun s' => During s .runNext s' := by
  unfold runNext
  split
  · refine (deref_post s _).bind fun t _ => .ok ?_
    exact ⟨fun b u => by simp [InTimers], fun b _ => rfl, fun b _ u _ => by simp, hcalling⟩
  · exact .ok ⟨fun b u => by simp, fun b _ => rfl, fun b _ u _ => by simp, hcalling⟩

theorem exec_during (h : QueueInv s) (hcalling : s.callingExpiredTimers = true) {act : Act}
    (hen : enabled s act = true) (hin : act.inBatch = true) :
    Post (exec s act) fun s' => During s act s' := by
  cases act with
  | newTimer a when interval repeats =>
      simp only [enabled, Bool.and_eq_true, Option.isNone_iff_eq_none] at hen
      exact .ok (newTimer_during h hcalling hen.2 when interval repeats)
  | addTimerInLoop a => exact addTimerInLoop_during hcalling a
  | cancelInLoop a n => exact cancelInLoop_during h hcalling a n
  | runNext => exact runNext_during hcalling
  | handleRead now => exact absurd hin (by simp [Act.inBatch])
  | reset => exact absurd hin (by simp [Act.inBatch])

end Steps

/-! ## The batch on entry -/

/-- The entries that `getExpired` takes out. -/
def dueEntries (q : TimerQueue) (now : Int) : List Entry := q.timers.below (entry now UINTPTR_MAX)

/-- The timer of an entry. -/
def timerOf (q : TimerQueue) (e : Entry) : Option (Addr × Timer) :=
  (q.heap (addr e)).map fun t => (addr e, t)

/-- What is run for the entries, at the time `now`. -/
def calls (q : TimerQueue) (now : Int) (es : List Entry) : List (Nat × Int) :=
  (es.filterMap (timerOf q)).map fun x => (x.2.sequence, now)

/-- The sentry is above the entries that are due, and below all others. -/
theorem entry_lt_sentry {x now : Int} {a : Addr} (ha : a < UINTPTR_MAX) :
    entry x a < entry now UINTPTR_MAX ↔ x ≤ now := by
  rw [entry, entry, Prod.Lex.toLex_lt_toLex]
  constructor
  · rintro (hlt | ⟨heq, -⟩)
    · exact hlt.le
    · exact heq.le
  · intro hle
    rcases hle.lt_or_eq with hlt | heq
    · exact .inl hlt
    · exact .inr ⟨heq, ha⟩

section Entry

variable {q : TimerQueue} {loose : List Addr} {now : Int} {a : Addr} {t : Timer}

/-- The timer that an entry of the set belongs to. -/
theorem Owned.inTimers_of_mem (h : Owned loose q) {e : Entry} (he : e ∈ q.timers) :
    ∃ t, InTimers q (addr e) t ∧ e = entry t.expiration (addr e) := by
  obtain ⟨t, ht, hkey⟩ := h.keyed e he
  exact ⟨t, ⟨ht, hkey ▸ he⟩, hkey⟩

theorem mem_dueEntries (h : Owned loose q) (ht : InTimers q a t) :
    entry t.expiration a ∈ dueEntries q now ↔ t.expiration ≤ now := by
  rw [dueEntries, OrdSet.mem_below, entry_lt_sentry (h.range a t ht.1)]
  exact and_iff_right ht.2

theorem mem_since_sentry (h : Owned loose q) (ht : InTimers q a t) :
    entry t.expiration a ∈ q.timers.since (entry now UINTPTR_MAX) ↔ now < t.expiration := by
  rw [OrdSet.mem_since, ← not_lt, entry_lt_sentry (h.range a t ht.1), not_le]
  exact and_iff_right ht.2

/-- The timers that `getExpired` leaves in the set. -/
theorem inTimers_since {q' : TimerQueue} (h : Owned loose q) (hheap : q'.heap = q.heap)
    (htimers : q'.timers = q.timers.since (entry now UINTPTR_MAX)) :
    InTimers q' a t ↔ InTimers q a t ∧ now < t.expiration := by
  have hread : InTimers q' a t ↔
      q.heap a = some t ∧ entry t.expiration a ∈ q.timers.since (entry now UINTPTR_MAX) := by
    rw [InTimers, hheap, htimers]
  rw [hread]
  constructor
  · rintro ⟨ht, he⟩
    have hin : InTimers q a t := ⟨ht, (OrdSet.mem_since.mp he).1⟩
    exact ⟨hin, (mem_since_sentry h hin).mp he⟩
  · rintro ⟨hin, hlt⟩
    exact ⟨hin.1, (mem_since_sentry h hin).mpr hlt⟩

/-- The timers of the batch, read off its entries. -/
theorem mem_timersOf_due (h : Owned loose q) :
    (a, t) ∈ (dueEntries q now).filterMap (timerOf q) ↔ InTimers q a t ∧ t.expiration ≤ now := by
  rw [List.mem_filterMap]
  constructor
  · rintro ⟨e, he, hof⟩
    obtain ⟨u, hu, hkey⟩ := h.inTimers_of_mem (OrdSet.mem_below.mp he).1
    rw [timerOf, hu.1, Option.map_some] at hof
    obtain ⟨rfl, rfl⟩ := Prod.mk.inj (Option.some.inj hof)
    exact ⟨hu, (mem_dueEntries h hu).mp (hkey ▸ he)⟩
  · rintro ⟨hin, hle⟩
    refine ⟨_, (mem_dueEntries h hin).mpr hle, ?_⟩
    rw [timerOf, show addr (entry t.expiration a) = a from rfl, hin.1]
    rfl

/-- They are in the order of expiration, and no two are the same. -/
theorem pairwise_timersOf_due (h : Owned loose q) :
    ((dueEntries q now).filterMap (timerOf q)).Pairwise
      fun x y => x.2.expiration ≤ y.2.expiration ∧ x ≠ y := by
  rw [List.pairwise_filterMap]
  refine (OrdSet.sorted_below q.timers _).imp_of_mem fun {e e'} he he' hlt x hx y hy => ?_
  obtain ⟨t, ht, hkey⟩ := h.inTimers_of_mem (OrdSet.mem_below.mp he).1
  obtain ⟨u, hu, hkey'⟩ := h.inTimers_of_mem (OrdSet.mem_below.mp he').1
  rw [timerOf, ht.1, Option.map_some, Option.some.injEq] at hx
  rw [timerOf, hu.1, Option.map_some, Option.some.injEq] at hy
  subst hx hy
  constructor
  · rw [hkey, hkey', entry, entry, Prod.Lex.toLex_lt_toLex] at hlt
    rcases hlt with hlt | ⟨heq, -⟩
    · exact hlt.le
    · exact heq.le
  · intro heq
    obtain ⟨haddr, rfl⟩ := Prod.mk.inj heq
    rw [hkey, hkey', haddr] at hlt
    exact absurd hlt (lt_irrefl _)

end Entry

/-! ## The whole batch -/

/-- The timers of `M_timers` at a point of the batch. -/
def Standing (q : TimerQueue) (now : Int) (body : List Act) (a : Addr) (u : Timer) : Prop :=
  (InTimers q a u ∧ now < u.expiration ∧ .cancelInLoop a u.sequence ∉ body) ∨
    AddedMeanwhile q now body a u

/-- After the steps `body` of a batch that began in `q`. -/
structure Midway (q : TimerQueue) (now : Int) (body : List Act) (s : TimerQueue) : Prop where
  inv : QueueInv s
  calling : s.callingExpiredTimers = true
  turn : ∃ done rest, dueEntries q now = done ++ rest ∧
    s.pc = .calling now (dueEntries q now) rest ∧ s.ran = q.ran ++ calls q now done
  heap : ∀ e ∈ dueEntries q now, s.heap (addr e) = q.heap (addr e)
  marks : ∀ e ∈ dueEntries q now, ∀ t, q.heap (addr e) = some t →
    (activeTimer (addr e) t.sequence ∈ s.cancelingTimers ↔ .cancelInLoop (addr e) t.sequence ∈ body)
  timers : ∀ a u, InTimers s a u ↔ Standing q now body a u

section Batch

variable {q s s' : TimerQueue} {now : Int} {body : List Act} {act : Act} {a : Addr} {u : Timer}

theorem addedMeanwhile_nil : ¬ AddedMeanwhile q now [] a u := by
  rintro ⟨pre, post, s, hbody, -⟩
  exact absurd hbody (by simp)

/-- One more step of the batch: it may insert the timer, or cancel it. -/
theorem addedMeanwhile_concat (hrun : timerSys.runFrom q (.handleRead now :: body) = .ok s) :
    AddedMeanwhile q now (body ++ [act]) a u ↔
      (AddedMeanwhile q now body a u ∧ act ≠ .cancelInLoop a u.sequence) ∨
      (act = .addTimerInLoop a ∧ s.heap a = some u) := by
  constructor
  · rintro ⟨pre, post, s', hbody, hrun', hu, hnot⟩
    rcases split_concat hbody with ⟨rfl, rfl, rfl⟩ | ⟨post', rfl, rfl⟩
    · obtain rfl : s = s' := Except.ok.inj (hrun.symm.trans hrun')
      exact .inr ⟨rfl, hu⟩
    · refine .inl ⟨⟨pre, post', s', rfl, hrun', hu, fun hmem => ?_⟩, ?_⟩
      · exact hnot (List.mem_append_left _ hmem)
      · rintro rfl
        exact hnot (by simp)
  · rintro (⟨⟨pre, post, s', rfl, hrun', hu, hnot⟩, hact⟩ | ⟨rfl, hu⟩)
    · refine ⟨pre, post ++ [act], s', by simp, hrun', hu, fun hmem => ?_⟩
      rcases List.mem_append.mp hmem with hmem | hmem
      · exact hnot hmem
      · exact hact (List.mem_singleton.mp hmem).symm
    · exact ⟨body, [], s, rfl, hrun, hu, by simp⟩

theorem standing_concat (hrun : timerSys.runFrom q (.handleRead now :: body) = .ok s) :
    Standing q now (body ++ [act]) a u ↔
      (Standing q now body a u ∧ act ≠ .cancelInLoop a u.sequence) ∨
      (act = .addTimerInLoop a ∧ s.heap a = some u) := by
  unfold Standing
  rw [addedMeanwhile_concat hrun, List.mem_append, List.mem_singleton, @eq_comm _ _ act]
  tauto

/-- The batch begins. -/
theorem handleReadBegin_midway (h : QueueInv q) (hidle : q.pc = .idle) (now : Int) :
    Lands (q.handleReadBegin now) (Midway q now []) := by
  have howned := h.owned_idle hidle
  refine ((handleReadBegin_inv h hidle now).and (handleReadBegin_post q now)).mono fun s hs => ?_
  obtain ⟨hinv, hstill, hheap, htimers, -⟩ := hs
  refine ⟨hinv, hstill.calling, ⟨[], dueEntries q now, rfl, hstill.pc, ?_⟩,
    fun e _ => congrFun hheap _, fun e _ t _ => ?_, fun a u => ?_⟩
  · rw [hstill.ran]
    exact (List.append_nil q.ran).symm
  · rw [hstill.canceling]
    exact iff_of_false (OrdSet.notMem_empty _) List.not_mem_nil
  · rw [inTimers_since howned hheap htimers, Standing, or_iff_left addedMeanwhile_nil]
    simp

theorem Midway.batch_eq (h : Midway q now body s) : batch s = (dueEntries q now).map addr := by
  obtain ⟨done, rest, -, hpc, -⟩ := h.turn
  rw [batch, hpc]

/-- The next callback is that of the next timer; no other step runs one. -/
theorem Midway.next_turn (h : Midway q now body s) (hin : act.inBatch = true) :
    Post (exec s act) fun s' => ∃ done rest, dueEntries q now = done ++ rest ∧
      s'.pc = .calling now (dueEntries q now) rest ∧ s'.ran = q.ran ++ calls q now done := by
  obtain ⟨done, rest, hsplit, hpc, hran⟩ := h.turn
  cases act with
  | newTimer a when interval repeats => exact .ok h.turn
  | addTimerInLoop a =>
      refine (addTimerInLoop_post s a).mono fun s' hs' => ?_
      obtain ⟨-, -, hstill, -⟩ := hs'
      exact ⟨done, rest, hsplit, hstill.pc.trans hpc, hstill.ran.trans hran⟩
  | cancelInLoop a n =>
      refine (cancelInLoop_post s a n).mono fun s' hs' => ?_
      rcases hs' with ⟨-, t, -, hmoved⟩ | ⟨-, rfl⟩
      · exact ⟨done, rest, hsplit, hmoved.still.pc.trans hpc, hmoved.still.ran.trans hran⟩
      · exact ⟨done, rest, hsplit, hpc, hran⟩
  | runNext =>
      show Post s.runNext _
      unfold runNext
      rw [hpc]
      cases rest with
      | nil => exact .ok ⟨done, [], hsplit, hpc, hran⟩
      | cons e rest =>
          refine (deref_post s (addr e)).bind fun t ht => .ok ⟨done ++ [e], rest, ?_, rfl, ?_⟩
          · rw [hsplit, List.append_assoc, List.singleton_append]
          · have hmem : e ∈ dueEntries q now := by
              rw [hsplit]
              exact List.mem_append_right _ List.mem_cons_self
            have hof : timerOf q e = some (addr e, t) := by
              rw [timerOf, ← h.heap e hmem, ht]
              rfl
            show s.ran ++ [(t.sequence, now)] = q.ran ++ calls q now (done ++ [e])
            rw [hran, calls, calls, List.filterMap_append, List.map_append, List.append_assoc]
            simp [hof]
  | handleRead now => exact absurd hin (by simp [Act.inBatch])
  | reset => exact absurd hin (by simp [Act.inBatch])

theorem Midway.step (h : Midway q now body s)
    (hrun : timerSys.runFrom q (.handleRead now :: body) = .ok s) (hen : enabled s act = true)
    (hin : act.inBatch = true) : Lands (exec s act) (Midway q now (body ++ [act])) := by
  have hexec := ((exec_inv h.inv act hen).and (exec_during h.inv h.calling hen hin)).and
    (h.next_turn hin)
  refine hexec.mono fun s' hs' => ?_
  obtain ⟨⟨hinv, hduring⟩, hturn⟩ := hs'
  have hbatch : ∀ e ∈ dueEntries q now, addr e ∈ batch s := by
    intro e he
    rw [h.batch_eq]
    exact List.mem_map_of_mem he
  refine ⟨hinv, hduring.calling, hturn, fun e he => ?_, fun e he t ht => ?_, fun a u => ?_⟩
  · exact (hduring.heap _ (hbatch e he)).trans (h.heap e he)
  · rw [hduring.marks _ (hbatch e he) t ((h.heap e he).trans ht), h.marks e he t ht,
      List.mem_append, List.mem_singleton, @eq_comm _ act]
  · rw [hduring.timers, h.timers, standing_concat hrun]

/-- The loop of `reset` puts back the timers that repeat and are not marked. -/
theorem resetAll_inTimers {loose : List Addr} (expired : List Entry) (now : Int) {q : TimerQueue}
    (h : Owned (expired.map addr ++ loose) q) :
    Post (q.resetAll now expired) fun q' => Still q q' ∧ ∀ a u, InTimers q' a u ↔
      InTimers q a u ∨ ∃ e ∈ expired, addr e = a ∧ ∃ t, q.heap a = some t ∧ t.repeats = true ∧
        activeTimer a t.sequence ∉ q.cancelingTimers ∧ u = t.restart now := by
  induction expired generalizing q with
  | nil => exact .ok ⟨.refl q, by simp⟩
  | cons e expired ih =>
      have hentry := h.not_entry List.mem_cons_self
      have hfresh : ∀ e' ∈ expired, addr e' ≠ addr e := by
        intro e' he' heq
        have hnodup := (List.nodup_append.mp (List.nodup_append.mp h.nodup).1).1
        exact (List.nodup_cons.mp hnodup).1 (heq ▸ List.mem_map_of_mem he')
      unfold resetAll
      refine ((resetOne_spec h now).and (resetOne_post q now (addr e))).post.bind fun q₁ h₁ => ?_
      obtain ⟨⟨howned, -⟩, t, ht, hturn⟩ := h₁
      -- what the first turn does, and that it leaves the other timers of the batch alone
      have hfirst : Still q q₁ ∧ (∀ b, b ≠ addr e → q₁.heap b = q.heap b) ∧
          ∀ b u, InTimers q₁ b u ↔ InTimers q b u ∨ b = addr e ∧ t.repeats = true ∧
            activeTimer b t.sequence ∉ q.cancelingTimers ∧ u = t.restart now := by
        rcases hturn with ⟨hrepeats, hfree, hmoved⟩ | ⟨hdrop, hmoved⟩
        · refine ⟨hmoved.still, fun b hb => ?_, fun b u => ?_⟩
          · rw [hmoved.heap, Function.update_of_ne hb]
          · have hstore : InTimers (q.store (addr e) (some (t.restart now))) b u ↔ InTimers q b u :=
              inTimers_store hentry rfl rfl
            rw [inTimers_insert (q := q.store (addr e) (some (t.restart now))) hmoved.heap
              hmoved.timers (heap_store_self ..), hstore]
            refine or_congr_right (and_congr_right ?_)
            rintro rfl
            rw [heap_store_self, Option.some.injEq, @eq_comm _ u]
            simp [hrepeats, hfree]
        · refine ⟨hmoved.still, fun b hb => ?_, fun b u => ?_⟩
          · rw [hmoved.heap, Function.update_of_ne hb]
          · rw [inTimers_store hentry hmoved.heap hmoved.timers]
            refine (or_iff_left ?_).symm
            rintro ⟨rfl, hrepeats, hfree, -⟩
            exact hdrop ⟨hrepeats, hfree⟩
      obtain ⟨hstill, hheap, htimers⟩ := hfirst
      refine (ih howned).mono fun q' hq' => ⟨hstill.trans hq'.1, fun a u => ?_⟩
      rw [hq'.2 a u, htimers, or_assoc, hstill.canceling]
      refine or_congr_right ?_
      constructor
      · rintro (⟨rfl, hrepeats, hfree, rfl⟩ | ⟨e', he', rfl, t', ht', hkeep⟩)
        · exact ⟨e, List.mem_cons_self, rfl, t, ht, hrepeats, hfree, rfl⟩
        · rw [hheap _ (hfresh e' he')] at ht'
          exact ⟨e', List.mem_cons_of_mem e he', rfl, t', ht', hkeep⟩
      · rintro ⟨e', he', rfl, t', ht', hkeep⟩
        rcases List.mem_cons.mp he' with rfl | he'
        · obtain rfl : t = t' := Option.some.inj (ht.symm.trans ht')
          exact .inl ⟨rfl, hkeep⟩
        · refine .inr ⟨e', he', rfl, t', ?_, hkeep⟩
          rw [hheap _ (hfresh e' he')]
          exact ht'

/-- The end of the batch. -/
theorem Midway.reset (h : Midway q now body s) (hq : Owned q.created q)
    (hen : enabled s .reset = true) : Lands s.handleReadEnd (Handled q now body) := by
  obtain ⟨done, rest, hsplit, hpc, hran⟩ := h.turn
  obtain rfl : rest = [] := by
    obtain ⟨now', expired, hlast⟩ := calling_of_reset hen
    exact (Pc.calling.inj (hpc.symm.trans hlast)).2.2
  rw [List.append_nil] at hsplit
  subst hsplit
  have howned := h.inv.owned_reset hpc
  have hafter : Post s.handleReadEnd fun q' => q'.ran = s.ran ∧ ∀ a u, InTimers q' a u ↔
      InTimers s a u ∨ ∃ e ∈ dueEntries q now, addr e = a ∧ ∃ t, s.heap a = some t ∧
        t.repeats = true ∧ activeTimer a t.sequence ∉ s.cancelingTimers ∧ u = t.restart now := by
    unfold handleReadEnd
    rw [hpc]
    refine (reset_post _ now (resetAll_inTimers _ now howned) fun _ _ h₁ => ?_).mono fun q' hq' =>
      ⟨hq'.1.ran, hq'.2⟩
    exact ⟨h₁.1.trans ⟨rfl, rfl, rfl, rfl, rfl, rfl⟩, h₁.2⟩
  refine ((handleReadEnd_inv h.inv).and hafter).mono fun q' hq' => ?_
  obtain ⟨hinv, hran', htimers⟩ := hq'
  refine ⟨⟨(dueEntries q now).filterMap (timerOf q), ?_, ?_, ?_, ?_⟩, fun a u => ?_, ?_⟩
  · exact fun a t => mem_timersOf_due hq
  · exact (pairwise_timersOf_due hq).imp fun h => h.2
  · exact (pairwise_timersOf_due hq).imp fun h => h.1
  · rw [hran', hran]
    rfl
  · rw [htimers, h.timers, Standing, or_assoc]
    refine or_congr_right ?_
    rw [or_comm]
    refine or_congr_left ?_
    constructor
    · rintro ⟨e, he, rfl, t, ht, hrepeats, hfree, rfl⟩
      obtain ⟨v, hv, hkey⟩ := hq.inTimers_of_mem (OrdSet.mem_below.mp he).1
      rw [h.heap e he] at ht
      obtain rfl : v = t := Option.some.inj (hv.1.symm.trans ht)
      rw [h.marks e he v ht] at hfree
      refine ⟨v, hv, (mem_dueEntries hq hv).mp (hkey ▸ he), hrepeats, hfree, ?_⟩
      rw [Timer.restart, if_pos hrepeats]
    · rintro ⟨t, ht, hle, hrepeats, hfree, rfl⟩
      have he := (mem_dueEntries hq ht).mpr hle
      have hsame := h.heap _ he
      refine ⟨_, he, rfl, t, hsame.trans ht.1, hrepeats, ?_, ?_⟩
      · exact fun hmark => hfree ((h.marks _ he t ht.1).mp hmark)
      · rw [Timer.restart, if_pos hrepeats]
  · intro x a he
    obtain ⟨t, ht, hkey⟩ := hinv.owned.inTimers_of_mem he
    exact ⟨t, ht, (entry_inj.mp hkey).1.symm⟩

/-- A whole call of `handleRead`. -/
theorem handleRead_handled (h : QueueInv q) (hin : ∀ act ∈ body, act.inBatch = true)
    (hlegal : timerSys.Legal q (.handleRead now :: (body ++ [.reset]))) :
    Lands (timerSys.runFrom q (.handleRead now :: (body ++ [.reset]))) (Handled q now body) := by
  obtain ⟨henter, hrest⟩ := Sys.meets_cons.mp hlegal
  have hidle : q.pc = .idle := idle_of_matches henter
  obtain ⟨s₀, hbegin, h₀⟩ := handleReadBegin_midway h hidle now
  have hbegin : timerSys.exec q (.handleRead now) = .ok s₀ := hbegin
  have hrun : ∀ acts, timerSys.runFrom q (.handleRead now :: acts) = timerSys.runFrom s₀ acts := by
    intro acts
    rw [Sys.runFrom_cons, hbegin]
    rfl
  obtain ⟨hbody, hlast⟩ := Sys.meets_append.mp (hrest s₀ hbegin)
  have hmeets : timerSys.Meets (fun s act => enabled s act = true ∧ act.inBatch = true) s₀ body :=
    Sys.meets_and.mpr ⟨hbody, Sys.meets_of_forall hin s₀⟩
  have hmid : Lands (timerSys.runFrom s₀ body) (Midway q now body) :=
    Sys.history_lands h₀ (fun pre s act hpre hmid hact =>
      hmid.step ((hrun pre).trans hpre) hact.1 hact.2) hmeets
  obtain ⟨s, hs, hmid⟩ := hmid
  have hen : enabled s .reset = true := (Sys.meets_cons.mp (hlast s hs)).1
  obtain ⟨q', hq', hhandled⟩ := hmid.reset (h.owned_idle hidle) hen
  refine ⟨q', ?_, hhandled⟩
  rw [hrun, Sys.runFrom_append, hs, ok_bind, Sys.runFrom_cons]
  show (s.handleReadEnd >>= fun s' => timerSys.runFrom s' []) = .ok q'
  rw [hq']
  rfl

end Batch

end Muduo.Timers
