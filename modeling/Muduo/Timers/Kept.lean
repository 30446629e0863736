import Muduo.Timers.Expiry

/-!
# No timer is lost

A timer is freed in three places: `cancelInLoop` finds it, `reset` finds it marked
as cancelled, or `reset` finds that it does not repeat. Over a whole run, a timer
that no `cancel` names is freed exactly when it does not repeat and has run
(`timers_kept_iff`). Between batches such a timer waits: in `M_timers`, or for its
`addTimerInLoop`.
-/

namespace Muduo.Timers

open Lib TimerQueue

/-- The address that a timer is created at, and whether it repeats. -/
def Act.born : Act → Option (Addr × Bool)
  | .newTimer timer _ _ repeats => some (timer, repeats)
  | _ => none

/-- The timers made in a run, oldest first; the sequence numbers count from 1. -/
def bornIn (acts : List Act) : List (Addr × Bool) := acts.filterMap Act.born

/-- The timer with this address and number is allocated. -/
def Allocated (q : TimerQueue) (a : Addr) (n : Nat) : Prop :=
  ∃ t, q.heap a = some t ∧ t.sequence = n

/-- The timer is in both sets, or it was created and its `addTimerInLoop` is still to
come. -/
def Waits (q : TimerQueue) (a : Addr) (n : Nat) : Prop :=
  ∃ t, q.heap a = some t ∧ t.sequence = n ∧
    (a ∈ q.created ∨ entry t.expiration a ∈ q.timers ∧ activeTimer a n ∈ q.activeTimers)

/-- What the steps made so far say about the timers there are. -/
structure Kept (acts : List Act) (q : TimerQueue) : Prop where
  count : (bornIn acts).length = q.numCreated
  own : ∀ a t, q.heap a = some t →
    ∃ k, t.sequence = k + 1 ∧ (bornIn acts)[k]? = some (a, t.repeats)
  marked : ∀ a n, activeTimer a n ∈ q.cancelingTimers → .cancelInLoop a n ∈ acts
  /-- A timer of the batch that has had its turn has run. -/
  turned : ∀ now expired rest, q.pc = .calling now expired rest →
    ∀ a ∈ expired.map addr, a ∉ rest.map addr →
    ∀ t, q.heap a = some t → t.sequence ∈ q.ran.map Prod.fst
  kept : ∀ k a repeats, (bornIn acts)[k]? = some (a, repeats) → .cancelInLoop a (k + 1) ∉ acts →
    repeats = true ∨ k + 1 ∉ q.ran.map Prod.fst → Allocated q a (k + 1)

section Kept

variable {acts : List Act} {q q' : TimerQueue} {a : Addr} {n : Nat}

theorem filterMap_concat {β : Type} (f : Act → Option β) (acts : List Act) (act : Act) :
    (acts ++ [act]).filterMap f = acts.filterMap f ++ (f act).toList := by
  rw [List.filterMap_append]
  cases h : f act with
  | none => rw [List.filterMap_cons_none h]; rfl
  | some x => rw [List.filterMap_cons_some h]; rfl

theorem bornIn_same {act : Act} (h : act.born = none) : bornIn (acts ++ [act]) = bornIn acts := by
  rw [bornIn, filterMap_concat, h, Option.toList_none, List.append_nil]
  rfl

/-- A step that makes no timer, frees only timers that the run cancels, and lets the
turns be as they are. -/
theorem Kept.frame {act : Act} (h : Kept acts q) (hborn : act.born = none)
    (hnum : q'.numCreated = q.numCreated) (hpc : q'.pc = q.pc) (hran : q'.ran = q.ran)
    (hold : ∀ a t, q'.heap a = some t → q.heap a = some t)
    (hcancel : ∀ a n, activeTimer a n ∈ q'.cancelingTimers →
      activeTimer a n ∈ q.cancelingTimers ∨ act = .cancelInLoop a n)
    (hfree : ∀ a n, Allocated q a n → act ≠ .cancelInLoop a n → Allocated q' a n) :
    Kept (acts ++ [act]) q' := by
  have hsame : bornIn (acts ++ [act]) = bornIn acts := bornIn_same hborn
  refine ⟨?_, fun a t ht => ?_, fun a n hmark => ?_, fun now expired rest hcalling => ?_,
    fun k a repeats hk hnot hdue => ?_⟩
  · rw [hsame, hnum]
    exact h.count
  · rw [hsame]
    exact h.own a t (hold a t ht)
  · rw [List.mem_append, List.mem_singleton]
    exact (hcancel a n hmark).imp (h.marked a n) Eq.symm
  · intro a ha hout t ht
    rw [hpc] at hcalling
    rw [hran]
    exact h.turned now expired rest hcalling a ha hout t (hold a t ht)
  · rw [hsame] at hk
    rw [hran] at hdue
    rw [List.mem_append, List.mem_singleton, not_or] at hnot
    exact hfree a (k + 1) (h.kept k a repeats hk hnot.1 hdue) (Ne.symm hnot.2)

theorem newTimer_kept (h : Kept acts q) (hinv : QueueInv q) (hfree : q.heap a = none)
    (when interval : Int) (repeats : Bool) :
    Kept (acts ++ [.newTimer a when interval repeats]) (q.newTimer a when interval repeats) := by
  have hborn : bornIn (acts ++ [.newTimer a when interval repeats]) =
      bornIn acts ++ [(a, repeats)] := filterMap_concat ..
  have hbatch : ∀ now expired rest, q.pc = .calling now expired rest → a ∉ expired.map addr := by
    intro now expired rest hpc hmem
    obtain ⟨t, ht⟩ := hinv.batch_alloc (a := a) (by rw [batch, hpc]; exact hmem)
    rw [hfree] at ht
    exact absurd ht (by simp)
  refine ⟨?_, fun b t ht => ?_, fun b n hmark => ?_, fun now expired rest hpc b hb hout t ht => ?_,
    fun k b r hk hnot hdue => ?_⟩
  · rw [hborn, List.length_append, h.count, List.length_singleton]
    rfl
  · rw [hborn]
    rcases heap_store_cases ht with ⟨rfl, hnew⟩ | ⟨-, hold⟩
    · obtain rfl := Option.some.inj hnew
      exact ⟨q.numCreated, rfl, by rw [← h.count, List.getElem?_concat_length]⟩
    · obtain ⟨k, hk, hmade⟩ := h.own b t hold
      obtain ⟨hlt, -⟩ := List.getElem?_eq_some_iff.mp hmade
      exact ⟨k, hk, (List.getElem?_append_left hlt).trans hmade⟩
  · exact List.mem_append_left _ (h.marked b n hmark)
  · rcases heap_store_cases ht with ⟨rfl, -⟩ | ⟨-, hold⟩
    · exact absurd hb (hbatch now expired rest hpc)
    · exact h.turned now expired rest hpc b hb hout t hold
  · rw [hborn] at hk
    rw [List.mem_append, not_or] at hnot
    rcases lt_or_ge k (bornIn acts).length with hlt | hge
    · rw [List.getElem?_append_left hlt] at hk
      obtain ⟨t, ht, hn⟩ := h.kept k b r hk hnot.1 hdue
      -- the new timer takes the place of none
      have hne : b ≠ a := by
        rintro rfl
        rw [hfree] at ht
        exact absurd ht (by simp)
      exact ⟨t, (heap_store_of_ne q hne _).trans ht, hn⟩
    · have hlast : k = (bornIn acts).length := by
        obtain ⟨hlt, -⟩ := List.getElem?_eq_some_iff.mp hk
        rw [List.length_append, List.length_singleton] at hlt
        omega
      rw [hlast, List.getElem?_concat_length] at hk
      obtain ⟨rfl, rfl⟩ := Prod.mk.inj (Option.some.inj hk)
      exact ⟨_, heap_store_self .., by rw [hlast, h.count]⟩

/-- `cancelInLoop` frees the timer it is given, or marks it. -/
theorem cancelInLoop_kept (h : Kept acts q) (hinv : QueueInv q) (a : Addr) (n : Nat) :
    Post (q.cancelInLoop a n) (Kept (acts ++ [.cancelInLoop a n])) := by
  refine (cancelInLoop_post q a n).mono fun q' hq' => ?_
  rcases hq' with ⟨hactive, u, hu, hmoved⟩ | ⟨-, rfl⟩
  · obtain ⟨v, hv, hvn, -⟩ := (hinv.owned.active a n).mp hactive
    refine h.frame rfl hmoved.still.numCreated hmoved.still.pc hmoved.still.ran (fun b t ht => ?_)
      (fun b m hmark => .inl ?_) fun b m hb hne => ?_
    · rw [hmoved.heap] at ht
      rcases heap_store_cases (q := q) ht with ⟨-, hnone⟩ | ⟨-, hold⟩
      · exact absurd hnone (by simp)
      · exact hold
    · rwa [hmoved.still.canceling] at hmark
    · obtain ⟨t, ht, htm⟩ := hb
      have hba : b ≠ a := by
        rintro rfl
        obtain rfl : v = t := Option.some.inj (hv.symm.trans ht)
        exact hne (by rw [← hvn, htm])
      refine ⟨t, ?_, htm⟩
      rw [hmoved.heap, Function.update_of_ne hba]
      exact ht
  · refine h.frame rfl rfl rfl rfl (fun _ _ ht => ht) (fun b m hmark => ?_) fun _ _ hb _ => hb
    dsimp only at hmark
    split at hmark
    · rcases OrdSet.mem_insert.mp hmark with heq | hmark
      · obtain ⟨rfl, rfl⟩ := activeTimer_inj.mp heq
        exact .inr rfl
      · exact .inl hmark
    · exact .inl hmark

/-- A batch begins: nothing is marked, and nobody has had a turn. -/
theorem handleReadBegin_kept (h : Kept acts q) (now : Int) :
    Post (q.handleReadBegin now) (Kept (acts ++ [.handleRead now])) := by
  refine (handleReadBegin_post q now).mono fun q' hq' => ?_
  obtain ⟨hstill, hheap, -, -⟩ := hq'
  have hsame : bornIn (acts ++ [.handleRead now]) = bornIn acts := bornIn_same rfl
  have hran : q'.ran = q.ran := hstill.ran
  have hcanceling : q'.cancelingTimers = .empty := hstill.canceling
  refine ⟨?_, fun a t ht => ?_, fun a n hmark => ?_, fun now' expired rest hpc a ha hout => ?_,
    fun k a repeats hk hnot hdue => ?_⟩
  · rw [hsame, hstill.numCreated]
    exact h.count
  · rw [hheap] at ht
    rw [hsame]
    exact h.own a t ht
  · rw [hcanceling] at hmark
    exact absurd hmark (OrdSet.notMem_empty _)
  · rw [hstill.pc] at hpc
    obtain ⟨-, rfl, rfl⟩ := Pc.calling.inj hpc
    exact absurd ha hout
  · rw [hsame] at hk
    rw [hran] at hdue
    rw [List.mem_append, not_or] at hnot
    obtain ⟨t, ht, hn⟩ := h.kept k a repeats hk hnot.1 hdue
    exact ⟨t, by rw [hheap]; exact ht, hn⟩

theorem runNext_kept (h : Kept acts q) : Post q.runNext (Kept (acts ++ [.runNext])) := by
  have hsame : bornIn (acts ++ [.runNext]) = bornIn acts := bornIn_same rfl
  unfold runNext
  split
  · rename_i now expired e rest hpc
    refine (deref_post q (addr e)).bind fun t ht => .ok ?_
    have hmap : (q.ran ++ [(t.sequence, now)]).map Prod.fst = q.ran.map Prod.fst ++ [t.sequence] :=
      List.map_append ..
    refine ⟨?_, fun a u hu => ?_, fun a n hmark => ?_, ?_, fun k a repeats hk hnot hdue => ?_⟩
    · rw [hsame]
      exact h.count
    · rw [hsame]
      exact h.own a u hu
    · exact List.mem_append_left _ (h.marked a n hmark)
    · intro now' expired' rest' hcalling a ha hout u hu
      obtain ⟨rfl, rfl, rfl⟩ := Pc.calling.inj hcalling
      show u.sequence ∈ (q.ran ++ [(t.sequence, now)]).map Prod.fst
      rw [hmap, List.mem_append]
      by_cases hae : a = addr e
      · -- this was its turn
        subst hae
        obtain rfl : t = u := Option.some.inj (ht.symm.trans hu)
        exact .inr List.mem_cons_self
      · refine .inl (h.turned now expired (e :: rest) hpc a ha (fun hin => ?_) u hu)
        exact (List.mem_cons.mp hin).elim hae hout
    · rw [hsame] at hk
      rw [List.mem_append, not_or] at hnot
      refine h.kept k a repeats hk hnot.1 (hdue.imp_right fun hnew hold => hnew ?_)
      show k + 1 ∈ (q.ran ++ [(t.sequence, now)]).map Prod.fst
      rw [hmap]
      exact List.mem_append_left _ hold
  · exact .ok (h.frame rfl rfl rfl rfl (fun _ _ ht => ht) (fun _ _ hmark => .inl hmark)
      fun _ _ hb _ => hb)

/-- The loop of `reset` keeps the timers outside the batch, and those of the batch
that repeat and are not marked. -/
theorem resetAll_keeps (expired : List Entry) (now : Int) (q : TimerQueue)
    (h : ∃ t, q.heap a = some t ∧ t.sequence = n ∧ (a ∈ expired.map addr →
      t.repeats = true ∧ activeTimer a n ∉ q.cancelingTimers)) :
    Post (q.resetAll now expired) fun q' => Allocated q' a n := by
  induction expired generalizing q with
  | nil =>
      obtain ⟨t, ht, hn, -⟩ := h
      exact .ok ⟨t, ht, hn⟩
  | cons e expired ih =>
      obtain ⟨t, ht, hn, hstays⟩ := h
      unfold resetAll
      refine (resetOne_post q now (addr e)).bind fun q₁ h₁ => ih q₁ ?_
      obtain ⟨v, hv, hturn⟩ := h₁
      have hcanceling : q₁.cancelingTimers = q.cancelingTimers := by
        rcases hturn with ⟨-, -, hmoved⟩ | ⟨-, hmoved⟩
        · exact hmoved.still.canceling
        · exact hmoved.still.canceling
      rw [hcanceling]
      by_cases hae : a = addr e
      · -- its own turn: it is restarted
        subst hae
        obtain rfl : t = v := Option.some.inj (ht.symm.trans hv)
        obtain ⟨hrepeats, hfree⟩ := hstays List.mem_cons_self
        rw [← hn] at hfree
        rcases hturn with ⟨-, -, hmoved⟩ | ⟨hdrop, -⟩
        · refine ⟨t.restart now, ?_, hn, fun _ => ⟨hrepeats, by rw [← hn]; exact hfree⟩⟩
          rw [hmoved.heap, Function.update_self]
        · exact absurd ⟨hrepeats, hfree⟩ hdrop
      · refine ⟨t, ?_, hn, fun hmem => hstays (List.mem_cons_of_mem _ hmem)⟩
        rcases hturn with ⟨-, -, hmoved⟩ | ⟨-, hmoved⟩
        · rw [hmoved.heap, Function.update_of_ne hae]
          exact ht
        · rw [hmoved.heap, Function.update_of_ne hae]
          exact ht

theorem handleReadEnd_kept (h : Kept acts q) (hen : enabled q .reset = true) :
    Post q.handleReadEnd (Kept (acts ++ [.reset])) := by
  obtain ⟨now, expired, hpc⟩ := calling_of_reset hen
  have hsame : bornIn (acts ++ [.reset]) = bornIn acts := bornIn_same rfl
  intro q' hq'
  obtain ⟨hstill, hleft⟩ := handleReadEnd_post hpc q' hq'
  have hran : q'.ran = q.ran := hstill.ran
  have hcanceling : q'.cancelingTimers = q.cancelingTimers := hstill.canceling
  refine ⟨?_, fun a u hu => ?_, fun a n hmark => ?_, fun now' expired' rest' hcalling => ?_,
    fun k a repeats hk hnot hdue => ?_⟩
  · rw [hsame, hstill.numCreated]
    exact h.count
  · rw [hsame]
    obtain ⟨t, ht, hcase⟩ := hleft a u hu
    obtain ⟨k, hk, hborn⟩ := h.own a t ht
    rcases hcase with ⟨-, rfl⟩ | ⟨-, -, -, rfl⟩
    · exact ⟨k, hk, hborn⟩
    · exact ⟨k, hk, hborn⟩
  · rw [hcanceling] at hmark
    exact List.mem_append_left _ (h.marked a n hmark)
  · rw [hstill.pc] at hcalling
    exact absurd hcalling (by simp)
  · rw [hsame] at hk
    rw [hran] at hdue
    rw [List.mem_append, not_or] at hnot
    obtain ⟨t, ht, hn⟩ := h.kept k a repeats hk hnot.1 hdue
    have hstays : a ∈ expired.map addr →
        t.repeats = true ∧ activeTimer a (k + 1) ∉ q.cancelingTimers := by
      intro hmem
      -- all of the batch has run, so the timer repeats
      have hhas := h.turned now expired [] hpc a hmem (by simp) t ht
      rw [hn] at hhas
      obtain ⟨j, hj, hborn⟩ := h.own a t ht
      obtain rfl : j = k := by omega
      obtain ⟨-, hrepeats⟩ := Prod.mk.inj (Option.some.inj (hborn.symm.trans hk))
      refine ⟨?_, fun hmark => hnot.1 (h.marked a _ hmark)⟩
      rw [hrepeats]
      exact hdue.resolve_right (not_not.mpr hhas)
    have hloop := resetAll_keeps expired now { q with callingExpiredTimers := false, pc := .idle }
      ⟨t, ht, hn, hstays⟩
    have hreset := reset_post expired now hloop fun q₁ expiration h₁ => h₁
    unfold handleReadEnd at hq'
    rw [hpc] at hq'
    exact hreset q' hq'

theorem exec_kept (h : Kept acts q) (hinv : QueueInv q) (act : Act) (hen : enabled q act = true) :
    Post (exec q act) (Kept (acts ++ [act])) := by
  cases act with
  | newTimer timer when interval repeats =>
      simp only [enabled, Bool.and_eq_true, Option.isNone_iff_eq_none] at hen
      exact .ok (newTimer_kept h hinv hen.2 when interval repeats)
  | addTimerInLoop timer =>
      refine (addTimerInLoop_post q timer).mono fun q' hq' => ?_
      obtain ⟨t, -, hstill, hheap, -⟩ := hq'
      refine h.frame rfl hstill.numCreated hstill.pc hstill.ran (fun a u hu => ?_)
        (fun a n hmark => .inl ?_) fun a n hb _ => ?_
      · rwa [hheap] at hu
      · rwa [hstill.canceling] at hmark
      · unfold Allocated
        rw [hheap]
        exact hb
  | cancelInLoop timer sequence => exact cancelInLoop_kept h hinv timer sequence
  | handleRead now => exact handleReadBegin_kept h now
  | runNext => exact runNext_kept h
  | reset => exact handleReadEnd_kept h hen

theorem new_kept : Kept [] TimerQueue.new where
  count := rfl
  own a t ht := absurd ht (by simp [TimerQueue.new])
  marked a n hmark := absurd hmark (OrdSet.notMem_empty _)
  turned now expired rest hpc := absurd hpc (by simp [TimerQueue.new])
  kept k a repeats hk := absurd hk (by simp [bornIn])

/-- Between batches, an allocated timer waits. -/
theorem QueueInv.waits (h : QueueInv q) (hidle : q.pc = .idle) (hb : Allocated q a n) :
    Waits q a n := by
  obtain ⟨t, ht, hn⟩ := hb
  refine ⟨t, ht, hn, ?_⟩
  rcases List.mem_append.mp (((h.owned_idle hidle).alloc a).mpr ⟨t, ht⟩) with hcreated | hqueued
  · exact .inl hcreated
  · obtain ⟨e, he, rfl⟩ := List.mem_map.mp hqueued
    obtain ⟨u, hu, hkey⟩ := h.owned.keyed e he
    obtain rfl : t = u := Option.some.inj (ht.symm.trans hu)
    have he' : entry t.expiration (addr e) ∈ q.timers := hkey ▸ he
    exact .inr ⟨he', (h.owned.active _ _).mpr ⟨t, ht, hn, he'⟩⟩

/-- **No timer is lost.** In every run, a timer that no `cancel` names is allocated as
long as it repeats or has not run; and between batches it waits if and only if it
repeats or has not run. -/
theorem timers_kept_iff (acts : List Act) (h : timerSys.Legal TimerQueue.new acts) :
    Lands (timerSys.runFrom TimerQueue.new acts) fun q =>
      ∀ k a repeats, (bornIn acts)[k]? = some (a, repeats) → .cancelInLoop a (k + 1) ∉ acts →
        (repeats = true ∨ k + 1 ∉ q.ran.map Prod.fst → Allocated q a (k + 1)) ∧
        (q.pc = .idle → (Waits q a (k + 1) ↔ repeats = true ∨ k + 1 ∉ q.ran.map Prod.fst)) := by
  have hrun : Lands (timerSys.runFrom TimerQueue.new acts) fun q =>
      RunInv (acts.filterMap Act.made) q ∧ Kept acts q := by
    have hstep : ∀ pre q act, timerSys.runFrom TimerQueue.new pre = .ok q →
        RunInv (pre.filterMap Act.made) q ∧ Kept pre q → timerSys.enabled q act →
        Lands (timerSys.exec q act) fun q' =>
          RunInv ((pre ++ [act]).filterMap Act.made) q' ∧ Kept (pre ++ [act]) q' := by
      intro pre q act _ hq hen
      rw [filterMap_concat]
      exact (exec_runInv hq.1 act hen).and (exec_kept hq.2 hq.1.inv act hen)
    exact Sys.history_lands ⟨new_runInv, new_kept⟩ hstep h
  refine hrun.mono fun q hq k a repeats hk hnot => ?_
  obtain ⟨hruns, hkept⟩ := hq
  refine ⟨hkept.kept k a repeats hk hnot, fun hidle => ⟨fun hwaits => ?_, fun hdue => ?_⟩⟩
  · obtain ⟨t, ht, hn, -⟩ := hwaits
    obtain ⟨j, hj, hborn⟩ := hkept.own a t ht
    obtain rfl : j = k := by omega
    obtain ⟨-, hrepeats⟩ := Prod.mk.inj (Option.some.inj (hborn.symm.trans hk))
    rw [← hrepeats]
    by_cases hran : j + 1 ∈ q.ran.map Prod.fst
    · -- a timer that has run and is still there repeats
      obtain ⟨m, hm⟩ := exists_lastRun hran
      rw [← hj] at hm
      refine .inl (hruns.ahead a t ht (fun now expired rest hpc => ?_) m hm).1
      rw [hidle] at hpc
      exact absurd hpc (by simp)
    · exact .inr hran
  · exact hruns.inv.waits hidle (hkept.kept k a repeats hk hnot hdue)

/-- Four timers: the first repeats and is in the batch at 100, the second has run, the
third is cancelled by the callback of the second, and the fourth is still to be
inserted, at the address that the third one had. -/
theorem timers_kept_iff_four :
    Lands (timerSys.runFrom TimerQueue.new
      [.newTimer 16 100 50 true, .addTimerInLoop 16, .newTimer 32 90 0 false,
        .addTimerInLoop 32, .newTimer 64 200 0 true, .addTimerInLoop 64, .handleRead 100, .runNext,
        .cancelInLoop 64 3, .runNext, .reset, .newTimer 64 300 0 false]) fun q =>
      Waits q 16 1 ∧ ¬ Waits q 32 2 ∧ Waits q 64 4 := by
  have hrun : Lands (timerSys.runFrom TimerQueue.new
      [.newTimer 16 100 50 true, .addTimerInLoop 16, .newTimer 32 90 0 false,
        .addTimerInLoop 32, .newTimer 64 200 0 true, .addTimerInLoop 64, .handleRead 100, .runNext,
        .cancelInLoop 64 3, .runNext, .reset, .newTimer 64 300 0 false]) fun q =>
      enabled q (.handleRead 0) = true ∧ q.ran.map Prod.fst = [2, 1] := by decide +kernel
  obtain ⟨q, hq, hpc, hran⟩ := hrun
  have hidle := idle_of_matches hpc
  have hkept := (timers_kept_iff _ (by decide +kernel)).post q hq
  refine ⟨q, hq, ?_, ?_, ?_⟩
  · exact ((hkept 0 16 true rfl (by decide)).2 hidle).mpr (.inl rfl)
  · rw [(hkept 1 32 false rfl (by decide)).2 hidle, hran]
    decide
  · refine ((hkept 3 64 false rfl (by decide)).2 hidle).mpr (.inr ?_)
    rw [hran]
    decide

end Kept

end Muduo.Timers
