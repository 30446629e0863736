import Muduo.Timers.Batch

/-!
# Timers run when they are due

Over a whole run, what a timer has still to do is tied to its last callback: a timer
that has run is repeating, and expires no sooner than one interval after that
(`RunInv.ahead`). So the callbacks of a repeating timer are at least its interval
apart, and a timer that does not repeat runs once.
-/

namespace Muduo.Timers

open Lib TimerQueue

/-- The interval that a timer is created with, and whether it repeats. -/
def Act.made : Act → Option (Int × Bool)
  | .newTimer _ _ interval repeats => some (interval, repeats)
  | _ => none

/-- `m` is the time of the last callback of timer `n`. -/
def LastRun (log : List (Nat × Int)) (n : Nat) (m : Int) : Prop :=
  ∃ pre mid, log = pre ++ (n, m) :: mid ∧ n ∉ mid.map Prod.fst

/-- The callbacks, for the timers that were made; the sequence numbers count from 1. -/
structure Spaced (made : List (Int × Bool)) (log : List (Nat × Int)) : Prop where
  /-- A timer that does not repeat runs at most once. -/
  once : ∀ k interval, made[k]? = some (interval, false) → (log.map Prod.fst).count (k + 1) ≤ 1
  /-- Two consecutive callbacks of a repeating timer are its interval apart. -/
  apart : ∀ k interval, made[k]? = some (interval, true) → ∀ pre now₁ mid now₂ post,
    log = pre ++ (k + 1, now₁) :: mid ++ (k + 1, now₂) :: post → k + 1 ∉ mid.map Prod.fst →
    now₁ + interval ≤ now₂

section Log

variable {made : List (Int × Bool)} {log : List (Nat × Int)} {k n : Nat} {m m' now : Int}
  {x : Int × Bool}

theorem LastRun.mem (h : LastRun log n m) : n ∈ log.map Prod.fst := by
  obtain ⟨pre, mid, rfl, -⟩ := h
  simp

theorem exists_lastRun (h : n ∈ log.map Prod.fst) : ∃ m, LastRun log n m := by
  induction log using List.reverseRecOn with
  | nil => exact absurd h (by simp)
  | append_singleton log x ih =>
      obtain ⟨k, now⟩ := x
      by_cases hk : n = k
      · subst hk
        exact ⟨now, log, [], rfl, by simp⟩
      · have hmem : n ∈ log.map Prod.fst := by simpa [hk] using h
        obtain ⟨m, pre, mid, rfl, hnot⟩ := ih hmem
        exact ⟨m, pre, mid ++ [(k, now)], by simp, by simpa [hk] using hnot⟩

theorem lastRun_concat_self : LastRun (log ++ [(n, now)]) n m ↔ m = now := by
  constructor
  · rintro ⟨pre, mid, hlog, hnot⟩
    rcases split_concat hlog with ⟨-, -, heq⟩ | ⟨mid', rfl, -⟩
    · exact (Prod.mk.inj heq).2.symm
    · exact absurd hnot (by simp)
  · rintro rfl
    exact ⟨log, [], rfl, by simp⟩

theorem lastRun_concat_ne (hk : k ≠ n) : LastRun (log ++ [(k, now)]) n m ↔ LastRun log n m := by
  constructor
  · rintro ⟨pre, mid, hlog, hnot⟩
    rcases split_concat hlog with ⟨-, -, heq⟩ | ⟨mid', rfl, rfl⟩
    · exact absurd (Prod.mk.inj heq).1 hk
    · refine ⟨pre, mid', rfl, fun hmem => hnot ?_⟩
      rw [List.map_append]
      exact List.mem_append_left _ hmem
  · rintro ⟨pre, mid, rfl, hnot⟩
    exact ⟨pre, mid ++ [(k, now)], by simp, by simpa [Ne.symm hk] using hnot⟩

theorem spaced_nil (made : List (Int × Bool)) : Spaced made [] :=
  ⟨fun _ _ _ => by simp, fun _ _ _ _ _ _ _ _ h => absurd h (by simp)⟩

/-- One more timer is made: none of the callbacks so far is its own. -/
theorem Spaced.make (h : Spaced made log) (hlog : ∀ n ∈ log.map Prod.fst, n ≤ made.length)
    (more : List (Int × Bool)) : Spaced (made ++ more) log := by
  have hold : ∀ k, k + 1 ∈ log.map Prod.fst → (made ++ more)[k]? = made[k]? := by
    intro k hk
    have := hlog _ hk
    rw [List.getElem?_append_left (by omega)]
  refine ⟨fun k interval hmade => ?_, fun k interval hmade pre now₁ mid now₂ post hlog' => ?_⟩
  · by_cases hk : k + 1 ∈ log.map Prod.fst
    · rw [hold k hk] at hmade
      exact h.once k interval hmade
    · rw [List.count_eq_zero_of_not_mem hk]
      omega
  · rw [hold k (by simp [hlog'])] at hmade
    exact h.apart k interval hmade pre now₁ mid now₂ post hlog'

/-- One more callback, of a timer that had not run, or repeats and waited long enough. -/
theorem Spaced.run (h : Spaced made log) (hmade : made[k]? = some x)
    (hlast : ∀ m, LastRun log (k + 1) m → x.2 = true ∧ m + x.1 ≤ now) :
    Spaced made (log ++ [(k + 1, now)]) := by
  refine ⟨fun j interval hj => ?_, fun j interval hj pre now₁ mid now₂ post hlog hnot => ?_⟩
  · rw [List.map_append, List.count_append]
    by_cases hjk : j = k
    · subst hjk
      obtain rfl : x = (interval, false) := Option.some.inj (hmade.symm.trans hj)
      have hfirst : j + 1 ∉ log.map Prod.fst := by
        intro hmem
        obtain ⟨m, hm⟩ := exists_lastRun hmem
        exact absurd (hlast m hm).1 (by simp)
      rw [List.count_eq_zero_of_not_mem hfirst]
      simp
    · have hother : ([(k + 1, now)].map Prod.fst).count (j + 1) = 0 :=
        List.count_eq_zero_of_not_mem (by simp [hjk])
      rw [hother]
      exact h.once j interval hj
  · rcases split_concat hlog with ⟨-, rfl, heq⟩ | ⟨post', rfl, rfl⟩
    · -- the callback is the second of the two
      obtain ⟨hkj, rfl⟩ := Prod.mk.inj heq
      obtain rfl : k = j := by omega
      obtain rfl : x = (interval, true) := Option.some.inj (hmade.symm.trans hj)
      exact (hlast now₁ ⟨pre, mid, rfl, hnot⟩).2
    · exact h.apart j interval hj pre now₁ mid now₂ post' rfl hnot

end Log

/-! ## What a timer has still to do -/

/-- The timer at `a` has a callback before it in its present place: it is outside the
running batch, or has not had its turn. -/
def Ahead (q : TimerQueue) (a : Addr) : Prop :=
  ∀ now expired rest, q.pc = .calling now expired rest → a ∈ expired.map addr → a ∈ rest.map addr

structure RunInv (made : List (Int × Bool)) (q : TimerQueue) : Prop where
  inv : QueueInv q
  count : made.length = q.numCreated
  own : ∀ a t, q.heap a = some t →
    ∃ k, t.sequence = k + 1 ∧ made[k]? = some (t.interval, t.repeats)
  known : ∀ n ∈ q.ran.map Prod.fst, n ≤ q.numCreated
  suffix : ∀ now expired rest, q.pc = .calling now expired rest → rest <:+ expired
  due : ∀ now expired rest, q.pc = .calling now expired rest →
    ∀ a ∈ rest.map addr, ∀ t, q.heap a = some t → t.expiration ≤ now
  /-- A timer that has run before repeats, and its interval is kept. -/
  ahead : ∀ a t, q.heap a = some t → Ahead q a → ∀ m, LastRun q.ran t.sequence m →
    t.repeats = true ∧ m + t.interval ≤ t.expiration
  /-- A timer that has had its turn in the batch ran at the time of the batch. -/
  turned : ∀ now expired rest, q.pc = .calling now expired rest →
    ∀ a ∈ expired.map addr, a ∉ rest.map addr →
    ∀ t, q.heap a = some t → ∀ m, LastRun q.ran t.sequence m → m = now
  spaced : Spaced made q.ran

section Runs

variable {made : List (Int × Bool)} {q q' : TimerQueue}

/-- A step that makes no timer and runs none. -/
theorem RunInv.frame (h : RunInv made q) (hinv : QueueInv q') (hnum : q'.numCreated = q.numCreated)
    (hpc : q'.pc = q.pc) (hran : q'.ran = q.ran)
    (hheap : ∀ a t, q'.heap a = some t → q.heap a = some t) : RunInv made q' := by
  refine ⟨hinv, h.count.trans hnum.symm, fun a t ht => h.own a t (hheap a t ht), ?_, ?_, ?_, ?_,
    ?_, ?_⟩
  · rw [hran, hnum]
    exact h.known
  · rw [hpc]
    exact h.suffix
  · intro now expired rest hcalling a ha t ht
    rw [hpc] at hcalling
    exact h.due now expired rest hcalling a ha t (hheap a t ht)
  · intro a t ht hahead m hm
    rw [hran] at hm
    unfold Ahead at hahead
    rw [hpc] at hahead
    exact h.ahead a t (hheap a t ht) hahead m hm
  · intro now expired rest hcalling a ha hout t ht m hm
    rw [hpc] at hcalling
    rw [hran] at hm
    exact h.turned now expired rest hcalling a ha hout t (hheap a t ht) m hm
  · rw [hran]
    exact h.spaced

/-- A new timer has not run. -/
theorem newTimer_runInv (h : RunInv made q) {a : Addr} {when interval : Int} {repeats : Bool}
    (hfree : q.heap a = none) (hinv : QueueInv (q.newTimer a when interval repeats)) :
    RunInv (made ++ [(interval, repeats)]) (q.newTimer a when interval repeats) := by
  have hbatch : ∀ now expired rest, q.pc = .calling now expired rest → a ∉ expired.map addr := by
    intro now expired rest hpc hmem
    have hb : a ∈ batch q := by
      rw [batch, hpc]
      exact hmem
    obtain ⟨t, ht⟩ := h.inv.batch_alloc hb
    rw [hfree] at ht
    exact absurd ht (by simp)
  refine ⟨hinv, ?_, fun b t ht => ?_, fun n hn => ?_, h.suffix, ?_, fun b t ht hahead m hm => ?_,
    ?_, ?_⟩
  · show (made ++ [(interval, repeats)]).length = q.numCreated + 1
    rw [List.length_append, h.count, List.length_singleton]
  · rcases heap_store_cases ht with ⟨-, hnew⟩ | ⟨-, hold⟩
    · obtain rfl := Option.some.inj hnew
      refine ⟨q.numCreated, rfl, ?_⟩
      rw [← h.count, List.getElem?_concat_length]
    · obtain ⟨k, hk, hmade⟩ := h.own b t hold
      obtain ⟨hlt, -⟩ := List.getElem?_eq_some_iff.mp hmade
      exact ⟨k, hk, (List.getElem?_append_left hlt).trans hmade⟩
  · exact (h.known n hn).trans (Nat.le_succ _)
  · intro now expired rest hpc b hb t ht
    rcases heap_store_cases ht with ⟨rfl, -⟩ | ⟨-, hold⟩
    · exact absurd (((h.suffix now expired rest hpc).map addr).mem hb) (hbatch now expired rest hpc)
    · exact h.due now expired rest hpc b hb t hold
  · rcases heap_store_cases ht with ⟨-, hnew⟩ | ⟨-, hold⟩
    · obtain rfl := Option.some.inj hnew
      exact absurd (h.known _ hm.mem) (Nat.not_succ_le_self _)
    · exact h.ahead b t hold hahead m hm
  · intro now expired rest hpc b hb hout t ht m hm
    rcases heap_store_cases ht with ⟨rfl, -⟩ | ⟨-, hold⟩
    · exact absurd hb (hbatch now expired rest hpc)
    · exact h.turned now expired rest hpc b hb hout t hold m hm
  · refine h.spaced.make (fun n hn => ?_) _
    rw [h.count]
    exact h.known n hn

/-- A batch begins: what it takes out is due, and all of it is to run. -/
theorem handleReadBegin_runInv (h : RunInv made q) (hidle : q.pc = .idle) (now : Int) :
    Lands (q.handleReadBegin now) (RunInv made) := by
  refine ((handleReadBegin_inv h.inv hidle now).and (handleReadBegin_post q now)).mono fun q' hq' => ?_
  obtain ⟨hinv, hstill, hheap, -, -⟩ := hq'
  have hpc : q'.pc = .calling now (dueEntries q now) (dueEntries q now) := hstill.pc
  have hran : q'.ran = q.ran := hstill.ran
  have hread : ∀ a t, q'.heap a = some t → q.heap a = some t := by
    intro a t ht
    rwa [hheap] at ht
  have hall : ∀ now' expired rest, q'.pc = .calling now' expired rest →
      now' = now ∧ expired = dueEntries q now ∧ rest = dueEntries q now := by
    intro now' expired rest hcalling
    rw [hpc] at hcalling
    obtain ⟨h₁, h₂, h₃⟩ := Pc.calling.inj hcalling
    exact ⟨h₁.symm, h₂.symm, h₃.symm⟩
  refine ⟨hinv, h.count.trans hstill.numCreated.symm, fun a t ht => h.own a t (hread a t ht), ?_, ?_,
    ?_, fun a t ht _ m hm => ?_, ?_, ?_⟩
  · rw [hran, hstill.numCreated]
    exact h.known
  · intro now' expired rest hcalling
    obtain ⟨-, rfl, rfl⟩ := hall now' expired rest hcalling
    exact List.suffix_rfl
  · intro now' expired rest hcalling a ha t ht
    obtain ⟨rfl, -, rfl⟩ := hall now' expired rest hcalling
    obtain ⟨e, he, rfl⟩ := List.mem_map.mp ha
    have howned := h.inv.owned_idle hidle
    obtain ⟨u, hu, hkey⟩ := howned.inTimers_of_mem (OrdSet.mem_below.mp he).1
    obtain rfl : u = t := Option.some.inj (hu.1.symm.trans (hread _ t ht))
    exact (mem_dueEntries howned hu).mp (hkey ▸ he)
  · rw [hran] at hm
    refine h.ahead a t (hread a t ht) (fun now' expired rest hcalling => ?_) m hm
    rw [hidle] at hcalling
    exact absurd hcalling (by simp)
  · intro now' expired rest hcalling a ha hout
    obtain ⟨-, rfl, rfl⟩ := hall now' expired rest hcalling
    exact absurd ha hout
  · rw [hran]
    exact h.spaced

/-- The next callback: its timer was ahead, and due. -/
theorem runNext_runInv (h : RunInv made q) : Lands q.runNext (RunInv made) := by
  have hinv' := runNext_inv h.inv
  unfold runNext at hinv' ⊢
  split
  · rename_i now expired e rest hpc
    have hsuffix := h.suffix now expired (e :: rest) hpc
    have hbatch : batch q = expired.map addr := by rw [batch, hpc]
    have hnodup : (addr e :: rest.map addr).Nodup := by
      have hexpired := (List.nodup_append.mp (List.nodup_append.mp h.inv.owned.nodup).1).1
      rw [hbatch] at hexpired
      exact (hsuffix.map addr).sublist.nodup hexpired
    have hmem : addr e ∈ expired.map addr := (hsuffix.map addr).mem List.mem_cons_self
    obtain ⟨t, ht⟩ := h.inv.batch_alloc (a := addr e) (by rw [hbatch]; exact hmem)
    rw [hpc] at hinv'
    dsimp only at hinv'
    rw [deref_of ht, ok_bind] at hinv' ⊢
    have hinv := hinv'.post _ rfl
    obtain ⟨k, hk, hmade⟩ := h.own (addr e) t ht
    have hahead : Ahead q (addr e) := by
      intro now' expired' rest' hcalling _
      rw [hpc] at hcalling
      obtain ⟨-, -, rfl⟩ := Pc.calling.inj hcalling
      exact List.mem_cons_self
    have hother : ∀ a u, q.heap a = some u → a ≠ addr e → t.sequence ≠ u.sequence :=
      fun a u hu hne heq => hne (h.inv.owned.seqs.inj _ _ u t hu ht heq.symm)
    refine .ok ⟨hinv, h.count, h.own, fun n hn => ?_, ?_, ?_, fun a u hu hahead' m hm => ?_, ?_, ?_⟩
    · rw [List.map_append, List.mem_append, List.map_singleton, List.mem_singleton] at hn
      rcases hn with hn | rfl
      · exact h.known n hn
      · exact h.inv.owned.seqs.le_numCreated ht
    · intro now' expired' rest' hcalling
      obtain ⟨-, rfl, rfl⟩ := Pc.calling.inj hcalling
      exact (List.suffix_cons e rest).trans hsuffix
    · intro now' expired' rest' hcalling a ha u hu
      obtain ⟨rfl, rfl, rfl⟩ := Pc.calling.inj hcalling
      exact h.due now expired (e :: rest) hpc a (List.mem_cons_of_mem _ ha) u hu
    · have hne : a ≠ addr e := by
        rintro rfl
        exact (List.nodup_cons.mp hnodup).1 (hahead' now expired rest rfl hmem)
      rw [lastRun_concat_ne (hother a u hu hne)] at hm
      refine h.ahead a u hu (fun now' expired' rest' hcalling ha => ?_) m hm
      rw [hpc] at hcalling
      obtain ⟨rfl, rfl, rfl⟩ := Pc.calling.inj hcalling
      exact List.mem_cons_of_mem _ (hahead' now expired rest rfl ha)
    · intro now' expired' rest' hcalling a ha hout u hu m hm
      obtain ⟨rfl, rfl, rfl⟩ := Pc.calling.inj hcalling
      by_cases hne : a = addr e
      · subst hne
        obtain rfl : t = u := Option.some.inj (ht.symm.trans hu)
        exact lastRun_concat_self.mp hm
      · rw [lastRun_concat_ne (hother a u hu hne)] at hm
        refine h.turned now expired (e :: rest) hpc a ha (fun hin => ?_) u hu m hm
        exact (List.mem_cons.mp hin).elim hne hout
    · show Spaced made (q.ran ++ [(t.sequence, now)])
      rw [hk]
      refine h.spaced.run hmade fun m hm => ?_
      rw [← hk] at hm
      obtain ⟨hrepeats, hle⟩ := h.ahead (addr e) t ht hahead m hm
      exact ⟨hrepeats, hle.trans (h.due now expired (e :: rest) hpc _ List.mem_cons_self t ht)⟩
  · exact .ok h

/-- The batch ends: a timer that is put back ran at `now`, and expires one interval
later. -/
theorem handleReadEnd_runInv (h : RunInv made q) (hen : enabled q .reset = true) :
    Lands q.handleReadEnd (RunInv made) := by
  obtain ⟨now, expired, hpc⟩ := calling_of_reset hen
  refine ((handleReadEnd_inv h.inv).and (handleReadEnd_post hpc)).mono fun q' hq' => ?_
  obtain ⟨hinv, hstill, hheap⟩ := hq'
  have hidle : ∀ now' expired' rest', q'.pc ≠ .calling now' expired' rest' := by
    intro now' expired' rest' hcalling
    rw [hstill.pc] at hcalling
    exact absurd hcalling (by simp)
  refine ⟨hinv, h.count.trans hstill.numCreated.symm, fun a u hu => ?_, ?_, ?_, ?_,
    fun a u hu _ m hm => ?_, ?_, ?_⟩
  · obtain ⟨t, ht, hcase⟩ := hheap a u hu
    obtain ⟨k, hk, hmade⟩ := h.own a t ht
    rcases hcase with ⟨-, rfl⟩ | ⟨-, -, -, rfl⟩
    · exact ⟨k, hk, hmade⟩
    · exact ⟨k, hk, hmade⟩
  · rw [hstill.ran, hstill.numCreated]
    exact h.known
  · exact fun _ _ _ hcalling => absurd hcalling (hidle _ _ _)
  · exact fun _ _ _ hcalling => absurd hcalling (hidle _ _ _)
  · rw [hstill.ran] at hm
    obtain ⟨t, ht, ⟨hout, rfl⟩ | ⟨hbatch, hrepeats, -, rfl⟩⟩ := hheap a u hu
    · refine h.ahead a u ht (fun now' expired' rest' hcalling ha => ?_) m hm
      rw [hpc] at hcalling
      obtain ⟨-, rfl, -⟩ := Pc.calling.inj hcalling
      exact absurd ha hout
    · obtain rfl := h.turned now expired [] hpc a hbatch (by simp) t ht m hm
      refine ⟨hrepeats, ?_⟩
      rw [Timer.restart, if_pos hrepeats]
  · exact fun _ _ _ hcalling => absurd hcalling (hidle _ _ _)
  · rw [hstill.ran]
    exact h.spaced

theorem exec_runInv (h : RunInv made q) (a : Act) (hen : enabled q a = true) :
    Lands (exec q a) (RunInv (made ++ a.made.toList)) := by
  have hnone : ∀ b : Act, b.made = none → made ++ b.made.toList = made := by
    intro b hb
    rw [hb, Option.toList_none, List.append_nil]
  cases a with
  | newTimer timer when interval repeats =>
      obtain ⟨q', hexec, hinv⟩ := exec_inv h.inv _ hen
      simp only [enabled, Bool.and_eq_true, Option.isNone_iff_eq_none] at hen
      obtain rfl := Except.ok.inj hexec
      exact .ok (newTimer_runInv h hen.2 hinv)
  | addTimerInLoop timer =>
      have hexec := (exec_inv h.inv _ hen).and (addTimerInLoop_post q timer)
      refine hexec.mono fun q' hq' => ?_
      obtain ⟨hinv, t, -, hstill, hheap, -⟩ := hq'
      rw [hnone _ rfl]
      refine h.frame hinv hstill.numCreated hstill.pc hstill.ran fun a u hu => ?_
      rwa [hheap] at hu
  | cancelInLoop timer sequence =>
      have hexec := (exec_inv h.inv _ hen).and (cancelInLoop_post q timer sequence)
      refine hexec.mono fun q' hq' => ?_
      rw [hnone _ rfl]
      obtain ⟨hinv, ⟨-, t, -, hmoved⟩ | ⟨-, rfl⟩⟩ := hq'
      · refine h.frame hinv hmoved.still.numCreated hmoved.still.pc hmoved.still.ran fun a u hu => ?_
        rw [hmoved.heap] at hu
        rcases heap_store_cases (q := q) hu with ⟨-, hnone⟩ | ⟨-, hold⟩
        · exact absurd hnone (by simp)
        · exact hold
      · exact h.frame hinv rfl rfl rfl fun _ _ hu => hu
  | handleRead now =>
      rw [hnone _ rfl]
      exact handleReadBegin_runInv h (idle_of_matches hen) now
  | runNext =>
      rw [hnone _ rfl]
      exact runNext_runInv h
  | reset =>
      rw [hnone _ rfl]
      exact handleReadEnd_runInv h hen

theorem new_runInv : RunInv [] TimerQueue.new := by
  have hidle : ∀ now expired rest, TimerQueue.new.pc ≠ .calling now expired rest := by
    intro now expired rest hpc
    exact absurd hpc (by simp [TimerQueue.new])
  have hnone : ∀ a t, TimerQueue.new.heap a ≠ some t := by
    intro a t ht
    exact absurd ht (by simp [TimerQueue.new])
  refine ⟨new_inv, rfl, fun a t ht => absurd ht (hnone a t), fun n hn => ?_, ?_, ?_,
    fun a t ht => absurd ht (hnone a t), ?_, spaced_nil []⟩
  · exact absurd hn (by simp [TimerQueue.new])
  · exact fun _ _ _ hpc => absurd hpc (hidle _ _ _)
  · exact fun _ _ _ hpc => absurd hpc (hidle _ _ _)
  · exact fun _ _ _ hpc => absurd hpc (hidle _ _ _)

end Runs

theorem foldl_made (acts : List Act) (made : List (Int × Bool)) :
    acts.foldl (fun made a => made ++ a.made.toList) made = made ++ acts.filterMap Act.made := by
  induction acts generalizing made with
  | nil => simp
  | cons a acts ih =>
      rw [List.foldl_cons, ih, List.append_assoc]
      cases hmade : a.made with
      | none => rw [List.filterMap_cons_none hmade]; rfl
      | some x => rw [List.filterMap_cons_some hmade]; rfl

/-- **Expiry is exact, in order and never early.** From any state of the queue, a call
of `handleRead(now)` runs the callbacks of the timers that are due on entry, each
once and in the order of expiration, whatever happens inside it; after it `M_timers`
holds the timers that were not due, the repeating ones of the batch at `now` plus
their interval, and those added meanwhile, less the cancelled ones. So along every
run a timer that does not repeat runs at most once, and two consecutive callbacks of
a repeating one are its interval apart. -/
theorem timers_expire_exactly :
    (∀ (q : TimerQueue) (now : Int) (body : List Act), QueueInv q →
      (∀ act ∈ body, act.inBatch = true) →
      timerSys.Legal q (.handleRead now :: (body ++ [.reset])) →
      Lands (timerSys.runFrom q (.handleRead now :: (body ++ [.reset]))) (Handled q now body)) ∧
    (∀ acts : List Act, timerSys.Legal TimerQueue.new acts →
      Lands (timerSys.runFrom TimerQueue.new acts) fun q =>
        Spaced (acts.filterMap Act.made) q.ran) := by
  constructor
  · intro q now body h hin hlegal
    exact handleRead_handled h hin hlegal
  · intro acts hlegal
    have hrun : Lands (timerSys.runFrom TimerQueue.new acts) fun q =>
        RunInv (acts.foldl (fun made a => made ++ a.made.toList) []) q :=
      Sys.simulation_lands (S := timerSys) (R := fun q made => RunInv made q)
        (fun q made a h hen => exec_runInv h a hen) new_runInv hlegal
    rw [foldl_made, List.nil_append] at hrun
    exact hrun.mono fun q hq => hq.spaced

/-- Two timers are due at 100 and one is not. The first callback adds a timer that is
due already, the second cancels the one that is not due; at 150 the repeating timer
and the added one run. -/
theorem timers_expire_exactly_two :
    Lands (timerSys.runFrom TimerQueue.new
      [.newTimer 16 100 50 true, .addTimerInLoop 16, .newTimer 32 90 0 false,
        .addTimerInLoop 32, .newTimer 64 200 0 false, .addTimerInLoop 64]) fun q =>
      Lands (timerSys.runFrom q (Act.handleRead 100 :: ([Act.runNext, .newTimer 48 95 0 false,
        .addTimerInLoop 48, .runNext, .cancelInLoop 64 3] ++ [Act.reset]))) fun q' =>
        Handled q 100 [.runNext, .newTimer 48 95 0 false, .addTimerInLoop 48, .runNext,
          .cancelInLoop 64 3] q' ∧
        Lands (timerSys.runFrom q' [.handleRead 150, .runNext, .runNext, .reset]) fun q'' =>
          Spaced [(50, true), (0, false), (0, false), (0, false)] q''.ran := by
  have hlegal : timerSys.Legal TimerQueue.new
      ([Act.newTimer 16 100 50 true, .addTimerInLoop 16, .newTimer 32 90 0 false,
        .addTimerInLoop 32, .newTimer 64 200 0 false, .addTimerInLoop 64] ++
      ((Act.handleRead 100 :: ([Act.runNext, .newTimer 48 95 0 false, .addTimerInLoop 48, .runNext,
        .cancelInLoop 64 3] ++ [Act.reset])) ++ [Act.handleRead 150, .runNext, .runNext, .reset])) := by
    decide +kernel
  obtain ⟨hsetup, hrest⟩ := Sys.meets_append.mp hlegal
  obtain ⟨q, hq, hinv⟩ :=
    Sys.invariant_lands (S := timerSys) (fun q a h hen => exec_inv h a hen) new_inv hsetup
  obtain ⟨q', hq', hhandled⟩ := timers_expire_exactly.1 q 100
    [.runNext, .newTimer 48 95 0 false, .addTimerInLoop 48, .runNext, .cancelInLoop 64 3] hinv
    (by decide) (Sys.meets_append.mp (hrest q hq)).1
  obtain ⟨q'', hq'', hspaced⟩ := timers_expire_exactly.2 _ hlegal
  rw [Sys.runFrom_append, hq, ok_bind, Sys.runFrom_append, hq', ok_bind] at hq''
  exact ⟨q, hq, q', hq', hhandled, q'', hq'', hspaced⟩

end Muduo.Timers
