import Muduo.Timers.Ownership

/-!
# The timer queue along every run

One lemma for each operation says which addresses it moves; `QueueInv` adds
what is loose between operations: the timers not yet inserted and the batch of
the running `handleRead`. Every operation lands, so no assertion fails and no
freed timer is read or deleted, and every timer ever created is in exactly one
place.
-/

namespace Muduo.Timers

open Lib TimerQueue

variable {loose : List Addr} {q : TimerQueue}

theorem deref_of {a : Addr} {t : Timer} (h : q.heap a = some t) : q.deref a = .ok t := by
  rw [deref, h]

theorem delete_of {a : Addr} {t : Timer} (h : q.heap a = some t) :
    q.delete a = .ok { q.store a none with deleted := t.sequence :: q.deleted } := by
  rw [delete, h]

/-- What `insert`, `delete` and the loops over them leave alone. -/
structure Quiet (q q' : TimerQueue) : Prop where
  created : q'.created = q.created
  pc : q'.pc = q.pc

namespace Quiet

theorem refl (q : TimerQueue) : Quiet q q := ⟨rfl, rfl⟩

theorem trans {q₁ q₂ q₃ : TimerQueue} (h : Quiet q₁ q₂) (h' : Quiet q₂ q₃) : Quiet q₁ q₃ :=
  ⟨h'.created.trans h.created, h'.pc.trans h.pc⟩

end Quiet

/-! ## The operations -/

/-- `insert` takes a loose timer into both sets. -/
theorem insert_spec {a : Addr} (h : Owned (a :: loose) q) :
    Lands (q.insert a) fun r => Owned loose r.1 ∧ Quiet q r.1 ∧ r.1.heap = q.heap := by
  obtain ⟨t, ht⟩ := h.loose_alloc List.mem_cons_self
  obtain ⟨hnew, hnewA, h'⟩ := h.attach ht
  unfold TimerQueue.insert checkSizes
  refine .check_bind h.sizes ?_
  rw [deref_of ht, ok_bind]
  refine .check_bind hnew (.check_bind hnewA ?_)
  exact .check_bind h'.sizes (.ok ⟨h', ⟨rfl, rfl⟩, rfl⟩)

/-- `delete` of a loose timer. -/
theorem delete_spec {a : Addr} (h : Owned (a :: loose) q) :
    Lands (q.delete a) fun q' => Owned loose q' ∧ Quiet q q' := by
  obtain ⟨t, ht⟩ := h.loose_alloc List.mem_cons_self
  rw [delete_of ht]
  exact .ok ⟨h.free ht, rfl, rfl⟩

/-- `cancelInLoop`, with any identifier whatever. -/
theorem cancelInLoop_spec (h : Owned loose q) (a : Addr) (n : Nat) :
    Lands (q.cancelInLoop a n) fun q' => Owned loose q' ∧ Quiet q q' := by
  unfold cancelInLoop checkSizes
  refine .check_bind h.sizes ?_
  split
  · rename_i hmem
    obtain ⟨t, ht, rfl, he⟩ := (h.active a n).mp hmem
    -- out of both sets first, and only then deleted
    obtain ⟨-, hdet⟩ := h.detach ht he
    have hfree := hdet.free ht
    rw [deref_of ht, ok_bind]
    refine .check_bind he ?_
    dsimp only
    rw [delete_of (q := q.setTimers (q.timers.erase (entry t.expiration a))) ht, ok_bind]
    exact .check_bind hfree.sizes (.ok ⟨hfree, rfl, rfl⟩)
  · split
    · have h' : Owned loose { q with
          cancelingTimers := q.cancelingTimers.insert (activeTimer a n) } :=
        h.frame rfl rfl rfl rfl rfl
      exact .check_bind h'.sizes (.ok ⟨h', rfl, rfl⟩)
    · exact .check_bind h.sizes (.ok ⟨h, .refl q⟩)

/-- `addTimerInLoop` of a loose timer. -/
theorem addTimerInLoop_spec {a : Addr} (h : Owned (a :: loose) q) :
    Lands (q.addTimerInLoop a) fun q' =>
      Owned loose q' ∧ q'.created = q.created.erase a ∧ q'.pc = q.pc := by
  obtain ⟨t, ht⟩ := h.loose_alloc List.mem_cons_self
  have h₀ : Owned (a :: loose) { q with created := q.created.erase a } :=
    h.frame rfl rfl rfl rfl rfl
  unfold addTimerInLoop
  refine (insert_spec h₀).bind fun r hr => ?_
  obtain ⟨q₁, changed⟩ := r
  obtain ⟨h₁, hquiet, hheap⟩ := hr
  have ht₁ : q₁.heap a = some t := by rw [show q₁.heap = q.heap from hheap]; exact ht
  dsimp only
  split
  · rw [deref_of ht₁, ok_bind]
    exact .ok ⟨h₁.frame rfl rfl rfl rfl rfl, hquiet.created, hquiet.pc⟩
  · exact .ok ⟨h₁, hquiet.created, hquiet.pc⟩

/-- The loop of `getExpired`: with the entries to come still counted as queued,
the queue is owned, and each turn takes one of them out of both sets. -/
theorem eraseActive_spec (expired : List Entry) {loose : List Addr} {q : TimerQueue}
    {ts : OrdSet Entry} (hts : ts.elems = expired ++ q.timers.elems)
    (h : Owned loose (q.setTimers ts)) :
    Lands (q.eraseActive expired) fun q' =>
      Owned (expired.map addr ++ loose) q' ∧ Quiet q q' := by
  induction expired generalizing q ts loose with
  | nil =>
      have heq : q.timers = ts := OrdSet.ext_elems hts.symm
      exact .ok ⟨h.frame rfl rfl heq rfl rfl, .refl q⟩
  | cons e expired ih =>
      have he : e ∈ ts := by
        rw [OrdSet.mem_def, hts]
        exact List.mem_cons_self
      obtain ⟨t, ht, hkey⟩ := h.keyed e he
      have he' : entry t.expiration (addr e) ∈ ts := hkey ▸ he
      obtain ⟨hact, hdet⟩ := h.detach ht he'
      rw [eraseActive, deref_of (q := q) ht, ok_bind]
      refine .check_bind hact ?_
      have hrest : (ts.erase (entry t.expiration (addr e))).elems = expired ++ q.timers.elems := by
        rw [← hkey]
        exact OrdSet.elems_erase_head hts
      have hrun := ih (q := q.setActive
        (q.activeTimers.erase (activeTimer (addr e) t.sequence))) hrest hdet
      refine hrun.mono fun q' hq' => ⟨hq'.1.perm List.perm_middle, ?_⟩
      exact ⟨hq'.2.created, hq'.2.pc⟩

/-- The sentry's address is above all others, so what `lower_bound` leaves in
the set expires after `now`. -/
theorem noneExpired_since (h : Owned loose q) (now : Int) :
    noneExpiredFrom (q.timers.since (entry now UINTPTR_MAX)) now := by
  unfold noneExpiredFrom
  split
  · trivial
  · rename_i e hfirst
    have hle : entry now UINTPTR_MAX ≤ e := OrdSet.le_of_first?_since hfirst
    have hmem : e ∈ q.timers := by
      rw [OrdSet.mem_def, ← OrdSet.below_append_since q.timers (entry now UINTPTR_MAX)]
      exact List.mem_append_right _ (OrdSet.first?_eq_some hfirst)
    obtain ⟨t, ht, hkey⟩ := h.keyed e hmem
    have hlt := h.range (addr e) t ht
    rw [hkey] at hle ⊢
    rcases Prod.Lex.toLex_le_toLex.mp hle with hlt' | ⟨-, hmax⟩
    · exact hlt'
    · -- no timer has the sentry's address
      exact absurd hmax (Nat.not_le_of_lt hlt)

theorem getExpired_spec (h : Owned loose q) (now : Int) :
    Lands (q.getExpired now) fun r =>
      Owned (r.2.map addr ++ loose) r.1 ∧ Quiet q r.1 := by
  unfold getExpired checkSizes
  refine .check_bind h.sizes (.check_bind (noneExpired_since h now) ?_)
  have hsplit := (OrdSet.below_append_since q.timers (entry now UINTPTR_MAX)).symm
  have hback : Owned loose ((q.setTimers (q.timers.since (entry now UINTPTR_MAX))).setTimers
      q.timers) := h.frame rfl rfl rfl rfl rfl
  refine (eraseActive_spec _ hsplit hback).bind fun q' hq' => ?_
  exact .check_bind hq'.1.sizes (.ok ⟨hq'.1, hq'.2.created, hq'.2.pc⟩)

/-- One turn of the loop of `reset`: the timer goes back into the sets with its
new expiration, or it is deleted. -/
theorem resetOne_spec {a : Addr} (h : Owned (a :: loose) q) (now : Int) :
    Lands (q.resetOne now a) fun q' => Owned loose q' ∧ Quiet q q' := by
  obtain ⟨t, ht⟩ := h.loose_alloc List.mem_cons_self
  unfold resetOne
  rw [deref_of ht, ok_bind]
  split
  · have h' : Owned (a :: loose) (q.store a (some (t.restart now))) := h.rewrite ht rfl
    refine (insert_spec h').bind fun r hr => .ok ?_
    exact ⟨hr.1, hr.2.1.created, hr.2.1.pc⟩
  · exact delete_spec h

theorem resetAll_spec (expired : List Entry) (now : Int) {q : TimerQueue}
    (h : Owned (expired.map addr ++ loose) q) :
    Lands (q.resetAll now expired) fun q' => Owned loose q' ∧ Quiet q q' := by
  induction expired generalizing q with
  | nil => exact .ok ⟨h, .refl q⟩
  | cons e expired ih =>
      refine (resetOne_spec h now).bind fun q₁ h₁ => ?_
      exact (ih h₁.1).mono fun q' h' => ⟨h'.1, h₁.2.trans h'.2⟩

theorem reset_spec (expired : List Entry) (now : Int) (h : Owned (expired.map addr ++ loose) q) :
    Lands (q.reset expired now) fun q' => Owned loose q' ∧ Quiet q q' := by
  unfold reset
  refine (resetAll_spec expired now h).bind fun q₁ h₁ => ?_
  -- the first entry is read through its pointer, which is allocated
  obtain ⟨next, hnext⟩ : ∃ next, q₁.nextExpire = .ok next := by
    unfold nextExpire
    split
    · exact ⟨0, rfl⟩
    · rename_i e hfirst
      obtain ⟨t, ht, -⟩ := h₁.1.keyed e (OrdSet.first?_eq_some hfirst)
      rw [deref_of ht]
      exact ⟨t.expiration, rfl⟩
  rw [hnext, ok_bind]
  split
  · exact .ok ⟨h₁.1.frame rfl rfl rfl rfl rfl, h₁.2.created, h₁.2.pc⟩
  · exact .ok h₁

/-! ## Runs -/

/-- The addresses that the running `handleRead` has taken out. -/
def batch (q : TimerQueue) : List Addr :=
  match q.pc with
  | .calling _ expired _ => expired.map addr
  | .idle => []

/-- The invariant between operations. -/
structure QueueInv (q : TimerQueue) : Prop where
  owned : Owned (batch q ++ q.created) q
  /-- The callbacks still to run belong to the batch. -/
  rest : ∀ now expired rest, q.pc = .calling now expired rest → ∀ e ∈ rest, e ∈ expired

theorem QueueInv.quiet {q' : TimerQueue} (h : QueueInv q)
    (h' : Owned (batch q ++ q.created) q' ∧ Quiet q q') : QueueInv q' := by
  obtain ⟨howned, hcreated, hpc⟩ := h'
  refine ⟨?_, ?_⟩
  · unfold batch at howned ⊢
    rw [hpc, hcreated]
    exact howned
  · rw [hpc]
    exact h.rest

/-- Outside a batch, what is loose has been created and not been added. -/
theorem QueueInv.owned_idle (h : QueueInv q) (hidle : q.pc = .idle) : Owned q.created q := by
  have howned := h.owned
  rwa [batch, hidle, List.nil_append] at howned

/-- `reset` is called when the batch is over, but its timers are still loose. -/
theorem QueueInv.owned_reset (h : QueueInv q) {now : Int} {expired rest : List Entry}
    (hpc : q.pc = .calling now expired rest) :
    Owned (expired.map addr ++ q.created) { q with callingExpiredTimers := false, pc := .idle } := by
  have howned := h.owned
  rw [batch, hpc] at howned
  exact howned.frame rfl rfl rfl rfl rfl

/-- The expired timers leave the sets and become the batch. -/
theorem handleReadBegin_inv (h : QueueInv q) (hidle : q.pc = .idle) (now : Int) :
    Lands (q.handleReadBegin now) QueueInv := by
  have h₀ : Owned q.created { q with armed := none } :=
    (h.owned_idle hidle).frame rfl rfl rfl rfl rfl
  unfold handleReadBegin
  refine (getExpired_spec h₀ now).bind fun r hr => ?_
  obtain ⟨q₁, expired⟩ := r
  obtain ⟨h₁, hcreated, -⟩ := hr
  refine .ok ⟨?_, ?_⟩
  · show Owned (expired.map addr ++ q₁.created) _
    rw [show q₁.created = q.created from hcreated]
    exact h₁.frame rfl rfl rfl rfl rfl
  · intro now' expired' rest heq e he
    injection heq with _ h₂ h₃
    rw [← h₂]
    exact h₃ ▸ he

/-- The timer whose callback runs next is in the batch, hence not freed. -/
theorem runNext_inv (h : QueueInv q) : Lands q.runNext QueueInv := by
  unfold runNext
  split
  · rename_i now expired e rest hpc
    have hmem : e ∈ expired := h.rest now expired (e :: rest) hpc e List.mem_cons_self
    have hbatch : batch q = expired.map addr := by rw [batch, hpc]
    obtain ⟨t, ht⟩ := h.owned.loose_alloc (a := addr e)
      (List.mem_append_left _ (by rw [hbatch]; exact List.mem_map_of_mem hmem))
    rw [deref_of ht, ok_bind]
    refine .ok ⟨?_, ?_⟩
    · have howned := h.owned
      rw [hbatch] at howned
      exact howned.frame rfl rfl rfl rfl rfl
    · intro now' expired' rest' heq e' he'
      injection heq with _ h₂ h₃
      rw [← h₂]
      exact h.rest now expired (e :: rest) hpc e' (List.mem_cons_of_mem e (h₃ ▸ he'))
  · exact .ok h

/-- The batch goes back into the sets, or is deleted. -/
theorem handleReadEnd_inv (h : QueueInv q) : Lands q.handleReadEnd QueueInv := by
  unfold handleReadEnd
  split
  · rename_i now expired rest hpc
    refine (reset_spec expired now (h.owned_reset hpc)).mono fun q' hq' => ?_
    obtain ⟨h', hcreated, hidle⟩ := hq'
    refine ⟨?_, ?_⟩
    · rw [batch, hidle, hcreated]
      exact h'
    · intro now' expired' rest' heq
      rw [hidle] at heq
      exact absurd heq (by simp)
  · exact .ok h

/-- `handleRead` is entered from outside. -/
theorem idle_of_matches {q : TimerQueue} (h : (q.pc matches .idle) = true) : q.pc = .idle := by
  cases hpc : q.pc with
  | idle => rfl
  | calling now expired rest =>
      rw [hpc] at h
      exact absurd h (by simp)

/-- The batch ends when no callback of it is left to run. -/
theorem calling_of_reset (h : enabled q .reset = true) :
    ∃ now expired, q.pc = .calling now expired [] := by
  cases hpc : q.pc with
  | idle => exact absurd h (by simp [enabled, hpc])
  | calling now expired rest =>
      cases rest with
      | nil => exact ⟨now, expired, rfl⟩
      | cons e rest => exact absurd h (by simp [enabled, hpc])

theorem exec_inv (h : QueueInv q) (a : Act) (hen : enabled q a = true) :
    Lands (exec q a) QueueInv := by
  cases a with
  | newTimer timer when interval repeats =>
      simp only [enabled, Bool.and_eq_true, decide_eq_true_eq, Option.isNone_iff_eq_none] at hen
      have hnew := h.owned.create hen.2 hen.1.2 when interval repeats
      refine .ok ⟨hnew.perm ?_, h.rest⟩
      exact List.perm_middle.symm
  | addTimerInLoop timer =>
      have hmem : timer ∈ q.created := by simpa [enabled] using hen
      have hperm : (batch q ++ q.created).Perm (timer :: (batch q ++ q.created.erase timer)) :=
        ((List.perm_cons_erase hmem).append_left _).trans List.perm_middle
      refine (addTimerInLoop_spec (h.owned.perm hperm)).mono fun q' hq' => ?_
      obtain ⟨howned, hcreated, hpc⟩ := hq'
      refine ⟨?_, ?_⟩
      · unfold batch at howned ⊢
        rw [hpc, hcreated]
        exact howned
      · rw [hpc]
        exact h.rest
  | cancelInLoop timer sequence =>
      exact (cancelInLoop_spec h.owned timer sequence).mono fun q' hq' => h.quiet hq'
  | handleRead now => exact handleReadBegin_inv h (idle_of_matches hen) now
  | runNext => exact runNext_inv h
  | reset => exact handleReadEnd_inv h

theorem new_inv : QueueInv TimerQueue.new := by
  refine ⟨⟨List.nodup_nil, ?_, ?_, ?_, rfl, ?_, ?_, ?_, ?_, List.nodup_nil⟩, ?_⟩
  · intro a
    simp [owners, batch, TimerQueue.new, OrdSet.empty]
  · intro e he
    exact absurd he (OrdSet.notMem_empty e)
  · intro a n
    refine iff_of_false (OrdSet.notMem_empty _) ?_
    rintro ⟨t, ht, -⟩
    exact absurd ht (by simp [TimerQueue.new])
  · intro a t ht
    exact absurd ht (by simp [TimerQueue.new])
  · intro n
    simp only [TimerQueue.new]
    constructor
    · omega
    · rintro (⟨a, t, ht, -⟩ | hn)
      · exact absurd ht (by simp)
      · exact absurd hn (by simp)
  · intro a b t u ht
    exact absurd ht (by simp [TimerQueue.new])
  · intro a t ht
    exact absurd ht (by simp [TimerQueue.new])
  · intro now expired rest hpc
    exact absurd hpc (by simp [TimerQueue.new])

/-- Where a timer can be. -/
inductive Place
  | notInserted | queued | expired | deleted
  deriving DecidableEq, Repr

/-- The timer with sequence number `n` is in this place. -/
def At (q : TimerQueue) (n : Nat) : Place → Prop
  | .notInserted => ∃ a ∈ q.created, ∃ t, q.heap a = some t ∧ t.sequence = n
  | .queued => ∃ a t, q.heap a = some t ∧ t.sequence = n ∧
      entry t.expiration a ∈ q.timers ∧ activeTimer a t.sequence ∈ q.activeTimers
  | .expired => ∃ a ∈ batch q, ∃ t, q.heap a = some t ∧ t.sequence = n
  | .deleted => n ∈ q.deleted

/-- An allocated timer is in the place that holds its address. -/
theorem QueueInv.live_place (h : QueueInv q) {a : Addr} {t : Timer} (ht : q.heap a = some t) :
    ∃ p, At q t.sequence p := by
  have hmem := (h.owned.alloc a).mpr ⟨t, ht⟩
  rcases List.mem_append.mp hmem with hmem | hmem
  · rcases List.mem_append.mp hmem with hmem | hmem
    · exact ⟨.expired, a, hmem, t, ht, rfl⟩
    · exact ⟨.notInserted, a, hmem, t, ht, rfl⟩
  · obtain ⟨e, he, rfl⟩ := List.mem_map.mp hmem
    obtain ⟨u, hu, hkey⟩ := h.owned.keyed e he
    rw [ht] at hu
    cases hu
    have he' : entry t.expiration (addr e) ∈ q.timers := hkey ▸ he
    exact ⟨.queued, addr e, t, ht, rfl, he', (h.owned.active _ _).mpr ⟨t, ht, rfl, he'⟩⟩

/-- The place of an allocated timer, read off its address. -/
def home (q : TimerQueue) (a : Addr) : Place :=
  if a ∈ batch q then .expired else if a ∈ q.created then .notInserted else .queued

/-- A timer in some place is deleted, or it is allocated and at home. -/
theorem QueueInv.at_home (h : QueueInv q) {n : Nat} {p : Place} (hp : At q n p) :
    n ∈ q.deleted ∧ p = .deleted ∨
      ∃ a t, q.heap a = some t ∧ t.sequence = n ∧ p = home q a := by
  -- batch, created and queued addresses are pairwise disjoint
  obtain ⟨hloose, -, hqueued⟩ := List.nodup_append.mp h.owned.nodup
  obtain ⟨-, -, hcreated⟩ := List.nodup_append.mp hloose
  cases p with
  | notInserted =>
      obtain ⟨a, ha, t, ht, hn⟩ := hp
      refine .inr ⟨a, t, ht, hn, ?_⟩
      have hnot : a ∉ batch q := fun hb => hcreated a hb a ha rfl
      rw [home, if_neg hnot, if_pos ha]
  | queued =>
      obtain ⟨a, t, ht, hn, he, -⟩ := hp
      have hnot : a ∉ batch q ++ q.created :=
        fun hb => hqueued a hb a (List.mem_map_of_mem (f := addr) he) rfl
      refine .inr ⟨a, t, ht, hn, ?_⟩
      rw [home, if_neg fun hb => hnot (List.mem_append_left _ hb),
        if_neg fun hc => hnot (List.mem_append_right _ hc)]
  | expired =>
      obtain ⟨a, ha, t, ht, hn⟩ := hp
      exact .inr ⟨a, t, ht, hn, by rw [home, if_pos ha]⟩
  | deleted => exact .inl ⟨hp, rfl⟩

theorem QueueInv.place_unique (h : QueueInv q) {n : Nat} {p p' : Place} (hp : At q n p)
    (hp' : At q n p') : p = p' := by
  rcases h.at_home hp with ⟨hn, rfl⟩ | ⟨a, t, ht, rfl, rfl⟩
  · rcases h.at_home hp' with ⟨-, rfl⟩ | ⟨b, u, hu, rfl, -⟩
    · rfl
    · exact absurd hn (h.owned.seqs.live b u hu)
  · rcases h.at_home hp' with ⟨hn, -⟩ | ⟨b, u, hu, hn, rfl⟩
    · exact absurd hn (h.owned.seqs.live a t ht)
    · rw [h.owned.seqs.inj b a u t hu ht hn]

/-- **Representation and ownership.** Along every run no assertion of the timer
queue fails and no freed timer is read or deleted; every timer created is in
exactly one place; the entries of the two sets are those of allocated timers,
and the two sets hold the same timers; and no timer is deleted twice. -/
theorem timers_owned (acts : List Act) (h : timerSys.Legal TimerQueue.new acts) :
    Lands (timerSys.runFrom TimerQueue.new acts) fun q =>
      (∀ n, 1 ≤ n → n ≤ q.numCreated → ∃! p, At q n p) ∧
      (∀ a t, q.heap a = some t →
        (entry t.expiration a ∈ q.timers ↔ activeTimer a t.sequence ∈ q.activeTimers)) ∧
      (∀ x a, entry x a ∈ q.timers → ∃ t, q.heap a = some t ∧ t.expiration = x) ∧
      (∀ a n, activeTimer a n ∈ q.activeTimers → ∃ t, q.heap a = some t ∧ t.sequence = n) ∧
      q.deleted.Nodup := by
  have hrun := Sys.invariant_lands (S := timerSys) (fun q a h hen => exec_inv h a hen) new_inv h
  refine hrun.mono fun q hq => ⟨fun n h1 hn => ?_, fun a t ht => ?_, fun x a he => ?_,
    fun a n hmem => ?_, hq.owned.seqs.once⟩
  · have hplace : ∃ p, At q n p := by
      rcases (hq.owned.seqs.known n).mp ⟨h1, hn⟩ with ⟨a, t, ht, rfl⟩ | hdel
      · exact hq.live_place ht
      · exact ⟨.deleted, hdel⟩
    obtain ⟨p, hp⟩ := hplace
    exact ⟨p, hp, fun p' hp' => hq.place_unique hp' hp⟩
  · rw [hq.owned.active a t.sequence]
    constructor
    · intro he
      exact ⟨t, ht, rfl, he⟩
    · rintro ⟨u, hu, -, he⟩
      rw [ht] at hu
      cases hu
      exact he
  · obtain ⟨t, ht, hkey⟩ := hq.owned.keyed _ he
    exact ⟨t, ht, (entry_inj.mp hkey).1.symm⟩
  · obtain ⟨t, ht, hn, -⟩ := (hq.owned.active a n).mp hmem
    exact ⟨t, ht, hn⟩

/-- Two timers are due; the callback of the first cancels itself and the second
one, and adds a third timer, which gets the address of none of them. After the
batch a fourth takes the address that was freed. -/
theorem timers_owned_cancel_in_batch :
    Lands (timerSys.runFrom TimerQueue.new
      [.newTimer 16 100 50 true, .addTimerInLoop 16, .newTimer 32 90 0 false,
        .addTimerInLoop 32, .handleRead 100, .runNext, .cancelInLoop 16 1, .cancelInLoop 32 2,
        .newTimer 48 95 10 true, .addTimerInLoop 48, .runNext, .reset, .newTimer 32 120 0 false,
        .addTimerInLoop 32, .cancelInLoop 32 2, .cancelInLoop 0 0]) fun q =>
      (∀ n, 1 ≤ n → n ≤ q.numCreated → ∃! p, At q n p) ∧ q.deleted.Nodup :=
  (timers_owned _ (by decide +kernel)).mono fun _ h => ⟨h.1, h.2.2.2.2⟩

end Muduo.Timers
