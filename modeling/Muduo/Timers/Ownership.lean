import Muduo.Timers.Model

/-!
# Who owns a timer

Every allocated `Timer` is in exactly one place: in `M_timers` (and then in
`M_activeTimers` too), or loose, which is to say created and not yet inserted,
or taken out by the `handleRead` that is running. `Owned loose q` states this
for a list of loose addresses, together with what ties the two sets and the
heap; each operation moves addresses between the list and the sets.

A timer is identified by its sequence number, since its address may be used
again. `Sequences` accounts for all numbers given out so far.
-/

namespace Muduo.Timers

open Lib TimerQueue

theorem entry_inj {x y : Int} {a b : Addr} : entry x a = entry y b ↔ x = y ∧ a = b := by
  simp [entry]

theorem activeTimer_inj {a b : Addr} {m n : Nat} :
    activeTimer a m = activeTimer b n ↔ a = b ∧ m = n := by
  simp [activeTimer]

/-- The sequence numbers given out so far: each belongs to one allocated timer,
or was recorded once when its timer was deleted. -/
structure Sequences (q : TimerQueue) : Prop where
  known : ∀ n, (1 ≤ n ∧ n ≤ q.numCreated) ↔
    (∃ a t, q.heap a = some t ∧ t.sequence = n) ∨ n ∈ q.deleted
  inj : ∀ a b t u, q.heap a = some t → q.heap b = some u → t.sequence = u.sequence → a = b
  live : ∀ a t, q.heap a = some t → t.sequence ∉ q.deleted
  once : q.deleted.Nodup

theorem heap_store_self (q : TimerQueue) (a : Addr) (o : Option Timer) :
    (q.store a o).heap a = o := Function.update_self ..

theorem heap_store_of_ne (q : TimerQueue) {a b : Addr} (hb : b ≠ a) (o : Option Timer) :
    (q.store a o).heap b = q.heap b := Function.update_of_ne hb ..

/-- What is read after a write was written, or was there before. -/
theorem heap_store_cases {q : TimerQueue} {a b : Addr} {o : Option Timer} {v : Timer}
    (hv : (q.store a o).heap b = some v) : b = a ∧ o = some v ∨ b ≠ a ∧ q.heap b = some v := by
  by_cases hb : b = a
  · subst hb
    rw [heap_store_self] at hv
    exact .inl ⟨rfl, hv⟩
  · rw [heap_store_of_ne q hb] at hv
    exact .inr ⟨hb, hv⟩

namespace Sequences

variable {q : TimerQueue}

theorem le_numCreated (h : Sequences q) {b : Addr} {v : Timer} (hv : q.heap b = some v) :
    v.sequence ≤ q.numCreated :=
  ((h.known v.sequence).mpr (.inl ⟨b, v, hv, rfl⟩)).2

/-- A timer is replaced by one with the same number. -/
theorem rewrite {a : Addr} {t u : Timer} (h : Sequences q) (ht : q.heap a = some t)
    (hseq : u.sequence = t.sequence) : Sequences (q.store a (some u)) := by
  have hread : ∀ {b w}, (q.store a (some u)).heap b = some w →
      ∃ v, q.heap b = some v ∧ v.sequence = w.sequence := by
    intro b w hw
    rcases heap_store_cases hw with ⟨rfl, hu⟩ | ⟨-, hw'⟩
    · cases hu
      exact ⟨t, ht, hseq.symm⟩
    · exact ⟨w, hw', rfl⟩
  refine ⟨fun n => ?_, fun b c v w hv hw hvw => ?_, fun b v hv => ?_, h.once⟩
  · rw [show (q.store a (some u)).numCreated = q.numCreated from rfl, h.known n]
    refine or_congr_left ⟨?_, ?_⟩
    · rintro ⟨b, v, hv, hn⟩
      by_cases hb : b = a
      · subst hb
        rw [ht] at hv
        cases hv
        exact ⟨b, u, heap_store_self .., hseq.trans hn⟩
      · exact ⟨b, v, (heap_store_of_ne q hb _).trans hv, hn⟩
    · rintro ⟨b, w, hw, hn⟩
      obtain ⟨v, hv, heq⟩ := hread hw
      exact ⟨b, v, hv, heq.trans hn⟩
  · obtain ⟨v', hv', hv''⟩ := hread hv
    obtain ⟨w', hw', hw''⟩ := hread hw
    exact h.inj b c v' w' hv' hw' (by rw [hv'', hw'', hvw])
  · obtain ⟨v', hv', hv''⟩ := hread hv
    rw [← hv'']
    exact h.live b v' hv'

/-- A timer is deleted, and its number recorded. -/
theorem free {a : Addr} {t : Timer} (h : Sequences q) (ht : q.heap a = some t) :
    Sequences { q.store a none with deleted := t.sequence :: q.deleted } := by
  have hold : ∀ {b v}, (q.store a none).heap b = some v → b ≠ a ∧ q.heap b = some v := by
    intro b v hv
    rcases heap_store_cases hv with ⟨-, hnone⟩ | hv'
    · exact absurd hnone (by simp)
    · exact hv'
  refine ⟨fun n => ?_, fun b c v w hv hw => ?_, fun b v hv hmem => ?_, ?_⟩
  · show (1 ≤ n ∧ n ≤ q.numCreated) ↔
      (∃ b v, (q.store a none).heap b = some v ∧ v.sequence = n) ∨ n ∈ t.sequence :: q.deleted
    rw [h.known n, List.mem_cons]
    constructor
    · rintro (⟨b, v, hv, hn⟩ | hn)
      · by_cases hb : b = a
        · subst hb
          rw [ht] at hv
          cases hv
          exact .inr (.inl hn.symm)
        · exact .inl ⟨b, v, (heap_store_of_ne q hb _).trans hv, hn⟩
      · exact .inr (.inr hn)
    · rintro (⟨b, v, hv, hn⟩ | hn | hn)
      · exact .inl ⟨b, v, (hold hv).2, hn⟩
      · exact .inl ⟨a, t, ht, hn.symm⟩
      · exact .inr hn
  · exact h.inj b c v w (hold hv).2 (hold hw).2
  · obtain ⟨hb, hv'⟩ := hold hv
    rcases List.mem_cons.mp hmem with hmem | hmem
    · -- only the deleted timer had this number
      exact hb (h.inj b a v t hv' ht hmem)
    · exact h.live b v hv' hmem
  · exact List.nodup_cons.mpr ⟨h.live a t ht, h.once⟩

/-- A timer is created: it gets the next number. -/
theorem create {a : Addr} (h : Sequences q) (hfree : q.heap a = none) (when interval : Int)
    (repeats : Bool) : Sequences (q.newTimer a when interval repeats) := by
  have hcase : ∀ {b v}, (q.newTimer a when interval repeats).heap b = some v →
      b = a ∧ v.sequence = q.numCreated + 1 ∨ q.heap b = some v := by
    intro b v hv
    rcases heap_store_cases hv with ⟨rfl, hnew⟩ | ⟨-, hv'⟩
    · cases hnew
      exact .inl ⟨rfl, rfl⟩
    · exact .inr hv'
  refine ⟨fun n => ?_, fun b c v w hv hw hvw => ?_, fun b v hv hmem => ?_, h.once⟩
  · show (1 ≤ n ∧ n ≤ q.numCreated + 1) ↔ _ ∨ n ∈ q.deleted
    constructor
    · rintro ⟨h1, hn⟩
      rcases Nat.lt_or_ge q.numCreated n with hlt | hle
      · exact .inl ⟨a, _, heap_store_self .., show q.numCreated + 1 = n by omega⟩
      · rcases (h.known n).mp ⟨h1, hle⟩ with ⟨b, v, hv, hvn⟩ | hd
        · refine .inl ⟨b, v, (heap_store_of_ne q ?_ _).trans hv, hvn⟩
          rintro rfl
          rw [hfree] at hv
          exact absurd hv (by simp)
        · exact .inr hd
    · rintro (⟨b, v, hv, rfl⟩ | hd)
      · rcases hcase hv with ⟨-, hvs⟩ | hv'
        · omega
        · have := (h.known v.sequence).mpr (.inl ⟨b, v, hv', rfl⟩)
          omega
      · have := (h.known n).mpr (.inr hd)
        omega
  · -- the new number is above every other
    rcases hcase hv with ⟨rfl, hvs⟩ | hv'
    · rcases hcase hw with ⟨rfl, -⟩ | hw'
      · rfl
      · have := h.le_numCreated hw'
        omega
    · rcases hcase hw with ⟨rfl, hws⟩ | hw'
      · have := h.le_numCreated hv'
        omega
      · exact h.inj b c v w hv' hw' hvw
  · have hle := ((h.known v.sequence).mpr (.inr hmem)).2
    rcases hcase hv with ⟨-, hvs⟩ | hv'
    · omega
    · exact h.live b v hv' hmem

end Sequences

/-- All addresses that are accounted for. -/
def owners (loose : List Addr) (q : TimerQueue) : List Addr := loose ++ q.timers.elems.map addr

structure Owned (loose : List Addr) (q : TimerQueue) : Prop where
  nodup : (owners loose q).Nodup
  alloc : ∀ a, a ∈ owners loose q ↔ ∃ t, q.heap a = some t
  keyed : ∀ e ∈ q.timers, ∃ t, q.heap (addr e) = some t ∧ e = entry t.expiration (addr e)
  active : ∀ a n, activeTimer a n ∈ q.activeTimers ↔
    ∃ t, q.heap a = some t ∧ t.sequence = n ∧ entry t.expiration a ∈ q.timers
  sizes : q.timers.size = q.activeTimers.size
  range : ∀ a t, q.heap a = some t → a < UINTPTR_MAX
  seqs : Sequences q

namespace Owned

variable {loose : List Addr} {q : TimerQueue}

theorem perm {loose' : List Addr} (h : Owned loose q) (hp : loose.Perm loose') :
    Owned loose' q := by
  have hperm : (owners loose q).Perm (owners loose' q) := hp.append_right _
  refine ⟨hperm.nodup_iff.mp h.nodup, fun a => ?_, h.keyed, h.active, h.sizes, h.range, h.seqs⟩
  rw [← hperm.mem_iff]
  exact h.alloc a

/-- Fields that the invariant does not read. -/
theorem frame {q' : TimerQueue} (h : Owned loose q) (hheap : q'.heap = q.heap)
    (hnum : q'.numCreated = q.numCreated) (hts : q'.timers = q.timers)
    (has : q'.activeTimers = q.activeTimers) (hdel : q'.deleted = q.deleted) :
    Owned loose q' := by
  obtain ⟨hknown, hinj, hlive, honce⟩ := h.seqs
  refine ⟨?_, ?_, ?_, ?_, ?_, ?_, ?_, ?_, ?_, ?_⟩
  all_goals simp only [owners, hheap, hnum, hts, has, hdel]
  · exact h.nodup
  · exact h.alloc
  · exact h.keyed
  · exact h.active
  · exact h.sizes
  · exact h.range
  · exact hknown
  · exact hinj
  · exact hlive
  · exact honce

theorem loose_alloc (h : Owned loose q) {a : Addr} (ha : a ∈ loose) : ∃ t, q.heap a = some t :=
  (h.alloc a).mp (List.mem_append_left _ ha)

/-- A loose address has no entry. -/
theorem not_entry (h : Owned loose q) {a : Addr} (ha : a ∈ loose) (e : Entry) (he : e ∈ q.timers) :
    addr e ≠ a := by
  rintro rfl
  exact (List.nodup_append.mp h.nodup).2.2 _ ha _ (List.mem_map_of_mem he) rfl

/-! ## Moving one address -/

/-- From the loose addresses into both sets. -/
theorem attach {a : Addr} {t : Timer} (h : Owned (a :: loose) q) (ht : q.heap a = some t) :
    entry t.expiration a ∉ q.timers ∧ activeTimer a t.sequence ∉ q.activeTimers ∧
      Owned loose ((q.setTimers (q.timers.insert (entry t.expiration a))).setActive
        (q.activeTimers.insert (activeTimer a t.sequence))) := by
  have hnew : entry t.expiration a ∉ q.timers :=
    fun he => h.not_entry List.mem_cons_self _ he rfl
  have hnewA : activeTimer a t.sequence ∉ q.activeTimers := by
    intro hmem
    obtain ⟨u, hu, -, he⟩ := (h.active a t.sequence).mp hmem
    rw [ht] at hu
    cases hu
    exact hnew he
  refine ⟨hnew, hnewA, ?_⟩
  have hperm : (loose ++ (q.timers.insert (entry t.expiration a)).elems.map addr).Perm
      (owners (a :: loose) q) := by
    refine (((OrdSet.perm_insert hnew).map addr).append_left loose).trans ?_
    exact List.perm_middle
  refine ⟨hperm.nodup_iff.mpr h.nodup, fun b => ?_, ?_, ?_, ?_, h.range, ?_⟩
  · exact hperm.mem_iff.trans (h.alloc b)
  · intro e he
    rcases OrdSet.mem_insert.mp he with rfl | he
    · exact ⟨t, ht, rfl⟩
    · exact h.keyed e he
  · intro b n
    show activeTimer b n ∈ q.activeTimers.insert (activeTimer a t.sequence) ↔
      ∃ u, q.heap b = some u ∧ u.sequence = n ∧
        entry u.expiration b ∈ q.timers.insert (entry t.expiration a)
    rw [OrdSet.mem_insert, h.active b n, activeTimer_inj]
    constructor
    · rintro (⟨rfl, rfl⟩ | ⟨u, hu, hn, he⟩)
      · exact ⟨t, ht, rfl, OrdSet.mem_insert.mpr (.inl rfl)⟩
      · exact ⟨u, hu, hn, OrdSet.mem_insert.mpr (.inr he)⟩
    · rintro ⟨u, hu, hn, he⟩
      rcases OrdSet.mem_insert.mp he with he | he
      · obtain ⟨-, rfl⟩ := entry_inj.mp he
        rw [ht] at hu
        cases hu
        exact .inl ⟨rfl, hn.symm⟩
      · exact .inr ⟨u, hu, hn, he⟩
  · show (q.timers.insert _).size = (q.activeTimers.insert _).size
    rw [OrdSet.size_insert hnew, OrdSet.size_insert hnewA, h.sizes]
  · exact ⟨h.seqs.known, h.seqs.inj, h.seqs.live, h.seqs.once⟩

/-- From both sets to the loose addresses. -/
theorem detach {a : Addr} {t : Timer} (h : Owned loose q) (ht : q.heap a = some t)
    (he : entry t.expiration a ∈ q.timers) :
    activeTimer a t.sequence ∈ q.activeTimers ∧
      Owned (a :: loose) ((q.setTimers (q.timers.erase (entry t.expiration a))).setActive
        (q.activeTimers.erase (activeTimer a t.sequence))) := by
  have hact : activeTimer a t.sequence ∈ q.activeTimers :=
    (h.active a t.sequence).mpr ⟨t, ht, rfl, he⟩
  refine ⟨hact, ?_⟩
  have hperm : (owners loose q).Perm
      (a :: loose ++ (q.timers.erase (entry t.expiration a)).elems.map addr) := by
    refine (((OrdSet.perm_erase he).map addr).append_left loose).trans ?_
    exact List.perm_middle
  refine ⟨hperm.nodup_iff.mp h.nodup, fun b => ?_, ?_, ?_, ?_, h.range, ?_⟩
  · exact hperm.mem_iff.symm.trans (h.alloc b)
  · intro e he'
    exact h.keyed e (OrdSet.mem_erase.mp he').2
  · intro b n
    show activeTimer b n ∈ q.activeTimers.erase (activeTimer a t.sequence) ↔
      ∃ u, q.heap b = some u ∧ u.sequence = n ∧
        entry u.expiration b ∈ q.timers.erase (entry t.expiration a)
    rw [OrdSet.mem_erase, h.active b n]
    constructor
    · rintro ⟨hne, u, hu, hn, hb⟩
      refine ⟨u, hu, hn, OrdSet.mem_erase.mpr ⟨fun heq => hne ?_, hb⟩⟩
      obtain ⟨-, rfl⟩ := entry_inj.mp heq
      rw [ht] at hu
      cases hu
      rw [hn]
    · rintro ⟨u, hu, hn, hb⟩
      obtain ⟨hne, hb⟩ := OrdSet.mem_erase.mp hb
      refine ⟨fun heq => hne ?_, u, hu, hn, hb⟩
      obtain ⟨rfl, -⟩ := activeTimer_inj.mp heq
      rw [ht] at hu
      cases hu
      rfl
  · show (q.timers.erase _).size = (q.activeTimers.erase _).size
    have h₁ := OrdSet.size_erase he
    have h₂ := OrdSet.size_erase hact
    have := h.sizes
    omega
  · exact ⟨h.seqs.known, h.seqs.inj, h.seqs.live, h.seqs.once⟩

/-! ## Writing to the heap

The address written to has no entry, so neither set notices. -/

theorem keyed_store (h : Owned loose q) {a : Addr} (hentry : ∀ e ∈ q.timers, addr e ≠ a)
    (o : Option Timer) : ∀ e ∈ q.timers,
      ∃ t, (q.store a o).heap (addr e) = some t ∧ e = entry t.expiration (addr e) := by
  intro e he
  obtain ⟨v, hv, hkey⟩ := h.keyed e he
  exact ⟨v, (heap_store_of_ne q (hentry e he) o).trans hv, hkey⟩

theorem active_store (h : Owned loose q) {a : Addr} (hentry : ∀ e ∈ q.timers, addr e ≠ a)
    (o : Option Timer) : ∀ b n, activeTimer b n ∈ q.activeTimers ↔
      ∃ t, (q.store a o).heap b = some t ∧ t.sequence = n ∧ entry t.expiration b ∈ q.timers := by
  intro b n
  rw [h.active b n]
  by_cases hb : b = a
  · subst hb
    constructor
    · rintro ⟨v, -, -, he⟩
      exact absurd rfl (hentry _ he)
    · rintro ⟨v, -, -, he⟩
      exact absurd rfl (hentry _ he)
  · rw [heap_store_of_ne q hb]

/-- A loose timer gets a new expiration. -/
theorem rewrite {a : Addr} {t u : Timer} (h : Owned (a :: loose) q) (ht : q.heap a = some t)
    (hseq : u.sequence = t.sequence) : Owned (a :: loose) (q.store a (some u)) := by
  have hentry : ∀ e ∈ q.timers, addr e ≠ a := h.not_entry List.mem_cons_self
  refine ⟨h.nodup, fun b => ?_, h.keyed_store hentry _, h.active_store hentry _, h.sizes,
    fun b w hw => ?_, h.seqs.rewrite ht hseq⟩
  · rw [show owners (a :: loose) (q.store a (some u)) = owners (a :: loose) q from rfl, h.alloc b]
    by_cases hb : b = a
    · subst hb
      exact iff_of_true ⟨t, ht⟩ ⟨u, heap_store_self ..⟩
    · rw [heap_store_of_ne q hb]
  · rcases heap_store_cases hw with ⟨rfl, -⟩ | ⟨-, hw'⟩
    · exact h.range b t ht
    · exact h.range b w hw'

/-- A loose timer is deleted. -/
theorem free {a : Addr} {t : Timer} (h : Owned (a :: loose) q) (ht : q.heap a = some t) :
    Owned loose { q.store a none with deleted := t.sequence :: q.deleted } := by
  obtain ⟨hnot, hnodup⟩ := List.nodup_cons.mp h.nodup
  have hentry : ∀ e ∈ q.timers, addr e ≠ a := h.not_entry List.mem_cons_self
  refine ⟨hnodup, fun b => ?_, h.keyed_store hentry _, h.active_store hentry _, h.sizes,
    fun b v hv => ?_, h.seqs.free ht⟩
  · show b ∈ owners loose q ↔ ∃ v, (q.store a none).heap b = some v
    by_cases hb : b = a
    · subst hb
      refine iff_of_false hnot ?_
      rintro ⟨v, hv⟩
      rw [heap_store_self] at hv
      exact absurd hv (by simp)
    · rw [heap_store_of_ne q hb, ← h.alloc b]
      constructor
      · exact List.mem_cons_of_mem a
      · intro hmem
        exact (List.mem_cons.mp hmem).resolve_left hb
  · rcases heap_store_cases hv with ⟨-, hnone⟩ | ⟨-, hv'⟩
    · exact absurd hnone (by simp)
    · exact h.range b v hv'

/-- A timer is created at a free address. -/
theorem create {a : Addr} (h : Owned loose q) (hfree : q.heap a = none) (ha : a < UINTPTR_MAX)
    (when interval : Int) (repeats : Bool) :
    Owned (a :: loose) (q.newTimer a when interval repeats) := by
  have hout : a ∉ owners loose q := by
    rw [h.alloc a, hfree]
    simp
  have hentry : ∀ e ∈ q.timers, addr e ≠ a := by
    intro e he heq
    exact hout (List.mem_append_right _ (heq ▸ List.mem_map_of_mem he))
  refine ⟨List.nodup_cons.mpr ⟨hout, h.nodup⟩, fun b => ?_, h.keyed_store hentry _,
    h.active_store hentry _, h.sizes, fun b v hv => ?_, h.seqs.create hfree when interval repeats⟩
  · show b ∈ a :: owners loose q ↔ ∃ v, (q.store a _).heap b = some v
    rw [List.mem_cons]
    by_cases hb : b = a
    · subst hb
      exact iff_of_true (.inl rfl) ⟨_, heap_store_self ..⟩
    · rw [heap_store_of_ne q hb, h.alloc b]
      exact ⟨fun hm => hm.resolve_left hb, .inr⟩
  · rcases heap_store_cases hv with ⟨rfl, -⟩ | ⟨-, hv'⟩
    · exact ha
    · exact h.range b v hv'

end Owned

end Muduo.Timers
