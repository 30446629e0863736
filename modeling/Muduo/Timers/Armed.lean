import Muduo.Timers.Batch

/-!
# The timerfd

The queue asks for one wake-up at a time: `resetTimerfd` replaces the one before, and
`readTimerfd` takes it away. `Early` says that what is asked for comes no later than
the first expiration. It may fail inside `handleRead`, which gives up the wake-up and
gets a new one at its end, in `reset`; but `reset` does not ask for one when the first
expiration is not valid, so for those `Early` has to hold all along (`ArmedInv`).
-/

namespace Muduo.Timers

open Lib TimerQueue

def kMicroSecondsPerSecond : Int := 1000 * 1000

structure Timespec where
  tv_sec : Int
  tv_nsec : Int
  deriving DecidableEq, Repr

/-- `detail::howMuchTimeFromNow(when)`, where the clock reads `now`. The difference is
an `int64_t`. The source has a broken copy of the lines of the test and of `ts` in
between; this is what they are a copy of. -/
def howMuchTimeFromNow (when now : Int) : Timespec :=
  let microseconds := (when - now).bmod (2 ^ 64)
  let microseconds := if microseconds < 100 then 100 else microseconds
  { tv_sec := microseconds.tdiv kMicroSecondsPerSecond
    tv_nsec := microseconds.tmod kMicroSecondsPerSecond * 1000 }

/-- The timespec is a valid one, arms the timerfd, and stands for this many
microseconds. -/
structure Arms (ts : Timespec) (microseconds : Int) : Prop where
  nonzero : ts ≠ ⟨0, 0⟩
  sec : 0 ≤ ts.tv_sec
  nsec : 0 ≤ ts.tv_nsec ∧ ts.tv_nsec < 10 ^ 9
  exactly : ts.tv_sec * 10 ^ 9 + ts.tv_nsec = microseconds * 1000

theorem howMuchTimeFromNow_arms {when now : Int} (hlow : -2 ^ 63 ≤ when - now)
    (hhigh : when - now < 2 ^ 63) : Arms (howMuchTimeFromNow when now) (max (when - now) 100) := by
  have hdiff : (when - now).bmod (2 ^ 64) = when - now :=
    Int.bmod_eq_of_le (by omega) (by omega)
  have hmax : (if when - now < 100 then 100 else when - now) = max (when - now) 100 := by
    split
    · omega
    · omega
  have hpos : 100 ≤ max (when - now) 100 := le_max_right _ _
  unfold howMuchTimeFromNow kMicroSecondsPerSecond
  dsimp only
  rw [hdiff, hmax]
  generalize max (when - now) 100 = us at hpos
  rw [Int.tdiv_eq_ediv_of_nonneg (by omega), Int.tmod_eq_emod_of_nonneg (by omega)]
  refine ⟨fun hzero => ?_, ?_, ?_, ?_⟩
  · obtain ⟨hsec, hnsec⟩ := Timespec.mk.inj hzero
    omega
  · show 0 ≤ us / (1000 * 1000)
    omega
  · show 0 ≤ us % (1000 * 1000) * 1000 ∧ us % (1000 * 1000) * 1000 < 10 ^ 9
    omega
  · show us / (1000 * 1000) * 10 ^ 9 + us % (1000 * 1000) * 1000 = us * 1000
    omega

/-- What a constructor of `Timer` makes of its `double`: only a positive one repeats,
and it is not negative in microseconds. The loop reads a clock past the epoch. -/
def Act.sensible : Act → Prop
  | .newTimer _ _ interval repeats => repeats = true → 0 ≤ interval
  | .handleRead now => 0 < now
  | _ => True

instance decidableSensible : ∀ a : Act, Decidable a.sensible
  | .newTimer .. => inferInstanceAs (Decidable (_ → _))
  | .handleRead now => inferInstanceAs (Decidable (0 < now))
  | .addTimerInLoop _ | .cancelInLoop .. | .runNext | .reset => inferInstanceAs (Decidable True)

/-- The timerfd is armed for `x` or before. -/
def Early (q : TimerQueue) (x : Int) : Prop := ∃ y, q.armed = some y ∧ y ≤ x

structure ArmedInv (q : TimerQueue) : Prop where
  inv : QueueInv q
  early : ∀ x a, entry x a ∈ q.timers → (q.pc = .idle ∨ x ≤ 0) → Early q x
  clock : ∀ now expired rest, q.pc = .calling now expired rest → 0 < now
  interval : ∀ a t, q.heap a = some t → t.repeats = true → 0 ≤ t.interval

section Steps

variable {q q' : TimerQueue}

theorem Early.mono {x y : Int} (h : Early q x) (hxy : x ≤ y) : Early q y := by
  obtain ⟨z, hz, hle⟩ := h
  exact ⟨z, hz, hle.trans hxy⟩

/-- A new timer comes first, or some timer of the set is at least as early. -/
theorem earliestChanged_cases (q : TimerQueue) (when : Int) :
    (q.earliestChanged when = true ∧ ∀ x a, entry x a ∈ q.timers → when < x) ∨
      (q.earliestChanged when = false ∧ ∃ x a, entry x a ∈ q.timers ∧ x ≤ when) := by
  unfold earliestChanged
  cases hfirst : q.timers.first? with
  | none => exact .inl ⟨rfl, fun x a he => absurd he (OrdSet.first?_eq_none hfirst _)⟩
  | some e =>
      by_cases hlt : when < (ofLex e).1
      · refine .inl ⟨decide_eq_true hlt, fun x a he => ?_⟩
        have hle : (ofLex e).1 ≤ x := Prod.Lex.monotone_fst _ _ (OrdSet.first?_le hfirst he)
        exact lt_of_lt_of_le hlt hle
      · refine .inr ⟨decide_eq_false hlt, (ofLex e).1, addr e, ?_, not_lt.mp hlt⟩
        exact OrdSet.first?_eq_some hfirst

/-- A step that leaves the timerfd alone, adds nothing to `M_timers` and no timer to
the heap. -/
theorem ArmedInv.frame (h : ArmedInv q) (hinv : QueueInv q') (harmed : q'.armed = q.armed)
    (hpc : q'.pc = q.pc) (htimers : ∀ e, e ∈ q'.timers → e ∈ q.timers)
    (hheap : ∀ a t, q'.heap a = some t → q.heap a = some t) : ArmedInv q' := by
  refine ⟨hinv, fun x a he hcase => ?_, ?_, fun a t ht => h.interval a t (hheap a t ht)⟩
  · rw [hpc] at hcase
    obtain ⟨y, hy, hle⟩ := h.early x a (htimers _ he) hcase
    exact ⟨y, harmed.trans hy, hle⟩
  · rw [hpc]
    exact h.clock

theorem addTimerInLoop_armed (h : ArmedInv q) (a : Addr) (hinv : QueueInv q')
    (hq' : q.addTimerInLoop a = .ok q') : ArmedInv q' := by
  obtain ⟨t, ht, hstill, hheap, htimers, harmed⟩ := addTimerInLoop_post q a q' hq'
  refine ⟨hinv, fun x b he hcase => ?_, ?_, fun b u hu => ?_⟩
  · rw [hstill.pc] at hcase
    rw [htimers, OrdSet.mem_insert] at he
    rcases earliestChanged_cases q t.expiration with ⟨hfirst, hlt⟩ | ⟨hlater, y, c, hy, hle⟩
    · -- the timerfd is armed for the new timer, which comes before all others
      rw [if_pos hfirst] at harmed
      refine ⟨t.expiration, harmed, ?_⟩
      rcases he with heq | he
      · exact (entry_inj.mp heq).1.ge
      · exact (hlt x b he).le
    · rw [if_neg (by simp [hlater])] at harmed
      have hold : Early q x := by
        rcases he with heq | he
        · obtain ⟨rfl, -⟩ := entry_inj.mp heq
          exact (h.early y c hy (hcase.imp_right hle.trans)).mono hle
        · exact h.early x b he hcase
      obtain ⟨z, hz, hzx⟩ := hold
      exact ⟨z, harmed.trans hz, hzx⟩
  · rw [hstill.pc]
    exact h.clock
  · rw [hheap] at hu
    exact h.interval b u hu

theorem cancelInLoop_armed (h : ArmedInv q) (a : Addr) (n : Nat) (hinv : QueueInv q')
    (hq' : q.cancelInLoop a n = .ok q') : ArmedInv q' := by
  obtain ⟨-, t, -, hmoved⟩ | ⟨-, rfl⟩ := cancelInLoop_post q a n q' hq'
  · refine h.frame hinv hmoved.armed hmoved.still.pc (fun e he => ?_) fun b u hu => ?_
    · rw [hmoved.timers] at he
      exact (OrdSet.mem_erase.mp he).2
    · rw [hmoved.heap] at hu
      rcases heap_store_cases (q := q) hu with ⟨-, hnone⟩ | ⟨-, hold⟩
      · exact absurd hnone (by simp)
      · exact hold
  · exact h.frame hinv rfl rfl (fun _ he => he) fun _ _ hu => hu

/-- The batch begins, and what is left in the set is valid. -/
theorem handleReadBegin_armed (h : ArmedInv q) {now : Int} (hnow : 0 < now) (hinv : QueueInv q')
    (hq' : q.handleReadBegin now = .ok q') : ArmedInv q' := by
  obtain ⟨hstill, hheap, htimers, -⟩ := handleReadBegin_post q now q' hq'
  refine ⟨hinv, fun x a he hcase => ?_, fun now' expired rest hcalling => ?_, fun a t ht => ?_⟩
  · rw [htimers] at he
    have hle : now ≤ x := Prod.Lex.monotone_fst _ _ (OrdSet.mem_since.mp he).2
    rcases hcase with hidle | hx
    · exact absurd (hstill.pc.symm.trans hidle) (by simp)
    · omega
  · obtain ⟨rfl, -, -⟩ := Pc.calling.inj (hstill.pc.symm.trans hcalling)
    exact hnow
  · rw [hheap] at ht
    exact h.interval a t ht

theorem runNext_armed (h : ArmedInv q) (hinv : QueueInv q') (hq' : q.runNext = .ok q') :
    ArmedInv q' := by
  unfold runNext at hq'
  split at hq'
  · rename_i now expired e rest hpc
    obtain ⟨t, -, hq'⟩ := bind_eq_ok hq'
    obtain rfl := Except.ok.inj hq'
    refine ⟨hinv, fun x a he hcase => ?_, fun now' expired' rest' hcalling => ?_, h.interval⟩
    · exact h.early x a he (.inr (hcase.resolve_left (by simp)))
    · obtain ⟨rfl, -, -⟩ := Pc.calling.inj hcalling
      exact h.clock now expired (e :: rest) hpc
  · obtain rfl := Except.ok.inj hq'
    exact h

theorem nextExpire_post (q : TimerQueue) : Post q.nextExpire fun next =>
    (∀ e, e ∉ q.timers) ∨ ∃ e, q.timers.first? = some e ∧ ∃ t, q.heap (addr e) = some t ∧
      next = t.expiration := by
  unfold nextExpire
  split
  · rename_i hfirst
    exact .ok (.inl fun e => OrdSet.first?_eq_none hfirst e)
  · rename_i e hfirst
    exact (deref_post q (addr e)).bind fun t ht => .ok (.inr ⟨e, hfirst, t, ht, rfl⟩)

/-- What `reset` puts back expires after `now`; so what is not valid was in the set
before, and the timerfd is armed for it. -/
theorem resetAll_early (h : ArmedInv q) {now : Int} {expired rest : List Entry}
    (hpc : q.pc = .calling now expired rest) :
    Lands (TimerQueue.resetAll { q with callingExpiredTimers := false, pc := .idle } now expired)
      fun q₁ => Owned q.created q₁ ∧ ∀ x a, entry x a ∈ q₁.timers → x ≤ 0 → Early q₁ x := by
  have howned := h.inv.owned_reset hpc
  obtain ⟨q₁, hloop, h₁, -⟩ := resetAll_spec expired now howned
  obtain ⟨-, harmed, -⟩ := resetAll_post expired now _ q₁ hloop
  obtain ⟨-, htimers⟩ := resetAll_inTimers expired now howned q₁ hloop
  refine ⟨q₁, hloop, h₁, fun x a he hx => ?_⟩
  obtain ⟨u, hu, hkey⟩ := h₁.inTimers_of_mem he
  obtain ⟨rfl, -⟩ := entry_inj.mp hkey
  rcases (htimers _ _).mp hu with hold | ⟨e, -, -, t, ht, hrepeats, -, rfl⟩
  · obtain ⟨y, hy, hle⟩ := h.early _ _ hold.2 (.inr hx)
    exact ⟨y, harmed.trans hy, hle⟩
  · have hnow := h.clock now expired rest hpc
    have hinterval := h.interval _ t ht hrepeats
    rw [Timer.restart, if_pos hrepeats] at hx
    have hx : now + t.interval ≤ 0 := hx
    omega

/-- The end of `reset` arms the timerfd for the first timer, or that one is not
valid. -/
theorem resetTimerfd_early {loose : List Addr} (h : Owned loose q) {next : Int}
    (hnext : q.nextExpire = .ok next)
    (hinvalid : ∀ x a, entry x a ∈ q.timers → x ≤ 0 → Early q x) {x : Int} {a : Addr}
    (he : entry x a ∈ q.timers) : Early (if 0 < next then q.resetTimerfd next else q) x := by
  rcases nextExpire_post q next hnext with hempty | ⟨e, hfirst, t, ht, rfl⟩
  · exact absurd he (hempty _)
  · obtain ⟨u, hu, hkey⟩ := h.keyed e (OrdSet.first?_eq_some hfirst)
    obtain rfl : t = u := Option.some.inj (ht.symm.trans hu)
    have hle : t.expiration ≤ x := by
      have := Prod.Lex.monotone_fst _ _ (OrdSet.first?_le hfirst he)
      rwa [hkey] at this
    split
    · exact ⟨t.expiration, rfl, hle⟩
    · have hmem : entry t.expiration (addr e) ∈ q.timers := hkey ▸ OrdSet.first?_eq_some hfirst
      exact (hinvalid _ _ hmem (by omega)).mono hle

/-- The batch ends. -/
theorem handleReadEnd_armed (h : ArmedInv q) (hinv : QueueInv q')
    (hq' : q.handleReadEnd = .ok q') : ArmedInv q' := by
  cases hpc : q.pc with
  | idle =>
      unfold handleReadEnd at hq'
      rw [hpc] at hq'
      obtain rfl := Except.ok.inj hq'
      exact h
  | calling now expired rest =>
      obtain ⟨hstill, hheap⟩ := handleReadEnd_post hpc q' hq'
      unfold handleReadEnd at hq'
      rw [hpc] at hq'
      obtain ⟨q₁, hloop, hq'⟩ := bind_eq_ok hq'
      obtain ⟨next, hnext, hq'⟩ := bind_eq_ok hq'
      obtain rfl := Except.ok.inj hq'
      obtain ⟨h₁, hinvalid⟩ := (resetAll_early h hpc).post q₁ hloop
      refine ⟨hinv, fun x a he _ => ?_, fun now' expired' rest' hcalling => ?_, fun a u hu hrep => ?_⟩
      · refine resetTimerfd_early h₁ hnext hinvalid (a := a) ?_
        split at he
        · exact he
        · exact he
      · exact absurd (hstill.pc.symm.trans hcalling) (by simp)
      · obtain ⟨t, ht, ⟨-, rfl⟩ | ⟨-, hrepeats, -, rfl⟩⟩ := hheap a u hu
        · exact h.interval a u ht hrep
        · exact h.interval a t ht hrepeats

theorem exec_armed (h : ArmedInv q) {a : Act} (hen : enabled q a = true) (ha : a.sensible) :
    Lands (exec q a) ArmedInv := by
  obtain ⟨q', hexec, hinv⟩ := exec_inv h.inv a hen
  refine ⟨q', hexec, ?_⟩
  cases a with
  | newTimer timer when interval repeats =>
      obtain rfl := Except.ok.inj hexec
      refine ⟨hinv, h.early, h.clock, fun b t ht hrepeats => ?_⟩
      rcases heap_store_cases ht with ⟨-, hnew⟩ | ⟨-, hold⟩
      · obtain rfl := Option.some.inj hnew
        exact ha hrepeats
      · exact h.interval b t hold hrepeats
  | addTimerInLoop timer => exact addTimerInLoop_armed h timer hinv hexec
  | cancelInLoop timer sequence => exact cancelInLoop_armed h timer sequence hinv hexec
  | handleRead now => exact handleReadBegin_armed h ha hinv hexec
  | runNext => exact runNext_armed h hinv hexec
  | reset => exact handleReadEnd_armed h hinv hexec

end Steps

theorem new_armed : ArmedInv TimerQueue.new := by
  refine ⟨new_inv, fun x a he => ?_, fun now expired rest hpc => ?_, fun a t ht => ?_⟩
  · exact absurd he (OrdSet.notMem_empty _)
  · exact absurd hpc (by simp [TimerQueue.new])
  · exact absurd ht (by simp [TimerQueue.new])

/-- **The timerfd is always armed early enough.** Along every run with clock readings
past the epoch: outside `handleRead`, while `M_timers` holds a timer, the timerfd is
armed for its expiration or before; and whatever it is armed for, and whatever the
clock reads then, the timespec given to it is valid, not zero, and exactly the time
that is left, or 100 microseconds if that is more. -/
theorem timerfd_armed_early (acts : List Act) (hlegal : timerSys.Legal TimerQueue.new acts)
    (hsensible : ∀ a ∈ acts, a.sensible) :
    Lands (timerSys.runFrom TimerQueue.new acts) fun q =>
      (q.pc = .idle → ∀ x a, entry x a ∈ q.timers → ∃ y, q.armed = some y ∧ y ≤ x) ∧
      ∀ when, q.armed = some when → ∀ now, -2 ^ 63 ≤ when - now → when - now < 2 ^ 63 →
        Arms (howMuchTimeFromNow when now) (max (when - now) 100) := by
  have hmeets : timerSys.Meets (fun q a => enabled q a = true ∧ a.sensible) TimerQueue.new acts :=
    Sys.meets_and.mpr ⟨hlegal, Sys.meets_of_forall hsensible _⟩
  have hrun : Lands (timerSys.runFrom TimerQueue.new acts) ArmedInv :=
    Sys.invariant_lands (S := timerSys) (fun q a h ha => exec_armed h ha.1 ha.2) new_armed hmeets
  refine hrun.mono fun q h => ⟨fun hidle x a he => h.early x a he (.inl hidle), ?_⟩
  intro when _ now hlow hhigh
  exact howMuchTimeFromNow_arms hlow hhigh

/-- A repeating timer and one that was due before the epoch; the callback of the first
adds another of that kind and cancels it again. -/
theorem timerfd_armed_early_epoch :
    Lands (timerSys.runFrom TimerQueue.new
      [.newTimer 16 100 50 true, .addTimerInLoop 16, .newTimer 32 (-7) 0 false,
        .addTimerInLoop 32, .handleRead 100, .runNext, .newTimer 48 (-3) 0 false,
        .addTimerInLoop 48, .runNext, .cancelInLoop 48 3, .reset]) fun q =>
      q.armed = some 150 ∧ (q.pc = .idle → ∀ x a, entry x a ∈ q.timers →
        ∃ y, q.armed = some y ∧ y ≤ x) ∧
      Arms (howMuchTimeFromNow 150 110) 100 := by
  have hspec := timerfd_armed_early
    [.newTimer 16 100 50 true, .addTimerInLoop 16, .newTimer 32 (-7) 0 false,
      .addTimerInLoop 32, .handleRead 100, .runNext, .newTimer 48 (-3) 0 false,
      .addTimerInLoop 48, .runNext, .cancelInLoop 48 3, .reset]
    (by decide +kernel) (by decide)
  have hrun : Lands (timerSys.runFrom TimerQueue.new
      [.newTimer 16 100 50 true, .addTimerInLoop 16, .newTimer 32 (-7) 0 false,
        .addTimerInLoop 32, .handleRead 100, .runNext, .newTimer 48 (-3) 0 false,
        .addTimerInLoop 48, .runNext, .cancelInLoop 48 3, .reset]) fun q =>
      q.armed = some 150 := by decide +kernel
  obtain ⟨q, hq, harmed⟩ := hrun
  obtain ⟨hearly, harms⟩ := hspec.post q hq
  exact ⟨q, hq, harmed, hearly, harms 150 harmed 110 (by decide) (by decide)⟩

end Muduo.Timers
