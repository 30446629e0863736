import Mathlib.Tactic

/-!
# Condition variables

Threads that share a mutex are a list of program points, one for each thread. A
condition variable is seen through them: a thread that waits on it is `blocked`
until it is signalled, and then `signalled` until it runs again. `notify` signals
some of the blocked threads, and at least one if there is one (`Wakes`).

The counting argument for "one `notify` for each item" is `Covered`: as long as
some thread is blocked, the items are no more than the threads that have been
signalled and have not run yet. The lemmas after it are its rules: an item that
is added with a `notify`, an item that is taken by a thread that was waiting or
by one that was not, a thread that starts to wait.
-/

namespace Muduo.Lib

variable {π : Type}

/-- A condition variable, by what it means for a thread at a program point. -/
structure CondVar (π : Type) where
  blocked : π → Bool
  signalled : π → Bool
  signal : π → π
  blocked_signal : ∀ x, blocked (signal x) = false
  signalled_signal : ∀ x, signalled (signal x) = (blocked x || signalled x)
  signal_of_not_blocked : ∀ x, blocked x = false → signal x = x
  not_both : ∀ x, blocked x = true → signalled x = false

namespace CondVar

variable (c : CondVar π)

/-- The number of threads that wait and have no signal pending. -/
def waiting (ts : List π) : Nat := ts.countP c.blocked

/-- The number of threads that are signalled and have not resumed. -/
def resuming (ts : List π) : Nat := ts.countP c.signalled

/-- Thread `i` is signalled, if it is blocked. -/
def signalAt (ts : List π) (i : Nat) : List π := ts.modify i c.signal

/-- `notify()`: the blocked threads among `woken` are signalled. -/
def notify (woken : List Nat) (ts : List π) : List π := woken.foldl c.signalAt ts

/-- `notifyAll()`. -/
def notifyAll (ts : List π) : List π := ts.map c.signal

/-- A `notify` that signals `woken` signals a blocked thread, if there is one. -/
def Wakes (woken : List Nat) (ts : List π) : Prop :=
  0 < c.waiting ts → ∃ i ∈ woken, ∃ x ∈ ts[i]?, c.blocked x = true

instance (woken : List Nat) (ts : List π) : Decidable (c.Wakes woken ts) :=
  inferInstanceAs (Decidable (_ → _))

/-! ## Counting threads -/

/-- A count over the threads, when thread `i` moves from `x` to `y`. -/
theorem countP_set_of_getElem? (q : π → Bool) {ts : List π} {i : Nat} {x : π}
    (h : ts[i]? = some x) (y : π) :
    (ts.set i y).countP q + (q x).toNat = ts.countP q + (q y).toNat := by
  induction ts generalizing i with
  | nil => simp at h
  | cons t ts ih =>
      cases i with
      | zero =>
          obtain rfl : t = x := by simpa using h
          simp only [List.set_cons_zero, List.countP_cons]
          cases q t <;> cases q y <;> simp
      | succ i =>
          have := ih (i := i) (by simpa using h)
          simp only [List.set_cons_succ, List.countP_cons]
          omega

variable {c} {ts : List π} {i : Nat} {x y : π} {n : Nat}

theorem signalAt_of_getElem? (h : ts[i]? = some x) : c.signalAt ts i = ts.set i (c.signal x) := by
  rw [signalAt, List.modify_eq_set_getElem?, h]
  rfl

theorem signalAt_of_none (h : ts[i]? = none) : c.signalAt ts i = ts := by
  rw [signalAt, List.modify_eq_set_getElem?, h]
  rfl

/-- A signal moves one thread from blocked to signalled, or does nothing. -/
theorem signalAt_counts (c : CondVar π) (ts : List π) (i : Nat) :
    (c.waiting (c.signalAt ts i) + 1 = c.waiting ts ∧
      c.resuming (c.signalAt ts i) = c.resuming ts + 1) ∨
    (c.signalAt ts i = ts ∧ ∀ x ∈ ts[i]?, c.blocked x = false) := by
  cases h : ts[i]? with
  | none => exact .inr ⟨signalAt_of_none h, by simp⟩
  | some x =>
      cases hx : c.blocked x with
      | false =>
          refine .inr ⟨?_, by simpa using hx⟩
          rw [signalAt_of_getElem? h, c.signal_of_not_blocked x hx]
          obtain ⟨hlt, rfl⟩ := List.getElem?_eq_some_iff.mp h
          exact List.set_getElem_self hlt
      | true =>
          left
          have hwait := countP_set_of_getElem? c.blocked h (c.signal x)
          have hresume := countP_set_of_getElem? c.signalled h (c.signal x)
          rw [c.blocked_signal, hx] at hwait
          rw [c.signalled_signal, hx, c.not_both x hx] at hresume
          rw [signalAt_of_getElem? h]
          exact ⟨hwait, hresume⟩

theorem notify_cons (c : CondVar π) (i : Nat) (woken : List Nat) (ts : List π) :
    c.notify (i :: woken) ts = c.notify woken (c.signalAt ts i) := rfl

theorem resuming_le_notify (c : CondVar π) (woken : List Nat) (ts : List π) :
    c.resuming ts ≤ c.resuming (c.notify woken ts) := by
  induction woken generalizing ts with
  | nil => exact le_rfl
  | cons i woken ih =>
      rw [notify_cons]
      have htail := ih (c.signalAt ts i)
      rcases signalAt_counts c ts i with ⟨-, hresume⟩ | ⟨hsame, -⟩
      · omega
      · rw [hsame] at htail ⊢
        exact htail

theorem waiting_notify_le (c : CondVar π) (woken : List Nat) (ts : List π) :
    c.waiting (c.notify woken ts) ≤ c.waiting ts := by
  induction woken generalizing ts with
  | nil => exact le_rfl
  | cons i woken ih =>
      rw [notify_cons]
      have htail := ih (c.signalAt ts i)
      rcases signalAt_counts c ts i with ⟨hwait, -⟩ | ⟨hsame, -⟩
      · omega
      · rw [hsame] at htail ⊢
        exact htail

/-- A `notify` that reaches a blocked thread leaves one more thread signalled. -/
theorem resuming_lt_notify {woken : List Nat} (hi : i ∈ woken) (hx : ts[i]? = some x)
    (hblocked : c.blocked x = true) : c.resuming ts < c.resuming (c.notify woken ts) := by
  induction woken generalizing ts with
  | nil => simp at hi
  | cons j woken ih =>
      rw [notify_cons]
      rcases signalAt_counts c ts j with ⟨-, hresume⟩ | ⟨hsame, hnone⟩
      · have := resuming_le_notify c woken (c.signalAt ts j)
        omega
      · -- the first of `woken` is not blocked, so it is not thread `i`
        rw [hsame]
        rcases List.mem_cons.mp hi with rfl | hi
        · rw [hnone x hx] at hblocked
          exact absurd hblocked (by simp)
        · exact ih hi hx

/-- Signals only move threads from one count to the other. -/
theorem waiting_add_resuming_notify (c : CondVar π) (woken : List Nat) (ts : List π) :
    c.waiting (c.notify woken ts) + c.resuming (c.notify woken ts) =
      c.waiting ts + c.resuming ts := by
  induction woken generalizing ts with
  | nil => rfl
  | cons i woken ih =>
      rw [notify_cons, ih]
      rcases signalAt_counts c ts i with ⟨hwait, hresume⟩ | ⟨hsame, -⟩
      · omega
      · rw [hsame]

/-- A `notify` that finds a thread blocked leaves one fewer. -/
theorem waiting_notify_lt {woken : List Nat} (hwakes : c.Wakes woken ts) (hw : 0 < c.waiting ts) :
    c.waiting (c.notify woken ts) < c.waiting ts := by
  obtain ⟨i, hi, x, hx, hblocked⟩ := hwakes hw
  have hsum := waiting_add_resuming_notify c woken ts
  have hresume := resuming_lt_notify hi hx hblocked
  omega

theorem countP_notifyAll {q : π → Bool} (hq : ∀ x, q (c.signal x) = q x) (ts : List π) :
    (c.notifyAll ts).countP q = ts.countP q := by
  rw [notifyAll, List.countP_map]
  exact List.countP_congr fun x _ => by rw [Function.comp_apply, hq]

/-- A count that signals do not change. -/
theorem countP_notify {q : π → Bool} (hq : ∀ x, q (c.signal x) = q x) (woken : List Nat)
    (ts : List π) : (c.notify woken ts).countP q = ts.countP q := by
  induction woken generalizing ts with
  | nil => rfl
  | cons i woken ih =>
      rw [notify_cons, ih]
      cases h : ts[i]? with
      | none => rw [signalAt_of_none h]
      | some x =>
          have := countP_set_of_getElem? q h (c.signal x)
          rw [hq x] at this
          rw [signalAt_of_getElem? h]
          omega

/-- What holds of every thread at its place, and is kept by signals. -/
theorem forall_notify {q : Nat → π → Prop} (hq : ∀ i x, q i x → q i (c.signal x))
    (woken : List Nat) (h : ∀ i x, ts[i]? = some x → q i x) :
    ∀ i x, (c.notify woken ts)[i]? = some x → q i x := by
  induction woken generalizing ts with
  | nil => exact h
  | cons j woken ih =>
      rw [notify_cons]
      refine ih fun i x hx => ?_
      rw [signalAt, List.getElem?_modify] at hx
      split at hx
      · obtain ⟨y, hy, rfl⟩ := Option.map_eq_some_iff.mp hx
        exact hq i y (h i y hy)
      · exact h i x (by simpa using hx)

theorem forall_set {q : Nat → π → Prop} (h : ∀ i x, ts[i]? = some x → q i x) (hy : q i y) :
    ∀ j x, (ts.set i y)[j]? = some x → q j x := by
  intro j x hx
  rw [List.getElem?_set] at hx
  split at hx
  · rename_i heq
    subst heq
    split at hx
    · exact Option.some.inj hx ▸ hy
    · exact absurd hx (by simp)
  · exact h j x hx

/-! ## The counting argument -/

/-- While a thread is blocked, `n` items are no more than the threads that are
on their way. -/
def Covered (c : CondVar π) (ts : List π) (n : Nat) : Prop :=
  0 < c.waiting ts → n ≤ c.resuming ts

theorem Covered.zero (c : CondVar π) (ts : List π) : c.Covered ts 0 := fun _ => Nat.zero_le _

theorem Covered.mono (h : c.Covered ts n) {m : Nat} (hm : m ≤ n) : c.Covered ts m :=
  fun hw => hm.trans (h hw)

/-- One more item, and one `notify`. -/
theorem Covered.notify (h : c.Covered ts n) {woken : List Nat} (hwakes : c.Wakes woken ts) :
    c.Covered (c.notify woken ts) (n + 1) := by
  intro hw
  have hwaiting : 0 < c.waiting ts := lt_of_lt_of_le hw (waiting_notify_le c woken ts)
  obtain ⟨i, hi, x, hx, hblocked⟩ := hwakes hwaiting
  have hitems := h hwaiting
  have hresume := resuming_lt_notify hi hx hblocked
  omega

/-- Signals of another condition variable. -/
theorem Covered.notify_other {d : CondVar π} (hblocked : ∀ x, c.blocked (d.signal x) = c.blocked x)
    (hsignalled : ∀ x, c.signalled (d.signal x) = c.signalled x) (h : c.Covered ts n)
    (woken : List Nat) : c.Covered (d.notify woken ts) n := by
  intro hw
  rw [waiting, countP_notify hblocked] at hw
  rw [resuming, countP_notify hsignalled]
  exact h hw

/-- A thread moves that does not wait, before or after. -/
theorem Covered.set (h : c.Covered ts n) (hx : ts[i]? = some x)
    (hblocked : c.blocked y = c.blocked x) (hsignalled : c.signalled y = c.signalled x) :
    c.Covered (ts.set i y) n := by
  have hwait := countP_set_of_getElem? c.blocked hx y
  have hresume := countP_set_of_getElem? c.signalled hx y
  rw [hblocked] at hwait
  rw [hsignalled] at hresume
  intro hw
  rw [waiting] at hw
  rw [resuming]
  have := h (by rw [waiting]; omega)
  rw [resuming] at this
  omega

/-- The move of a thread that is not blocked, before or after, is no matter for
`notify`. -/
theorem Wakes.set {woken : List Nat} (h : c.Wakes woken ts) (hx : ts[i]? = some x)
    (hxb : c.blocked x = false) (hyb : c.blocked y = false) : c.Wakes woken (ts.set i y) := by
  have hwait := countP_set_of_getElem? c.blocked hx y
  rw [hxb, hyb] at hwait
  intro hw
  rw [waiting] at hw
  obtain ⟨j, hj, z, hz, hzb⟩ := h (by rw [waiting]; omega)
  have hij : i ≠ j := by
    rintro rfl
    obtain rfl : x = z := Option.some.inj (hx.symm.trans hz)
    rw [hxb] at hzb
    exact absurd hzb (by simp)
  refine ⟨j, hj, z, ?_, hzb⟩
  rw [List.getElem?_set_ne hij]
  exact hz

/-- A thread that does not come to wait leaves no more threads waiting. -/
theorem waiting_set_le (c : CondVar π) (hx : ts[i]? = some x) (hy : c.blocked y = false) :
    c.waiting (ts.set i y) ≤ c.waiting ts := by
  have hwait := countP_set_of_getElem? c.blocked hx y
  rw [hy] at hwait
  rw [waiting, waiting]
  simp only [Bool.toNat_false] at hwait
  omega

/-- A thread that waited, signalled or not, leaves with one item. -/
theorem Covered.resume (h : c.Covered ts (n + 1)) (hx : ts[i]? = some x)
    (hblocked : c.blocked y = false) (hsignalled : c.signalled y = false) :
    c.Covered (ts.set i y) n := by
  have hwait := countP_set_of_getElem? c.blocked hx y
  have hresume := countP_set_of_getElem? c.signalled hx y
  rw [hblocked] at hwait
  rw [hsignalled] at hresume
  have hone : (c.signalled x).toNat ≤ 1 := Bool.toNat_le _
  intro hw
  rw [waiting] at hw
  rw [resuming]
  have := h (by rw [waiting]; simp only [Bool.toNat_false] at hwait; omega)
  rw [resuming] at this
  simp only [Bool.toNat_false] at hresume
  omega

end CondVar

end Muduo.Lib
