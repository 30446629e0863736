import Mathlib.Tactic
import Muduo.Lib.System

/-!
# Rounds of service

A queue that is served in rounds: each takes up to `n` from the front, and what it took
goes to the back (`serve`). One that is passed over has moved up by `n`.

Where each full round doubles `n`, somebody who waits behind `k` others is passed over by
a number of rounds that is logarithmic in `k` only (`rounds_double`).
-/

namespace Muduo.Lib

section Queue

variable {α : Type} [DecidableEq α] {a b : α} {q : List α}

/-- The first `n` are served, and wait behind the others again. -/
def serve (n : Nat) (q : List α) : List α := q.drop n ++ q.take n

/-- Who is passed over moves up by a full round. -/
theorem idxOf_serve {n : Nat} (hmem : a ∈ q) (hpassed : a ∉ q.take n) :
    (serve n q).idxOf a + n = q.idxOf a ∧ n < q.length := by
  have hlong : n < q.length := by
    by_contra hshort
    rw [List.take_of_length_le (by omega)] at hpassed
    exact hpassed hmem
  have hrest : a ∈ q.drop n := by
    rw [← List.take_append_drop n q, List.mem_append] at hmem
    exact hmem.resolve_left hpassed
  refine ⟨?_, hlong⟩
  have hwhole : q.idxOf a = (q.take n ++ q.drop n).idxOf a := by rw [List.take_append_drop]
  rw [serve, List.idxOf_append_of_mem hrest, hwhole, List.idxOf_append_of_notMem hpassed,
    List.length_take]
  omega

/-- Who stays does not move back when others leave. -/
theorem idxOf_filter_le (p : α → Bool) (hp : p a = true) : (q.filter p).idxOf a ≤ q.idxOf a := by
  induction q with
  | nil => exact le_rfl
  | cons b q ih =>
      by_cases hb : b = a
      · subst hb
        rw [List.filter_cons_of_pos hp, List.idxOf_cons_self]
        exact Nat.zero_le _
      · rw [List.idxOf_cons_ne _ hb]
        by_cases hpb : p b = true
        · rw [List.filter_cons_of_pos hpb, List.idxOf_cons_ne _ hb]
          exact Nat.succ_le_succ ih
        · rw [List.filter_cons_of_neg hpb]
          exact Nat.le_succ_of_le ih

theorem idxOf_erase_le (hne : b ≠ a) : (q.erase b).idxOf a ≤ q.idxOf a := by
  induction q with
  | nil => exact le_rfl
  | cons c q ih =>
      by_cases hc : c = b
      · subst hc
        rw [List.erase_cons_head, List.idxOf_cons_ne _ hne]
        exact Nat.le_succ _
      · rw [List.erase_cons_tail (by simpa using hc)]
        by_cases hca : c = a
        · subst hca
          rw [List.idxOf_cons_self, List.idxOf_cons_self]
        · rw [List.idxOf_cons_ne _ hca, List.idxOf_cons_ne _ hca]
          exact Nat.succ_le_succ ih

end Queue

namespace Sys

variable {σ α ε : Type} {S : Sys σ α ε}

/-- Every round doubles the size of a round and moves the waiter up by the old size;
nothing else changes the size or moves the waiter back. -/
theorem rounds_double {ok : σ → α → Prop} {size place : σ → Nat} {isRound : α → Bool}
    (hround : ∀ s a, ok s a → isRound a = true → Post (S.exec s a) fun s' =>
      size s' = size s * 2 ∧ place s' + size s ≤ place s)
    (hother : ∀ s a, ok s a → isRound a = false → Post (S.exec s a) fun s' =>
      size s' = size s ∧ place s' ≤ place s)
    {s : σ} {acts : List α} (hacts : S.Meets ok s acts) :
    Post (S.runFrom s acts) fun _ =>
      size s * 2 ^ acts.countP isRound ≤ place s + size s := by
  induction acts generalizing s with
  | nil =>
      refine .ok ?_
      rw [List.countP_nil, pow_zero, Nat.mul_one]
      exact Nat.le_add_left _ _
  | cons a as ih =>
      obtain ⟨hok, hrest⟩ := meets_cons.mp hacts
      rw [runFrom_cons]
      intro s'' hrun
      obtain ⟨s', hexec, hrun⟩ := bind_eq_ok hrun
      have hbound := ih (hrest s' hexec) s'' hrun
      cases ha : isRound a with
      | true =>
          obtain ⟨hsize, hplace⟩ := hround s a hok ha s' hexec
          rw [hsize] at hbound
          rw [List.countP_cons_of_pos ha, pow_succ, Nat.mul_comm (2 ^ _), ← Nat.mul_assoc]
          omega
      | false =>
          obtain ⟨hsize, hplace⟩ := hother s a hok ha s' hexec
          rw [hsize] at hbound
          rw [List.countP_cons_of_neg (by rw [ha]; simp)]
          omega

/-- A run some step of which does not meet the condition has a first such step. -/
theorem exists_of_not_meets {ok : σ → α → Prop} {s : σ} {acts : List α}
    (hacts : ¬ S.Meets ok s acts) :
    ∃ pre a post t, acts = pre ++ a :: post ∧ S.runFrom s pre = .ok t ∧ S.Meets ok s pre ∧
      ¬ ok t a := by
  induction acts generalizing s with
  | nil => exact absurd (meets_nil _ _) hacts
  | cons a as ih =>
      by_cases hok : ok s a
      · rw [meets_cons, not_and] at hacts
        have hrest := hacts hok
        rw [not_forall] at hrest
        obtain ⟨s', hrest⟩ := hrest
        obtain ⟨hexec, hrest⟩ := not_forall.mp hrest
        obtain ⟨pre, b, post, t, rfl, hrun, hmeets, hnot⟩ := ih hrest
        refine ⟨a :: pre, b, post, t, rfl, ?_, ?_, hnot⟩
        · rw [runFrom_cons, hexec]
          exact hrun
        · refine meets_cons.mpr ⟨hok, fun s'' hexec' => ?_⟩
          obtain rfl := Except.ok.inj (hexec.symm.trans hexec')
          exact hmeets
      · exact ⟨[], a, as, s, rfl, rfl, meets_nil _ _, hok⟩

end Sys
end Muduo.Lib
