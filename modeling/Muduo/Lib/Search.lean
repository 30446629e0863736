import Mathlib.Tactic

/-!
# Searching for a pattern

`search` is `std::search`: the first position at which a pattern occurs. A search that
found nothing need not be done again when the text has grown at its end: a later one may
begin further on, at any position before which the pattern does not occur. In the part
that was searched it can occur only where it reaches into what is new, so the last
`pat.length - 1` places are all that has to be looked at again (`search_resumes_iff`).
-/

namespace Muduo.Lib

/-- Inside the old text nothing changes. -/
theorem occurs_append_iff {α : Type} {pat old new : List α} {i : Nat}
    (h : i + pat.length ≤ old.length) :
    pat <+: (old ++ new).drop i ↔ pat <+: old.drop i := by
  have hle : i ≤ old.length := by omega
  rw [List.drop_append_of_le_length hle]
  constructor
  · intro hocc
    refine List.prefix_of_prefix_length_le hocc (List.prefix_append _ _) ?_
    rw [List.length_drop]
    omega
  · exact fun hocc => hocc.trans (List.prefix_append _ _)

variable {α : Type} [DecidableEq α]

/-- The first position at which `pat` occurs. -/
def search (pat : List α) : List α → Option Nat
  | [] => if pat = [] then some 0 else none
  | x :: xs => if pat <+: x :: xs then some 0 else (search pat xs).map (· + 1)

section Search

variable {pat l old new : List α} {i k : Nat}

theorem search_eq_none_iff (hpat : pat ≠ []) :
    search pat l = none ↔ ∀ i, ¬ pat <+: l.drop i := by
  induction l with
  | nil =>
      refine iff_of_true (if_neg hpat) fun i hpre => hpat ?_
      rw [List.drop_nil] at hpre
      exact List.prefix_nil.mp hpre
  | cons x xs ih =>
      rw [search]
      split
      · rename_i hpre
        exact iff_of_false (by simp) fun hno => hno 0 hpre
      · rename_i hpre
        rw [Option.map_eq_none_iff, ih]
        constructor
        · intro hno i
          cases i with
          | zero => exact hpre
          | succ i => exact hno i
        · exact fun hno i => hno (i + 1)

theorem search_eq_some_iff (hpat : pat ≠ []) :
    search pat l = some i ↔ pat <+: l.drop i ∧ ∀ j, j < i → ¬ pat <+: l.drop j := by
  induction l generalizing i with
  | nil =>
      refine iff_of_false (by simp [search, hpat]) fun hfirst => hpat ?_
      have hpre := hfirst.1
      rw [List.drop_nil] at hpre
      exact List.prefix_nil.mp hpre
  | cons x xs ih =>
      rw [search]
      split
      · rename_i hpre
        rw [Option.some.injEq]
        constructor
        · rintro rfl
          exact ⟨hpre, fun j hj => absurd hj (Nat.not_lt_zero j)⟩
        · rintro ⟨-, hfirst⟩
          by_contra hne
          exact hfirst 0 (Nat.pos_of_ne_zero (Ne.symm hne)) hpre
      · rename_i hpre
        rw [Option.map_eq_some_iff]
        constructor
        · rintro ⟨i, hi, rfl⟩
          obtain ⟨hocc, hfirst⟩ := ih.mp hi
          refine ⟨hocc, fun j hj => ?_⟩
          cases j with
          | zero => exact hpre
          | succ j => exact hfirst j (Nat.lt_of_succ_lt_succ hj)
        · rintro ⟨hocc, hfirst⟩
          cases i with
          | zero => exact absurd hocc hpre
          | succ i =>
              exact ⟨i, ih.mpr ⟨hocc, fun j hj => hfirst (j + 1) (Nat.succ_lt_succ hj)⟩, rfl⟩

/-- What is found fits into the text. -/
theorem search_fits (hpat : pat ≠ []) (h : search pat l = some i) : i + pat.length ≤ l.length := by
  have hlen := ((search_eq_some_iff hpat).mp h).1.length_le
  rw [List.length_drop] at hlen
  have hpos := List.length_pos_of_ne_nil hpat
  omega

/-- A search may begin at `k` if and only if the pattern does not occur before it. -/
theorem search_drop_iff (hpat : pat ≠ []) :
    (search pat (l.drop k)).map (k + ·) = search pat l ↔
      ∀ i, i < k → ¬ pat <+: l.drop i := by
  constructor
  · intro heq i hi hocc
    cases hs : search pat l with
    | none => exact (search_eq_none_iff hpat).mp hs i hocc
    | some j =>
        obtain ⟨-, hfirst⟩ := (search_eq_some_iff hpat).mp hs
        have hji : j ≤ i := by
          by_contra hlt
          exact hfirst i (by omega) hocc
        rw [hs, Option.map_eq_some_iff] at heq
        obtain ⟨j', -, hj'⟩ := heq
        omega
  · intro hno
    cases hs : search pat l with
    | none =>
        rw [Option.map_eq_none_iff, search_eq_none_iff hpat]
        intro i
        rw [List.drop_drop]
        exact (search_eq_none_iff hpat).mp hs (k + i)
    | some j =>
        obtain ⟨hocc, hfirst⟩ := (search_eq_some_iff hpat).mp hs
        have hkj : k ≤ j := by
          by_contra hlt
          exact hno j (by omega) hocc
        refine Option.map_eq_some_iff.mpr ⟨j - k, (search_eq_some_iff hpat).mpr ⟨?_, ?_⟩, ?_⟩
        · rw [List.drop_drop, Nat.add_sub_cancel' hkj]
          exact hocc
        · intro i hi
          rw [List.drop_drop]
          exact hfirst (k + i) (by omega)
        · exact Nat.add_sub_cancel' hkj

/-- **A search may be resumed** at `k` if and only if the pattern does not reach from before
`k` into what was added. -/
theorem search_resumes_iff (hpat : pat ≠ []) (hnone : search pat old = none) :
    (search pat ((old ++ new).drop k)).map (k + ·) = search pat (old ++ new) ↔
      ∀ i, i < k → old.length < i + pat.length → ¬ pat <+: (old ++ new).drop i := by
  rw [search_drop_iff hpat]
  refine forall₂_congr fun i _ => ⟨fun hno _ => hno, fun hno => ?_⟩
  by_cases hreach : old.length < i + pat.length
  · exact hno hreach
  · rw [occurs_append_iff (by omega)]
    exact (search_eq_none_iff hpat).mp hnone i

end Search

end Muduo.Lib
