import Mathlib.Tactic

/-!
# Contiguous storage

`std::vector` storage as a list, with the three things the code does to it:
`std::copy` from an outside range (`copyTo`), `std::copy` of a range of the
vector onto itself (`copyWithin`, one element at a time and front to back, so
overlapping ranges behave as they do in memory), and `resize`. What is read
back is always a `slice`.

Every operation is specified by the element it leaves at each index; the
slices follow. The same is done for the removal that moves the last element into
the hole.
-/

namespace Muduo.Lib.Vec

variable {α : Type}

/-- The `n` elements from index `i` on. -/
def slice (v : List α) (i n : Nat) : List α := (v.drop i).take n

/-- `std::copy(xs.begin(), xs.end(), v.begin() + i)`. -/
def copyTo : List α → Nat → List α → List α
  | v, _, [] => v
  | v, i, x :: xs => copyTo (v.set i x) (i + 1) xs

/-- `std::copy(v.begin() + src, v.begin() + src + n, v.begin() + dst)`. -/
def copyWithin : List α → Nat → Nat → Nat → List α
  | v, _, _, 0 => v
  | v, src, dst, n + 1 =>
      match v[src]? with
      | some x => copyWithin (v.set dst x) (src + 1) (dst + 1) n
      | none => v

/-- `v.resize(n)`: cut the tail, or extend with `fill`. -/
def resize (v : List α) (n : Nat) (fill : α) : List α :=
  v.take n ++ List.replicate (n - v.length) fill

/-! ## Slices -/

theorem getElem?_slice (v : List α) (i n k : Nat) :
    (slice v i n)[k]? = if k < n then v[i + k]? else none := by
  unfold slice
  rw [List.getElem?_take, List.getElem?_drop]

theorem length_slice {v : List α} {i n : Nat} (h : i + n ≤ v.length) :
    (slice v i n).length = n := by
  simp only [slice, List.length_take, List.length_drop]
  omega

@[simp] theorem slice_zero (v : List α) (i : Nat) : slice v i 0 = [] := by
  simp [slice]

/-- Two vectors agreeing on a window have the same slice there. -/
theorem slice_congr {v w : List α} {i j n : Nat}
    (h : ∀ k, k < n → w[j + k]? = v[i + k]?) : slice w j n = slice v i n := by
  apply List.ext_getElem?
  intro k
  rw [getElem?_slice, getElem?_slice]
  split
  · exact h k (by assumption)
  · rfl

/-- Adjacent slices concatenate. -/
theorem slice_add (v : List α) (i m n : Nat) :
    slice v i (m + n) = slice v i m ++ slice v (i + m) n := by
  unfold slice
  rw [List.take_add, List.drop_drop]

theorem drop_slice (v : List α) (i m n : Nat) :
    (slice v i n).drop m = slice v (i + m) (n - m) := by
  unfold slice
  rw [List.drop_take, List.drop_drop]

theorem take_slice (v : List α) (i m n : Nat) :
    (slice v i n).take m = slice v i (min m n) := by
  unfold slice
  rw [List.take_take]

/-! ## Copying from outside -/

@[simp] theorem length_copyTo (v : List α) (i : Nat) (xs : List α) :
    (copyTo v i xs).length = v.length := by
  induction xs generalizing v i with
  | nil => rfl
  | cons x xs ih => simp only [copyTo, ih, List.length_set]

theorem getElem?_copyTo_outside {v xs : List α} {i k : Nat}
    (h : k < i ∨ i + xs.length ≤ k) : (copyTo v i xs)[k]? = v[k]? := by
  induction xs generalizing v i with
  | nil => rfl
  | cons x xs ih =>
      simp only [List.length_cons] at h
      rw [copyTo, ih (by omega)]
      exact List.getElem?_set_ne (by omega)

theorem getElem?_copyTo_inside {v xs : List α} {i k : Nat}
    (hroom : i + xs.length ≤ v.length) (hk : k < xs.length) :
    (copyTo v i xs)[i + k]? = xs[k]? := by
  induction xs generalizing v i k with
  | nil => exact absurd hk (by simp)
  | cons x xs ih =>
      simp only [List.length_cons] at hroom hk
      cases k with
      | zero =>
          rw [copyTo, getElem?_copyTo_outside (.inl (by omega)), Nat.add_zero]
          rw [List.getElem?_set_self (by omega)]
          rfl
      | succ k =>
          have hshift : i + (k + 1) = i + 1 + k := by omega
          rw [copyTo, hshift, ih (by simp only [List.length_set]; omega) (by omega)]
          rfl

theorem slice_copyTo {v xs : List α} {i : Nat} (hroom : i + xs.length ≤ v.length) :
    slice (copyTo v i xs) i xs.length = xs := by
  apply List.ext_getElem?
  intro k
  rw [getElem?_slice]
  split
  · exact getElem?_copyTo_inside hroom (by assumption)
  · rw [List.getElem?_eq_none (by omega)]

/-- A copy leaves the windows it does not meet alone. -/
theorem slice_copyTo_outside {v xs : List α} {i j n : Nat}
    (h : j + n ≤ i ∨ i + xs.length ≤ j) : slice (copyTo v i xs) j n = slice v j n :=
  slice_congr fun k hk => getElem?_copyTo_outside (by omega)

/-! ## Copying onto itself -/

theorem length_copyWithin (v : List α) (src dst n : Nat) :
    (copyWithin v src dst n).length = v.length := by
  induction n generalizing v src dst with
  | zero => rfl
  | succ n ih =>
      unfold copyWithin
      split
      · rw [ih, List.length_set]
      · rfl

/-- Moving towards the front is safe however much the two ranges overlap: an
element is only overwritten after it has been read. -/
theorem getElem?_copyWithin {v : List α} {src dst n : Nat} (hle : dst ≤ src)
    (hroom : src + n ≤ v.length) (k : Nat) :
    (copyWithin v src dst n)[k]? =
      if dst ≤ k ∧ k < dst + n then v[src + (k - dst)]? else v[k]? := by
  induction n generalizing v src dst with
  | zero => rw [copyWithin, if_neg (by omega)]
  | succ n ih =>
      have hsrc : v[src]? = some (v[src]) := List.getElem?_eq_getElem (by omega)
      rw [copyWithin, hsrc]
      simp only
      rw [ih (by omega) (by simp only [List.length_set]; omega)]
      by_cases hk : k = dst
      · subst hk
        rw [if_neg (by omega), if_pos (by omega), List.getElem?_set_self (by omega)]
        rw [Nat.sub_self, Nat.add_zero, hsrc]
      · rw [List.getElem?_set_ne (Ne.symm hk)]
        by_cases hin : dst + 1 ≤ k ∧ k < dst + 1 + n
        · rw [if_pos hin, if_pos (by omega), List.getElem?_set_ne (by omega)]
          congr 1
          omega
        · rw [if_neg hin, if_neg (by omega)]

theorem slice_copyWithin {v : List α} {src dst n : Nat} (hle : dst ≤ src)
    (hroom : src + n ≤ v.length) : slice (copyWithin v src dst n) dst n = slice v src n := by
  apply slice_congr
  intro k hk
  rw [getElem?_copyWithin hle hroom, if_pos (by omega), Nat.add_sub_cancel_left]

/-! ## Resizing -/

@[simp] theorem length_resize (v : List α) (n : Nat) (fill : α) :
    (resize v n fill).length = n := by
  simp only [resize, List.length_append, List.length_take, List.length_replicate]
  omega

/-- Growing keeps every old window. -/
theorem slice_resize {v : List α} {n i m : Nat} (fill : α) (hgrow : v.length ≤ n)
    (hin : i + m ≤ v.length) : slice (resize v n fill) i m = slice v i m := by
  apply slice_congr
  intro k hk
  rw [resize, List.take_of_length_le hgrow, List.getElem?_append_left (by omega)]

/-! ## Giving up an element for the last one -/

/-- Element `k` has been given up for the last one, `a`. -/
theorem getElem?_set_dropLast {l : List α} {k : Nat} {a : α} (i : Nat)
    (hk : k < l.length) :
    (l.set k a).dropLast[i]? =
      if i < l.length - 1 then if i = k then some a else l[i]? else none := by
  rw [List.getElem?_dropLast, List.length_set]
  by_cases hi : i < l.length - 1
  · rw [if_pos hi, if_pos hi, List.getElem?_set]
    by_cases hik : i = k
    · subst hik
      simp [hk]
    · simp [hik, Ne.symm hik]
  · rw [if_neg hi, if_neg hi]

/-- What is given up is the element that was there. -/
theorem perm_set_dropLast {l : List α} {k : Nat} {a last : α} (hk : l[k]? = some a)
    (hlast : l[l.length - 1]? = some last) : l.Perm (a :: (l.set k last).dropLast) := by
  rcases List.eq_nil_or_concat l with rfl | ⟨init, x, rfl⟩
  · exact absurd hk (by simp)
  · rw [List.concat_eq_append] at hk hlast ⊢
    have hx : x = last := by simpa using hlast
    subst hx
    rcases Nat.lt_or_ge k init.length with hlt | hge
    · rw [List.getElem?_append_left hlt] at hk
      obtain ⟨hlt', rfl⟩ := List.getElem?_eq_some_iff.mp hk
      rw [List.set_append_left _ _ hlt, List.dropLast_concat]
      -- both are the other elements with these two
      refine (@List.perm_append_comm _ init [x]).trans ?_
      refine ((List.getElem_cons_eraseIdx_perm hlt').symm.cons x).trans ?_
      refine (List.Perm.swap _ _ _).trans (.cons _ ?_)
      exact (List.set_perm_cons_eraseIdx hlt' x).symm
    · have hend : k = init.length := by
        have := (List.getElem?_eq_some_iff.mp hk).1
        rw [List.length_append, List.length_singleton] at this
        omega
      subst hend
      obtain rfl : x = a := by simpa using hk
      rw [List.set_append_right _ _ le_rfl]
      simp

end Muduo.Lib.Vec
