import Mathlib.Tactic

/-!
# Formatted text in a fixed buffer

`snprintf` into a buffer of `size` bytes keeps at most `size - 1` characters of the
text. `decimal` is what `%d` prints. A number is recovered from its text as long as
the buffer holds the whole of it.

Of two fields with a separator between them, a cut keeps the first field and what then
fits of the second.
-/

namespace Muduo.Lib

/-- What a buffer of `size` bytes holds after `snprintf` with this text. -/
def snprintf (size : Nat) (text : List Char) : List Char := text.take (size - 1)

theorem snprintf_of_fits {size : Nat} {text : List Char} (h : text.length < size) :
    snprintf size text = text :=
  List.take_of_length_le (by omega)

/-- `%d`. -/
def decimal (x : Int) : List Char :=
  if x < 0 then '-' :: Nat.toDigits 10 x.natAbs else Nat.toDigits 10 x.natAbs

theorem toDigits_injective : Function.Injective (Nat.toDigits 10) := by
  intro m n h
  have hback := congrArg (fun digits => Nat.ofDigitChars 10 digits 0) h
  simpa using hback

/-- No number's digits begin with the sign of another. -/
theorem sign_not_digit (cs : List Char) (n : Nat) : '-' :: cs ≠ Nat.toDigits 10 n := by
  intro h
  have hmem : '-' ∈ Nat.toDigits 10 n := by
    rw [← h]
    exact List.mem_cons_self
  exact absurd (Nat.isDigit_of_mem_toDigits (by decide) (by decide) hmem) (by decide)

theorem decimal_injective : Function.Injective decimal := by
  intro x y h
  unfold decimal at h
  split at h
  · split at h
    · have habs := toDigits_injective (List.cons.inj h).2
      omega
    · exact absurd h (sign_not_digit _ _)
  · split at h
    · exact absurd h.symm (sign_not_digit _ _)
    · have habs := toDigits_injective h
      omega

/-- A number below `10 ^ k` has at most `k` digits. -/
theorem length_decimal_le {n k : Nat} (hk : 0 < k) (h : n < 10 ^ k) :
    (decimal n).length ≤ k := by
  have hpos : ¬ (n : Int) < 0 := by omega
  rw [decimal, if_neg hpos, Int.natAbs_natCast]
  exact (Nat.length_toDigits_le_iff (by decide) hk).mpr h

theorem isDigit_of_mem_decimal {n : Nat} {c : Char} (h : c ∈ decimal n) : c.isDigit = true := by
  have hpos : ¬ (n : Int) < 0 := by omega
  rw [decimal, if_neg hpos, Int.natAbs_natCast] at h
  exact Nat.isDigit_of_mem_toDigits (by decide) (by decide) h

/-- Cut after `n + 1` characters, two texts of two fields agree if their first fields do
and, as far as there is room behind the separator, their second fields. -/
theorem take_fields_eq_iff {α : Type} {sep : α} {first first' : List α} (hsep : sep ∉ first)
    (hsep' : sep ∉ first') (second second' : List α) (n : Nat) :
    (first ++ sep :: second).take (n + 1) = (first' ++ sep :: second').take (n + 1) ↔
      first.take (n + 1) = first'.take (n + 1) ∧
        second.take (n - first.length) = second'.take (n - first.length) := by
  induction first generalizing first' n with
  | nil =>
      cases first' with
      | nil => simp
      | cons y ys =>
          have hne : sep ≠ y := fun h => hsep' (h ▸ List.mem_cons_self)
          simp [hne]
  | cons x xs ih =>
      cases first' with
      | nil =>
          have hne : x ≠ sep := fun h => hsep (h ▸ List.mem_cons_self)
          simp [hne]
      | cons y ys =>
          have hxs : sep ∉ xs := fun h => hsep (List.mem_cons_of_mem x h)
          have hys : sep ∉ ys := fun h => hsep' (List.mem_cons_of_mem y h)
          rw [List.cons_append, List.cons_append, List.take_succ_cons, List.take_succ_cons,
            List.take_succ_cons, List.take_succ_cons, List.cons.injEq, List.cons.injEq]
          cases n with
          | zero => simp
          | succ n =>
              rw [ih hxs hys n, List.length_cons, Nat.add_sub_add_right, and_assoc]

end Muduo.Lib
