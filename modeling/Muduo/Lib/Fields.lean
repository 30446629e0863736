import Mathlib.Tactic
import Mathlib.Data.Char
import Mathlib.Data.Prod.Lex
import Muduo.Lib.Format

/-!
# Texts of fixed fields

`%4d` and `%02d` print a number with a least width. Where a number is not negative and
fits, its text has exactly this width, and the texts stand in the order of the numbers:
both a blank and a zero come before the digits that can stand there.

`FieldOf` is what such texts have in common. Fields that follow each other, with or without
text of their own between them, make a field again, in the lexicographic order; a number
that is cut into quotient and remainder keeps its order.
-/

namespace Muduo.Lib

/-- `%wd`. -/
def spacePadded (w : Nat) (x : Int) : List Char := (decimal x).leftpad w ' '

/-- `%0wd`: the zeros stand behind the sign. -/
def zeroPadded (w : Nat) (x : Int) : List Char :=
  if x < 0 then '-' :: (Nat.toDigits 10 x.natAbs).leftpad (w - 1) '0'
  else (Nat.toDigits 10 x.natAbs).leftpad w '0'

/-! ## Comparing texts -/

/-- Texts whose first parts are of one length are compared part by part. -/
theorem append_lt_iff {a a' : List Char} (h : a.length = a'.length) (b b' : List Char) :
    a ++ b < a' ++ b' ↔ a < a' ∨ a = a' ∧ b < b' := by
  induction a generalizing a' with
  | nil =>
      obtain rfl : a' = [] := List.length_eq_zero_iff.mp h.symm
      simp
  | cons x xs ih =>
      cases a' with
      | nil => exact absurd h (by simp)
      | cons y ys =>
          have hlen : xs.length = ys.length := by simpa using h
          rw [List.cons_append, List.cons_append, List.cons_lt_cons_iff, List.cons_lt_cons_iff,
            ih hlen, List.cons.injEq]
          tauto

theorem digitChar_lt_iff {a b : Nat} (ha : a < 10) (hb : b < 10) :
    a.digitChar < b.digitChar ↔ a < b := by
  interval_cases a <;> interval_cases b <;> decide

/-! ## Fields -/

/-- The texts have `w` characters, and stand in the order of what they are texts of. -/
structure FieldOf {α : Type} [LinearOrder α] (P : α → Prop) (w : Nat) (f : α → List Char) :
    Prop where
  length : ∀ x, P x → (f x).length = w
  lt_iff : ∀ x y, P x → P y → (f x < f y ↔ x < y)

namespace FieldOf

variable {α β : Type} [LinearOrder α] [LinearOrder β] {P : α → Prop} {Q : β → Prop} {w v : Nat}
  {f : α → List Char} {g : β → List Char}

/-- Different values have different texts. -/
theorem eq_iff (h : FieldOf P w f) {x y : α} (hx : P x) (hy : P y) : f x = f y ↔ x = y := by
  constructor
  · intro heq
    have hnot : ¬ x < y := by
      rw [← h.lt_iff x y hx hy, heq]
      exact List.lt_irrefl _
    have hnot' : ¬ y < x := by
      rw [← h.lt_iff y x hy hx, heq]
      exact List.lt_irrefl _
    exact le_antisymm (not_lt.mp hnot') (not_lt.mp hnot)
  · rintro rfl
    rfl

/-- The same texts, where it matters. -/
theorem congr (h : FieldOf P w f) {f' : α → List Char} (heq : ∀ x, P x → f' x = f x) :
    FieldOf P w f' := by
  refine ⟨fun x hx => ?_, fun x y hx hy => ?_⟩
  · rw [heq x hx, h.length x hx]
  · rw [heq x hx, heq y hy, h.lt_iff x y hx hy]

/-- A text in front of a field. -/
theorem sep (h : FieldOf P w f) (s : List Char) :
    FieldOf P (s.length + w) fun x => s ++ f x := by
  refine ⟨fun x hx => ?_, fun x y hx hy => ?_⟩
  · rw [List.length_append, h.length x hx]
  · rw [append_lt_iff rfl, h.lt_iff x y hx hy]
    simp

/-- One field after the other. -/
theorem append (hf : FieldOf P w f) (hg : FieldOf Q v g) :
    FieldOf (fun p : α ×ₗ β => P (ofLex p).1 ∧ Q (ofLex p).2) (w + v)
      fun p => f (ofLex p).1 ++ g (ofLex p).2 := by
  refine ⟨fun p hp => ?_, fun p q hp hq => ?_⟩
  · rw [List.length_append, hf.length _ hp.1, hg.length _ hp.2]
  · have hlen : (f (ofLex p).1).length = (f (ofLex q).1).length := by
      rw [hf.length _ hp.1, hf.length _ hq.1]
    rw [append_lt_iff hlen, hf.lt_iff _ _ hp.1 hq.1, hf.eq_iff hp.1 hq.1,
      hg.lt_iff _ _ hp.2 hq.2]
    exact Prod.Lex.lt_iff.symm

/-- The same field, of what the values are computed from. -/
theorem comap (h : FieldOf P w f) {e : β → α} (hP : ∀ x, Q x → P (e x))
    (he : ∀ x y, Q x → Q y → (e x < e y ↔ x < y)) : FieldOf Q w fun x => f (e x) :=
  ⟨fun x hx => h.length _ (hP x hx),
    fun x y hx hy => (h.lt_iff _ _ (hP x hx) (hP y hy)).trans (he x y hx hy)⟩

/-- The quotient and the remainder by a fixed number. -/
theorem divMod {P Q : Int → Prop} {f g : Int → List Char} {k : Int} (hk : 0 < k)
    (hf : FieldOf P w f) (hg : FieldOf Q v g) (hQ : ∀ r, 0 ≤ r → r < k → Q r) :
    FieldOf (fun x => P (x / k)) (w + v) fun x => f (x / k) ++ g (x % k) := by
  refine (hf.append hg).comap (e := fun x => toLex (x / k, x % k)) ?_ ?_
  · intro x hx
    exact ⟨hx, hQ _ (Int.emod_nonneg x hk.ne') (Int.emod_lt_of_pos x hk)⟩
  · intro x y _ _
    have hx := Int.mul_ediv_add_emod x k
    have hy := Int.mul_ediv_add_emod y k
    have hx₀ := Int.emod_nonneg x hk.ne'
    have hy₀ := Int.emod_nonneg y hk.ne'
    have hx₁ := Int.emod_lt_of_pos x hk
    have hy₁ := Int.emod_lt_of_pos y hk
    rw [Prod.Lex.toLex_lt_toLex]
    show x / k < y / k ∨ x / k = y / k ∧ x % k < y % k ↔ x < y
    constructor
    · rintro (hlt | ⟨heq, hlt⟩)
      · have hmul : k * (x / k + 1) ≤ k * (y / k) := Int.mul_le_mul_of_nonneg_left hlt hk.le
        rw [mul_add, mul_one] at hmul
        omega
      · rw [heq] at hx
        omega
    · intro hlt
      have hle : x / k ≤ y / k := Int.ediv_le_ediv hk hlt.le
      rcases hle.lt_or_eq with hlt' | heq
      · exact .inl hlt'
      · refine .inr ⟨heq, ?_⟩
        rw [heq] at hx
        omega

end FieldOf

/-! ## Numbers -/

/-- The digits of a number aligned to the right, of zero none. -/
def lead (pad : Char) : Nat → Nat → List Char
  | 0, _ => []
  | w + 1, n =>
      if n = 0 then List.replicate (w + 1) pad else lead pad w (n / 10) ++ [Nat.digitChar (n % 10)]

section Numbers

variable {pad : Char} {w : Nat}

theorem length_lead (pad : Char) (w n : Nat) : (lead pad w n).length = w := by
  induction w generalizing n with
  | zero => rfl
  | succ w ih =>
      unfold lead
      split
      · exact List.length_replicate
      · rw [List.length_append, ih]
        rfl

theorem lead_zero (pad : Char) (w : Nat) : lead pad w 0 = List.replicate w pad := by
  cases w with
  | zero => rfl
  | succ w => exact if_pos rfl

theorem lead_succ (w : Nat) {n : Nat} (hn : n ≠ 0) :
    lead pad (w + 1) n = lead pad w (n / 10) ++ [Nat.digitChar (n % 10)] := if_neg hn

/-- Nothing but padding comes before every number. -/
theorem lead_zero_lt (hpad : pad ≤ '0') {m : Nat} (hpos : 0 < m) (hm : m < 10 ^ w) :
    lead pad w 0 < lead pad w m := by
  induction w generalizing m with
  | zero => omega
  | succ w ih =>
      have hsplit : lead pad (w + 1) 0 = lead pad w 0 ++ [pad] := by
        rw [lead_zero, lead_zero, List.replicate_succ']
      rw [hsplit, lead_succ w hpos.ne',
        append_lt_iff ((length_lead _ _ _).trans (length_lead _ _ _).symm)]
      rcases Nat.eq_zero_or_pos (m / 10) with hzero | hpos'
      · refine .inr ⟨by rw [hzero], ?_⟩
        rw [List.cons_lt_cons_iff]
        refine .inl (hpad.trans_lt ?_)
        exact (digitChar_lt_iff (a := 0) (by decide) (Nat.mod_lt _ (by decide))).mpr (by omega)
      · refine .inl (ih hpos' ?_)
        rw [Nat.pow_succ] at hm
        omega

/-- Where the digits before the last are in order, or the same, the last one decides. -/
theorem lead_append_lt {n m : Nat} (hlt : n < m)
    (hlead : n / 10 < m / 10 → lead pad w (n / 10) < lead pad w (m / 10)) :
    lead pad w (n / 10) ++ [Nat.digitChar (n % 10)] <
      lead pad w (m / 10) ++ [Nat.digitChar (m % 10)] := by
  rw [append_lt_iff ((length_lead _ _ _).trans (length_lead _ _ _).symm)]
  rcases Nat.lt_or_ge (n / 10) (m / 10) with hdiv | hdiv
  · exact .inl (hlead hdiv)
  · have heq : n / 10 = m / 10 := by omega
    refine .inr ⟨by rw [heq], ?_⟩
    rw [List.cons_lt_cons_iff]
    exact .inl ((digitChar_lt_iff (by omega) (by omega)).mpr (by omega))

theorem lead_lt_of_lt (hpad : pad ≤ '0') {n m : Nat} (hlt : n < m) (hm : m < 10 ^ w) :
    lead pad w n < lead pad w m := by
  induction w generalizing n m with
  | zero => omega
  | succ w ih =>
      rcases Nat.eq_zero_or_pos n with rfl | hn
      · exact lead_zero_lt hpad hlt hm
      · rw [lead_succ w hn.ne', lead_succ w (by omega)]
        rw [Nat.pow_succ] at hm
        exact lead_append_lt hlt fun hdiv => ih hdiv (by omega)

/-- The text of a number: its last digit, and the others aligned in front of it. -/
theorem leftpad_toDigits {n : Nat} (hn : n < 10 ^ (w + 1)) :
    (Nat.toDigits 10 n).leftpad (w + 1) pad = lead pad w (n / 10) ++ [Nat.digitChar (n % 10)] := by
  induction w generalizing n with
  | zero =>
      have hn' : n < 10 := by omega
      rw [Nat.toDigits_of_lt_base hn', Nat.mod_eq_of_lt hn']
      rfl
  | succ w ih =>
      rcases Nat.lt_or_ge n 10 with hlt | hge
      · rw [Nat.toDigits_of_lt_base hlt, Nat.mod_eq_of_lt hlt, Nat.div_eq_of_lt hlt, lead_zero]
        rfl
      · have hdiv : n / 10 < 10 ^ (w + 1) := by
          rw [Nat.pow_succ] at hn
          omega
        rw [Nat.toDigits_of_base_le (by decide) hge, lead_succ w (by omega), ← ih hdiv]
        unfold List.leftpad
        rw [List.length_append, List.length_singleton, Nat.add_sub_add_right, List.append_assoc]

/-- **A number that is not negative and fits its width is a field.** -/
theorem leftpad_fieldOf (hpad : pad ≤ '0') (w : Nat) :
    FieldOf (fun x : Int => 0 ≤ x ∧ x < 10 ^ (w + 1)) (w + 1) fun x =>
      (Nat.toDigits 10 x.natAbs).leftpad (w + 1) pad := by
  have hfits : ∀ x : Int, 0 ≤ x ∧ x < 10 ^ (w + 1) → x.natAbs < 10 ^ (w + 1) := by
    intro x hx
    have hcast : ((10 ^ (w + 1) : Nat) : Int) = 10 ^ (w + 1) := by push_cast; rfl
    omega
  have hlength : ∀ x : Int, 0 ≤ x ∧ x < 10 ^ (w + 1) →
      ((Nat.toDigits 10 x.natAbs).leftpad (w + 1) pad).length = w + 1 := by
    intro x hx
    rw [leftpad_toDigits (hfits x hx), List.length_append, length_lead]
    rfl
  have hlt : ∀ x y : Int, 0 ≤ x ∧ x < 10 ^ (w + 1) → 0 ≤ y ∧ y < 10 ^ (w + 1) → x < y →
      (Nat.toDigits 10 x.natAbs).leftpad (w + 1) pad <
        (Nat.toDigits 10 y.natAbs).leftpad (w + 1) pad := by
    intro x y hx hy hxy
    have hx' := hfits x hx
    have hy' := hfits y hy
    have hxy' : x.natAbs < y.natAbs := by omega
    rw [leftpad_toDigits hx', leftpad_toDigits hy']
    rw [Nat.pow_succ] at hy'
    exact lead_append_lt hxy' fun hdiv => lead_lt_of_lt hpad hdiv (by omega)
  refine ⟨hlength, fun x y hx hy => ⟨fun htext => ?_, hlt x y hx hy⟩⟩
  by_contra hnot
  rcases (not_lt.mp hnot).lt_or_eq with hgt | heq
  · exact List.lt_asymm htext (hlt y x hy hx hgt)
  · rw [heq] at htext
    exact List.lt_irrefl _ htext

theorem zeroPadded_fieldOf (w : Nat) :
    FieldOf (fun x : Int => 0 ≤ x ∧ x < 10 ^ (w + 1)) (w + 1) (zeroPadded (w + 1)) := by
  refine (leftpad_fieldOf (show '0' ≤ '0' from le_rfl) w).congr fun x hx => ?_
  exact if_neg hx.1.not_gt

theorem spacePadded_fieldOf (w : Nat) :
    FieldOf (fun x : Int => 0 ≤ x ∧ x < 10 ^ (w + 1)) (w + 1) (spacePadded (w + 1)) := by
  refine (leftpad_fieldOf (show ' ' ≤ '0' by decide) w).congr fun x hx => ?_
  unfold spacePadded decimal
  rw [if_neg hx.1.not_gt]

end Numbers

/-! ## Signs -/

/-- Zeros in front do not change the number. -/
theorem leftpad_zero_injective (w : Nat) :
    Function.Injective fun n => (Nat.toDigits 10 n).leftpad w '0' := by
  intro n m h
  have hback := congrArg (fun digits => Nat.ofDigitChars 10 digits 0) h
  simpa [List.leftpad, Nat.ofDigitChars_append] using hback

theorem isDigit_of_mem_leftpad {w n : Nat} {c : Char}
    (h : c ∈ (Nat.toDigits 10 n).leftpad w '0') : c.isDigit = true := by
  rcases List.mem_append.mp h with h | h
  · rw [List.eq_of_mem_replicate h]
    rfl
  · exact Nat.isDigit_of_mem_toDigits (by decide) (by decide) h

/-- A number that is not negative has no sign. -/
theorem sign_notMem_zeroPadded {w : Nat} {x : Int} (hx : 0 ≤ x) : '-' ∉ zeroPadded w x := by
  unfold zeroPadded
  rw [if_neg hx.not_gt]
  intro h
  exact absurd (isDigit_of_mem_leftpad h) (by decide)

theorem sign_notMem_spacePadded {w : Nat} {x : Int} (hx : 0 ≤ x) : '-' ∉ spacePadded w x := by
  unfold spacePadded decimal
  rw [if_neg hx.not_gt]
  intro h
  rcases List.mem_append.mp h with h | h
  · exact absurd (List.eq_of_mem_replicate h) (by decide)
  · exact absurd (Nat.isDigit_of_mem_toDigits (by decide) (by decide) h) (by decide)

/-- Of any sign, a number is known from its text. -/
theorem zeroPadded_injective (w : Nat) : Function.Injective (zeroPadded w) := by
  have hsign : ∀ (cs : List Char) (n : Nat), '-' :: cs ≠ (Nat.toDigits 10 n).leftpad w '0' := by
    intro cs n h
    have hmem : '-' ∈ (Nat.toDigits 10 n).leftpad w '0' := by
      rw [← h]
      exact List.mem_cons_self
    exact absurd (isDigit_of_mem_leftpad hmem) (by decide)
  intro x y h
  unfold zeroPadded at h
  split at h
  · split at h
    · have habs := leftpad_zero_injective (w - 1) (List.cons.inj h).2
      omega
    · exact absurd h (hsign _ _)
  · split at h
    · exact absurd h.symm (hsign _ _)
    · have habs := leftpad_zero_injective w h
      omega

/-- With its sign, a number of at most `w` digits takes `w + 1` characters. -/
theorem length_zeroPadded_le {w : Nat} (hw : 0 < w) {x : Int} (h : x.natAbs < 10 ^ w) :
    (zeroPadded w x).length ≤ w + 1 := by
  have hdigits := (Nat.length_toDigits_le_iff (b := 10) (by decide) hw).mpr h
  unfold zeroPadded
  split
  · rw [List.length_cons, List.length_leftpad]
    omega
  · rw [List.length_leftpad]
    omega

theorem length_decimal_le_succ {k : Nat} (hk : 0 < k) {x : Int} (h : x.natAbs < 10 ^ k) :
    (decimal x).length ≤ k + 1 := by
  have hdigits := (Nat.length_toDigits_le_iff (b := 10) (by decide) hk).mpr h
  unfold decimal
  split
  · exact Nat.succ_le_succ hdigits
  · omega

theorem eq_sign_or_isDigit {x : Int} {c : Char} (h : c ∈ decimal x) :
    c = '-' ∨ c.isDigit = true := by
  have hdigit : ∀ {c : Char}, c ∈ Nat.toDigits 10 x.natAbs → c.isDigit = true :=
    fun h => Nat.isDigit_of_mem_toDigits (by decide) (by decide) h
  unfold decimal at h
  split at h
  · rcases List.mem_cons.mp h with rfl | h
    · exact .inl rfl
    · exact .inr (hdigit h)
  · exact .inr (hdigit h)

end Muduo.Lib
