import Muduo.Lib.Outcome

/-!
# Arithmetic of `int`

An `int` of 32 bits is an integer in its range. The operations stop where the exact
result is outside it, and division cuts towards zero.

Where the exact results are known to fit, an expression has its exact value: the rules
at the end rewrite it from the inside out.
-/

namespace Muduo.Lib

/-- The largest `int`. -/
def kMaxInt : Int := 2 ^ 31 - 1

/-- The value of an `int`. -/
def Fits (x : Int) : Prop := -2 ^ 31 ≤ x ∧ x ≤ kMaxInt

instance (x : Int) : Decidable (Fits x) := inferInstanceAs (Decidable (_ ∧ _))

inductive IntFault
  | overflow
  | divisionByZero
  deriving DecidableEq, Repr

namespace CInt

def exact (x : Int) : Except IntFault Int := do
  check .overflow (Fits x)
  return x

def add (x y : Int) : Except IntFault Int := exact (x + y)

def sub (x y : Int) : Except IntFault Int := exact (x - y)

def mul (x y : Int) : Except IntFault Int := exact (x * y)

def div (x y : Int) : Except IntFault Int := do
  check .divisionByZero (y ≠ 0)
  exact (x.tdiv y)

def mod (x y : Int) : Except IntFault Int := do
  check .divisionByZero (y ≠ 0)
  -- the remainder of a quotient that does not fit is not defined either
  let _ ← exact (x.tdiv y)
  return x.tmod y

theorem exact_of_fits {x : Int} (h : Fits x) : exact x = .ok x := by
  rw [exact, check_of _ h]
  rfl

/-- An operation that has been passed had a result that fits. -/
theorem exact_bind_eq_ok {α : Type} {x : Int} {f : Int → Except IntFault α} {r : α}
    (h : (exact x >>= f) = .ok r) : Fits x ∧ f x = .ok r := by
  by_cases hx : Fits x
  · rw [exact_of_fits hx] at h
    exact ⟨hx, h⟩
  · rw [exact, check_of_not _ hx] at h
    exact absurd h (by simp)

section Rules

variable {x y : Int}

theorem add_eq (hlow : -2147483648 ≤ x + y) (hhigh : x + y ≤ 2147483647) :
    add x y = .ok (x + y) := exact_of_fits ⟨hlow, hhigh⟩

theorem sub_eq (hlow : -2147483648 ≤ x - y) (hhigh : x - y ≤ 2147483647) :
    sub x y = .ok (x - y) := exact_of_fits ⟨hlow, hhigh⟩

theorem mul_eq (hlow : -2147483648 ≤ x * y) (hhigh : x * y ≤ 2147483647) :
    mul x y = .ok (x * y) := exact_of_fits ⟨hlow, hhigh⟩

/-- Of a dividend that is not negative, the quotient is the rounded one. -/
theorem div_eq (hx : 0 ≤ x) (hhigh : x ≤ 2147483647) (hy : 0 < y) : div x y = .ok (x / y) := by
  have hle := Int.ediv_le_self y hx
  have hnonneg := Int.ediv_nonneg hx hy.le
  rw [div, check_of _ hy.ne', ok_bind, Int.tdiv_eq_ediv_of_nonneg hx]
  exact exact_of_fits ⟨by omega, hle.trans hhigh⟩

theorem mod_eq (hx : 0 ≤ x) (hhigh : x ≤ 2147483647) (hy : 0 < y) : mod x y = .ok (x % y) := by
  have hle := Int.ediv_le_self y hx
  have hnonneg := Int.ediv_nonneg hx hy.le
  rw [mod, check_of _ hy.ne', ok_bind, Int.tdiv_eq_ediv_of_nonneg hx,
    exact_of_fits ⟨by omega, hle.trans hhigh⟩, ok_bind, Int.tmod_eq_emod_of_nonneg hx]
  rfl

end Rules

end CInt

end Muduo.Lib
