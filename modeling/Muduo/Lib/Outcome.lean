import Mathlib.Tactic

/-!
# Outcomes of code with assertions

A function whose body contains `assert`s is modelled as `Except ε α`: the
error is the assertion (or the memory fault) that stops the program, the value
is what it returns. Three readings of such an outcome are used:

* `Lands x P` — the code returns and its result satisfies `P` (total reading:
  no assertion fails);
* `Post x P` — if the code returns, its result satisfies `P` (the reading for
  statements that hold up to the point where an assertion stops the program).

* `Ends x P Q` — the code returns with `P`, or an assertion satisfying `Q` stops
  it (for statements that say which assertions can fail).

All come with the rules for `pure`, `bind` and `check`, so that a proof about
a body follows the body's own sequence of statements.
-/

namespace Muduo.Lib

variable {ε α β : Type}

/-- `assert(c)`: stop with `e` when `c` is false. -/
def check (e : ε) (c : Prop) [Decidable c] : Except ε Unit :=
  if c then .ok () else .error e

/-- The code returns, with a result satisfying `P`. -/
def Lands (x : Except ε α) (P : α → Prop) : Prop :=
  ∃ a, x = .ok a ∧ P a

/-- Whatever the code returns satisfies `P`. -/
def Post (x : Except ε α) (P : α → Prop) : Prop :=
  ∀ a, x = .ok a → P a

instance decidableLands (P : α → Prop) [DecidablePred P] :
    ∀ x : Except ε α, Decidable (Lands x P)
  | .ok a => decidable_of_iff (P a) (by simp [Lands])
  | .error _ => .isFalse (by simp [Lands])

instance decidablePost (P : α → Prop) [DecidablePred P] :
    ∀ x : Except ε α, Decidable (Post x P)
  | .ok a => decidable_of_iff (P a) (by simp [Post])
  | .error _ => .isTrue (by simp [Post])

@[simp] theorem check_of (e : ε) {c : Prop} [Decidable c] (h : c) :
    check e c = .ok () := if_pos h

@[simp] theorem check_of_not (e : ε) {c : Prop} [Decidable c] (h : ¬ c) :
    check e c = .error e := if_neg h

theorem check_eq_ok {e : ε} {c : Prop} [Decidable c] {u : Unit}
    (h : check e c = .ok u) : c := by
  by_contra hc
  rw [check_of_not e hc] at h
  exact absurd h (by simp)

@[simp] theorem ok_bind (a : α) (f : α → Except ε β) :
    ((Except.ok a : Except ε α) >>= f) = f a := rfl

@[simp] theorem error_bind (e : ε) (f : α → Except ε β) :
    ((Except.error e : Except ε α) >>= f) = .error e := rfl

/-- Peel the first statement off a sequence that returned. -/
theorem bind_eq_ok {x : Except ε α} {f : α → Except ε β} {b : β}
    (h : (x >>= f) = .ok b) : ∃ a, x = .ok a ∧ f a = .ok b := by
  cases x with
  | error e => exact absurd h (by simp)
  | ok a => exact ⟨a, rfl, h⟩

/-- A sequence stops at its first statement or after it. -/
theorem bind_eq_error {x : Except ε α} {f : α → Except ε β} {e : ε}
    (h : (x >>= f) = .error e) : x = .error e ∨ ∃ a, x = .ok a ∧ f a = .error e := by
  cases x with
  | error e' => exact .inl (congrArg Except.error (Except.error.inj h))
  | ok a => exact .inr ⟨a, rfl, h⟩

theorem mapError_eq_ok {δ : Type} {x : Except ε α} {f : ε → δ} {a : α}
    (h : x.mapError f = .ok a) : x = .ok a := by
  cases x with
  | error e => exact absurd h (by simp [Except.mapError])
  | ok b => simpa [Except.mapError] using h

theorem mapError_eq_error {δ : Type} {x : Except ε α} {f : ε → δ} {e' : δ}
    (h : x.mapError f = .error e') : ∃ e, x = .error e ∧ e' = f e := by
  cases x with
  | error e => exact ⟨e, rfl, (Except.error.inj h).symm⟩
  | ok a => exact absurd h (by simp [Except.mapError])

/-! ## The total reading -/

theorem Lands.ok {a : α} {P : α → Prop} (h : P a) :
    Lands (Except.ok a : Except ε α) P := ⟨a, rfl, h⟩

theorem Lands.mono {x : Except ε α} {P Q : α → Prop} (h : Lands x P)
    (hpq : ∀ a, P a → Q a) : Lands x Q := by
  obtain ⟨a, hx, ha⟩ := h
  exact ⟨a, hx, hpq a ha⟩

theorem Lands.bind {x : Except ε α} {f : α → Except ε β} {P : α → Prop}
    {Q : β → Prop} (hx : Lands x P) (hf : ∀ a, P a → Lands (f a) Q) :
    Lands (x >>= f) Q := by
  obtain ⟨a, rfl, ha⟩ := hx
  exact hf a ha

/-- An assertion that holds is passed. -/
theorem Lands.check_bind {e : ε} {c : Prop} [Decidable c]
    {f : Unit → Except ε β} {Q : β → Prop} (hc : c) (hf : Lands (f ()) Q) :
    Lands (check e c >>= f) Q := by
  rw [check_of e hc]
  exact hf

theorem Lands.post {x : Except ε α} {P : α → Prop} (h : Lands x P) : Post x P := by
  obtain ⟨a, rfl, ha⟩ := h
  intro b hb
  injection hb with hb
  exact hb ▸ ha

/-- Code that lands has every partial property as well. -/
theorem Lands.and {x : Except ε α} {P Q : α → Prop} (h : Lands x P) (h' : Post x Q) :
    Lands x fun a => P a ∧ Q a := by
  obtain ⟨a, hx, ha⟩ := h
  exact ⟨a, hx, ha, h' a hx⟩

theorem Lands.mapError {δ : Type} {x : Except ε α} {P : α → Prop} (h : Lands x P) (f : ε → δ) :
    Lands (x.mapError f) P := by
  obtain ⟨a, rfl, ha⟩ := h
  exact .ok ha

/-- The result of code that is known to return. -/
def Lands.value {x : Except ε α} {P : α → Prop} (h : Lands x P) : α :=
  match x, h with
  | .ok a, _ => a
  | .error _, h => absurd h (by rintro ⟨a, ha, -⟩; cases ha)

theorem Lands.eq_value {x : Except ε α} {P : α → Prop} (h : Lands x P) :
    x = .ok h.value ∧ P h.value := by
  obtain ⟨a, rfl, ha⟩ := h
  exact ⟨rfl, ha⟩

/-! ## The partial reading -/

theorem Post.ok {a : α} {P : α → Prop} (h : P a) :
    Post (Except.ok a : Except ε α) P := (Lands.ok h).post

theorem Post.mono {x : Except ε α} {P Q : α → Prop} (h : Post x P)
    (hpq : ∀ a, P a → Q a) : Post x Q := fun a ha => hpq a (h a ha)

theorem Post.bind {x : Except ε α} {f : α → Except ε β} {P : α → Prop}
    {Q : β → Prop} (hx : Post x P) (hf : ∀ a, P a → Post (f a) Q) :
    Post (x >>= f) Q := by
  intro b hb
  obtain ⟨a, ha, hfa⟩ := bind_eq_ok hb
  exact hf a (hx a ha) b hfa

/-- Past an assertion, its condition is known. -/
theorem Post.check_bind {e : ε} {c : Prop} [Decidable c]
    {f : Unit → Except ε β} {Q : β → Prop} (hf : c → Post (f ()) Q) :
    Post (check e c >>= f) Q := by
  intro b hb
  obtain ⟨u, hu, hfu⟩ := bind_eq_ok hb
  exact hf (check_eq_ok hu) b hfu

/-! ## The two-sided reading -/

/-- The code returns with `P`, or stops with `Q`. -/
def Ends (x : Except ε α) (P : α → Prop) (Q : ε → Prop) : Prop :=
  Post x P ∧ ∀ e, x = .error e → Q e

section Ends

variable {P : α → Prop} {Q : ε → Prop}

theorem Ends.ok {a : α} (h : P a) : Ends (Except.ok a : Except ε α) P Q :=
  ⟨.ok h, fun _ he => absurd he (by simp)⟩

theorem Ends.mono {P' : α → Prop} {x : Except ε α} (h : Ends x P Q) (hp : ∀ a, P a → P' a) :
    Ends x P' Q :=
  ⟨h.1.mono hp, h.2⟩

theorem Ends.bind {x : Except ε α} {f : α → Except ε β} {R : β → Prop} (hx : Ends x P Q)
    (hf : ∀ a, P a → Ends (f a) R Q) : Ends (x >>= f) R Q := by
  refine ⟨hx.1.bind fun a ha => (hf a ha).1, fun e he => ?_⟩
  rcases bind_eq_error he with he | ⟨a, ha, he⟩
  · exact hx.2 e he
  · exact (hf a (hx.1 a ha)).2 e he

theorem Ends.check_bind {e : ε} {c : Prop} [Decidable c] {f : Unit → Except ε β} {R : β → Prop}
    (hstop : ¬ c → Q e) (hf : c → Ends (f ()) R Q) : Ends (check e c >>= f) R Q := by
  by_cases hc : c
  · rw [check_of e hc]
    exact hf hc
  · rw [check_of_not e hc]
    refine ⟨fun b hb => absurd hb (by simp), fun e' he => ?_⟩
    exact Except.error.inj he ▸ hstop hc

theorem Lands.ends {x : Except ε α} (h : Lands x P) : Ends x P Q := by
  obtain ⟨a, rfl, ha⟩ := h
  exact .ok ha

/-- Where each outcome is right exactly if `g` holds, ending well is `g`. -/
theorem Ends.iff {g : Prop} {x : Except ε α}
    (h : Ends x (fun a => P a ↔ g) fun e => Q e ↔ g) : Ends x P Q ↔ g := by
  cases x with
  | ok a =>
      constructor
      · intro hends
        exact (h.1 a rfl).mp (hends.1 a rfl)
      · exact fun hg => .ok ((h.1 a rfl).mpr hg)
  | error e =>
      constructor
      · intro hends
        exact (h.2 e rfl).mp (hends.2 e rfl)
      · intro hg
        refine ⟨fun a ha => absurd ha (by simp), fun e' he => ?_⟩
        exact Except.error.inj he ▸ (h.2 e rfl).mpr hg

/-- The assertions of a callee, under the caller's name for them. -/
theorem Post.ends_mapError {δ : Type} {x : Except ε α} (h : Post x P) {f : ε → δ} {Q : δ → Prop}
    (hf : ∀ e, Q (f e)) : Ends (x.mapError f) P Q := by
  cases x with
  | ok a => exact .ok (h a rfl)
  | error e =>
      refine ⟨fun a ha => absurd ha (by simp [Except.mapError]), fun e' he => ?_⟩
      exact Except.error.inj he ▸ hf e

end Ends

end Muduo.Lib
