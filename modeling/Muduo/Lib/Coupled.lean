import Muduo.Lib.System

/-!
# Two systems side by side

`S.prod T` takes each step in both systems. A partial machine `f` is a step
function that has no step for some labels: it accepts a list of labels when it
has a step for each of them in turn. When a system keeps a property exactly
along the steps the machine has, the runs that keep it at every point are the
ones the machine accepts (`always_lands_iff`).
-/

namespace Muduo.Lib
namespace Sys

variable {σ σ' τ α ε : Type}

/-- Both systems take every step, the first system first. -/
def prod (S : Sys σ α ε) (T : Sys σ' α ε) : Sys (σ × σ') α ε where
  enabled s a := S.enabled s.1 a ∧ T.enabled s.2 a
  exec s a := do
    let s₁ ← S.exec s.1 a
    let s₂ ← T.exec s.2 a
    return (s₁, s₂)

section Product

variable {S : Sys σ α ε} {T : Sys σ' α ε}

theorem prod_exec {s s' : σ × σ'} {a : α} :
    (S.prod T).exec s a = .ok s' ↔ S.exec s.1 a = .ok s'.1 ∧ T.exec s.2 a = .ok s'.2 := by
  constructor
  · intro hexec
    obtain ⟨s₁, h₁, hexec⟩ := bind_eq_ok hexec
    obtain ⟨s₂, h₂, hexec⟩ := bind_eq_ok hexec
    obtain rfl := Except.ok.inj hexec
    exact ⟨h₁, h₂⟩
  · rintro ⟨h₁, h₂⟩
    show (S.exec s.1 a >>= fun s₁ => T.exec s.2 a >>= fun s₂ => Except.ok (s₁, s₂)) = .ok s'
    rw [h₁, ok_bind, h₂, ok_bind]

/-- The runs of the product are the runs of the two on the same labels. -/
theorem prod_runFrom {s s' : σ × σ'} {acts : List α} :
    (S.prod T).runFrom s acts = .ok s' ↔
      S.runFrom s.1 acts = .ok s'.1 ∧ T.runFrom s.2 acts = .ok s'.2 := by
  induction acts generalizing s with
  | nil =>
      rw [runFrom_nil, runFrom_nil, runFrom_nil, Except.ok.injEq, Except.ok.injEq, Except.ok.injEq]
      exact Prod.ext_iff
  | cons a as ih =>
      rw [runFrom_cons, runFrom_cons, runFrom_cons]
      constructor
      · intro hrun
        obtain ⟨s₁, hexec, hrun⟩ := bind_eq_ok hrun
        obtain ⟨h₁, h₂⟩ := prod_exec.mp hexec
        rw [h₁, h₂]
        exact ih.mp hrun
      · rintro ⟨hrun₁, hrun₂⟩
        obtain ⟨s₁, h₁, hrun₁⟩ := bind_eq_ok hrun₁
        obtain ⟨s₂, h₂, hrun₂⟩ := bind_eq_ok hrun₂
        have hexec : (S.prod T).exec s a = .ok (s₁, s₂) := prod_exec.mpr ⟨h₁, h₂⟩
        rw [hexec]
        exact ih.mpr ⟨hrun₁, hrun₂⟩

theorem lands_prod {s : σ} {t : σ'} {acts : List α} {P : σ × σ' → Prop} :
    Lands ((S.prod T).runFrom (s, t) acts) P ↔
      Lands (S.runFrom s acts) fun s₁ => Lands (T.runFrom t acts) fun s₂ => P (s₁, s₂) := by
  constructor
  · rintro ⟨s', hrun, hs'⟩
    obtain ⟨h₁, h₂⟩ := prod_runFrom.mp hrun
    exact ⟨s'.1, h₁, s'.2, h₂, hs'⟩
  · rintro ⟨s₁, h₁, s₂, h₂, hs'⟩
    exact ⟨(s₁, s₂), prod_runFrom.mpr ⟨h₁, h₂⟩, hs'⟩

end Product

section Machine

variable {S : Sys σ α ε}

/-- The machine has a step for every label in turn. -/
def Accepts (f : τ → α → Option τ) (t : τ) (acts : List α) : Prop :=
  (acts.foldlM f t).isSome

instance (f : τ → α → Option τ) (t : τ) (acts : List α) : Decidable (Accepts f t acts) :=
  inferInstanceAs (Decidable (_ = true))

/-- A system that keeps `P` along the steps of the machine, and along no others,
keeps it at every point of a run exactly if the machine accepts the labels. -/
theorem always_lands_iff {R : τ → σ → Prop} {P : σ → Prop} {f : τ → α → Option τ}
    (hkeep : ∀ t s, R t s → P s)
    (hstep : ∀ t s a t', R t s → f t a = some t' → Lands (S.exec s a) (R t'))
    (hstop : ∀ t s a, R t s → f t a = none → ¬ Lands (S.exec s a) P)
    {t : τ} {s : σ} (h : R t s) (acts : List α) :
    (∀ pre, pre <+: acts → Lands (S.runFrom s pre) P) ↔ Accepts f t acts := by
  unfold Accepts
  induction acts generalizing t s with
  | nil =>
      refine iff_of_true (fun pre hpre => ?_) rfl
      rw [List.prefix_nil.mp hpre]
      exact .ok (hkeep t s h)
  | cons a as ih =>
      rw [List.foldlM_cons]
      cases hf : f t a with
      | none =>
          -- the run is over after this step, or `P` is lost by it
          refine iff_of_false (fun hall => hstop t s a h hf ?_) (by simp)
          have hone := hall [a] (List.prefix_append [a] as)
          rw [runFrom_cons] at hone
          obtain ⟨s'', hrun, hs''⟩ := hone
          obtain ⟨s', hexec, hrun⟩ := bind_eq_ok hrun
          obtain rfl := Except.ok.inj hrun
          exact ⟨s', hexec, hs''⟩
      | some t' =>
          obtain ⟨s', hexec, hs'⟩ := hstep t s a t' h hf
          rw [Option.bind_eq_bind, Option.bind_some, ← ih hs']
          constructor
          · intro hall pre hpre
            have := hall (a :: pre) (List.cons_prefix_cons.mpr ⟨rfl, hpre⟩)
            rwa [runFrom_cons, hexec, ok_bind] at this
          · intro hall pre hpre
            cases pre with
            | nil => exact .ok (hkeep t s h)
            | cons b bs =>
                obtain ⟨rfl, hbs⟩ := List.cons_prefix_cons.mp hpre
                rw [runFrom_cons, hexec, ok_bind]
                exact hall bs hbs

end Machine

end Sys
end Muduo.Lib
