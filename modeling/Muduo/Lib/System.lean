import Muduo.Lib.Outcome

/-!
# Systems that take steps

A `Sys` is a state type with labelled operations: `enabled s a` says that the
environment may issue `a` in `s`, `exec s a` is what the code then does. The
labels carry every choice the environment makes (the results of system calls,
the thread that moves next), so a run is a list of labels and the state it
reaches is computed by `runFrom`.

A property of "every run" quantifies over all lists of labels: every prefix of
a legal run is a legal run, so what holds at the end of each holds at every
point of each.
-/

namespace Muduo.Lib

/-- A split of a list with a new last element. -/
theorem split_concat {α : Type} {l pre post : List α} {x y : α} (h : l ++ [x] = pre ++ y :: post) :
    (post = [] ∧ l = pre ∧ x = y) ∨ ∃ post', post = post' ++ [x] ∧ l = pre ++ y :: post' := by
  rcases List.eq_nil_or_concat post with rfl | ⟨post', z, rfl⟩
  · obtain ⟨hl, hx⟩ := List.append_inj' h rfl
    exact .inl ⟨rfl, hl, by simpa using hx⟩
  · rw [List.concat_eq_append] at h ⊢
    rw [← List.cons_append, ← List.append_assoc] at h
    obtain ⟨hl, hx⟩ := List.append_inj' h rfl
    obtain rfl : x = z := by simpa using hx
    exact .inr ⟨post', rfl, hl⟩

/-- A labelled system whose operations may stop at an assertion. -/
structure Sys (σ α ε : Type) where
  enabled : σ → α → Prop
  exec : σ → α → Except ε σ

namespace Sys

variable {σ α ε : Type} (S : Sys σ α ε)

/-- Execute a list of operations; an assertion failure ends the run. -/
def runFrom : σ → List α → Except ε σ
  | s, [] => .ok s
  | s, a :: as => S.exec s a >>= fun s' => runFrom s' as

/-- Every step of the run, taken in the state it is taken in, meets `ok`. -/
def Meets (ok : σ → α → Prop) : σ → List α → Prop
  | _, [] => True
  | s, a :: as => ok s a ∧
      match S.exec s a with
      | .ok s' => Meets ok s' as
      | .error _ => True

/-- Every step of the run is one the environment may take. -/
def Legal (s : σ) (acts : List α) : Prop := S.Meets S.enabled s acts

instance decidableMeets (ok : σ → α → Prop) [∀ s a, Decidable (ok s a)] :
    ∀ s acts, Decidable (S.Meets ok s acts)
  | _, [] => inferInstanceAs (Decidable True)
  | s, a :: as =>
      letI : Decidable (match S.exec s a with
          | .ok s' => S.Meets ok s' as
          | .error _ => True) :=
        match S.exec s a with
        | .ok s' => decidableMeets ok s' as
        | .error _ => inferInstanceAs (Decidable True)
      inferInstanceAs (Decidable (_ ∧ _))

instance decidableLegal [∀ s a, Decidable (S.enabled s a)] (s : σ) (acts : List α) :
    Decidable (S.Legal s acts) :=
  S.decidableMeets S.enabled s acts

variable {S}

@[simp] theorem runFrom_nil (s : σ) : S.runFrom s [] = .ok s := rfl

theorem runFrom_cons (s : σ) (a : α) (as : List α) :
    S.runFrom s (a :: as) = (S.exec s a >>= fun s' => S.runFrom s' as) := rfl

theorem runFrom_append (s : σ) (p q : List α) :
    S.runFrom s (p ++ q) = (S.runFrom s p >>= fun s' => S.runFrom s' q) := by
  induction p generalizing s with
  | nil => rfl
  | cons a as ih =>
      rw [List.cons_append, runFrom_cons, runFrom_cons]
      cases S.exec s a with
      | error e => rfl
      | ok s' => exact ih s'

@[simp] theorem meets_nil (ok : σ → α → Prop) (s : σ) : S.Meets ok s [] := trivial

theorem meets_cons {ok : σ → α → Prop} {s : σ} {a : α} {as : List α} :
    S.Meets ok s (a :: as) ↔
      ok s a ∧ ∀ s', S.exec s a = .ok s' → S.Meets ok s' as := by
  rw [Meets]
  cases S.exec s a with
  | error e => simp
  | ok s' => simp

/-- A condition on the labels alone is met wherever the run passes. -/
theorem meets_of_forall {p : α → Prop} {acts : List α} (h : ∀ a ∈ acts, p a) (s : σ) :
    S.Meets (fun _ a => p a) s acts := by
  induction acts generalizing s with
  | nil => exact meets_nil _ _
  | cons a as ih =>
      refine meets_cons.2 ⟨h a List.mem_cons_self, fun s' _ => ih ?_ s'⟩
      exact fun b hb => h b (List.mem_cons_of_mem a hb)

/-- A run that meets two conditions step by step meets both, and conversely. -/
theorem meets_and {ok ok' : σ → α → Prop} {s : σ} {acts : List α} :
    S.Meets (fun s a => ok s a ∧ ok' s a) s acts ↔
      S.Meets ok s acts ∧ S.Meets ok' s acts := by
  induction acts generalizing s with
  | nil => simp
  | cons a as ih =>
      simp only [meets_cons]
      constructor
      · rintro ⟨⟨h, h'⟩, hrest⟩
        exact ⟨⟨h, fun s' hs => (ih.mp (hrest s' hs)).1⟩,
          ⟨h', fun s' hs => (ih.mp (hrest s' hs)).2⟩⟩
      · rintro ⟨⟨h, hrest⟩, ⟨h', hrest'⟩⟩
        exact ⟨⟨h, h'⟩, fun s' hs => ih.mpr ⟨hrest s' hs, hrest' s' hs⟩⟩

/-- The first part of a run meets what the run meets, and the second part
meets it from the state the first part reached. -/
theorem meets_append {ok : σ → α → Prop} {s : σ} {p q : List α} :
    S.Meets ok s (p ++ q) ↔
      S.Meets ok s p ∧ ∀ s', S.runFrom s p = .ok s' → S.Meets ok s' q := by
  induction p generalizing s with
  | nil => simp
  | cons a as ih =>
      simp only [List.cons_append, meets_cons, runFrom_cons]
      constructor
      · rintro ⟨h, hrest⟩
        refine ⟨⟨h, fun s' hs => (ih.mp (hrest s' hs)).1⟩, ?_⟩
        intro s'' hrun
        obtain ⟨s', hs, hs'⟩ := bind_eq_ok hrun
        exact (ih.mp (hrest s' hs)).2 s'' hs'
      · rintro ⟨⟨h, hp⟩, hq⟩
        refine ⟨h, fun s' hs => ih.mpr ⟨hp s' hs, fun s'' hs' => hq s'' ?_⟩⟩
        rw [hs]
        exact hs'

/-! ## Induction over runs -/

/-- A property that every legal step keeps, and that lets every legal step
return, holds at the end of every legal run, and no run is stopped. -/
theorem invariant_lands {ok : σ → α → Prop} {I : σ → Prop}
    (hstep : ∀ s a, I s → ok s a → Lands (S.exec s a) I)
    {s : σ} (hs : I s) {acts : List α} (hacts : S.Meets ok s acts) :
    Lands (S.runFrom s acts) I := by
  induction acts generalizing s with
  | nil => exact .ok hs
  | cons a as ih =>
      obtain ⟨hok, hrest⟩ := meets_cons.1 hacts
      obtain ⟨s', hexec, hs'⟩ := hstep s a hs hok
      rw [runFrom_cons, hexec]
      exact ih hs' (hrest s' hexec)

/-- An invariant that also reads the steps made so far. -/
theorem history_lands {ok : σ → α → Prop} {I : List α → σ → Prop} {s : σ} (hs : I [] s)
    (hstep : ∀ pre s' a, S.runFrom s pre = .ok s' → I pre s' → ok s' a →
      Lands (S.exec s' a) (I (pre ++ [a])))
    {acts : List α} (hacts : S.Meets ok s acts) : Lands (S.runFrom s acts) (I acts) := by
  induction acts using List.reverseRecOn with
  | nil => exact .ok hs
  | append_singleton acts a ih =>
      obtain ⟨hinit, hlast⟩ := meets_append.1 hacts
      obtain ⟨s', hrun, hs'⟩ := ih hinit
      have hok : ok s' a := (meets_cons.1 (hlast s' hrun)).1
      obtain ⟨s'', hexec, hs''⟩ := hstep acts s' a hrun hs' hok
      refine ⟨s'', ?_, hs''⟩
      rw [runFrom_append, hrun, ok_bind, runFrom_cons, hexec]
      rfl

/-- A property that every legal step keeps when it returns holds at the end of
every legal run that is not stopped. -/
theorem invariant_post {ok : σ → α → Prop} {I : σ → Prop}
    (hstep : ∀ s a, I s → ok s a → Post (S.exec s a) I)
    {s : σ} (hs : I s) {acts : List α} (hacts : S.Meets ok s acts) :
    Post (S.runFrom s acts) I := by
  induction acts generalizing s with
  | nil => exact .ok hs
  | cons a as ih =>
      obtain ⟨hok, hrest⟩ := meets_cons.1 hacts
      rw [runFrom_cons]
      intro s'' hrun
      obtain ⟨s', hexec, hrun'⟩ := bind_eq_ok hrun
      exact ih (hstep s a hs hok s' hexec) (hrest s' hexec) s'' hrun'

/-- A run that is stopped is stopped by one of the assertions its steps can stop
at. -/
theorem invariant_ends {ok : σ → α → Prop} {I : σ → Prop} {Q : ε → Prop}
    (hstep : ∀ s a, I s → ok s a → Ends (S.exec s a) I Q)
    {s : σ} (hs : I s) {acts : List α} (hacts : S.Meets ok s acts) : Ends (S.runFrom s acts) I Q := by
  induction acts generalizing s with
  | nil => exact .ok hs
  | cons a as ih =>
      obtain ⟨hok, hrest⟩ := meets_cons.1 hacts
      rw [runFrom_cons]
      refine ⟨fun s'' hrun => ?_, fun e he => ?_⟩
      · obtain ⟨s', hexec, hrun'⟩ := bind_eq_ok hrun
        exact (ih ((hstep s a hs hok).1 s' hexec) (hrest s' hexec)).1 s'' hrun'
      · rcases bind_eq_error he with he | ⟨s', hexec, he⟩
        · exact (hstep s a hs hok).2 e he
        · exact (ih ((hstep s a hs hok).1 s' hexec) (hrest s' hexec)).2 e he

/-- What every legal step does where an invariant holds, every step of a legal
run does. -/
theorem invariant_meets {ok good : σ → α → Prop} {I : σ → Prop}
    (hstep : ∀ s a, I s → ok s a → good s a ∧ Post (S.exec s a) I)
    {s : σ} (hs : I s) {acts : List α} (hacts : S.Meets ok s acts) : S.Meets good s acts := by
  induction acts generalizing s with
  | nil => exact meets_nil _ _
  | cons a as ih =>
      obtain ⟨hok, hrest⟩ := meets_cons.1 hacts
      obtain ⟨hgood, hkeep⟩ := hstep s a hs hok
      exact meets_cons.2 ⟨hgood, fun s' hexec => ih (hkeep s' hexec) (hrest s' hexec)⟩

/-- Simulation: when every step of the system is matched by a step `f` of an
abstract machine, every run of the system is matched by the abstract machine's
run on the same labels. -/
theorem simulation_lands {τ : Type} {ok : σ → α → Prop} {R : σ → τ → Prop} {f : τ → α → τ}
    (hstep : ∀ s t a, R s t → ok s a → Lands (S.exec s a) fun s' => R s' (f t a))
    {s : σ} {t : τ} (hst : R s t) {acts : List α} (hacts : S.Meets ok s acts) :
    Lands (S.runFrom s acts) fun s' => R s' (acts.foldl f t) := by
  induction acts generalizing s t with
  | nil => exact .ok hst
  | cons a as ih =>
      obtain ⟨hok, hrest⟩ := meets_cons.1 hacts
      obtain ⟨s', hexec, hst'⟩ := hstep s t a hst hok
      rw [runFrom_cons, hexec]
      exact ih hst' (hrest s' hexec)

/-- Progress: where the goal is not reached yet some step brings it nearer, so some run
reaches it. -/
theorem exists_run {ok : σ → α → Prop} {I P : σ → Prop} (rank : σ → Nat)
    (hstep : ∀ s, I s → ¬ P s →
      ∃ a, ok s a ∧ Lands (S.exec s a) fun s' => I s' ∧ rank s' < rank s)
    {s : σ} (hs : I s) :
    ∃ acts, S.Meets ok s acts ∧ Lands (S.runFrom s acts) fun s' => I s' ∧ P s' := by
  generalize hn : rank s = n
  induction n using Nat.strong_induction_on generalizing s with
  | h n ih =>
      by_cases hgoal : P s
      · exact ⟨[], meets_nil _ _, .ok ⟨hs, hgoal⟩⟩
      · obtain ⟨a, hok, s', hexec, hs', hlt⟩ := hstep s hs hgoal
        obtain ⟨acts, hmeets, hrun⟩ := ih (rank s') (hn ▸ hlt) hs' rfl
        refine ⟨a :: acts, meets_cons.2 ⟨hok, fun s'' hs'' => ?_⟩, ?_⟩
        · obtain rfl := Except.ok.inj (hexec.symm.trans hs'')
          exact hmeets
        · rw [runFrom_cons, hexec]
          exact hrun

/-- When a step keeps `P` exactly if it meets `good`, a run keeps `P` at every
point exactly if all its steps meet `good`. -/
theorem always_iff_meets {ok good : σ → α → Prop} {P : σ → Prop}
    (hstep : ∀ s a, P s → ok s a → Post (S.exec s a) fun s' => (P s' ↔ good s a))
    (hstop : ∀ s a e, P s → ok s a → S.exec s a = .error e → good s a)
    {s : σ} (hs : P s) {acts : List α} (hacts : S.Meets ok s acts) :
    (∀ p, p <+: acts → Post (S.runFrom s p) P) ↔ S.Meets good s acts := by
  induction acts generalizing s with
  | nil =>
      refine ⟨fun _ => trivial, fun _ p hp => ?_⟩
      rw [List.prefix_nil.mp hp]
      exact .ok hs
  | cons a as ih =>
      obtain ⟨hok, hrest⟩ := meets_cons.1 hacts
      rw [meets_cons]
      constructor
      · intro hall
        have htail : ∀ s', S.exec s a = .ok s' → ∀ p, p <+: as → Post (S.runFrom s' p) P := by
          intro s' hexec p hp
          have := hall (a :: p) (List.cons_prefix_cons.mpr ⟨rfl, hp⟩)
          rwa [runFrom_cons, hexec, ok_bind] at this
        refine ⟨?_, fun s' hexec => ?_⟩
        · cases hexec : S.exec s a with
          | error e => exact hstop s a e hs hok hexec
          | ok s' =>
              have hs' : P s' := htail s' hexec [] List.nil_prefix s' rfl
              exact (hstep s a hs hok s' hexec).mp hs'
        · have hs' : P s' := htail s' hexec [] List.nil_prefix s' rfl
          exact (ih hs' (hrest s' hexec)).mp (htail s' hexec)
      · rintro ⟨hgood, hgoods⟩ p hp
        cases p with
        | nil => exact .ok hs
        | cons b bs =>
            obtain ⟨rfl, hbs⟩ := List.cons_prefix_cons.mp hp
            rw [runFrom_cons]
            intro s'' hrun
            obtain ⟨s', hexec, hrun'⟩ := bind_eq_ok hrun
            have hs' : P s' := (hstep s b hs hok s' hexec).mpr hgood
            exact (ih hs' (hrest s' hexec)).mpr (hgoods s' hexec) bs hbs s'' hrun'

/-- The same relative to an invariant: `I` is kept by every legal step, and the
step and stop conditions are asked for where it holds. -/
theorem always_iff_meets_of_invariant {ok good : σ → α → Prop} {I P : σ → Prop}
    (hinv : ∀ s a, I s → ok s a → Post (S.exec s a) I)
    (hstep : ∀ s a, I s → P s → ok s a → Post (S.exec s a) fun s' => (P s' ↔ good s a))
    (hstop : ∀ s a e, I s → ok s a → S.exec s a = .error e → good s a)
    {s : σ} (hI : I s) (hP : P s) {acts : List α} (hacts : S.Meets ok s acts) :
    (∀ p, p <+: acts → Post (S.runFrom s p) P) ↔ S.Meets good s acts := by
  have hkept : ∀ p, p <+: acts → Post (S.runFrom s p) I := by
    rintro p ⟨rest, rfl⟩
    exact invariant_post hinv hI (meets_append.1 hacts).1
  rw [← always_iff_meets (P := fun s => I s ∧ P s) ?_ ?_ ⟨hI, hP⟩ hacts]
  · refine forall₂_congr fun p hp => ?_
    constructor
    · intro hpost s' hs'
      exact ⟨hkept p hp s' hs', hpost s' hs'⟩
    · intro hpost
      exact hpost.mono fun s' hs' => hs'.2
  · rintro s a ⟨h, hs⟩ hok s' hexec
    have h' : I s' := hinv s a h hok s' hexec
    have hiff : P s' ↔ good s a := hstep s a h hs hok s' hexec
    rw [← hiff]
    exact ⟨fun hboth => hboth.2, fun hs' => ⟨h', hs'⟩⟩
  · rintro s a e ⟨h, -⟩ hok herr
    exact hstop s a e h hok herr

/-- The same where an assertion that satisfies `Q` may stop the run, and no other
may: it ends well at every point exactly if all its steps meet `good`. -/
theorem always_ends_iff_meets {ok good : σ → α → Prop} {I P : σ → Prop} {Q : ε → Prop}
    (hinv : ∀ s a, I s → ok s a → Post (S.exec s a) I)
    (hstep : ∀ s a, I s → P s → ok s a → (Ends (S.exec s a) P Q ↔ good s a))
    {s : σ} (hI : I s) (hP : P s) {acts : List α} (hacts : S.Meets ok s acts) :
    (∀ p, p <+: acts → Ends (S.runFrom s p) P Q) ↔ S.Meets good s acts := by
  induction acts generalizing s with
  | nil =>
      refine ⟨fun _ => trivial, fun _ p hp => ?_⟩
      rw [List.prefix_nil.mp hp]
      exact .ok hP
  | cons a as ih =>
      obtain ⟨hok, hrest⟩ := meets_cons.1 hacts
      have hstep' := hstep s a hI hP hok
      have hcons : ∀ p, S.runFrom s (a :: p) = S.exec s a >>= fun s' => S.runFrom s' p :=
        fun p => runFrom_cons s a p
      rw [meets_cons, ← hstep']
      cases hexec : S.exec s a with
      | error e =>
          refine ⟨fun hall => ⟨?_, fun s' hs' => absurd hs' (by simp)⟩, ?_⟩
          · have hone := hall [a] (List.prefix_append [a] as)
            rwa [hcons, hexec] at hone
          · rintro ⟨hends, -⟩ p hp
            cases p with
            | nil => exact .ok hP
            | cons b bs =>
                obtain ⟨rfl, -⟩ := List.cons_prefix_cons.mp hp
                rw [hcons, hexec]
                exact ⟨fun _ hs => absurd hs (by simp), hends.2⟩
      | ok s' =>
          have hI' : I s' := hinv s a hI hok s' hexec
          have hmeets := hrest s' hexec
          constructor
          · intro hall
            have htail : ∀ p, p <+: as → Ends (S.runFrom s' p) P Q := by
              intro p hp
              have := hall (a :: p) (List.cons_prefix_cons.mpr ⟨rfl, hp⟩)
              rwa [hcons, hexec, ok_bind] at this
            have hP' : P s' := (htail [] List.nil_prefix).1 s' rfl
            refine ⟨.ok hP', fun s'' hs'' => ?_⟩
            obtain rfl := Except.ok.inj hs''
            exact (ih hI' hP' hmeets).mp htail
          · rintro ⟨hends, hgoods⟩ p hp
            cases p with
            | nil => exact .ok hP
            | cons b bs =>
                obtain ⟨rfl, hbs⟩ := List.cons_prefix_cons.mp hp
                rw [hcons, hexec, ok_bind]
                exact (ih hI' (hends.1 s' rfl) hmeets).mpr (hgoods s' rfl) bs hbs

end Sys
end Muduo.Lib
