import Muduo.Loop.Model

/-!
# Pending functors run once, in queue order

`Control` is what the code keeps true of its own flags. `InOrder` ties the
three sequences together: the functors already called, the rest of the batch
and `M_pendingFunctors` are, in this order, all that was ever pushed. Since a
batch is fixed by the swap, what is pushed while it runs waits for the next.
-/

namespace Muduo.Loop

open Lib EventLoop

variable {F : Type} {s : EventLoop F}

/-! ## What an enabled step of the loop thread finds -/

/-- Where the loop thread is when it takes a step. -/
def At (s : EventLoop F) : Act F → Prop
  | .enter => s.pc = .idle
  | .test => s.pc = .test
  | .pollReturn _ => s.pc = .poll
  | .dispatch => s.queueing = false ∧ ∃ cur c rest, s.pc = .handling cur (c :: rest)
  | .beginPending => s.queueing = false ∧ ∃ cur, s.pc = .handling cur []
  | .swap => s.pc = .swapping
  | .call => s.queueing = false ∧ ∃ cur f rest, s.pc = .running cur (f :: rest)
  | .endPending => s.queueing = false ∧ ∃ cur, s.pc = .running cur []
  | .queue _ | .quit => s.queueing = false ∧ s.inCallback = true
  | .queueEnd | .threadQueue _ _ | .threadWakeup _ | .threadQuit _ | .threadQuitWakeup _ => True

theorem enabled_at {a : Act F} (h : enabled s a = true) : At s a := by
  cases a with
  | enter | test | pollReturn active | swap => cases hpc : s.pc <;> simp_all [enabled, At]
  | dispatch | beginPending =>
      cases hpc : s.pc with
      | handling cur rest => cases rest <;> simp_all [enabled, At]
      | _ => simp_all [enabled]
  | call | endPending =>
      cases hpc : s.pc with
      | running cur rest => cases rest <;> simp_all [enabled, At]
      | _ => simp_all [enabled]
  | queue f => simpa [enabled, At] using h
  | quit => simpa [enabled, At] using h
  | queueEnd | threadQueue t f | threadWakeup t | threadQuit t | threadQuitWakeup t => trivial

/-! ## The flags -/

/-- Is the loop thread in `doPendingFunctors`? -/
def Pc.isPending : Pc F → Bool
  | .swapping | .running _ _ => true
  | _ => false

/-- The flags say where the loop thread is. -/
structure Control (s : EventLoop F) : Prop where
  looping : s.looping = false ↔ s.pc = .idle
  calling : s.callingPendingFunctors = s.pc.isPending
  queueing : s.queueing = true → s.inCallback = true

/-- Steps that leave the loop thread where it is. -/
theorem Control.same {s' : EventLoop F} (h : Control s) (hpc : s'.pc = s.pc)
    (hl : s'.looping = s.looping) (hc : s'.callingPendingFunctors = s.callingPendingFunctors)
    (hq : s'.queueing = true → s.inCallback = true) : Control s' where
  looping := by rw [hl, hpc]; exact h.looping
  calling := by rw [hc, hpc]; exact h.calling
  queueing := fun hq' => by
    have := hq hq'
    unfold inCallback at this ⊢
    rwa [hpc]

/-- Steps of the loop thread outside `queueInLoop`. -/
theorem Control.moved {s' : EventLoop F} (hout : s'.queueing = false)
    (hl : s'.looping = false ↔ s'.pc = .idle)
    (hc : s'.callingPendingFunctors = s'.pc.isPending) : Control s' :=
  ⟨hl, hc, fun hq => by rw [hout] at hq; exact absurd hq (by simp)⟩

theorem exec_control (h : Control s) (a : Act F) (hen : enabled s a = true) :
    Lands (exec s a) Control := by
  have hfree : s.inCallback = false → s.queueing = false := by
    intro hin
    by_contra hq
    rw [h.queueing (by simpa using hq)] at hin
    exact absurd hin (by simp)
  have hlooping : s.pc ≠ .idle → s.looping = true := by
    intro hne
    by_contra hl
    exact hne (h.looping.mp (by simpa using hl))
  cases a with
  | enter =>
      have hpc : s.pc = .idle := enabled_at hen
      refine .check_bind (h.looping.mpr hpc) (.ok ?_)
      have hcall := h.calling
      rw [hpc] at hcall
      exact .moved (hfree (by simp [inCallback, hpc])) (by simp) hcall
  | test =>
      have hpc : s.pc = .test := enabled_at hen
      have hout := hfree (by simp [inCallback, hpc])
      have hcall := h.calling
      rw [hpc] at hcall
      show Lands (.ok s.test) Control
      unfold test
      split
      · exact .ok (.moved hout (by simp) hcall)
      · refine .ok (.moved hout ?_ hcall)
        simp [setPc, hlooping (by rw [hpc]; simp)]
  | pollReturn active =>
      have hpc : s.pc = .poll := enabled_at hen
      have hcall := h.calling
      rw [hpc] at hcall
      refine .ok (.moved (hfree (by simp [inCallback, hpc])) ?_ hcall)
      simp [pollReturn, hlooping (by rw [hpc]; simp)]
  | dispatch =>
      obtain ⟨hout, cur, c, rest, hpc⟩ := enabled_at hen
      have hcall := h.calling
      rw [hpc] at hcall
      have hl : s.looping = true := hlooping (by rw [hpc]; simp)
      show Lands (.ok s.dispatch) Control
      unfold dispatch
      rw [hpc]
      cases c with
      | wakeupChannel => exact .ok (.moved hout (by simp [setPc, handleRead, hl]) hcall)
      | userChannel => exact .ok (.moved hout (by simp [setPc, hl]) hcall)
  | beginPending =>
      obtain ⟨hout, cur, hpc⟩ := enabled_at hen
      refine .ok (.moved hout ?_ rfl)
      simp [beginPending, hlooping (by rw [hpc]; simp)]
  | swap =>
      have hpc : s.pc = .swapping := enabled_at hen
      have hcall := h.calling
      rw [hpc] at hcall
      refine .ok (.moved (hfree (by simp [inCallback, hpc])) ?_ hcall)
      simp [EventLoop.swap, hlooping (by rw [hpc]; simp)]
  | call =>
      obtain ⟨hout, cur, f, rest, hpc⟩ := enabled_at hen
      have hcall := h.calling
      rw [hpc] at hcall
      have hl : s.looping = true := hlooping (by rw [hpc]; simp)
      show Lands (.ok s.call) Control
      unfold call
      rw [hpc]
      exact .ok (.moved hout (by simp [hl]) hcall)
  | endPending =>
      obtain ⟨hout, cur, hpc⟩ := enabled_at hen
      refine .ok (.moved hout ?_ rfl)
      simp [endPending, hlooping (by rw [hpc]; simp)]
  | queue f =>
      obtain ⟨-, hin⟩ := enabled_at hen
      exact .ok (h.same rfl rfl rfl fun _ => hin)
  | queueEnd =>
      show Lands (.ok s.queueEnd) Control
      unfold queueEnd
      dsimp only
      split <;> exact .ok (h.same rfl rfl rfl fun hq => absurd hq (by simp [wakeup]))
  | quit => exact .ok (h.same rfl rfl rfl h.queueing)
  | threadQueue t f => exact .ok (h.same rfl rfl rfl h.queueing)
  | threadWakeup t => exact .ok (h.same rfl rfl rfl h.queueing)
  | threadQuit t => exact .ok (h.same rfl rfl rfl h.queueing)
  | threadQuitWakeup t => exact .ok (h.same rfl rfl rfl h.queueing)

theorem new_control : Control (EventLoop.new : EventLoop F) :=
  ⟨by simp [EventLoop.new], rfl, by simp [EventLoop.new]⟩

/-! ## The three sequences -/

/-- Called, in the batch, pending: together all that was pushed, in order. -/
def InOrder (s : EventLoop F) (pushed : List F) : Prop :=
  s.executed ++ s.batch ++ s.pendingFunctors = pushed

/-- Away from the swap, no step changes the functors that are called or about
to be called in this batch; what is pushed goes to the end of the queue. -/
theorem exec_calls (a : Act F) (ha : a ≠ .swap) (hen : enabled s a = true) :
    Post (exec s a) fun s' => s'.executed ++ s'.batch = s.executed ++ s.batch ∧
      s'.pendingFunctors = s.pendingFunctors ++ a.push?.toList := by
  have hbatch : ∀ {s' : EventLoop F}, s'.executed = s.executed → s'.batch = [] → s.batch = [] →
      s'.executed ++ s'.batch = s.executed ++ s.batch := by
    intro s' he hb' hb
    rw [he, hb', hb]
  cases a with
  | enter =>
      have hpc : s.pc = .idle := enabled_at hen
      exact .check_bind fun _ => .ok ⟨hbatch rfl rfl (by rw [batch, hpc]), by simp [Act.push?]⟩
  | test =>
      have hpc : s.pc = .test := enabled_at hen
      show Post (.ok s.test) _
      unfold test
      split
      · exact .ok ⟨hbatch rfl rfl (by rw [batch, hpc]), by simp [Act.push?]⟩
      · exact .ok ⟨hbatch rfl rfl (by rw [batch, hpc]), by simp [Act.push?, setPc]⟩
  | pollReturn active =>
      have hpc : s.pc = .poll := enabled_at hen
      exact .ok ⟨hbatch rfl rfl (by rw [batch, hpc]), by simp [Act.push?, pollReturn]⟩
  | dispatch =>
      obtain ⟨-, cur, c, rest, hpc⟩ := enabled_at hen
      show Post (.ok s.dispatch) _
      unfold dispatch
      rw [hpc]
      cases c with
      | wakeupChannel =>
          exact .ok ⟨hbatch rfl rfl (by rw [batch, hpc]), by simp [Act.push?, setPc, handleRead]⟩
      | userChannel =>
          exact .ok ⟨hbatch rfl rfl (by rw [batch, hpc]), by simp [Act.push?, setPc]⟩
  | beginPending =>
      obtain ⟨-, cur, hpc⟩ := enabled_at hen
      exact .ok ⟨hbatch rfl rfl (by rw [batch, hpc]), by simp [Act.push?, beginPending]⟩
  | swap => exact absurd rfl ha
  | call =>
      -- the functor at the head of the batch becomes the last one called
      obtain ⟨-, cur, f, rest, hpc⟩ := enabled_at hen
      show Post (.ok s.call) _
      unfold call
      rw [hpc]
      refine .ok ⟨?_, by simp [Act.push?]⟩
      simp [batch, hpc]
  | endPending =>
      obtain ⟨-, cur, hpc⟩ := enabled_at hen
      exact .ok ⟨hbatch rfl rfl (by rw [batch, hpc]), by simp [Act.push?, endPending]⟩
  | queue f => exact .ok ⟨rfl, rfl⟩
  | queueEnd =>
      show Post (.ok s.queueEnd) _
      unfold queueEnd
      dsimp only
      split
      · exact .ok ⟨rfl, by simp [Act.push?, wakeup]⟩
      · exact .ok ⟨rfl, by simp [Act.push?]⟩
  | quit => exact .ok ⟨rfl, by simp [Act.push?]⟩
  | threadQueue t f => exact .ok ⟨rfl, rfl⟩
  | threadWakeup t => exact .ok ⟨rfl, by simp [Act.push?, threadWakeup, wakeup]⟩
  | threadQuit t => exact .ok ⟨rfl, by simp [Act.push?, threadQuit]⟩
  | threadQuitWakeup t => exact .ok ⟨rfl, by simp [Act.push?, threadQuitWakeup, wakeup]⟩

/-- One step extends the pushed sequence by what it pushes. -/
theorem exec_inOrder {pushed : List F} (h : InOrder s pushed) (a : Act F)
    (hen : enabled s a = true) :
    Post (exec s a) fun s' => InOrder s' (pushed ++ a.push?.toList) := by
  by_cases ha : a = .swap
  · -- the pending functors become the batch, and the last batch was done
    subst ha
    have hpc : s.pc = .swapping := enabled_at hen
    refine .ok ?_
    have hnone : s.batch = [] := by rw [batch, hpc]
    unfold InOrder at h ⊢
    rw [hnone, List.append_nil] at h
    show s.executed ++ s.pendingFunctors ++ [] = pushed ++ []
    rw [h]
  · refine (exec_calls a ha hen).mono fun s' hs => ?_
    obtain ⟨hcalls, hpend⟩ := hs
    unfold InOrder at h ⊢
    rw [hcalls, hpend, ← h]
    simp only [List.append_assoc]

/-! ## Runs -/

/-- The abstract side: the sequence of pushes grows by what each step pushes. -/
theorem foldl_push (acts : List (Act F)) (l : List F) :
    acts.foldl (fun l a => l ++ a.push?.toList) l = l ++ pushes acts := by
  induction acts generalizing l with
  | nil => simp [pushes]
  | cons a as ih =>
      rw [List.foldl_cons, ih]
      cases hp : a.push? with
      | none => simp [pushes, hp]
      | some f => simp [pushes, hp]

theorem run_inOrder {acts : List (Act F)} (h : loopSys.Legal EventLoop.new acts) :
    Lands (loopSys.runFrom EventLoop.new acts) fun s => Control s ∧ InOrder s (pushes acts) := by
  have hrun := Sys.simulation_lands (S := loopSys)
    (R := fun s pushed => Control s ∧ InOrder s pushed)
    (f := fun l (a : Act F) => l ++ a.push?.toList) ?_
    (t := []) ⟨new_control, rfl⟩ h
  · rw [foldl_push, List.nil_append] at hrun
    exact hrun
  · rintro s pushed a ⟨hc, hi⟩ hen
    obtain ⟨s', hexec, hc'⟩ := exec_control hc a hen
    exact ⟨s', hexec, hc', exec_inOrder hi a hen s' hexec⟩

/-- **Pending functors run exactly once, in queue order.** At every point of
every interleaving the functors already called, the rest of the current batch
and the pending functors are, in this order, all functors pushed so far; and
between a swap and the next one, only functors pushed before the swap are
called. -/
theorem functors_once_in_order (acts : List (Act F)) (h : loopSys.Legal EventLoop.new acts) :
    Lands (loopSys.runFrom EventLoop.new acts)
        (fun s => s.executed ++ s.batch ++ s.pendingFunctors = pushes acts) ∧
      ∀ p q, acts = p ++ .swap :: q → .swap ∉ q →
        Lands (loopSys.runFrom EventLoop.new acts) fun s => s.executed <+: pushes p := by
  refine ⟨(run_inOrder h).mono fun s hs => hs.2, ?_⟩
  rintro p q rfl hq
  have hsplit : p ++ .swap :: q = (p ++ [.swap]) ++ q := by simp
  rw [hsplit] at h ⊢
  obtain ⟨hp, hrest⟩ := Sys.meets_append.mp h
  obtain ⟨s₁, hrun₁, hc₁, hi₁⟩ := run_inOrder hp
  -- right after the swap the queue is empty, so the batch ends what was pushed
  have hempty : s₁.pendingFunctors = [] := by
    rw [Sys.runFrom_append] at hrun₁
    obtain ⟨s₀, -, hswap⟩ := bind_eq_ok hrun₁
    obtain ⟨s₁', hexec, hnil⟩ := bind_eq_ok hswap
    cases hexec
    cases hnil
    rfl
  have hstart : s₁.executed ++ s₁.batch = pushes p := by
    unfold InOrder at hi₁
    rw [hempty, List.append_nil] at hi₁
    rw [hi₁]
    simp [pushes, Act.push?]
  have hnoswap : ∀ a ∈ q, a ≠ .swap := by
    rintro a ha rfl
    exact hq ha
  rw [Sys.runFrom_append, hrun₁, ok_bind]
  have hinv := Sys.invariant_lands (S := loopSys)
    (I := fun s => Control s ∧ s.executed ++ s.batch = pushes p) ?_ ⟨hc₁, hstart⟩
    (Sys.meets_and.mpr ⟨hrest s₁ hrun₁, Sys.meets_of_forall hnoswap s₁⟩)
  · exact hinv.mono fun s hs => ⟨s.batch, hs.2⟩
  · rintro s a ⟨hc, hcalls⟩ ⟨hen, ha⟩
    obtain ⟨s', hexec, hc'⟩ := exec_control hc a hen
    exact ⟨s', hexec, hc', (exec_calls a ha hen s' hexec).1.trans hcalls⟩

/-- Two other threads and a functor push while the batch of the first functor
is running; none of the three is called in it. -/
theorem functors_once_in_order_pushed_while_running :
    Lands (loopSys.runFrom EventLoop.new
      [.threadQueue 1 10, .enter, .test, .pollReturn [.userChannel], .dispatch, .beginPending,
        .swap, .threadQueue 2 20, .call, .queue 30, .threadWakeup 1, .queueEnd, .endPending])
      (fun s => s.executed ++ s.batch ++ s.pendingFunctors = [10, 20, 30]) :=
  (functors_once_in_order [.threadQueue 1 10, .enter, .test, .pollReturn [.userChannel],
    .dispatch, .beginPending, .swap, .threadQueue 2 20, .call, .queue 30, .threadWakeup 1,
    .queueEnd, .endPending] (by decide +kernel)).1

end Muduo.Loop
