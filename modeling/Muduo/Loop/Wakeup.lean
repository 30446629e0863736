import Muduo.Loop.Functors

/-!
# No lost wakeup

A functor that is pushed must not wait for the poll to time out. Before the
swap nothing has to be done about it: the loop thread will swap before it polls
again, and that is why `queueInLoop` does not wake the loop when it is called
from an event callback. From the swap on, somebody has to make the eventfd
readable, and the counter that has been made positive stays so, because the
eventfd is only read while events are handled. `Awake` says who it is.
-/

namespace Muduo.Loop

open Lib EventLoop

variable {F : Type} {s : EventLoop F}

/-- The eventfd is readable, or another thread is about to make it so. -/
def Signalled (s : EventLoop F) : Prop := 0 < s.wakeupFd ∨ s.waking ≠ []

/-- The invariant: from the swap on, a pending functor comes with a signal, or
the loop thread itself is about to send one. -/
def Awake (s : EventLoop F) : Prop :=
  match s.pc with
  | .handling _ _ | .swapping => True
  | .running _ _ => s.pendingFunctors ≠ [] → Signalled s ∨ s.queueing = true
  | .idle | .test | .poll => s.pendingFunctors ≠ [] → Signalled s

theorem wakeup_pos (s : EventLoop F) : 0 < s.wakeup.wakeupFd := by
  show 0 < min (s.wakeupFd + 1) kMaxCounter
  rw [kMaxCounter]
  omega

/-- A step that leaves the loop thread where it is keeps the invariant if it
signals, or if it pushes nothing and takes no signal away. -/
theorem Awake.same {s' : EventLoop F} (h : Awake s) (hpc : s'.pc = s.pc)
    (hsig : Signalled s' ∨ s'.pendingFunctors = s.pendingFunctors ∧
      (Signalled s → Signalled s') ∧ (s.queueing = true → s'.queueing = true)) :
    Awake s' := by
  unfold Awake at h ⊢
  rw [hpc]
  cases hs : s.pc with
  | handling cur rest => trivial
  | swapping => trivial
  | running cur rest =>
      rw [hs] at h
      intro hne
      rcases hsig with hsig | ⟨hpend, hsig, hq⟩
      · exact .inl hsig
      · rcases h (hpend ▸ hne) with h | h
        · exact .inl (hsig h)
        · exact .inr (hq h)
  | _ =>
      rw [hs] at h
      intro hne
      rcases hsig with hsig | ⟨hpend, hsig, -⟩
      · exact hsig
      · exact hsig (h (hpend ▸ hne))

/-- A step of the loop thread between places where the same is required. -/
theorem Awake.moved {s' : EventLoop F} (h : s'.pendingFunctors ≠ [] → Signalled s') :
    Awake s' := by
  unfold Awake
  split
  · trivial
  · trivial
  · exact fun hne => .inl (h hne)
  · exact h
  · exact h
  · exact h

theorem exec_awake (hc : Control s) (h : Awake s) (a : Act F) (hen : enabled s a = true) :
    Post (exec s a) Awake := by
  cases a with
  | enter =>
      have hpc : s.pc = .idle := enabled_at hen
      unfold Awake at h
      rw [hpc] at h
      exact .check_bind fun _ => .ok (.moved h)
  | test =>
      have hpc : s.pc = .test := enabled_at hen
      unfold Awake at h
      rw [hpc] at h
      show Post (.ok s.test) Awake
      unfold test
      split
      · exact .ok (.moved h)
      · exact .ok (.moved h)
  | pollReturn active => exact .ok trivial
  | dispatch =>
      obtain ⟨-, cur, c, rest, hpc⟩ := enabled_at hen
      show Post (.ok s.dispatch) Awake
      unfold dispatch
      rw [hpc]
      cases c with
      | wakeupChannel => exact .ok trivial
      | userChannel => exact .ok trivial
  | beginPending => exact .ok trivial
  | swap => exact .ok fun hne => absurd rfl hne
  | call =>
      obtain ⟨hout, cur, f, rest, hpc⟩ := enabled_at hen
      unfold Awake at h
      rw [hpc] at h
      show Post (.ok s.call) Awake
      unfold call
      rw [hpc]
      exact .ok h
  | endPending =>
      obtain ⟨hout, cur, hpc⟩ := enabled_at hen
      unfold Awake at h
      rw [hpc] at h
      refine .ok (.moved fun hne => ?_)
      rcases h hne with h | h
      · exact h
      · rw [hout] at h
        exact absurd h (by simp)
  | queue f =>
      -- in a functor the loop thread is now the one to signal, in an event
      -- callback nobody has to
      obtain ⟨-, hin⟩ := enabled_at hen
      refine .ok ?_
      unfold Awake
      show match s.pc with
        | .handling _ _ | .swapping => True
        | .running _ _ => _ → _ ∨ true = true
        | .idle | .test | .poll => _
      cases hpc : s.pc with
      | handling cur rest => trivial
      | swapping => trivial
      | running cur rest => exact fun _ => .inr rfl
      | _ => simp [inCallback, hpc] at hin
  | queueEnd =>
      have hq : s.queueing = true := hen
      show Post (.ok s.queueEnd) Awake
      unfold queueEnd
      dsimp only
      split
      · exact .ok (h.same rfl (.inl (.inl (wakeup_pos _))))
      · rename_i hcall
        -- the flag is off, so this was a push from an event callback
        have hin := hc.queueing hq
        have hcalling := hc.calling
        refine .ok ?_
        unfold Awake
        show match s.pc with
          | .handling _ _ | .swapping => True
          | .running _ _ => _
          | .idle | .test | .poll => _
        cases hpc : s.pc with
        | handling cur rest => trivial
        | swapping => trivial
        | running cur rest =>
            rw [hpc] at hcalling
            exact absurd hcalling hcall
        | _ => simp [inCallback, hpc] at hin
  | quit => exact .ok (h.same rfl (.inr ⟨rfl, id, id⟩))
  | threadQueue t f => exact .ok (h.same rfl (.inl (.inr (by simp [threadQueue]))))
  | threadWakeup t => exact .ok (h.same rfl (.inl (.inl (wakeup_pos s))))
  | threadQuit t => exact .ok (h.same rfl (.inr ⟨rfl, id, id⟩))
  | threadQuitWakeup t => exact .ok (h.same rfl (.inl (.inl (wakeup_pos s))))

/-- **No lost wakeup.** Whenever the loop thread is about to enter the poll, or
is blocked in it, and a functor is pending, the eventfd is readable or another
thread is between its push and its `wakeup()`. -/
theorem no_lost_wakeup (acts : List (Act F)) (h : loopSys.Legal EventLoop.new acts) :
    Lands (loopSys.runFrom EventLoop.new acts) fun s =>
      s.pc = .poll → s.pendingFunctors ≠ [] → 0 < s.wakeupFd ∨ s.waking ≠ [] := by
  have hnew : Awake (EventLoop.new : EventLoop F) := fun hne => absurd rfl hne
  have hinv := Sys.invariant_lands (S := loopSys) (I := fun s : EventLoop F => Control s ∧ Awake s)
    ?_ ⟨new_control, hnew⟩ h
  · refine hinv.mono fun s hs hpc => ?_
    have hawake := hs.2
    unfold Awake at hawake
    rw [hpc] at hawake
    exact hawake
  · rintro s a ⟨hc, ha⟩ hen
    obtain ⟨s', hexec, hc'⟩ := exec_control hc a hen
    exact ⟨s', hexec, hc', exec_awake hc ha a hen s' hexec⟩

/-- A functor pushes while another thread has pushed and not yet written: the
loop polls with two pending functors and a readable eventfd. -/
theorem no_lost_wakeup_both_push :
    Lands (loopSys.runFrom EventLoop.new
      [.threadQueue 1 10, .threadWakeup 1, .enter, .test, .pollReturn [.wakeupChannel],
        .dispatch, .beginPending, .swap, .call, .queue 20, .threadQueue 1 30, .queueEnd,
        .endPending, .test]) fun s =>
      s.pc = .poll → s.pendingFunctors ≠ [] → 0 < s.wakeupFd ∨ s.waking ≠ [] :=
  no_lost_wakeup _ (by decide +kernel)

end Muduo.Loop
