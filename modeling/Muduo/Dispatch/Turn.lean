import Muduo.Dispatch.Safety

/-!
# What a poll reports is handled once, in order

A turn of the loop is what happens between a poll and the next. `Turn` follows it: the
report falls into the channels that have been handled, each with the callbacks that its own
events select, and those that wait with their events still in `M_revents`. Callbacks cannot
change either part: a channel that waits is not constructed anew, since it is alive.
-/

namespace Muduo.Dispatch

open Lib Poller Reactor

/-- `handleEvent` was called for the reported channel, and ran the callbacks for its events
or, if `skips`, none. -/
def Handles (skips : Prop) (x : ChannelPtr × Events) (y : ChannelPtr × List Callback) : Prop :=
  y.1 = x.1 ∧ (y.2 = Channel.handleEventWithGuard x.2 ∨ (skips ∧ y.2 = []))

/-- How far the turn has come that began with this report. -/
structure Turn (skips : Prop) (events : List (ChannelPtr × Events)) (s : Reactor) : Prop where
  active : s.activeChannels = events.map Prod.fst
  split : ∃ done todo, events = done ++ todo ∧ List.Forall₂ (Handles skips) done s.handled ∧
    s.place.rest = todo.map Prod.fst ∧ ∀ x ∈ todo, s.revents x.1 = x.2

def Act.isPoll : Act → Bool
  | .poll _ => true
  | _ => false

section Turn

variable {s s' : Reactor} {skips : Prop} {events : List (ChannelPtr × Events)}

/-- Steps that leave the turn where it is. -/
theorem Turn.frame (h : Turn skips events s) (hactive : s'.activeChannels = s.activeChannels)
    (hhandled : s'.handled = s.handled) (hrest : s'.place.rest = s.place.rest)
    (hrevents : ∀ ch ∈ s.place.rest, s'.revents ch = s.revents ch) : Turn skips events s' := by
  obtain ⟨done, todo, rfl, hdone, htodo, hown⟩ := h.split
  refine ⟨hactive.trans h.active, done, todo, rfl, hhandled ▸ hdone, hrest.trans htodo,
    fun x hx => ?_⟩
  have hmem : x.1 ∈ s.place.rest := by
    rw [htodo]
    exact List.mem_map_of_mem hx
  exact (hrevents x.1 hmem).trans (hown x hx)

theorem Polled.turn (hp : Polled s events s') (hnodup : (events.map Prod.fst).Nodup) :
    Turn skips events s' := by
  refine ⟨hp.active, [], events, rfl, ?_, ?_, fun x hx => ?_⟩
  · rw [hp.handled]
    exact .nil
  · rw [hp.place]
    rfl
  · rw [hp.revents]
    exact written_of_mem _ hnodup hx

/-- The next channel of the report has its turn. -/
theorem handleEvent_turn (h : Turn skips events s) {ch : ChannelPtr} {rest : List ChannelPtr}
    (hplace : s.place = .between (ch :: rest)) {guard : Bool} (hskips : guard = false → skips) :
    Post (s.handleEvent ch rest guard) (Turn skips events) := by
  obtain ⟨done, todo, rfl, hdone, htodo, hown⟩ := h.split
  rw [hplace] at htodo
  cases todo with
  | nil => exact absurd htodo (by simp [Place.rest])
  | cons x todo =>
      obtain ⟨hch, hrest⟩ : ch = x.1 ∧ rest = todo.map Prod.fst := by
        simpa [Place.rest] using htodo
      have hrevents : s.revents ch = x.2 := by
        rw [hch]
        exact hown x List.mem_cons_self
      have hown' : ∀ y ∈ todo, s.revents y.1 = y.2 :=
        fun y hy => hown y (List.mem_cons_of_mem _ hy)
      have hdone' : ∀ cbs, Handles skips x (ch, cbs) →
          List.Forall₂ (Handles skips) (done ++ [x]) (s.handled ++ [(ch, cbs)]) :=
        fun cbs hx => List.rel_append hdone (.cons hx .nil)
      have hsplit : done ++ x :: todo = (done ++ [x]) ++ todo := by
        rw [List.append_assoc, List.singleton_append]
      refine .check_bind fun _ => ?_
      split
      · rename_i hguard
        refine .ok ⟨h.active, done ++ [x], todo, hsplit, hdone' [] ?_, hrest, hown'⟩
        exact ⟨hch, .inr ⟨hskips hguard.2, rfl⟩⟩
      · refine .ok ⟨h.active, done ++ [x], todo, hsplit, hdone' _ ⟨hch, .inl ?_⟩, hrest, hown'⟩
        rw [hrevents]

theorem exec_turn (hinv : Inv s) (h : Turn skips events s) {a : Act} (hen : s.Enabled a)
    (hpoll : a.isPoll = false) (hskips : a = .dispatch false → skips) :
    Post (s.exec a) (Turn skips events) := by
  cases a with
  | construct ch fd =>
      refine .ok (h.frame rfl rfl rfl fun c hc => ?_)
      have halive := hinv.alive_of_registered (hinv.rest c hc)
      have hne : c ≠ ch := by
        rintro rfl
        rw [hen.2] at halive
        exact absurd halive (by simp)
      exact Function.update_of_ne hne ..
  | tie ch => exact .ok (h.frame rfl rfl rfl fun _ _ => rfl)
  | change ch i =>
      intro s' hs'
      obtain ⟨p, -, hs'⟩ := bind_eq_ok (show s.change ch i = .ok s' from hs')
      obtain rfl := Except.ok.inj hs'
      exact h.frame rfl rfl rfl fun _ _ => rfl
  | remove ch =>
      refine .check_bind fun _ => .check_bind fun _ => ?_
      intro s' hs'
      obtain ⟨p, -, hs'⟩ := bind_eq_ok hs'
      obtain rfl := Except.ok.inj hs'
      exact h.frame rfl rfl rfl fun _ _ => rfl
  | destroy ch =>
      refine .check_bind fun _ => .check_bind fun _ => .check_bind fun _ => ?_
      exact .ok (h.frame rfl rfl rfl fun _ _ => rfl)
  | poll events => exact absurd hpoll (by simp [Act.isPoll])
  | dispatch guard =>
      obtain ⟨ch, rest, hplace⟩ := enabled_dispatch hen
      show Post (s.dispatch guard) _
      unfold Reactor.dispatch
      rw [hplace]
      exact handleEvent_turn h hplace fun hguard => hskips (by rw [hguard])
  | handled =>
      obtain ⟨ch, rest, hplace⟩ := enabled_handled hen
      show Post s.handlingDone _
      unfold Reactor.handlingDone
      rw [hplace]
      refine .check_bind fun _ => .ok (h.frame rfl rfl ?_ fun _ _ => rfl)
      rw [hplace]
      rfl
  | finish =>
      have hplace : s.place = .between [] := hen
      refine .ok (h.frame rfl rfl ?_ fun _ _ => rfl)
      rw [hplace]
      rfl

end Turn

end Muduo.Dispatch
