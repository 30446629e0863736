import Muduo.Dispatch.Model
import Muduo.Poller.Reuse

/-!
# No channel is used after its destruction

What waits in the `for` is registered (`Inv.rest`), and a registered channel has
`M_addedToLoop`, so `~Channel` refuses it; to get that far a channel has to be removed, and
`EventLoop::removeChannel` refuses the channels that wait. The channel whose callbacks run
is kept by the assert on `M_eventHandling`. So only misuse by the callers can stop a run
(`Fault.ofCaller`), and neither a pointer from `epoll_wait` nor one from
`M_activeChannels` is ever stale.
-/

namespace Muduo.Dispatch

open Lib Poller Reactor

structure Inv (s : Reactor) : Prop where
  tracked : Tracked s.poller
  owners : ∀ f ch, s.poller.channels f = some ch → s.alive ch = true
  eventHandling : s.eventHandling = true ↔ s.place ≠ .outside
  rest : ∀ ch ∈ s.place.rest, s.poller.Registered ch
  order : s.place ≠ .outside → s.handled.map Prod.fst ++ s.place.rest = s.activeChannels
  nodup : s.activeChannels.Nodup
  current : ∀ ch rest, s.place = .handling ch rest → s.alive ch = true ∧ s.handling ch = true ∧
    s.currentActiveChannel = some ch ∧ ch ∈ s.handled.map Prod.fst

/-- The asserts that fail when a channel is removed that is not registered or still wants
events, registered under a descriptor that is in use, removed while it waits to be handled,
or destroyed while it is registered or handled. -/
def Fault.ofCaller : Fault → Bool
  | .poller .channelRemove | .poller .removePresent | .poller .removeSame
  | .poller .updateAbsent | .removeActive | .dtorHandling | .dtorAdded => true
  | _ => false

section Steps

variable {s s' : Reactor} {ch : ChannelPtr}

theorem Inv.alive_of_registered (h : Inv s) (hreg : s.poller.Registered ch) : s.alive ch = true :=
  h.owners _ _ hreg

/-- A channel that may be removed does not wait in the `for`. -/
theorem Inv.notMem_rest (h : Inv s) (hin : s.place.inCallback = true) (hmay : s.mayRemove ch) :
    ch ∉ s.place.rest := by
  cases hplace : s.place with
  | outside => simp [Place.rest]
  | between rest =>
      rw [hplace] at hin
      exact absurd hin (by simp [Place.inCallback])
  | handling cur rest =>
      have hinside : s.place ≠ .outside := by
        rw [hplace]
        simp
      have horder := h.order hinside
      have hnodup := h.nodup
      rw [hplace] at horder
      rw [← horder] at hnodup
      obtain ⟨-, -, hcur, hmem⟩ := h.current cur rest hplace
      rcases hmay (h.eventHandling.mpr hinside) with hsame | hnot
      · obtain rfl : cur = ch := Option.some.inj (hcur.symm.trans hsame)
        exact List.disjoint_of_nodup_append hnodup hmem
      · intro hrest
        rw [← horder] at hnot
        exact hnot (List.mem_append_right _ hrest)

/-- The channel objects and the poller change; the `for` is where it was. -/
theorem Inv.poller (h : Inv s) {p : EPollPoller} (ht : Tracked p)
    (howners : ∀ f ch, p.channels f = some ch → s.alive ch = true)
    (hrest : ∀ ch ∈ s.place.rest, p.Registered ch) : Inv { s with poller := p } :=
  ⟨ht, howners, h.eventHandling, hrest, h.order, h.nodup, h.current⟩

theorem construct_inv (h : Inv s) (hdead : s.alive ch = false) (fd : Int) :
    Inv (s.construct ch fd) := by
  have hnone : ∀ f, s.poller.channels f ≠ some ch := by
    intro f hf
    have := h.owners f ch hf
    rw [hdead] at this
    exact absurd this (by simp)
  have hne : ∀ c, s.alive c = true → c ≠ ch := by
    rintro c hc rfl
    rw [hdead] at hc
    exact absurd hc (by simp)
  have hrest : ∀ c ∈ s.place.rest,
      (s.poller.setObject ch (Channel.new fd)).Registered c := by
    intro c hc
    have hreg := h.rest c hc
    unfold EPollPoller.Registered
    rw [show (s.poller.setObject ch (Channel.new fd)).objects c = s.poller.objects c from
      Function.update_of_ne (hne c (h.alive_of_registered hreg)) ..]
    exact hreg
  refine ⟨h.tracked.construct hnone fd, fun f c hc => ?_, h.eventHandling, hrest, h.order, h.nodup,
    fun c rest hplace => ?_⟩
  · have hc' := h.owners f c hc
    show Function.update s.alive ch true c = true
    rw [Function.update_of_ne (hne c hc')]
    exact hc'
  · obtain ⟨halive, hhandling, hcur⟩ := h.current c rest hplace
    have hne' := hne c halive
    refine ⟨?_, ?_, hcur⟩
    · show Function.update s.alive ch true c = true
      rw [Function.update_of_ne hne']
      exact halive
    · show Function.update s.handling ch false c = true
      rw [Function.update_of_ne hne']
      exact hhandling

theorem tie_inv (h : Inv s) (ch : ChannelPtr) : Inv (s.tie ch) := by
  refine h.poller h.tracked.tie h.owners fun c hc => ?_
  have hreg := h.rest c hc
  unfold EPollPoller.Registered at hreg ⊢
  by_cases hne : c = ch
  · subst hne
    rw [EPollPoller.setObject_objects]
    exact hreg
  · rw [show (s.poller.setObject ch (s.poller.objects ch).tie).objects c = s.poller.objects c from
      Function.update_of_ne hne ..]
    exact hreg

theorem change_inv (h : Inv s) (halive : s.alive ch = true) (i : Interest) :
    Ends (s.change ch i) Inv fun e => e.ofCaller = true := by
  unfold Reactor.change
  by_cases hfree : s.poller.channels (s.poller.fd ch) = none ∨
      s.poller.channels (s.poller.fd ch) = some ch
  · obtain ⟨p, hp, hu⟩ := h.tracked.change_spec i hfree
    obtain ⟨ht, hreg⟩ := h.tracked.updated hfree hu
    rw [hp]
    refine .ok (h.poller ht (fun f c hc => ?_) fun c hc => ?_)
    · by_cases hf : f = s.poller.fd ch
      · rw [hf, hu.channel] at hc
        rw [← Option.some.inj hc]
        exact halive
      · rw [hu.channels f hf] at hc
        exact h.owners f c hc
    · by_cases hne : c = ch
      · rw [hne]
        exact hreg
      · exact (hu.registered_iff hfree (.inr hu.channel) hne).mpr (h.rest c hc)
  · obtain ⟨c, hc⟩ : ∃ c, s.poller.channels (s.poller.fd ch) = some c :=
      Option.ne_none_iff_exists'.mp fun hnone => hfree (.inl hnone)
    have hne : c ≠ ch := by
      rintro rfl
      exact hfree (.inr hc)
    rw [h.tracked.change_taken i hc hne]
    exact ⟨fun a ha => absurd ha (by simp [Except.mapError]),
      fun e he => Except.error.inj he ▸ rfl⟩

theorem remove_inv (h : Inv s) (hin : s.place.inCallback = true) :
    Ends (s.remove ch) Inv fun e => e.ofCaller = true := by
  refine .check_bind (fun _ => rfl) fun hnone => .check_bind (fun _ => rfl) fun hmay => ?_
  by_cases hreg : s.poller.Registered ch
  · have hevents : (s.poller.objects ch).events = Events.kNoneEvent := by
      simpa [Channel.isNoneEvent] using hnone
    obtain ⟨p, hp, hr⟩ := h.tracked.remove_spec hreg hevents
    rw [hp]
    refine .ok (h.poller (h.tracked.removed hreg hr) (fun f c hc => ?_) fun c hc => ?_)
    · by_cases hf : f = s.poller.fd ch
      · rw [hf, hr.channel] at hc
        exact absurd hc (by simp)
      · rw [hr.channels f hf] at hc
        exact h.owners f c hc
    · have hne : c ≠ ch := by
        rintro rfl
        exact h.notMem_rest hin hmay hc
      exact (hr.registered_iff (.inr hreg) (.inl hr.channel) hne).mpr (h.rest c hc)
  · rcases removeChannel_unregistered hreg with he | he
    · rw [he]
      exact ⟨fun a ha => absurd ha (by simp [Except.mapError]),
        fun e he => Except.error.inj he ▸ rfl⟩
    · rw [he]
      exact ⟨fun a ha => absurd ha (by simp [Except.mapError]),
        fun e he => Except.error.inj he ▸ rfl⟩

/-- `~Channel` lets go only of a channel that is neither handled nor registered. -/
theorem destroy_inv (h : Inv s) : Ends (s.destroy ch) Inv fun e => e.ofCaller = true := by
  refine .check_bind (fun _ => rfl) fun hhandling => .check_bind (fun _ => rfl) fun hadded => ?_
  have hun : ¬ s.poller.Registered ch := by
    intro hreg
    rw [h.tracked.added ch hreg] at hadded
    exact absurd hadded (by simp)
  have hdtor : s.poller.channels (s.poller.objects ch).fd ≠ some ch := hun
  rw [check_of _ hdtor]
  have hne : ∀ f c, s.poller.channels f = some c → c ≠ ch := by
    rintro f c hc rfl
    refine hun ?_
    unfold EPollPoller.Registered
    rw [h.tracked.registered f c hc]
    exact hc
  refine .ok ⟨h.tracked, fun f c hc => ?_, h.eventHandling, h.rest, h.order, h.nodup,
    fun c rest hplace => ?_⟩
  · show Function.update s.alive ch false c = true
    rw [Function.update_of_ne (hne f c hc)]
    exact h.owners f c hc
  · obtain ⟨halive, hhandled, hcur⟩ := h.current c rest hplace
    have hne' : c ≠ ch := by
      rintro rfl
      rw [hhandling] at hhandled
      exact absurd hhandled (by simp)
    refine ⟨?_, hhandled, hcur⟩
    show Function.update s.alive ch false c = true
    rw [Function.update_of_ne hne']
    exact halive

/-! ## The turn of the loop -/

/-- `M_revents` after the report. -/
def written (revents : ChannelPtr → Events) (events : List (ChannelPtr × Events)) :
    ChannelPtr → Events :=
  events.foldl (fun r x => Function.update r x.1 x.2) revents

theorem written_of_notMem (revents : ChannelPtr → Events) {events : List (ChannelPtr × Events)}
    (h : ch ∉ events.map Prod.fst) : written revents events ch = revents ch := by
  induction events generalizing revents with
  | nil => rfl
  | cons x rest ih =>
      rw [List.map_cons, List.mem_cons, not_or] at h
      show written (Function.update revents x.1 x.2) rest ch = revents ch
      rw [ih _ h.2, Function.update_of_ne h.1]

/-- A channel that is reported once keeps what was reported for it. -/
theorem written_of_mem (revents : ChannelPtr → Events) {events : List (ChannelPtr × Events)}
    (hnodup : (events.map Prod.fst).Nodup) {x : ChannelPtr × Events} (hx : x ∈ events) :
    written revents events x.1 = x.2 := by
  induction events generalizing revents with
  | nil => exact absurd hx List.not_mem_nil
  | cons y rest ih =>
      rw [List.map_cons, List.nodup_cons] at hnodup
      show written (Function.update revents y.1 y.2) rest x.1 = x.2
      rcases List.mem_cons.mp hx with rfl | hx
      · rw [written_of_notMem _ hnodup.1, Function.update_self]
      · exact ih _ hnodup.2 hx

theorem fillLoop_eq {events : List (ChannelPtr × Events)}
    (h : ∀ x ∈ events, s.alive x.1 = true ∧
      s.poller.channels (s.poller.objects x.1).fd ≠ none) :
    s.fillLoop events = .ok { s with
      revents := written s.revents events
      activeChannels := s.activeChannels ++ events.map Prod.fst } := by
  induction events generalizing s with
  | nil =>
      rw [List.map_nil, List.append_nil]
      rfl
  | cons x rest ih =>
      obtain ⟨ch, revents⟩ := x
      obtain ⟨halive, hfind⟩ := h (ch, revents) List.mem_cons_self
      unfold Reactor.fillLoop
      rw [check_of _ halive, ok_bind, check_of _ hfind, ok_bind]
      refine (@ih { s with
        revents := Function.update s.revents ch revents
        activeChannels := s.activeChannels ++ [ch] }
        fun x hx => h x (List.mem_cons_of_mem _ hx)).trans ?_
      rw [List.map_cons, List.append_assoc, List.singleton_append]
      rfl

/-- The `for` is about to begin on what was reported. -/
structure Polled (s : Reactor) (events : List (ChannelPtr × Events)) (s' : Reactor) : Prop where
  poller : s'.poller = s.poller
  alive : s'.alive = s.alive
  eventHandling : s'.eventHandling = true
  active : s'.activeChannels = events.map Prod.fst
  place : s'.place = .between (events.map Prod.fst)
  handled : s'.handled = []
  revents : s'.revents = written s.revents events

theorem poll_spec (h : Inv s) {events : List (ChannelPtr × Events)} (hr : s.Reported events) :
    Lands (s.poll events) (Polled s events) := by
  have hreg : ∀ x ∈ events, s.poller.Registered x.1 := by
    intro x hx
    obtain ⟨mask, he, -⟩ := hr.entry x hx
    exact h.tracked.reported he
  have hfill := @fillLoop_eq { s with activeChannels := [] } events fun x hx => by
    refine ⟨h.alive_of_registered (hreg x hx), ?_⟩
    show s.poller.channels _ ≠ none
    rw [show s.poller.channels (s.poller.objects x.1).fd = some x.1 from hreg x hx]
    simp
  unfold Reactor.poll Reactor.epollPoll
  by_cases hpos : events.length > 0
  · rw [if_pos hpos]
    have hroom : events.length ≤ ({ s with activeChannels := [] } : Reactor).eventsSize := hr.room
    rw [check_of _ hroom, ok_bind, hfill]
    exact .ok ⟨rfl, rfl, rfl, rfl, rfl, rfl, rfl⟩
  · obtain rfl : events = [] := List.eq_nil_of_length_eq_zero (by omega)
    rw [if_neg hpos]
    exact .ok ⟨rfl, rfl, rfl, rfl, rfl, rfl, rfl⟩

theorem Reactor.Reported.nodup_fst {events : List (ChannelPtr × Events)} (hr : s.Reported events) :
    (events.map Prod.fst).Nodup := by
  have hmap : events.map (fun x => (s.poller.objects x.1).fd) =
      (events.map Prod.fst).map fun ch => (s.poller.objects ch).fd := by
    rw [List.map_map]
    rfl
  have hnodup := hr.nodup
  rw [hmap] at hnodup
  exact hnodup.of_map _

theorem Polled.inv (h : Inv s) {events : List (ChannelPtr × Events)} (hr : s.Reported events)
    (hp : Polled s events s') : Inv s' := by
  refine ⟨hp.poller ▸ h.tracked, fun f c hc => ?_, ?_, fun c hc => ?_, fun _ => ?_, ?_, ?_⟩
  · rw [hp.poller] at hc
    rw [hp.alive]
    exact h.owners f c hc
  · rw [hp.eventHandling, hp.place]
    simp
  · rw [hp.place] at hc
    obtain ⟨x, hx, rfl⟩ := List.mem_map.mp hc
    obtain ⟨mask, he, -⟩ := hr.entry x hx
    rw [hp.poller]
    exact h.tracked.reported he
  · rw [hp.handled, hp.place, hp.active]
    rfl
  · rw [hp.active]
    exact hr.nodup_fst
  · intro c rest hplace
    rw [hp.place] at hplace
    exact absurd hplace (by simp)

/-- A channel that waits is there when its turn comes. -/
theorem handleEvent_inv (h : Inv s) {rest : List ChannelPtr} (hplace : s.place = .between (ch :: rest))
    (guard : Bool) : Lands (s.handleEvent ch rest guard) Inv := by
  have hreg : s.poller.Registered ch := h.rest ch (by rw [hplace]; exact List.mem_cons_self)
  have halive := h.alive_of_registered hreg
  have hinside : s.place ≠ .outside := by
    rw [hplace]
    simp
  have horder := h.order hinside
  have hevent := h.eventHandling.mpr hinside
  have hrest : ∀ c ∈ rest, s.poller.Registered c := by
    intro c hc
    refine h.rest c ?_
    rw [hplace]
    exact List.mem_cons_of_mem _ hc
  have horder' : ∀ cbs : List Callback,
      (s.handled ++ [(ch, cbs)]).map Prod.fst ++ rest = s.activeChannels := by
    intro cbs
    rw [hplace] at horder
    rw [← horder, List.map_append, List.append_assoc]
    rfl
  refine .check_bind halive ?_
  split
  · refine .ok ⟨h.tracked, h.owners, iff_of_true hevent (by simp), hrest, fun _ => horder' _, h.nodup,
      fun c r hc => ?_⟩
    exact absurd hc (by simp)
  · refine .ok ⟨h.tracked, h.owners, iff_of_true hevent (by simp), hrest, fun _ => horder' _, h.nodup,
      fun c r hc => ?_⟩
    obtain ⟨rfl, rfl⟩ : ch = c ∧ rest = r := by simpa using hc
    refine ⟨halive, ?_, rfl, ?_⟩
    · show Function.update s.handling ch true ch = true
      exact Function.update_self ..
    · show ch ∈ (s.handled ++ [_]).map Prod.fst
      rw [List.map_append]
      exact List.mem_append_right _ List.mem_cons_self

theorem handlingDone_inv (h : Inv s) {rest : List ChannelPtr} (hplace : s.place = .handling ch rest) :
    Lands s.handlingDone Inv := by
  obtain ⟨halive, -⟩ := h.current ch rest hplace
  have hinside : s.place ≠ .outside := by
    rw [hplace]
    simp
  have horder := h.order hinside
  have hrest := h.rest
  rw [hplace] at horder hrest
  unfold Reactor.handlingDone
  rw [hplace]
  dsimp only
  refine .check_bind halive (.ok ⟨h.tracked, h.owners, ?_, hrest, fun _ => horder, h.nodup, ?_⟩)
  · exact iff_of_true (h.eventHandling.mpr hinside) (by simp)
  · intro c r hc
    exact absurd hc (by simp)

theorem exec_inv (h : Inv s) {a : Act} (hen : s.Enabled a) :
    Ends (s.exec a) Inv fun e => e.ofCaller = true := by
  cases a with
  | construct ch fd => exact .ok (construct_inv h hen.2 fd)
  | tie ch => exact .ok (tie_inv h ch)
  | change ch i => exact change_inv h hen.2 i
  | remove ch => exact remove_inv h hen.1
  | destroy ch => exact destroy_inv h
  | poll events =>
      obtain ⟨-, hr⟩ := hen
      exact ((poll_spec h hr).mono fun s' hp => hp.inv h hr).ends
  | dispatch guard =>
      obtain ⟨ch, rest, hplace⟩ := enabled_dispatch hen
      show Ends (s.dispatch guard) _ _
      unfold Reactor.dispatch
      rw [hplace]
      exact (handleEvent_inv h hplace guard).ends
  | handled =>
      obtain ⟨ch, rest, hplace⟩ := enabled_handled hen
      exact (handlingDone_inv h hplace).ends
  | finish =>
      refine .ok ⟨h.tracked, h.owners, ?_, fun c hc => ?_, fun hne => absurd rfl hne, h.nodup, ?_⟩
      · exact iff_of_false (by simp [Reactor.finish]) (by simp [Reactor.finish])
      · exact absurd hc (by simp [Reactor.finish, Place.rest])
      · intro c r hc
        exact absurd hc (by simp [Reactor.finish])

end Steps

theorem new_inv (fd : ChannelPtr → Int) : Inv (.new fd) := by
  refine ⟨new_tracked fd, fun f c hc => ?_, by simp [Reactor.new], fun c hc => ?_, fun hne => ?_,
    List.nodup_nil, fun c r hc => ?_⟩
  · exact absurd hc (by simp [Reactor.new, EPollPoller.new])
  · exact absurd hc (by simp [Reactor.new, Place.rest])
  · exact absurd rfl hne
  · exact absurd hc (by simp [Reactor.new])

/-- **No channel is used after its destruction.** Whatever callbacks and functors do to the
channels of the loop, a run is stopped only by an assert on a misuse by its callers. In
every state it reaches no `epoll_ctl` has failed, the channels that wait in the `for` are
alive and registered, and so is alive the channel whose callbacks run. -/
theorem dispatch_safe (fd : ChannelPtr → Int) (acts : List Act)
    (hlegal : reactorSys.Legal (.new fd) acts) :
    Ends (reactorSys.runFrom (.new fd) acts)
      (fun s => s.poller.failed = 0 ∧
        (∀ ch ∈ s.place.rest, s.alive ch = true ∧ s.poller.Registered ch) ∧
        ∀ ch rest, s.place = .handling ch rest → s.alive ch = true)
      fun e => e.ofCaller = true := by
  have hrun : Ends (reactorSys.runFrom (.new fd) acts) Inv fun e => e.ofCaller = true :=
    Sys.invariant_ends (S := reactorSys) (fun s a h hen => exec_inv h hen) (new_inv fd) hlegal
  refine hrun.mono fun s h => ⟨h.tracked.failed, fun ch hch => ?_, fun ch rest hplace => ?_⟩
  · exact ⟨h.alive_of_registered (h.rest ch hch), h.rest ch hch⟩
  · exact (h.current ch rest hplace).1

/-- A callback removes its channel; its destruction waits for a functor. Another channel
is made at the address, with the descriptor of the first. -/
def rebuilt : List Act :=
  [.construct 4 7, .change 4 .enableReading, .construct 5 8, .change 5 .enableReading,
    .poll [(5, Events.kReadEvent), (4, Events.kReadEvent)], .dispatch true, .handled,
    .dispatch true, .change 4 .disableAll, .remove 4, .handled, .finish, .destroy 4,
    .construct 4 7, .change 4 .enableWriting, .poll [(4, Events.kWriteEvent)], .dispatch true]

theorem dispatch_safe_rebuilt :
    Lands (reactorSys.runFrom (.new fun _ => 0) rebuilt) fun s =>
      s.place = .handling 4 [] ∧ s.alive 4 = true := by
  have hrun : Lands (reactorSys.runFrom (.new fun _ => 0) rebuilt) fun s =>
      s.place = .handling 4 [] := by decide
  obtain ⟨s, hs, hplace⟩ := hrun
  exact ⟨s, hs, hplace, ((dispatch_safe _ rebuilt (by decide)).1 s hs).2.2 4 [] hplace⟩

end Muduo.Dispatch
