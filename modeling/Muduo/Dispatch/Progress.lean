import Muduo.Dispatch.Safety
import Muduo.Lib.Rounds

/-!
# No channel is starved

`epoll_wait` writes as many entries as `M_events` has room for. What is ready beyond that
stays in the kernel, which goes through the ready descriptors in turn: what it has reported,
and is ready still, waits behind the others. `EPollPoller::poll` doubles `M_events` whenever
it came back full.

So a descriptor that stays ready, behind `k` others, is left out by some
`log₂ (k / M_events.size() + 1)` polls at most, whatever becomes ready meanwhile and
whatever the callbacks do. The poll that reports it hands its channel to the `for`.
-/

namespace Muduo.Dispatch

open Lib Poller

/-- A loop, and the ready list of its epoll instance. -/
structure Served where
  loop : Reactor
  ready : List Int

inductive ServedAct
  | loop (a : Act)
  /-- A descriptor of the epoll set becomes ready. -/
  | arrive (fd : Int)
  /-- A descriptor is not ready any more. -/
  | leave (fd : Int)
  deriving DecidableEq, Repr

def ServedAct.isPoll : ServedAct → Bool
  | .loop (.poll _) => true
  | _ => false

namespace Served

def new (fd : ChannelPtr → Int) : Served := ⟨.new fd, []⟩

/-- The descriptors of a report. -/
def reported (s : Served) (events : List (ChannelPtr × Events)) : List Int :=
  events.map fun x => (s.loop.poller.objects x.1).fd

/-- The ready list after a step: what a poll has reported goes to the back of it. -/
def requeue (s : Served) : Act → List Int
  | .poll events => serve events.length s.ready
  | _ => s.ready

/-- The descriptor is in the epoll set; `EPOLL_CTL_DEL` takes it off the ready list too. -/
def watched (l : Reactor) (fd : Int) : Bool := (l.poller.epoll fd).isSome

def exec (s : Served) : ServedAct → Except Fault Served
  | .loop a => do
      let l ← s.loop.exec a
      return ⟨l, (s.requeue a).filter (watched l)⟩
  | .arrive fd => .ok { s with ready := s.ready ++ [fd] }
  | .leave fd => .ok { s with ready := s.ready.erase fd }

/-- A poll reports the front of the ready list, as far as there is room. -/
def InTurn (s : Served) : Act → Prop
  | .poll events => s.reported events = s.ready.take s.loop.eventsSize
  | _ => True

instance (s : Served) : ∀ a, Decidable (s.InTurn a)
  | .poll events => inferInstanceAs (Decidable (s.reported events = s.ready.take s.loop.eventsSize))
  | .construct _ _ | .tie _ | .change _ _ | .remove _ | .destroy _ | .dispatch _ | .handled
  | .finish => inferInstanceAs (Decidable True)

def Enabled (s : Served) : ServedAct → Prop
  | .loop a => s.loop.Enabled a ∧ s.InTurn a
  | .arrive fd => watched s.loop fd = true ∧ fd ∉ s.ready
  | .leave fd => fd ∈ s.ready

instance (s : Served) : ∀ a, Decidable (s.Enabled a)
  | .loop a => inferInstanceAs (Decidable (s.loop.Enabled a ∧ s.InTurn a))
  | .arrive fd => inferInstanceAs (Decidable (watched s.loop fd = true ∧ fd ∉ s.ready))
  | .leave fd => inferInstanceAs (Decidable (fd ∈ s.ready))

end Served

def servedSys : Sys Served ServedAct Fault := ⟨Served.Enabled, Served.exec⟩

instance (s : Served) (a : ServedAct) : Decidable (servedSys.enabled s a) :=
  inferInstanceAs (Decidable (s.Enabled a))

/-! ## The room in `M_events` -/

section Room

variable {s : Reactor}

theorem fillLoop_room (events : List (ChannelPtr × Events)) :
    Post (s.fillLoop events) fun s' => s'.eventsSize = s.eventsSize := by
  induction events generalizing s with
  | nil => exact .ok rfl
  | cons x rest ih =>
      refine .check_bind fun _ => .check_bind fun _ => ?_
      exact ih

/-- `M_events` is doubled by a poll that came back full, and by nothing else. -/
theorem poll_room (events : List (ChannelPtr × Events)) :
    Post (s.poll events) fun s' => s'.eventsSize = s.resize events.length := by
  unfold Reactor.poll
  have hempty : events.length = 0 → s.resize events.length = s.eventsSize := by
    intro hzero
    unfold Reactor.resize
    split
    · omega
    · rfl
  have hpoll : Post (Reactor.epollPoll { s with activeChannels := [] } events) fun s' =>
      s'.eventsSize = s.resize events.length := by
    unfold Reactor.epollPoll
    split
    · refine .check_bind fun _ => ?_
      refine (fillLoop_room events).bind fun l hl => .ok ?_
      show (if events.length = l.eventsSize then l.eventsSize * 2 else l.eventsSize) = _
      rw [hl]
      rfl
    · exact .ok (hempty (by omega)).symm
  exact hpoll.bind fun _ hroom => .ok hroom

theorem exec_room {a : Act} (ha : (ServedAct.loop a).isPoll = false) :
    Post (s.exec a) fun s' => s'.eventsSize = s.eventsSize := by
  cases a with
  | poll events => exact absurd ha (by simp [ServedAct.isPoll])
  | construct ch fd => exact .ok rfl
  | tie ch => exact .ok rfl
  | change ch i =>
      intro s' hs'
      obtain ⟨p, -, hs'⟩ := bind_eq_ok (show s.change ch i = .ok s' from hs')
      obtain rfl := Except.ok.inj hs'
      rfl
  | remove ch =>
      refine .check_bind fun _ => .check_bind fun _ => ?_
      intro s' hs'
      obtain ⟨p, -, hs'⟩ := bind_eq_ok hs'
      obtain rfl := Except.ok.inj hs'
      rfl
  | destroy ch =>
      exact .check_bind fun _ => .check_bind fun _ => .check_bind fun _ => .ok rfl
  | dispatch guard =>
      show Post (s.dispatch guard) _
      unfold Reactor.dispatch
      split
      · refine .check_bind fun _ => ?_
        split
        · exact .ok rfl
        · exact .ok rfl
      · exact .ok rfl
  | handled =>
      show Post s.handlingDone _
      unfold Reactor.handlingDone
      split
      · exact .check_bind fun _ => .ok rfl
      · exact .ok rfl
  | finish => exact .ok rfl

end Room

/-! ## The place in the ready list -/

section Ready

variable {s : Served} {f : Int}

/-- The number of descriptors in front of `f`, as long as it is ready. -/
def place (f : Int) (s : Served) : Nat := if f ∈ s.ready then s.ready.idxOf f else 0

/-- The descriptor is ready, and the step is not the end of that. -/
def StaysReady (f : Int) (s : Served) (a : ServedAct) : Prop := f ∈ s.ready ∧ a ≠ .leave f

instance (f : Int) (s : Served) (a : ServedAct) : Decidable (StaysReady f s a) :=
  inferInstanceAs (Decidable (f ∈ s.ready ∧ a ≠ .leave f))

/-- The step is no poll that reports `f`. -/
def Overlooks (f : Int) (s : Served) : ServedAct → Prop
  | .loop (.poll events) => f ∉ s.reported events
  | _ => True

/-- What is left of the list after a step of the loop. -/
theorem place_filter {l : Reactor} {q : List Int} {n : Nat} (h : q.idxOf f ≤ n) :
    place f ⟨l, q.filter (Served.watched l)⟩ ≤ n := by
  unfold place
  dsimp only
  split
  · rename_i hmem
    have hwatched := (List.mem_filter.mp hmem).2
    exact (idxOf_filter_le _ hwatched).trans h
  · exact Nat.zero_le n

/-- A poll that overlooks `f` came back full, and takes its report from in front of it. -/
theorem overlooked (hready : f ∈ s.ready) {events : List (ChannelPtr × Events)}
    (hturn : s.InTurn (.poll events)) (hover : f ∉ s.reported events) :
    Post (s.exec (.loop (.poll events))) fun s' =>
      s'.loop.eventsSize = s.loop.eventsSize * 2 ∧
        place f s' + s.loop.eventsSize ≤ place f s := by
  have hturn' : s.reported events = s.ready.take s.loop.eventsSize := hturn
  rw [hturn'] at hover
  obtain ⟨hmoved, hlong⟩ := idxOf_serve hready hover
  have hfull : events.length = s.loop.eventsSize := by
    have hlen := congrArg List.length hturn'
    unfold Served.reported at hlen
    rw [List.length_map, List.length_take] at hlen
    omega
  intro s' hs'
  obtain ⟨l, hl, heq⟩ := bind_eq_ok hs'
  obtain rfl := Except.ok.inj heq
  have hroom := poll_room events l hl
  unfold Reactor.resize at hroom
  rw [if_pos hfull] at hroom
  refine ⟨hroom, ?_⟩
  have hplace : place f s = s.ready.idxOf f := if_pos hready
  have hnext : place f ⟨l, (serve events.length s.ready).filter (Served.watched l)⟩ ≤
      s.ready.idxOf f - s.loop.eventsSize := by
    refine place_filter ?_
    rw [hfull]
    omega
  rw [hplace]
  show place f ⟨l, (serve events.length s.ready).filter (Served.watched l)⟩ + _ ≤ _
  omega

/-- No other step makes it wait for longer. -/
theorem not_moved_back {a : ServedAct} (hready : StaysReady f s a) (ha : a.isPoll = false) :
    Post (s.exec a) fun s' =>
      s'.loop.eventsSize = s.loop.eventsSize ∧ place f s' ≤ place f s := by
  obtain ⟨hmem, hstays⟩ := hready
  have hplace : place f s = s.ready.idxOf f := if_pos hmem
  rw [hplace]
  cases a with
  | loop a =>
      intro s' hs'
      obtain ⟨l, hl, heq⟩ := bind_eq_ok hs'
      obtain rfl := Except.ok.inj heq
      have hsame : s.requeue a = s.ready := by
        cases a with
        | poll events => exact absurd ha (by simp [ServedAct.isPoll])
        | _ => rfl
      refine ⟨exec_room ha l hl, place_filter ?_⟩
      rw [hsame]
  | arrive fd =>
      refine .ok ⟨rfl, ?_⟩
      have hmem' : f ∈ s.ready ++ [fd] := List.mem_append_left _ hmem
      unfold place
      rw [if_pos hmem', List.idxOf_append_of_mem hmem]
  | leave fd =>
      have hne : fd ≠ f := by
        rintro rfl
        exact hstays rfl
      refine .ok ⟨rfl, ?_⟩
      unfold place
      split
      · exact idxOf_erase_le hne
      · exact Nat.zero_le _

/-- As long as `f` is overlooked, the polls are few. -/
theorem overlooked_run {acts : List ServedAct} (hlegal : servedSys.Legal s acts)
    (hready : servedSys.Meets (StaysReady f) s acts) (hover : servedSys.Meets (Overlooks f) s acts) :
    Post (servedSys.runFrom s acts) fun _ =>
      s.loop.eventsSize * 2 ^ acts.countP ServedAct.isPoll ≤ place f s + s.loop.eventsSize := by
  have hround : ∀ (s : Served) (a : ServedAct),
      (servedSys.enabled s a ∧ StaysReady f s a) ∧ Overlooks f s a → a.isPoll = true →
        Post (servedSys.exec s a) fun s' =>
          s'.loop.eventsSize = s.loop.eventsSize * 2 ∧
            place f s' + s.loop.eventsSize ≤ place f s := by
    rintro s a ⟨⟨hen, hready⟩, hover⟩ ha
    cases a with
    | loop a =>
        cases a with
        | poll events => exact overlooked hready.1 hen.2 hover
        | _ => exact absurd ha (by simp [ServedAct.isPoll])
    | _ => exact absurd ha (by simp [ServedAct.isPoll])
  have hother : ∀ (s : Served) (a : ServedAct),
      (servedSys.enabled s a ∧ StaysReady f s a) ∧ Overlooks f s a → a.isPoll = false →
        Post (servedSys.exec s a) fun s' =>
          s'.loop.eventsSize = s.loop.eventsSize ∧ place f s' ≤ place f s :=
    fun s a hok ha => not_moved_back hok.1.2 ha
  exact Sys.rounds_double hround hother
    (Sys.meets_and.mpr ⟨Sys.meets_and.mpr ⟨hlegal, hready⟩, hover⟩)

theorem served_inv (h : Inv s.loop) {a : ServedAct} (hen : s.Enabled a) :
    Post (s.exec a) fun s' => Inv s'.loop := by
  cases a with
  | loop a =>
      intro s' hs'
      obtain ⟨l, hl, heq⟩ := bind_eq_ok hs'
      obtain rfl := Except.ok.inj heq
      exact (exec_inv h hen.1).1 l hl
  | arrive fd => exact .ok h
  | leave fd => exact .ok h

/-- The `for` is about to begin, and has the channel of `f` before it. -/
def HandsOn (f : Int) (s : Served) : Prop :=
  ∃ chs, s.loop.place = .between chs ∧ ∃ ch ∈ chs, (s.loop.poller.objects ch).fd = f

instance (f : Int) (s : Served) : Decidable (HandsOn f s) :=
  decidable_of_iff (∃ ch ∈ s.loop.place.rest, s.loop.place = .between s.loop.place.rest ∧
      (s.loop.poller.objects ch).fd = f) <| by
    constructor
    · rintro ⟨ch, hch, hplace, hfd⟩
      exact ⟨_, hplace, ch, hch, hfd⟩
    · rintro ⟨chs, hplace, ch, hch, hfd⟩
      rw [hplace]
      exact ⟨ch, hch, rfl, hfd⟩

/-- A poll that reports a descriptor hands its channel on. -/
theorem reported_handed_on (h : Inv s.loop) {events : List (ChannelPtr × Events)}
    (hen : s.Enabled (.loop (.poll events))) (hf : f ∈ s.reported events) :
    Lands (s.exec (.loop (.poll events))) (HandsOn f) := by
  obtain ⟨x, hx, hfd⟩ := List.mem_map.mp hf
  refine (poll_spec h hen.1.2).bind fun l hl => .ok ?_
  refine ⟨_, hl.place, x.1, List.mem_map_of_mem hx, ?_⟩
  show (l.poller.objects x.1).fd = f
  rw [hl.poller]
  exact hfd

/-- **No channel is starved.** Take any run, and after it any steps that the loop, the code
of the user and the kernel may take. A descriptor that is ready, behind `k` others, and
stays so is reported by one of the next polls as soon as there are so many of them that the
first size of `M_events`, doubled as many times, is more than `k` and that size; and this
poll hands its channel to the `for`. -/
theorem ready_is_handled (fd : ChannelPtr → Int) (pre acts : List ServedAct) (f : Int)
    {s s' : Served} (hlegal : servedSys.Legal (.new fd) (pre ++ acts))
    (hpre : servedSys.runFrom (.new fd) pre = .ok s) (hacts : servedSys.runFrom s acts = .ok s')
    (hready : servedSys.Meets (StaysReady f) s acts)
    (hpolls : s.ready.idxOf f + s.loop.eventsSize <
      s.loop.eventsSize * 2 ^ acts.countP ServedAct.isPoll) :
    ∃ before events after, acts = before ++ .loop (.poll events) :: after ∧
      Lands (servedSys.runFrom s (before ++ [.loop (.poll events)])) (HandsOn f) := by
  obtain ⟨hlegal₀, hlegal₁⟩ := Sys.meets_append.mp hlegal
  have hlegal' : servedSys.Legal s acts := hlegal₁ s hpre
  have hplace : place f s ≤ s.ready.idxOf f := by
    unfold place
    split
    · exact le_rfl
    · exact Nat.zero_le _
  have hseen : ¬ servedSys.Meets (Overlooks f) s acts := by
    intro hover
    have hfew := overlooked_run hlegal' hready hover s' hacts
    omega
  obtain ⟨before, a, after, t, rfl, hrun, -, hnot⟩ := Sys.exists_of_not_meets hseen
  cases a with
  | arrive fd => exact absurd trivial hnot
  | leave fd => exact absurd trivial hnot
  | loop a =>
      cases a with
      | poll events =>
          have hf : f ∈ t.reported events := not_not.mp hnot
          obtain ⟨hbefore, hrest⟩ := Sys.meets_append.mp hlegal'
          have hen : t.Enabled (.loop (.poll events)) := (Sys.meets_cons.mp (hrest t hrun)).1
          have hinv : Post (servedSys.runFrom (.new fd) (pre ++ before)) fun s => Inv s.loop := by
            have hwhole : servedSys.Legal (.new fd) (pre ++ before) := by
              refine Sys.meets_append.mpr ⟨hlegal₀, fun s₁ hs₁ => ?_⟩
              obtain rfl := Except.ok.inj (hpre.symm.trans hs₁)
              exact hbefore
            exact Sys.invariant_post (S := servedSys) (I := fun s => Inv s.loop)
              (fun s a h hen => served_inv h hen) (new_inv fd) hwhole
          have ht : servedSys.runFrom (.new fd) (pre ++ before) = .ok t := by
            rw [Sys.runFrom_append, hpre, ok_bind, hrun]
          refine ⟨before, events, after, rfl, ?_⟩
          rw [Sys.runFrom_append, hrun, ok_bind, Sys.runFrom_cons]
          exact (reported_handed_on (hinv t ht) hen hf).bind fun _ h => .ok h
      | _ => exact absurd trivial hnot

/-- Two descriptors are ready; the channel of the one in front is removed, and a third one
becomes ready, before the poll. -/
theorem ready_is_handled_behind_one :
    Lands (servedSys.runFrom (.new fun _ => 0)
      [.loop (.construct 4 7), .loop (.change 4 .enableReading), .loop (.construct 5 8),
        .loop (.change 5 .enableWriting), .loop (.construct 6 9),
        .loop (.change 6 .enableReading), .arrive 8, .arrive 7]) fun s =>
      ∃ before events after,
        [.arrive 9, .loop (.change 5 .disableAll), .loop (.remove 5),
          .loop (.poll [(4, Events.kReadEvent), (6, Events.kReadEvent)])] =
            before ++ .loop (.poll events) :: after ∧
        Lands (servedSys.runFrom s (before ++ [.loop (.poll events)])) (HandsOn 7) := by
  have hrun : Lands (servedSys.runFrom (.new fun _ => 0)
      [.loop (.construct 4 7), .loop (.change 4 .enableReading), .loop (.construct 5 8),
        .loop (.change 5 .enableWriting), .loop (.construct 6 9),
        .loop (.change 6 .enableReading), .arrive 8, .arrive 7]) fun s =>
      servedSys.Meets (StaysReady 7) s
        [.arrive 9, .loop (.change 5 .disableAll), .loop (.remove 5),
          .loop (.poll [(4, Events.kReadEvent), (6, Events.kReadEvent)])] ∧
      s.ready.idxOf 7 + s.loop.eventsSize < s.loop.eventsSize * 2 ^ 1 ∧
      Lands (servedSys.runFrom s [.arrive 9, .loop (.change 5 .disableAll), .loop (.remove 5),
        .loop (.poll [(4, Events.kReadEvent), (6, Events.kReadEvent)])]) fun _ => True := by
    decide
  obtain ⟨s, hs, hready, hpolls, s', hs', -⟩ := hrun
  exact ⟨s, hs, ready_is_handled _ _ _ 7 (by decide) hs hs' hready hpolls⟩

end Ready

end Muduo.Dispatch
