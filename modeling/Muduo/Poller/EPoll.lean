import Muduo.Poller.Model

/-!
# `EPollPoller` and the kernel

Three representations say where a channel is: its index, `M_channels` and the
kernel's epoll set. `Placed` lists the three ways in which they fit together,
and `Agrees` says that they do, for every channel. Each operation touches the
entries of one channel only, so one lemma (`Agrees.at`) carries the invariant
over every one of them.

An update of a channel that is not in the epoll set adds it, whatever its mask
is. So the set can hold a channel that wants nothing; this happens exactly when
interest is withdrawn from a channel that has none (`KeepsInterest`).
-/

namespace Muduo.Poller

open Lib EPollPoller

/-- How the index of channel `ch`, its entry in `M_channels` and its entry in
the epoll set fit together. -/
inductive Placed (ch : ChannelPtr) (index : Int) :
    Option ChannelPtr → Option (Events × ChannelPtr) → Prop
  | new : index = kNew → Placed ch index none none
  | added (events : Events) : index = kAdded → Placed ch index (some ch) (some (events, ch))
  | deleted : index = kDeleted → Placed ch index (some ch) none

/-- What the epoll set holds for the channel are its current events, and a
channel outside it has none. -/
def Current (o : Channel) (entry : Option (Events × ChannelPtr)) : Prop :=
  match entry with
  | some (events, _) => events = o.events
  | none => o.events = Events.kNoneEvent

structure Agrees (fd : ChannelPtr → Int) (p : EPollPoller) : Prop where
  fds : ∀ ch, (p.objects ch).fd = fd ch
  placed : ∀ ch, Placed ch (p.objects ch).index (p.channels (fd ch)) (p.epoll (fd ch))
  current : ∀ ch, Current (p.objects ch) (p.epoll (fd ch))
  /-- The entries of the two maps belong to channels. -/
  keys : ∀ f, (∀ ch, fd ch ≠ f) → p.channels f = none ∧ p.epoll f = none
  failed : p.failed = 0

/-- `p'` differs from `p` in the entries of channel `ch` only. -/
structure Elsewhere (fd : ChannelPtr → Int) (ch : ChannelPtr) (p p' : EPollPoller) : Prop where
  objects : ∀ c, c ≠ ch → p'.objects c = p.objects c
  channels : ∀ f, f ≠ fd ch → p'.channels f = p.channels f
  epoll : ∀ f, f ≠ fd ch → p'.epoll f = p.epoll f

namespace Elsewhere

variable {fd : ChannelPtr → Int} {ch : ChannelPtr} {p₁ p₂ p₃ : EPollPoller}

theorem trans (h : Elsewhere fd ch p₁ p₂) (h' : Elsewhere fd ch p₂ p₃) : Elsewhere fd ch p₁ p₃ where
  objects := fun c hc => (h'.objects c hc).trans (h.objects c hc)
  channels := fun f hf => (h'.channels f hf).trans (h.channels f hf)
  epoll := fun f hf => (h'.epoll f hf).trans (h.epoll f hf)

theorem setObject (p : EPollPoller) (o : Channel) : Elsewhere fd ch p (p.setObject ch o) :=
  ⟨fun _ hc => Function.update_of_ne hc .., fun _ _ => rfl, fun _ _ => rfl⟩

theorem setIndex (p : EPollPoller) (index : Int) : Elsewhere fd ch p (p.setIndex ch index) :=
  setObject p _

theorem setChannel (p : EPollPoller) (c : Option ChannelPtr) :
    Elsewhere fd ch p (p.setChannel (fd ch) c) :=
  ⟨fun _ _ => rfl, fun _ hf => Function.update_of_ne hf .., fun _ _ => rfl⟩

theorem setEpoll (p : EPollPoller) (e : Option (Events × ChannelPtr)) :
    Elsewhere fd ch p (p.setEpoll (fd ch) e) :=
  ⟨fun _ _ => rfl, fun _ _ => rfl, fun _ hf => Function.update_of_ne hf ..⟩

end Elsewhere

section Agreement

variable {fd : ChannelPtr → Int} {p p' : EPollPoller} {ch : ChannelPtr}

/-- The invariant, after an operation on one channel. -/
theorem Agrees.at (hfd : Function.Injective fd) (h : Agrees fd p) (he : Elsewhere fd ch p p')
    (hobj : (p'.objects ch).fd = fd ch)
    (hplaced : Placed ch (p'.objects ch).index (p'.channels (fd ch)) (p'.epoll (fd ch)))
    (hcurrent : Current (p'.objects ch) (p'.epoll (fd ch)))
    (hfailed : p'.failed = 0) : Agrees fd p' := by
  -- distinct descriptors keep the entries of the other channels apart
  have hother : ∀ c, c ≠ ch → p'.objects c = p.objects c ∧ p'.channels (fd c) = p.channels (fd c) ∧
      p'.epoll (fd c) = p.epoll (fd c) := by
    intro c hc
    have hne : fd c ≠ fd ch := fun heq => hc (hfd heq)
    exact ⟨he.objects c hc, he.channels (fd c) hne, he.epoll (fd c) hne⟩
  refine ⟨fun c => ?_, fun c => ?_, fun c => ?_, fun f hf => ?_, hfailed⟩
  · by_cases hc : c = ch
    · rw [hc]
      exact hobj
    · rw [(hother c hc).1]
      exact h.fds c
  · by_cases hc : c = ch
    · rw [hc]
      exact hplaced
    · obtain ⟨ho, hch, hep⟩ := hother c hc
      rw [ho, hch, hep]
      exact h.placed c
  · by_cases hc : c = ch
    · rw [hc]
      exact hcurrent
    · obtain ⟨ho, -, hep⟩ := hother c hc
      rw [ho, hep]
      exact h.current c
  · have hne : f ≠ fd ch := fun heq => hf ch heq.symm
    rw [he.channels f hne, he.epoll f hne]
    exact h.keys f hf

/-! ## What the operations do to one channel -/

theorem update_add (h : p.epoll (p.objects ch).fd = none) :
    p.update .EPOLL_CTL_ADD ch =
      .ok (p.setEpoll (p.objects ch).fd (some ((p.objects ch).events, ch))) := by
  simp only [EPollPoller.update, h]

theorem update_mod {e : Events × ChannelPtr} (h : p.epoll (p.objects ch).fd = some e) :
    p.update .EPOLL_CTL_MOD ch =
      .ok (p.setEpoll (p.objects ch).fd (some ((p.objects ch).events, ch))) := by
  simp only [EPollPoller.update, h]

theorem update_del {e : Events × ChannelPtr} (h : p.epoll (p.objects ch).fd = some e) :
    p.update .EPOLL_CTL_DEL ch = .ok (p.setEpoll (p.objects ch).fd none) := by
  simp only [EPollPoller.update, h]

/-- The channel is in the epoll set after an update: it was not in the set
before, or it wants something. -/
def Watches (o : Channel) (entry : Option (Events × ChannelPtr)) : Prop :=
  entry = none ∨ o.events ≠ Events.kNoneEvent

instance (o : Channel) (entry : Option (Events × ChannelPtr)) : Decidable (Watches o entry) :=
  inferInstanceAs (Decidable (_ ∨ _))

/-- `p'` is `p` after an update of channel `ch`, whose object is now `o`. -/
structure Updated (fd : ChannelPtr → Int) (ch : ChannelPtr) (o : Channel) (p p' : EPollPoller) :
    Prop extends Elsewhere fd ch p p' where
  object : p'.objects ch =
    { o with index := if Watches o (p.epoll (fd ch)) then kAdded else kDeleted }
  channel : p'.channels (fd ch) = some ch
  entry : p'.epoll (fd ch) =
    if Watches o (p.epoll (fd ch)) then some (o.events, ch) else none
  failed : p'.failed = p.failed

/-- Both ways to add a channel end alike. -/
private theorem added_spec (hfd : (p.objects ch).fd = fd ch) (hepoll : p.epoll (fd ch) = none) :
    Lands ((p.setIndex ch kAdded).update .EPOLL_CTL_ADD ch) fun p' =>
      Elsewhere fd ch p p' ∧ p'.objects ch = { p.objects ch with index := kAdded } ∧
        p'.channels = p.channels ∧ p'.epoll (fd ch) = some ((p.objects ch).events, ch) ∧
        p'.failed = p.failed := by
  have hfd' : ((p.setIndex ch kAdded).objects ch).fd = fd ch := by
    rw [setIndex_objects]
    exact hfd
  rw [update_add (by rw [hfd']; exact hepoll), hfd']
  refine .ok ⟨(Elsewhere.setIndex p kAdded).trans (.setEpoll _ _), ?_, rfl, ?_, rfl⟩
  · rw [setEpoll_objects, setIndex_objects]
  · rw [setEpoll_epoll, setIndex_objects]

theorem updateChannel_spec (hfd : (p.objects ch).fd = fd ch)
    (hplaced : Placed ch (p.objects ch).index (p.channels (fd ch)) (p.epoll (fd ch))) :
    Lands (p.updateChannel ch) (Updated fd ch (p.objects ch) p) := by
  unfold updateChannel
  dsimp only
  rw [hfd]
  generalize hc : p.channels (fd ch) = c at hplaced
  generalize he : p.epoll (fd ch) = e at hplaced
  cases hplaced with
  | new hidx =>
      have hwatch : Watches (p.objects ch) (p.epoll (fd ch)) := .inl he
      rw [if_pos (.inl hidx), if_pos hidx, check_of _ rfl, ok_bind]
      refine (added_spec (p := p.setChannel (fd ch) (some ch)) hfd he).mono fun p' hp' => ?_
      obtain ⟨helse, hobj, hch, hentry, hfailed⟩ := hp'
      refine ⟨(Elsewhere.setChannel p _).trans helse, ?_, ?_, ?_, hfailed⟩
      · rw [if_pos hwatch]
        exact hobj
      · rw [hch, setChannel_channels]
      · rw [if_pos hwatch]
        exact hentry
  | deleted hidx =>
      have hwatch : Watches (p.objects ch) (p.epoll (fd ch)) := .inl he
      have hne : (p.objects ch).index ≠ kNew := by
        rw [hidx]
        decide
      rw [if_pos (.inr hidx), if_neg hne, check_of _ (by simp), ok_bind, check_of _ rfl, ok_bind]
      refine (added_spec hfd he).mono fun p' hp' => ?_
      obtain ⟨helse, hobj, hch, hentry, hfailed⟩ := hp'
      refine ⟨helse, ?_, ?_, ?_, hfailed⟩
      · rw [if_pos hwatch]
        exact hobj
      · rw [hch, hc]
      · rw [if_pos hwatch]
        exact hentry
  | added events hidx =>
      have hne : ¬ ((p.objects ch).index = kNew ∨ (p.objects ch).index = kDeleted) := by
        rw [hidx]
        decide
      rw [if_neg hne, check_of _ (by simp), ok_bind, check_of _ hidx, ok_bind]
      have he' : p.epoll (p.objects ch).fd = some (events, ch) := by rw [hfd, he]
      by_cases hnone : (p.objects ch).events = Events.kNoneEvent
      · have hwatch : ¬ Watches (p.objects ch) (p.epoll (fd ch)) := by
          rw [he]
          simp [Watches, hnone]
        rw [if_pos (by simp [Channel.isNoneEvent, hnone]), update_del he', ok_bind, hfd]
        refine .ok ⟨(Elsewhere.setEpoll p _).trans (.setIndex _ _), ?_, hc, ?_, rfl⟩
        · rw [if_neg hwatch, setIndex_objects, setEpoll_objects]
        · rw [if_neg hwatch, setIndex_epoll, setEpoll_epoll]
      · have hwatch : Watches (p.objects ch) (p.epoll (fd ch)) := .inr hnone
        rw [if_neg (by simp [Channel.isNoneEvent, hnone]), update_mod he', hfd]
        refine .ok ⟨.setEpoll p _, ?_, hc, ?_, rfl⟩
        · rw [if_pos hwatch, setEpoll_objects, ← hidx]
        · rw [if_pos hwatch, setEpoll_epoll]

/-- The interest operations: the object changes, then the update. -/
theorem change_spec (h : Agrees fd p) (i : Interest) :
    Lands (p.change ch i) (Updated fd ch (i.apply (p.objects ch)) p) := by
  have hobj : (p.setObject ch (i.apply (p.objects ch))).objects ch = i.apply (p.objects ch) :=
    setObject_objects ..
  have hspec := @updateChannel_spec fd (p.setObject ch (i.apply (p.objects ch))) ch
  rw [hobj, i.apply_fd, i.apply_index] at hspec
  refine (hspec (h.fds ch) (h.placed ch)).mono fun p' hp' => ?_
  exact ⟨(Elsewhere.setObject p _).trans hp'.toElsewhere, hp'.object, hp'.channel, hp'.entry,
    hp'.failed⟩

theorem Agrees.updated (hfd : Function.Injective fd) (h : Agrees fd p) {o : Channel}
    (ho : o.fd = fd ch) (hu : Updated fd ch o p p') : Agrees fd p' := by
  refine h.at hfd hu.toElsewhere ?_ ?_ ?_ (hu.failed.trans h.failed)
  · rw [hu.object]
    exact ho
  · rw [hu.object, hu.channel, hu.entry]
    by_cases hw : Watches o (p.epoll (fd ch))
    · rw [if_pos hw, if_pos hw]
      exact .added _ rfl
    · rw [if_neg hw, if_neg hw]
      exact .deleted rfl
  · rw [hu.object, hu.entry]
    by_cases hw : Watches o (p.epoll (fd ch))
    · rw [if_pos hw, if_pos hw]
      rfl
    · -- only an empty mask takes the channel out of the set
      rw [if_neg hw, if_neg hw]
      exact not_not.mp fun hne => hw (.inr hne)

/-- `p'` is `p` without channel `ch`. -/
structure Removed (fd : ChannelPtr → Int) (ch : ChannelPtr) (p p' : EPollPoller) : Prop
    extends Elsewhere fd ch p p' where
  fds : (p'.objects ch).fd = fd ch
  index : (p'.objects ch).index = kNew
  events : (p'.objects ch).events = Events.kNoneEvent
  channel : p'.channels (fd ch) = none
  entry : p'.epoll (fd ch) = none
  failed : p'.failed = p.failed

theorem removeChannel_spec (hfd : (p.objects ch).fd = fd ch)
    (hnone : (p.objects ch).events = Events.kNoneEvent) (hch : p.channels (fd ch) = some ch)
    (hplaced : Placed ch (p.objects ch).index (p.channels (fd ch)) (p.epoll (fd ch))) :
    Lands (p.removeChannel ch) (Removed fd ch p) := by
  have hobject : ∀ q : EPollPoller, q.objects = p.objects →
      ((q.setIndex ch kNew).objects ch) = { p.objects ch with index := kNew } := by
    intro q hq
    rw [setIndex_objects, hq]
  unfold removeChannel
  dsimp only
  rw [hfd, hch, check_of _ (by simp), ok_bind, check_of _ rfl, ok_bind,
    check_of _ (by simp [Channel.isNoneEvent, hnone]), ok_bind]
  rw [hch] at hplaced
  generalize he : p.epoll (fd ch) = e at hplaced
  cases hplaced with
  | added events hidx =>
      rw [check_of _ (.inl hidx), ok_bind, check_of _ (by simp), ok_bind, if_pos hidx]
      have he' : (p.setChannel (fd ch) none).epoll
          ((p.setChannel (fd ch) none).objects ch).fd = some (events, ch) := by
        rw [setChannel_objects, hfd]
        exact he
      rw [update_del he', ok_bind, setChannel_objects, hfd]
      have hobj := hobject ((p.setChannel (fd ch) none).setEpoll (fd ch) none) rfl
      refine .ok ⟨((Elsewhere.setChannel p none).trans (.setEpoll _ none)).trans (.setIndex _ kNew),
        ?_, ?_, ?_, ?_, ?_, rfl⟩
      · rw [hobj]
        exact hfd
      · rw [hobj]
      · rw [hobj]
        exact hnone
      · rw [setIndex_channels, setEpoll_channels, setChannel_channels]
      · rw [setIndex_epoll, setEpoll_epoll]
  | deleted hidx =>
      have hne : (p.objects ch).index ≠ kAdded := by
        rw [hidx]
        decide
      rw [check_of _ (.inr hidx), ok_bind, check_of _ (by simp), ok_bind, if_neg hne, ok_bind]
      have hobj := hobject (p.setChannel (fd ch) none) rfl
      refine .ok ⟨(Elsewhere.setChannel p none).trans (.setIndex _ kNew), ?_, ?_, ?_, ?_, he, rfl⟩
      · rw [hobj]
        exact hfd
      · rw [hobj]
      · rw [hobj]
        exact hnone
      · rw [setIndex_channels, setChannel_channels]

/-- `disableAll(); remove()`, from every state of the channel. -/
theorem remove_spec (hfd : Function.Injective fd) (h : Agrees fd p) (ch : ChannelPtr) :
    Lands (p.exec (.remove ch)) (Removed fd ch p) := by
  refine (change_spec h .disableAll).bind fun p₁ hu => ?_
  have h₁ : Agrees fd p₁ := h.updated (o := (p.objects ch).disableAll) hfd (h.fds ch) hu
  have hnone : (p₁.objects ch).events = Events.kNoneEvent := by
    rw [hu.object]
    rfl
  refine .check_bind (by simp [Channel.isNoneEvent, hnone]) ?_
  have hobj : (p₁.setObject ch (p₁.objects ch).remove).objects ch = (p₁.objects ch).remove :=
    setObject_objects ..
  have hspec := @removeChannel_spec fd (p₁.setObject ch (p₁.objects ch).remove) ch
  rw [hobj] at hspec
  refine (hspec (h₁.fds ch) hnone hu.channel (h₁.placed ch)).mono fun p' hr => ?_
  exact ⟨(hu.toElsewhere.trans (.setObject p₁ _)).trans hr.toElsewhere, hr.fds, hr.index, hr.events,
    hr.channel, hr.entry, hr.failed.trans hu.failed⟩

theorem Agrees.removed (hfd : Function.Injective fd) (h : Agrees fd p) (hr : Removed fd ch p p') :
    Agrees fd p' := by
  refine h.at hfd hr.toElsewhere hr.fds ?_ ?_ (hr.failed.trans h.failed)
  · rw [hr.channel, hr.entry]
    exact .new hr.index
  · rw [hr.entry]
    exact hr.events

/-- The three conditions a channel can be in. -/
theorem Agrees.cases (h : Agrees fd p) (ch : ChannelPtr) :
    ((p.objects ch).index = kNew ∧ p.channels (fd ch) = none ∧ p.epoll (fd ch) = none) ∨
    ((p.objects ch).index = kAdded ∧ p.channels (fd ch) = some ch ∧
      p.epoll (fd ch) = some ((p.objects ch).events, ch)) ∨
    ((p.objects ch).index = kDeleted ∧ p.channels (fd ch) = some ch ∧ p.epoll (fd ch) = none) := by
  have hplaced := h.placed ch
  have hcurrent := h.current ch
  generalize p.channels (fd ch) = c at hplaced
  generalize p.epoll (fd ch) = e at hplaced hcurrent
  cases hplaced with
  | new hidx => exact .inl ⟨hidx, rfl, rfl⟩
  | added events hidx =>
      have hevents : events = (p.objects ch).events := hcurrent
      rw [hevents]
      exact .inr (.inl ⟨hidx, rfl, rfl⟩)
  | deleted hidx => exact .inr (.inr ⟨hidx, rfl, rfl⟩)

/-- An entry of `M_channels` is under the descriptor of its channel. -/
theorem Agrees.registered (h : Agrees fd p) {f : Int} (hf : p.channels f = some ch) :
    f = fd ch := by
  by_cases hno : ∀ c, fd c ≠ f
  · rw [(h.keys f hno).1] at hf
    exact absurd hf (by simp)
  · push Not at hno
    obtain ⟨c, rfl⟩ := hno
    rcases h.cases c with ⟨-, hch, -⟩ | ⟨-, hch, -⟩ | ⟨-, hch, -⟩
    · rw [hch] at hf
      exact absurd hf (by simp)
    · rw [hch] at hf
      rw [Option.some.inj hf]
    · rw [hch] at hf
      rw [Option.some.inj hf]

/-- What the epoll set can report. -/
theorem Agrees.reported (h : Agrees fd p) {f : Int} {events : Events}
    (he : p.epoll f = some (events, ch)) :
    (p.objects ch).fd = f ∧ p.channels (p.objects ch).fd = some ch := by
  -- the entry belongs to some channel, and it names that channel
  obtain ⟨c, rfl⟩ : ∃ c, fd c = f := by
    by_contra hno
    have hnone := (h.keys f fun c hc => hno ⟨c, hc⟩).2
    rw [hnone] at he
    exact absurd he (by simp)
  rcases h.cases c with ⟨-, -, hep⟩ | ⟨-, hch, hep⟩ | ⟨-, -, hep⟩
  · rw [hep] at he
    exact absurd he (by simp)
  · rw [hep] at he
    obtain ⟨-, rfl⟩ : (p.objects c).events = events ∧ c = ch := by simpa using he
    rw [h.fds c]
    exact ⟨rfl, hch⟩
  · rw [hep] at he
    exact absurd he (by simp)

/-! ## Runs -/

theorem exec_agrees (hfd : Function.Injective fd) (h : Agrees fd p) (a : Act) :
    Lands (p.exec a) (Agrees fd) := by
  cases a with
  | change ch i =>
      refine (change_spec h i).mono fun p' hu => h.updated hfd ?_ hu
      rw [i.apply_fd]
      exact h.fds ch
  | remove ch => exact (remove_spec hfd h ch).mono fun p' hr => h.removed hfd hr

theorem new_agrees (fd : ChannelPtr → Int) : Agrees fd (EPollPoller.new fd) :=
  ⟨fun _ => rfl, fun _ => .new rfl, fun _ => rfl, fun _ _ => ⟨rfl, rfl⟩, rfl⟩

theorem run_agrees (hfd : Function.Injective fd) (acts : List Act) :
    Lands (epollSys.runFrom (EPollPoller.new fd) acts) (Agrees fd) := by
  have hlegal : epollSys.Legal (EPollPoller.new fd) acts :=
    Sys.meets_of_forall (fun _ _ => trivial) _
  exact Sys.invariant_lands (S := epollSys) (fun p a h _ => exec_agrees hfd h a) (new_agrees fd) hlegal

end Agreement

section Runs

variable {fd : ChannelPtr → Int}

/-- **The poller agrees with the kernel.** For channels with distinct
descriptors, every sequence of interest changes and removals passes all
assertions and issues no illegal `epoll_ctl`. The index of a channel is `kAdded`
exactly when its descriptor is in the epoll set with its current events and the
channel itself, `kDeleted` exactly when it is in `M_channels` only, and `kNew`
exactly when it is in neither; and every pointer epoll can report is the channel
that `M_channels` has for its descriptor. -/
theorem epoll_agrees (hfd : Function.Injective fd) (acts : List Act) :
    Lands (epollSys.runFrom (EPollPoller.new fd) acts) fun p =>
      p.failed = 0 ∧
      (∀ ch, (p.objects ch).fd = fd ch) ∧
      (∀ ch, (p.objects ch).index = kAdded ↔
        p.epoll (fd ch) = some ((p.objects ch).events, ch)) ∧
      (∀ ch, (p.objects ch).index = kDeleted ↔
        p.channels (fd ch) = some ch ∧ p.epoll (fd ch) = none) ∧
      (∀ ch, (p.objects ch).index = kNew ↔
        p.channels (fd ch) = none ∧ p.epoll (fd ch) = none) ∧
      (∀ f events ch, p.epoll f = some (events, ch) →
        (p.objects ch).fd = f ∧ p.channels (p.objects ch).fd = some ch) := by
  have hdistinct : kNew ≠ kAdded ∧ kNew ≠ kDeleted ∧ kAdded ≠ kDeleted := by decide
  obtain ⟨hna, hnd, had⟩ := hdistinct
  refine (run_agrees hfd acts).mono fun p h => ⟨h.failed, h.fds, fun ch => ?_, fun ch => ?_,
    fun ch => ?_, fun f events ch he => h.reported he⟩
  · rcases h.cases ch with ⟨hidx, -, hep⟩ | ⟨hidx, -, hep⟩ | ⟨hidx, -, hep⟩
    · simp [hidx, hep, hna]
    · simp [hidx, hep]
    · simp [hidx, hep, had.symm]
  · rcases h.cases ch with ⟨hidx, hch, hep⟩ | ⟨hidx, hch, hep⟩ | ⟨hidx, hch, hep⟩
    · simp [hidx, hch, hnd]
    · simp [hidx, hep, had]
    · simp [hidx, hch, hep]
  · rcases h.cases ch with ⟨hidx, hch, hep⟩ | ⟨hidx, hch, hep⟩ | ⟨hidx, hch, hep⟩
    · simp [hidx, hch, hep]
    · simp [hidx, hch, hna.symm]
    · simp [hidx, hch, hnd.symm]

/-- Two channels; one is disabled twice and enabled again, the other is removed
without ever having been enabled, and then enabled. -/
theorem epoll_agrees_two :
    Lands (epollSys.runFrom (EPollPoller.new fun ch => ch)
      [.change 4 .enableReading, .change 4 .disableReading, .change 4 .disableAll,
        .change 4 .enableWriting, .remove 7, .change 7 .enableReading, .remove 4]) fun p =>
      p.failed = 0 ∧
      (∀ ch, (p.objects ch).index = kAdded ↔
        p.epoll ch = some ((p.objects ch).events, ch)) ∧
      (∀ f events ch, p.epoll f = some (events, ch) →
        (p.objects ch).fd = f ∧ p.channels (p.objects ch).fd = some ch) :=
  (epoll_agrees Nat.cast_injective _).mono fun _ h =>
    ⟨h.1, h.2.2.1, h.2.2.2.2.2⟩

/-! ## Channels that want nothing -/

/-- The epoll set holds a channel exactly when it is registered and wants
something. -/
def WatchesWanted (fd : ChannelPtr → Int) (p : EPollPoller) : Prop :=
  ∀ ch, p.epoll (fd ch) ≠ none ↔
    p.channels (fd ch) = some ch ∧ (p.objects ch).events ≠ Events.kNoneEvent

/-- An interest change does not leave a channel without interest that had none
before. -/
def KeepsInterest (p : EPollPoller) : Act → Prop
  | .change ch i => (p.objects ch).events = Events.kNoneEvent →
      (i.apply (p.objects ch)).events ≠ Events.kNoneEvent
  | .remove _ => True

instance decidableKeepsInterest (p : EPollPoller) : ∀ a, Decidable (KeepsInterest p a)
  | .change ch i => inferInstanceAs (Decidable ((p.objects ch).events = Events.kNoneEvent →
      (i.apply (p.objects ch)).events ≠ Events.kNoneEvent))
  | .remove _ => inferInstanceAs (Decidable True)

/-- Only the entry of the channel that changed is in question. -/
theorem WatchesWanted.elsewhere {p p' : EPollPoller} {ch : ChannelPtr}
    (hfd : Function.Injective fd) (h : WatchesWanted fd p) (he : Elsewhere fd ch p p') :
    WatchesWanted fd p' ↔ (p'.epoll (fd ch) ≠ none ↔
      p'.channels (fd ch) = some ch ∧ (p'.objects ch).events ≠ Events.kNoneEvent) := by
  constructor
  · intro h'
    exact h' ch
  · intro hch c
    by_cases hc : c = ch
    · rw [hc]
      exact hch
    · have hne : fd c ≠ fd ch := fun heq => hc (hfd heq)
      rw [he.objects c hc, he.channels (fd c) hne, he.epoll (fd c) hne]
      exact h c

theorem exec_watchesWanted {p : EPollPoller} (hfd : Function.Injective fd) (h : Agrees fd p)
    (hw : WatchesWanted fd p) (a : Act) :
    Post (p.exec a) fun p' => (WatchesWanted fd p' ↔ KeepsInterest p a) := by
  cases a with
  | change ch i =>
      refine (change_spec h i).post.mono fun p' hu => ?_
      -- a channel without interest is not in the set, since the set was right
      have hempty : p.epoll (fd ch) = none ↔ (p.objects ch).events = Events.kNoneEvent := by
        rcases h.cases ch with ⟨-, -, hep⟩ | ⟨-, hch, hep⟩ | ⟨-, -, hep⟩
        · exact iff_of_true hep (by simpa [Current, hep] using h.current ch)
        · have hwant := ((hw ch).mp (by rw [hep]; simp)).2
          exact iff_of_false (by rw [hep]; simp) hwant
        · exact iff_of_true hep (by simpa [Current, hep] using h.current ch)
      rw [hw.elsewhere hfd hu.toElsewhere, hu.entry, hu.channel, hu.object]
      show _ ↔ ((p.objects ch).events = Events.kNoneEvent →
        (i.apply (p.objects ch)).events ≠ Events.kNoneEvent)
      rw [← hempty]
      by_cases hwatch : Watches (i.apply (p.objects ch)) (p.epoll (fd ch))
      · -- the channel is in the set: that is right if it wants something
        rw [if_pos hwatch, if_pos hwatch]
        constructor
        · intro hwanted hnone
          exact (hwanted.mp (by simp)).2
        · intro hkeeps
          refine iff_of_true (by simp) ⟨rfl, ?_⟩
          exact hwatch.elim hkeeps id
      · have hout : p.epoll (fd ch) ≠ none ∧
            (i.apply (p.objects ch)).events = Events.kNoneEvent := by
          simpa [Watches] using hwatch
        rw [if_neg hwatch, if_neg hwatch]
        refine iff_of_true (iff_of_false (by simp) ?_) fun hnone => absurd hnone hout.1
        rintro ⟨-, hwant⟩
        exact hwant hout.2
  | remove ch =>
      refine (remove_spec hfd h ch).post.mono fun p' hr => iff_of_true ?_ trivial
      rw [hw.elsewhere hfd hr.toElsewhere, hr.entry, hr.channel]
      simp

theorem new_watchesWanted (fd : ChannelPtr → Int) : WatchesWanted fd (EPollPoller.new fd) :=
  fun _ => by simp [EPollPoller.new]

/-- **What is watched is wanted.** Along a run, the epoll set holds after each
operation exactly the channels that are registered and want something, if and
only if no interest change leaves a channel without interest that had none. -/
theorem epoll_watches_wanted_iff (hfd : Function.Injective fd) (acts : List Act) :
    (∀ pre, pre <+: acts →
        Lands (epollSys.runFrom (EPollPoller.new fd) pre) (WatchesWanted fd)) ↔
      epollSys.Meets KeepsInterest (EPollPoller.new fd) acts := by
  have hlegal : epollSys.Legal (EPollPoller.new fd) acts :=
    Sys.meets_of_forall (fun _ _ => trivial) _
  rw [← Sys.always_iff_meets_of_invariant (S := epollSys) (I := Agrees fd)
    (P := WatchesWanted fd) ?_ ?_ ?_ (new_agrees fd) (new_watchesWanted fd) hlegal]
  · -- no run stops
    refine forall₂_congr fun pre _ => ?_
    constructor
    · intro hlands
      exact hlands.post
    · intro hpost
      obtain ⟨p, hp, -⟩ := run_agrees hfd pre
      exact ⟨p, hp, hpost p hp⟩
  · intro p a h _
    exact (exec_agrees hfd h a).post
  · intro p a h hw _
    exact exec_watchesWanted hfd h hw a
  · intro p a e h _ herr
    obtain ⟨p', hp', -⟩ := exec_agrees hfd h a
    rw [show epollSys.exec p a = p.exec a from rfl, hp'] at herr
    exact absurd herr (by simp)

/-- A channel that is enabled and disabled, and one that is removed without ever
having been enabled. -/
theorem epoll_watches_wanted_iff_two :
    epollSys.Meets KeepsInterest (EPollPoller.new fun ch => ch)
        [.change 4 .enableReading, .change 4 .disableReading, .remove 7] ∧
      Lands (epollSys.runFrom (EPollPoller.new fun ch => ch)
        [.change 4 .enableReading, .change 4 .disableReading, .remove 7])
        (WatchesWanted fun ch => ch) := by
  have hmeets : epollSys.Meets KeepsInterest (EPollPoller.new fun ch => ch)
      [.change 4 .enableReading, .change 4 .disableReading, .remove 7] := by decide
  have hall := (epoll_watches_wanted_iff Nat.cast_injective
    [.change 4 .enableReading, .change 4 .disableReading, .remove 7]).mpr hmeets
  exact ⟨hmeets, hall _ List.prefix_rfl⟩

/-- `stopRead` on a connection that does not read: `disableReading` on a channel
that is already disabled puts it back into the epoll set. -/
theorem epoll_watches_disabled :
    Lands (epollSys.runFrom (EPollPoller.new fun ch => ch)
      [.change 4 .enableReading, .change 4 .disableReading, .change 4 .disableReading]) fun p =>
      p.epoll 4 = some (Events.kNoneEvent, 4) ∧ (p.objects 4).events = Events.kNoneEvent ∧
        ¬ WatchesWanted (fun ch => ch) p := by
  have hrun : Lands (epollSys.runFrom (EPollPoller.new fun ch => ch)
      [.change 4 .enableReading, .change 4 .disableReading, .change 4 .disableReading]) fun p =>
      p.epoll 4 = some (Events.kNoneEvent, 4) ∧ (p.objects 4).events = Events.kNoneEvent := by
    decide
  refine hrun.mono fun p hp => ⟨hp.1, hp.2, fun hwanted => ?_⟩
  have hentry : p.epoll 4 ≠ none := by
    rw [hp.1]
    simp
  exact ((hwanted 4).mp hentry).2 hp.2

end Runs

end Muduo.Poller
