import Muduo.Poller.EPoll

/-!
# `EPollPoller` with descriptors that are used again

`Agrees` is about channels with distinct descriptors. When a channel is destroyed, its
address and its descriptor may come back in another one, so two objects in memory can have
one descriptor; at most one of them is registered. `Tracked` is what the poller's own
asserts keep true then: a registered channel is placed as before, the others have the
index `kNew`, and a descriptor that is not in `M_channels` is not in the epoll set. An
update of a channel whose descriptor another one holds stops at an assert.
-/

namespace Muduo.Poller

open Lib EPollPoller

/-- `M_channels[channel->fd()] == channel`. -/
def EPollPoller.Registered (p : EPollPoller) (ch : ChannelPtr) : Prop :=
  p.channels (p.objects ch).fd = some ch

instance (p : EPollPoller) (ch : ChannelPtr) : Decidable (p.Registered ch) :=
  inferInstanceAs (Decidable (_ = _))

/-- The descriptors, as the objects have them now. -/
def EPollPoller.fd (p : EPollPoller) (ch : ChannelPtr) : Int := (p.objects ch).fd

structure Tracked (p : EPollPoller) : Prop where
  unregistered : ∀ ch, ¬ p.Registered ch → (p.objects ch).index = kNew
  registered : ∀ f ch, p.channels f = some ch → (p.objects ch).fd = f
  placed : ∀ ch, p.Registered ch →
    Placed ch (p.objects ch).index (some ch) (p.epoll (p.objects ch).fd)
  added : ∀ ch, p.Registered ch → (p.objects ch).addedToLoop = true
  entry : ∀ f, p.channels f = none → p.epoll f = none
  failed : p.failed = 0

section Tracked

variable {p p' : EPollPoller} {ch c : ChannelPtr}

theorem Tracked.placed_of_free (h : Tracked p)
    (hfree : p.channels (p.fd ch) = none ∨ p.channels (p.fd ch) = some ch) :
    Placed ch (p.objects ch).index (p.channels (p.fd ch)) (p.epoll (p.fd ch)) := by
  rcases hfree with hnone | hch
  · have hun : ¬ p.Registered ch := by
      intro hreg
      exact absurd (hnone.symm.trans hreg) (by simp)
    rw [hnone, h.entry _ hnone]
    exact .new (h.unregistered ch hun)
  · rw [hch]
    exact h.placed ch hch

/-- A registered channel has its descriptor for itself. -/
theorem EPollPoller.fd_ne_of_registered (hfree : p.channels (p.fd ch) = none ∨ p.channels (p.fd ch) = some ch)
    (hne : c ≠ ch) (hreg : p.Registered c) : (p.objects c).fd ≠ p.fd ch := by
  intro heq
  have hc : p.channels (p.fd ch) = some c := heq ▸ hreg
  rcases hfree with hnone | hch
  · exact absurd (hnone.symm.trans hc) (by simp)
  · exact hne (Option.some.inj (hc.symm.trans hch))

/-- The other registered channels stay registered, and no others are. -/
theorem Elsewhere.registered_iff (he : Elsewhere p.fd ch p p')
    (hfree : p.channels (p.fd ch) = none ∨ p.channels (p.fd ch) = some ch)
    (hback : p'.channels (p.fd ch) = none ∨ p'.channels (p.fd ch) = some ch) (hne : c ≠ ch) :
    p'.Registered c ↔ p.Registered c := by
  unfold EPollPoller.Registered
  rw [he.objects c hne]
  by_cases heq : (p.objects c).fd = p.fd ch
  · rw [heq]
    refine iff_of_false (fun hc => ?_) fun hc => ?_
    · rcases hback with hnone | hch
      · exact absurd (hnone.symm.trans hc) (by simp)
      · exact hne (Option.some.inj (hc.symm.trans hch))
    · rcases hfree with hnone | hch
      · exact absurd (hnone.symm.trans hc) (by simp)
      · exact hne (Option.some.inj (hc.symm.trans hch))
  · rw [he.channels _ heq]

/-- The invariant, after an operation on a channel whose descriptor no other one holds. -/
theorem Tracked.at (h : Tracked p) (he : Elsewhere p.fd ch p p')
    (hfree : p.channels (p.fd ch) = none ∨ p.channels (p.fd ch) = some ch)
    (hfd : (p'.objects ch).fd = p.fd ch)
    (hplaced : Placed ch (p'.objects ch).index (p'.channels (p.fd ch)) (p'.epoll (p.fd ch)))
    (hadded : p'.channels (p.fd ch) = some ch → (p'.objects ch).addedToLoop = true)
    (hfailed : p'.failed = 0) : Tracked p' := by
  have hback : p'.channels (p.fd ch) = none ∨ p'.channels (p.fd ch) = some ch := by
    generalize p'.channels (p.fd ch) = channel at hplaced ⊢
    generalize p'.epoll (p.fd ch) = e at hplaced
    cases hplaced with
    | new hidx => exact .inl rfl
    | added events hidx => exact .inr rfl
    | deleted hidx => exact .inr rfl
  have hreg : p'.Registered ch ↔ p'.channels (p.fd ch) = some ch := by
    unfold EPollPoller.Registered
    rw [hfd]
  refine ⟨fun c hun => ?_, fun f c hc => ?_, fun c hc => ?_, fun c hc => ?_, fun f hf => ?_,
    hfailed⟩
  · by_cases hne : c = ch
    · subst hne
      have hnone : p'.channels (p.fd c) = none :=
        hback.resolve_right fun hch => hun (hreg.mpr hch)
      rw [hnone] at hplaced
      generalize p'.epoll (p.fd c) = e at hplaced
      cases hplaced with
      | new hidx => exact hidx
    · rw [he.registered_iff hfree hback hne] at hun
      rw [he.objects c hne]
      exact h.unregistered c hun
  · by_cases hf : f = p.fd ch
    · subst hf
      rcases hback with hnone | hch
      · exact absurd (hnone.symm.trans hc) (by simp)
      · rw [Option.some.inj (hc.symm.trans hch)]
        exact hfd
    · rw [he.channels f hf] at hc
      have hfc := h.registered f c hc
      have hne : c ≠ ch := by
        rintro rfl
        exact hf hfc.symm
      rw [he.objects c hne]
      exact hfc
  · by_cases hne : c = ch
    · subst hne
      rw [hreg] at hc
      rw [hc] at hplaced
      rw [hfd]
      exact hplaced
    · rw [he.registered_iff hfree hback hne] at hc
      rw [he.objects c hne, he.epoll _ (EPollPoller.fd_ne_of_registered hfree hne hc)]
      exact h.placed c hc
  · by_cases hne : c = ch
    · subst hne
      exact hadded (hreg.mp hc)
    · rw [he.registered_iff hfree hback hne] at hc
      rw [he.objects c hne]
      exact h.added c hc
  · by_cases hf' : f = p.fd ch
    · subst hf'
      generalize p'.epoll (p.fd ch) = e at hplaced ⊢
      rw [hf] at hplaced
      cases hplaced with
      | new hidx => rfl
    · rw [he.channels f hf'] at hf
      rw [he.epoll f hf']
      exact h.entry f hf

/-! ## The operations -/

/-- An interest operation of a channel whose descriptor no other one holds. -/
theorem Tracked.change_spec (h : Tracked p) (i : Interest)
    (hfree : p.channels (p.fd ch) = none ∨ p.channels (p.fd ch) = some ch) :
    Lands (p.change ch i) (Updated p.fd ch (i.apply (p.objects ch)) p) := by
  have hobj : (p.setObject ch (i.apply (p.objects ch))).objects ch = i.apply (p.objects ch) :=
    setObject_objects ..
  have hspec := @updateChannel_spec p.fd (p.setObject ch (i.apply (p.objects ch))) ch
  rw [hobj, i.apply_fd, i.apply_index] at hspec
  refine (hspec rfl (h.placed_of_free hfree)).mono fun p' hp' => ?_
  exact ⟨(Elsewhere.setObject p _).trans hp'.toElsewhere, hp'.object, hp'.channel, hp'.entry,
    hp'.failed⟩

/-- An interest operation of a channel whose descriptor another one holds: the channel is
new to the poller, and `M_channels.find(fd) == M_channels.end()` fails. -/
theorem Tracked.change_taken (h : Tracked p) (i : Interest)
    (hc : p.channels (p.fd ch) = some c) (hne : c ≠ ch) :
    p.change ch i = .error .updateAbsent := by
  have hun : ¬ p.Registered ch := by
    intro hreg
    exact hne (Option.some.inj (hc.symm.trans hreg))
  have hidx := h.unregistered ch hun
  have hsome : ¬ p.channels (p.objects ch).fd = none := by
    show ¬ p.channels (p.fd ch) = none
    rw [hc]
    simp
  unfold EPollPoller.change updateChannel
  dsimp only
  rw [setObject_objects, i.apply_index, i.apply_fd, if_pos (.inl hidx), if_pos hidx]
  exact congrArg (fun x => (x >>= _) >>= _) (check_of_not _ hsome)

theorem Interest.apply_addedToLoop (i : Interest) (o : Channel) :
    (i.apply o).addedToLoop = true := by
  cases i <;> rfl

theorem Tracked.updated (h : Tracked p) {i : Interest}
    (hfree : p.channels (p.fd ch) = none ∨ p.channels (p.fd ch) = some ch)
    (hu : Updated p.fd ch (i.apply (p.objects ch)) p p') : Tracked p' ∧ p'.Registered ch := by
  have hfd : (p'.objects ch).fd = p.fd ch := by
    rw [hu.object]
    exact i.apply_fd _
  have hplaced : Placed ch (p'.objects ch).index (p'.channels (p.fd ch)) (p'.epoll (p.fd ch)) := by
    rw [hu.object, hu.channel, hu.entry]
    by_cases hw : Watches (i.apply (p.objects ch)) (p.epoll (p.fd ch))
    · rw [if_pos hw, if_pos hw]
      exact .added _ rfl
    · rw [if_neg hw, if_neg hw]
      exact .deleted rfl
  refine ⟨h.at hu.toElsewhere hfree hfd hplaced (fun _ => ?_) (hu.failed.trans h.failed), ?_⟩
  · rw [hu.object]
    exact i.apply_addedToLoop _
  · unfold EPollPoller.Registered
    rw [hfd]
    exact hu.channel

/-- `removeChannel`, after the assignment in `Channel::remove`. -/
theorem Tracked.remove_spec (h : Tracked p) (hreg : p.Registered ch)
    (hnone : (p.objects ch).events = Events.kNoneEvent) :
    Lands ((p.setObject ch (p.objects ch).remove).removeChannel ch) (Removed p.fd ch p) := by
  have hobj : (p.setObject ch (p.objects ch).remove).objects ch = (p.objects ch).remove :=
    setObject_objects ..
  have hplaced := h.placed_of_free (.inr hreg)
  have hspec := @removeChannel_spec p.fd (p.setObject ch (p.objects ch).remove) ch
  rw [hobj] at hspec
  refine (hspec rfl hnone hreg hplaced).mono fun p' hr => ?_
  exact ⟨(Elsewhere.setObject p _).trans hr.toElsewhere, hr.fds, hr.index, hr.events, hr.channel,
    hr.entry, hr.failed⟩

/-- `removeChannel` of a channel that is not registered stops at one of its first two
asserts. -/
theorem removeChannel_unregistered (hun : ¬ p.Registered ch) :
    (p.setObject ch (p.objects ch).remove).removeChannel ch = .error .removePresent ∨
      (p.setObject ch (p.objects ch).remove).removeChannel ch = .error .removeSame := by
  have hobj : (p.setObject ch (p.objects ch).remove).objects ch = (p.objects ch).remove :=
    setObject_objects ..
  unfold removeChannel
  dsimp only
  rw [hobj]
  show (check _ (p.channels (p.objects ch).fd ≠ none) >>= _) = _ ∨
    (check _ (p.channels (p.objects ch).fd ≠ none) >>= _) = _
  by_cases hsome : p.channels (p.objects ch).fd = none
  · left
    rw [check_of_not _ (not_not.mpr hsome)]
    rfl
  · right
    have hsame : ¬ p.channels (p.objects ch).fd = some ch := hun
    rw [check_of _ hsome, ok_bind]
    show (check _ (p.channels (p.objects ch).fd = some ch) >>= _) = _
    rw [check_of_not _ hsame]
    rfl

theorem Tracked.removed (h : Tracked p) (hreg : p.Registered ch) (hr : Removed p.fd ch p p') :
    Tracked p' := by
  refine h.at hr.toElsewhere (.inr hreg) hr.fds ?_ (fun hch => ?_) (hr.failed.trans h.failed)
  · rw [hr.channel, hr.entry]
    exact .new hr.index
  · exact absurd (hr.channel.symm.trans hch) (by simp)

/-- A channel is made where none is registered. -/
theorem Tracked.construct (h : Tracked p) (hdead : ∀ f, p.channels f ≠ some ch) (fd : Int) :
    Tracked (p.setObject ch (Channel.new fd)) := by
  have hother : ∀ c, c ≠ ch → (p.setObject ch (Channel.new fd)).objects c = p.objects c :=
    fun c hne => Function.update_of_ne hne ..
  have hreg : ∀ c, (p.setObject ch (Channel.new fd)).Registered c → c ≠ ch ∧ p.Registered c := by
    intro c hc
    have hne : c ≠ ch := by
      rintro rfl
      exact hdead _ hc
    unfold EPollPoller.Registered at hc
    rw [hother c hne] at hc
    exact ⟨hne, hc⟩
  refine ⟨fun c hun => ?_, fun f c hc => ?_, fun c hc => ?_, fun c hc => ?_, h.entry, h.failed⟩
  · by_cases hne : c = ch
    · subst hne
      rw [setObject_objects]
      rfl
    · rw [hother c hne]
      refine h.unregistered c fun hc => hun ?_
      unfold EPollPoller.Registered
      rw [hother c hne]
      exact hc
  · have hne : c ≠ ch := by
      rintro rfl
      exact hdead _ hc
    rw [hother c hne]
    exact h.registered f c hc
  · obtain ⟨hne, hc'⟩ := hreg c hc
    rw [hother c hne]
    exact h.placed c hc'
  · obtain ⟨hne, hc'⟩ := hreg c hc
    rw [hother c hne]
    exact h.added c hc'

/-- `tie` touches nothing that the poller reads. -/
theorem Tracked.tie (h : Tracked p) : Tracked (p.setObject ch (p.objects ch).tie) := by
  have hfd : ∀ c, ((p.setObject ch (p.objects ch).tie).objects c).fd = (p.objects c).fd ∧
      ((p.setObject ch (p.objects ch).tie).objects c).index = (p.objects c).index ∧
      ((p.setObject ch (p.objects ch).tie).objects c).addedToLoop = (p.objects c).addedToLoop := by
    intro c
    by_cases hne : c = ch
    · subst hne
      rw [setObject_objects]
      exact ⟨rfl, rfl, rfl⟩
    · rw [show (p.setObject ch (p.objects ch).tie).objects c = p.objects c from
        Function.update_of_ne hne ..]
      exact ⟨rfl, rfl, rfl⟩
  have hreg : ∀ c, (p.setObject ch (p.objects ch).tie).Registered c ↔ p.Registered c := by
    intro c
    unfold EPollPoller.Registered
    rw [(hfd c).1]
    rfl
  refine ⟨fun c hun => ?_, fun f c hc => ?_, fun c hc => ?_, fun c hc => ?_, h.entry, h.failed⟩
  · rw [(hfd c).2.1]
    exact h.unregistered c fun hc => hun ((hreg c).mpr hc)
  · rw [(hfd c).1]
    exact h.registered f c hc
  · rw [(hfd c).1, (hfd c).2.1]
    exact h.placed c ((hreg c).mp hc)
  · rw [(hfd c).2.2]
    exact h.added c ((hreg c).mp hc)

/-- What the epoll set can report is a registered channel. -/
theorem Tracked.reported (h : Tracked p) {f : Int} {events : Events}
    (he : p.epoll f = some (events, ch)) : p.Registered ch := by
  cases hc : p.channels f with
  | none => exact absurd (he.symm.trans (h.entry f hc)) (by simp)
  | some c =>
      have hfc := h.registered f c hc
      have hreg : p.Registered c := by
        unfold EPollPoller.Registered
        rw [hfc]
        exact hc
      have hplaced := h.placed c hreg
      rw [hfc, he] at hplaced
      cases hplaced with
      | added events hidx => exact hreg

theorem new_tracked (fd : ChannelPtr → Int) : Tracked (EPollPoller.new fd) :=
  ⟨fun _ _ => rfl, fun _ _ hc => absurd hc (by simp [EPollPoller.new]),
    fun _ hc => absurd hc (by simp [EPollPoller.Registered, EPollPoller.new]),
    fun _ hc => absurd hc (by simp [EPollPoller.Registered, EPollPoller.new]),
    fun _ _ => rfl, rfl⟩

end Tracked

end Muduo.Poller
