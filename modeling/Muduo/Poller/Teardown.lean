import Muduo.Poller.EPoll
import Muduo.Poller.Poll

/-!
# Teardown of a channel

`~Acceptor`, `~TimerQueue`, `~EventLoop` and `Connector::removeAndResetChannel`
all end the life of a channel with `disableAll(); remove()`, in whatever
condition the channel is. What is asked of a poller is stated once, over both:
the teardown itself (`Detaches`), and that the channel object can be used again
(`Returns`).
-/

namespace Muduo.Poller

open Lib

/-- Everything `EPollPoller` has about a channel. -/
def EPollPoller.registration (p : EPollPoller) (ch : ChannelPtr) :
    Option ChannelPtr × Events × Option (Events × ChannelPtr) :=
  let o := p.objects ch
  (p.channels o.fd, o.events, p.epoll o.fd)

/-- Everything `PollPoller` has about a channel; the index of a channel that is
not registered names no slot of its own. -/
def PollPoller.registration (p : PollPoller) (ch : ChannelPtr) :
    Option ChannelPtr × Events × Option PollFd :=
  let o := p.objects ch
  (p.channels o.fd, o.events, if p.channels o.fd = some ch then p.slotAt ch else none)

section Statement

variable {σ ρ : Type} (S : Sys σ Act Fault) (channels : σ → Int → Option ChannelPtr)

/-- `disableAll(); remove()` passes every assertion, takes the channel out of
`M_channels` and leaves the other channels registered as they were. -/
def Detaches (registration : σ → ChannelPtr → ρ) (p : σ) (ch : ChannelPtr) : Prop :=
  Lands (S.exec p (.remove ch)) fun p' =>
    (∀ f, channels p' f ≠ some ch) ∧
      ∀ c, c ≠ ch → registration p' c = registration p c

/-- After `disableAll(); remove()`, and whatever else happens then, enabling the
channel puts it back into `M_channels`. -/
def Returns (p : σ) (ch : ChannelPtr) : Prop :=
  Lands (S.exec p (.remove ch)) fun p' => ∀ later i, (i = .enableReading ∨ i = .enableWriting) →
    Post (S.runFrom p' later) fun q =>
      Lands (S.exec q (.change ch i)) fun r => ∃ f, channels r f = some ch

end Statement

section Teardown

variable {fd : ChannelPtr → Int}

theorem EPollPoller.detaches (hfd : Function.Injective fd) {p : EPollPoller} (h : Agrees fd p)
    (ch : ChannelPtr) :
    Detaches epollSys EPollPoller.channels EPollPoller.registration p ch := by
  refine (remove_spec hfd h ch).mono fun p' hr => ⟨fun f hf => ?_, fun c hc => ?_⟩
  · rw [(h.removed hfd hr).registered hf, hr.channel] at hf
    exact absurd hf (by simp)
  · have hne : fd c ≠ fd ch := fun heq => hc (hfd heq)
    simp only [EPollPoller.registration]
    rw [hr.objects c hc, h.fds c, hr.channels _ hne, hr.epoll _ hne]

theorem EPollPoller.returns (hfd : Function.Injective fd) {p : EPollPoller} (h : Agrees fd p)
    (ch : ChannelPtr) : Returns epollSys EPollPoller.channels p ch := by
  refine (remove_spec hfd h ch).mono fun p' hr later i _ q hq => ?_
  have hlegal : epollSys.Legal p' later := Sys.meets_of_forall (fun _ _ => trivial) _
  have hagrees : Agrees fd q := (Sys.invariant_lands (S := epollSys)
    (fun p a h _ => exec_agrees hfd h a) (h.removed hfd hr) hlegal).post q hq
  exact (change_spec hagrees i).mono fun r hu => ⟨fd ch, hu.channel⟩

theorem PollPoller.detaches_iff (hfd : Function.Injective fd) (hnn : ∀ ch, 0 ≤ fd ch)
    {p : PollPoller} (h : Tabled fd p) (ch : ChannelPtr) :
    Detaches pollSys PollPoller.channels PollPoller.registration p ch ↔
      p.channels (fd ch) = some ch := by
  constructor
  · rintro ⟨p', hexec, -⟩
    exact (remove_ok hfd hnn h hexec).1
  · intro hch
    refine (remove_registered hfd hnn h hch).mono fun p' hgone => ⟨fun f hf => ?_, fun c hc => ?_⟩
    · obtain ⟨rfl, -⟩ := hgone.tabled.registered _ _ hf
      rw [hgone.channel] at hf
      exact absurd hf (by simp)
    · obtain ⟨hsame, hevents, hslot⟩ := hgone.spares c hc
      simp only [PollPoller.registration]
      rw [hgone.tabled.fds c, h.fds c, hsame, hevents]
      by_cases hreg : p.channels (fd c) = some c
      · rw [if_pos hreg, if_pos hreg, hslot hreg]
      · rw [if_neg hreg, if_neg hreg]

/-- The index that removal leaves in the channel stops the next update. -/
theorem PollPoller.not_returns (hfd : Function.Injective fd) (hnn : ∀ ch, 0 ≤ fd ch)
    {p : PollPoller} (h : Tabled fd p) (ch : ChannelPtr) :
    ¬ Returns pollSys PollPoller.channels p ch := by
  rintro ⟨p', hexec, hreturns⟩
  have hgone : Gone fd ch p p' := (remove_ok hfd hnn h hexec).2
  obtain ⟨r, hr, -⟩ := hreturns [] .enableReading (.inl rfl) p' rfl
  have hstale := change_stale hgone.tabled .enableReading hgone.index hgone.channel
  rw [show pollSys.exec p' (.change ch .enableReading) = p'.change ch .enableReading from rfl,
    hstale] at hr
  exact absurd hr (by simp)

/-- **Teardown under the two pollers.** With `EPollPoller`, in every state and
for every channel, `disableAll(); remove()` is safe and the channel can be used
again. With `PollPoller`, the teardown is safe exactly for the channels in
`M_channels`, and no channel can be used again after it. -/
theorem teardown_under_pollers (hfd : Function.Injective fd) (hnn : ∀ ch, 0 ≤ fd ch)
    (acts : List Act) :
    Lands (epollSys.runFrom (EPollPoller.new fd) acts) (fun p => ∀ ch,
      Detaches epollSys EPollPoller.channels EPollPoller.registration p ch ∧
        Returns epollSys EPollPoller.channels p ch) ∧
    Post (pollSys.runFrom (PollPoller.new fd) acts) (fun p => ∀ ch,
      (Detaches pollSys PollPoller.channels PollPoller.registration p ch ↔
        p.channels (fd ch) = some ch) ∧
      ¬ Returns pollSys PollPoller.channels p ch) := by
  constructor
  · exact (run_agrees hfd acts).mono fun p h ch =>
      ⟨EPollPoller.detaches hfd h ch, EPollPoller.returns hfd h ch⟩
  · exact (run_tabled hfd hnn acts).mono fun p h ch =>
      ⟨PollPoller.detaches_iff hfd hnn h ch, PollPoller.not_returns hfd hnn h ch⟩

/-- A state of each poller in which channel 4 is registered and channel 7 is
not. -/
theorem teardown_under_pollers_two :
    Lands (epollSys.runFrom (EPollPoller.new fun ch => ch) [.change 4 .enableReading]) (fun p =>
      Detaches epollSys EPollPoller.channels EPollPoller.registration p 7 ∧
        Returns epollSys EPollPoller.channels p 7) ∧
    Lands (pollSys.runFrom (PollPoller.new fun ch => ch) [.change 4 .enableReading]) (fun p =>
      Detaches pollSys PollPoller.channels PollPoller.registration p 4 ∧
      ¬ Detaches pollSys PollPoller.channels PollPoller.registration p 7) := by
  obtain ⟨hepoll, hpoll⟩ := teardown_under_pollers Nat.cast_injective
    (fun ch => Int.natCast_nonneg ch) [.change 4 .enableReading]
  refine ⟨hepoll.mono fun p h => h 7, ?_⟩
  have hrun : Lands (pollSys.runFrom (PollPoller.new fun ch => ch) [.change 4 .enableReading])
      fun p => p.channels 4 = some 4 ∧ p.channels 7 = none := by decide
  obtain ⟨p, hp, hfour, hseven⟩ := hrun
  refine ⟨p, hp, (hpoll p hp 4).1.mpr hfour, fun hdetaches => ?_⟩
  have hreg := (hpoll p hp 7).1.mp hdetaches
  rw [show ((7 : ChannelPtr) : Int) = 7 from rfl, hseven] at hreg
  exact absurd hreg (by simp)

/-- An acceptor that is destroyed before `listen`: its channel was never enabled,
and `removeChannel` finds a slot that is not negated. -/
theorem poll_teardown_before_listen :
    pollSys.runFrom (PollPoller.new fun ch => ch) [.remove 4] = .error .removeSlot ∧
      ¬ Detaches pollSys PollPoller.channels PollPoller.registration
        (PollPoller.new fun ch => ch) 4 := by
  have hrun : pollSys.exec (PollPoller.new fun ch => ch) (.remove 4) = .error .removeSlot := rfl
  refine ⟨?_, ?_⟩
  · rw [Sys.runFrom_cons, hrun]
    rfl
  · rintro ⟨p', hexec, -⟩
    rw [hrun] at hexec
    exact absurd hexec (by simp)

end Teardown

end Muduo.Poller
