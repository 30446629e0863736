import Muduo.Poller.Slots

/-!
# `PollPoller` under the channels

Used by channels alone, `PollPoller` keeps the events of each channel in its slot
(`Tabled`): every change of a mask ends with `update()`. The slot of a channel without
interest is negated.

`updateChannel` never takes the negation back, so `::poll` watches what the
channels want exactly as long as no channel with a negated slot is given an
interest again (`NoRevival`).
-/

namespace Muduo.Poller

open Lib PollPoller

/-- What the slot of a registered channel holds. -/
structure SlotOf (o : Channel) (pfd : PollFd) : Prop where
  fd : pfd.fd = o.fd ∨ pfd.fd = -o.fd - 1
  events : pfd.events = o.events

structure Tabled (fd : ChannelPtr → Int) (p : PollPoller) : Prop where
  fds : ∀ ch, (p.objects ch).fd = fd ch
  registered : ∀ f ch, p.channels f = some ch → fd ch = f ∧
    ∃ (i : Nat) (pfd : PollFd), (p.objects ch).index = i ∧ p.pollfds[i]? = some pfd ∧
      SlotOf (p.objects ch) pfd
  slots : ∀ i pfd, p.pollfds[i]? = some pfd →
    ∃ ch, p.channels (fd ch) = some ch ∧ (p.objects ch).index = (i : Nat)

/-- The registrations of the channels other than `ch` are in `p'` what they were
in `p`, wherever their slots are now. -/
def Spares (fd : ChannelPtr → Int) (ch : ChannelPtr) (p p' : PollPoller) : Prop :=
  ∀ c, c ≠ ch → p'.channels (fd c) = p.channels (fd c) ∧
    (p'.objects c).events = (p.objects c).events ∧
    (p.channels (fd c) = some c → p'.slotAt c = p.slotAt c)

section Table

variable {fd : ChannelPtr → Int} {p p' : PollPoller} {ch : ChannelPtr}

theorem Tabled.slot_of (h : Tabled fd p) (hch : p.channels (fd ch) = some ch) :
    ∃ (i : Nat) (pfd : PollFd), (p.objects ch).index = i ∧ p.pollfds[i]? = some pfd ∧
      (pfd.fd = fd ch ∨ pfd.fd = -fd ch - 1) ∧ pfd.events = (p.objects ch).events := by
  obtain ⟨-, i, pfd, hidx, hslot, hof⟩ := h.registered _ _ hch
  refine ⟨i, pfd, hidx, hslot, ?_, hof.events⟩
  rw [← h.fds ch]
  exact hof.fd

/-- The entry of a channel's descriptor is that channel or nothing. -/
theorem Tabled.channels_cases (hfd : Function.Injective fd) (h : Tabled fd p) (ch : ChannelPtr) :
    p.channels (fd ch) = none ∨ p.channels (fd ch) = some ch := by
  cases hc : p.channels (fd ch) with
  | none => exact .inl rfl
  | some c =>
      obtain ⟨heq, -⟩ := h.registered _ _ hc
      rw [hfd heq]
      exact .inr rfl

/-- The table itself, whatever the events. -/
theorem Tabled.slotted (h : Tabled fd p) : Slotted fd p := by
  refine ⟨h.fds, fun f ch hch => ?_, h.slots⟩
  obtain ⟨rfl, i, pfd, hidx, hslot, hof⟩ := h.registered f ch hch
  refine ⟨rfl, i, pfd, hidx, hslot, ?_⟩
  rw [← h.fds ch]
  exact hof.fd

/-- A table whose slots hold the events of their channels. -/
theorem Tabled.of_slotted (h : Slotted fd p)
    (hevents : ∀ ch pfd, p.channels (fd ch) = some ch → p.slotAt ch = some pfd →
      pfd.events = (p.objects ch).events) : Tabled fd p := by
  refine ⟨h.fds, fun f ch hch => ?_, h.owned⟩
  obtain ⟨rfl, i, pfd, hidx, hslot, hfor⟩ := h.registered f ch hch
  refine ⟨rfl, i, pfd, hidx, hslot, ?_, hevents ch pfd hch ?_⟩
  · rw [h.fds ch]
    exact hfor
  · rw [PollPoller.slotAt, hidx, Int.toNat_natCast]
    exact hslot

/-- A slot that is kept holds the events that its channel had. -/
theorem Tabled.events_kept (h : Tabled fd p) (hkeeps : KeepsSlots ch p p') {c : ChannelPtr}
    (hc : p.channels (fd c) = some c) (hne : c ≠ ch) {pfd : PollFd}
    (hslot : p'.slotAt c = some pfd) : pfd.events = (p.objects c).events := by
  rw [(hkeeps _ c hc hne).2] at hslot
  obtain ⟨i, q, hi, hq, -, hevents⟩ := h.slot_of hc
  rw [PollPoller.slotAt, hi, Int.toNat_natCast, hq] at hslot
  obtain rfl := Option.some.inj hslot
  exact hevents

/-! ## Interest changes -/

/-- The first update of a channel appends a slot. -/
theorem change_fresh (h : Tabled fd p) (i : Interest) (hidx : (p.objects ch).index < 0)
    (hch : p.channels (fd ch) = none) :
    p.change ch i = .ok
      { objects := Function.update p.objects ch
          { i.apply (p.objects ch) with index := (p.pollfds.length : Nat) }
        channels := Function.update p.channels (fd ch) (some ch)
        pollfds := p.pollfds ++
          [⟨fd ch, (i.apply (p.objects ch)).events, Events.kNoneEvent⟩] } := by
  simp [PollPoller.change, PollPoller.updateChannel, PollPoller.setObject, PollPoller.setIndex,
    PollPoller.setChannel, hidx, h.fds ch, hch]

/-- Removal leaves the index as it was, so a removed channel cannot come back. -/
theorem change_stale (h : Tabled fd p) (i : Interest) (hidx : 0 ≤ (p.objects ch).index)
    (hch : p.channels (fd ch) = none) : p.change ch i = .error .updatePresent := by
  simp [PollPoller.change, PollPoller.updateChannel, PollPoller.setObject, not_lt.mpr hidx,
    h.fds ch, hch]

/-- The slot of a registered channel after an update. -/
def updatedSlot (o : Channel) (pfd : PollFd) : PollFd where
  fd := if o.events = Events.kNoneEvent then -o.fd - 1 else pfd.fd
  events := o.events
  revents := Events.kNoneEvent

theorem change_registered (h : Tabled fd p) (i : Interest) (hch : p.channels (fd ch) = some ch)
    {k : Nat} {pfd : PollFd} (hidx : (p.objects ch).index = k) (hslot : p.pollfds[k]? = some pfd)
    (hpfd : pfd.fd = fd ch ∨ pfd.fd = -fd ch - 1) :
    p.change ch i = .ok
      { objects := Function.update p.objects ch (i.apply (p.objects ch))
        channels := p.channels
        pollfds := p.pollfds.set k (updatedSlot (i.apply (p.objects ch)) pfd) } := by
  have hidx' : ¬ ((k : Int) < 0) := by omega
  by_cases hnone : (i.apply (p.objects ch)).events = Events.kNoneEvent
  · simp [PollPoller.change, PollPoller.updateChannel, PollPoller.setObject, PollPoller.slot, hidx,
      hidx', h.fds ch, hch, hslot, hpfd, Channel.isNoneEvent, hnone, updatedSlot]
  · simp [PollPoller.change, PollPoller.updateChannel, PollPoller.setObject, PollPoller.slot, hidx,
      hidx', h.fds ch, hch, hslot, hpfd, Channel.isNoneEvent, hnone, updatedSlot]

/-- What an interest change does, from every condition of the channel. -/
theorem change_cases (hfd : Function.Injective fd) (h : Tabled fd p) (ch : ChannelPtr)
    (i : Interest) :
    (p.channels (fd ch) = none ∧ (p.objects ch).index < 0) ∨
    (p.channels (fd ch) = none ∧ p.change ch i = .error .updatePresent) ∨
    p.channels (fd ch) = some ch := by
  rcases h.channels_cases hfd ch with hch | hch
  · rcases lt_or_ge (p.objects ch).index 0 with hidx | hidx
    · exact .inl ⟨hch, hidx⟩
    · exact .inr (.inl ⟨hch, change_stale h i hidx hch⟩)
  · exact .inr (.inr hch)

theorem Tabled.push (h : Tabled fd p) {o : Channel} (ho : o.fd = fd ch)
    (hch : p.channels (fd ch) = none) :
    Tabled fd
      { objects := Function.update p.objects ch { o with index := (p.pollfds.length : Nat) }
        channels := Function.update p.channels (fd ch) (some ch)
        pollfds := p.pollfds ++ [⟨fd ch, o.events, Events.kNoneEvent⟩] } := by
  refine .of_slotted (h.slotted.push ho rfl hch) fun c pfd hc hslot => ?_
  by_cases hne : c = ch
  · subst hne
    obtain rfl : ⟨fd c, o.events, Events.kNoneEvent⟩ = pfd := by
      simpa [PollPoller.slotAt] using hslot
    simp
  · dsimp only at hc
    have hfd : fd c ≠ fd ch := by
      intro heq
      rw [heq, Function.update_self] at hc
      exact hne (Option.some.inj hc).symm
    have hc' : p.channels (fd c) = some c := by simpa [hfd] using hc
    rw [h.events_kept (.push h.slotted hch _ _) hc' hne hslot]
    simp [hne]

theorem Tabled.rewrite (hnn : ∀ ch, 0 ≤ fd ch) (h : Tabled fd p)
    {o : Channel} {k : Nat} {pfd : PollFd} (ho : o.fd = fd ch) (hindex : o.index = k)
    (hch : p.channels (fd ch) = some ch) (hidx : (p.objects ch).index = k)
    (hlt : k < p.pollfds.length) (hof : SlotOf o pfd) :
    Tabled fd
      { objects := Function.update p.objects ch o
        channels := p.channels
        pollfds := p.pollfds.set k pfd } := by
  have hfor : SlotFor (fd ch) pfd := by
    rw [← ho]
    exact hof.fd
  refine .of_slotted (h.slotted.rewrite hnn ho hindex hch hidx hlt hfor) fun c q hc hslot => ?_
  by_cases hne : c = ch
  · subst hne
    obtain rfl : pfd = q := by
      simpa [PollPoller.slotAt, hindex, hlt] using hslot
    simpa using hof.events
  · rw [h.events_kept (.rewrite hnn h.slotted hch hidx _ _) hc hne hslot]
    simp [hne]

theorem exec_change_tabled (hfd : Function.Injective fd) (hnn : ∀ ch, 0 ≤ fd ch) (h : Tabled fd p)
    (ch : ChannelPtr) (i : Interest) : Post (p.change ch i) (Tabled fd) := by
  have ho : (i.apply (p.objects ch)).fd = fd ch := by
    rw [i.apply_fd]
    exact h.fds ch
  rcases change_cases hfd h ch i with ⟨hch, hidx⟩ | ⟨-, herr⟩ | hch
  · rw [change_fresh h i hidx hch]
    exact .ok (h.push ho hch)
  · rw [herr]
    intro p' hp'
    exact absurd hp' (by simp)
  · obtain ⟨k, pfd, hidx, hslot, hpfd, -⟩ := h.slot_of hch
    rw [change_registered h i hch hidx hslot hpfd]
    refine .ok (h.rewrite hnn ho ?_ hch hidx (List.getElem?_eq_some_iff.mp hslot).1 ⟨?_, rfl⟩)
    · rw [i.apply_index]
      exact hidx
    · by_cases hnone : (i.apply (p.objects ch)).events = Events.kNoneEvent
      · exact .inr (by simp [updatedSlot, hnone])
      · rw [ho]
        simpa [updatedSlot, hnone] using hpfd

/-! ## Removal -/

theorem Tabled.swapRemove (hnn : ∀ ch, 0 ≤ fd ch) (h : Tabled fd p)
    (hch : p.channels (fd ch) = some ch) {k : Nat} (hidx : (p.objects ch).index = k)
    {c : ChannelPtr} {last : PollFd} (hc : p.channels (fd c) = some c)
    (hcidx : (p.objects c).index = (p.pollfds.length - 1 : Nat))
    (hlast : p.pollfds[p.pollfds.length - 1]? = some last) :
    Tabled fd
      { objects := Function.update p.objects c { p.objects c with index := (k : Int) }
        channels := Function.update p.channels (fd ch) none
        pollfds := (p.pollfds.set k last).dropLast } := by
  have hslotted := h.slotted.swapRemove hnn hch hidx hc hcidx hlast
  refine .of_slotted hslotted fun a pfd ha hslot => ?_
  dsimp only at ha
  have hfd : fd a ≠ fd ch := by
    intro heq
    rw [heq, Function.update_self] at ha
    exact absurd ha (by simp)
  have ha' : p.channels (fd a) = some a := by simpa [hfd] using ha
  have hne : a ≠ ch := fun heq => hfd (by rw [heq])
  rw [h.events_kept (.swapRemove hnn h.slotted hch hidx hc hcidx hlast) ha' hne hslot]
  by_cases hac : a = c
  · subst hac
    simp
  · simp [hac]

/-- `p'` is `p` without channel `ch`, whose index still names a slot. -/
structure Gone (fd : ChannelPtr → Int) (ch : ChannelPtr) (p p' : PollPoller) : Prop where
  tabled : Tabled fd p'
  channel : p'.channels (fd ch) = none
  index : 0 ≤ (p'.objects ch).index
  spares : Spares fd ch p p'

theorem Spares.trans {p₁ p₂ p₃ : PollPoller} (h : Spares fd ch p₁ p₂) (h' : Spares fd ch p₂ p₃) :
    Spares fd ch p₁ p₃ := by
  intro c hc
  obtain ⟨hch, hev, hslot⟩ := h c hc
  obtain ⟨hch', hev', hslot'⟩ := h' c hc
  refine ⟨hch'.trans hch, hev'.trans hev, fun hreg => ?_⟩
  rw [hslot' (by rw [hch, hreg]), hslot hreg]

theorem Spares.push (hfd : Function.Injective fd) (h : Tabled fd p)
    (hch : p.channels (fd ch) = none) (o : Channel) (pfd : PollFd) :
    Spares fd ch p
      { objects := Function.update p.objects ch o
        channels := Function.update p.channels (fd ch) (some ch)
        pollfds := p.pollfds ++ [pfd] } := by
  intro c hne
  have hne' : fd c ≠ fd ch := fun heq => hne (hfd heq)
  exact ⟨by simp [hne'], by simp [hne],
    fun hreg => (KeepsSlots.push h.slotted hch o pfd _ c hreg hne).2⟩

theorem Spares.rewrite (hnn : ∀ ch, 0 ≤ fd ch) (h : Tabled fd p)
    {k : Nat} (hch : p.channels (fd ch) = some ch) (hidx : (p.objects ch).index = k)
    (o : Channel) (pfd : PollFd) :
    Spares fd ch p
      { objects := Function.update p.objects ch o
        channels := p.channels
        pollfds := p.pollfds.set k pfd } := by
  intro c hne
  exact ⟨rfl, by simp [hne],
    fun hreg => (KeepsSlots.rewrite hnn h.slotted hch hidx o pfd _ c hreg hne).2⟩

theorem Spares.swapRemove (hfd : Function.Injective fd) (hnn : ∀ ch, 0 ≤ fd ch) (h : Tabled fd p)
    (hch : p.channels (fd ch) = some ch) {k : Nat} (hidx : (p.objects ch).index = k)
    {c : ChannelPtr} {last : PollFd} (hc : p.channels (fd c) = some c)
    (hcidx : (p.objects c).index = (p.pollfds.length - 1 : Nat))
    (hlast : p.pollfds[p.pollfds.length - 1]? = some last) :
    Spares fd ch p
      { objects := Function.update p.objects c { p.objects c with index := (k : Int) }
        channels := Function.update p.channels (fd ch) none
        pollfds := (p.pollfds.set k last).dropLast } := by
  intro a hne
  have hne' : fd a ≠ fd ch := fun heq => hne (hfd heq)
  refine ⟨by simp [hne'], ?_, fun hreg => ?_⟩
  · by_cases hac : a = c
    · subst hac
      simp
    · simp [hac]
  · exact (KeepsSlots.swapRemove hnn h.slotted hch hidx hc hcidx hlast _ a hreg hne).2

/-- The assertions of `removeChannel` hold for a registered channel with a
negated slot. -/
theorem removeChannel_eq (h : Tabled fd p) (hch : p.channels (fd ch) = some ch)
    (hnone : (p.objects ch).events = Events.kNoneEvent) {k : Nat} {pfd : PollFd}
    (hidx : (p.objects ch).index = k) (hslot : p.pollfds[k]? = some pfd)
    (hneg : pfd.fd = -fd ch - 1) (hevents : pfd.events = Events.kNoneEvent) :
    p.removeChannel ch = (p.setChannel (fd ch) none).swapRemove k := by
  simp [PollPoller.removeChannel, PollPoller.slot, h.fds ch, hch, Channel.isNoneEvent, hnone, hidx,
    hslot, hneg, hevents]

/-- `disableAll(); remove()` of a registered channel. -/
theorem remove_registered (hfd : Function.Injective fd) (hnn : ∀ ch, 0 ≤ fd ch) (h : Tabled fd p)
    (hch : p.channels (fd ch) = some ch) : Lands (p.exec (.remove ch)) (Gone fd ch p) := by
  obtain ⟨k, pfd, hidx, hslot, hpfd, -⟩ := h.slot_of hch
  have hk := (List.getElem?_eq_some_iff.mp hslot).1
  show Lands (p.change ch .disableAll >>= fun p => p.remove ch) (Gone fd ch p)
  rw [change_registered h .disableAll hch hidx hslot hpfd, ok_bind]
  -- the state in which `Channel::remove` calls the poller
  let o : Channel := (p.objects ch).disableAll.remove
  let slot : PollFd := ⟨-fd ch - 1, Events.kNoneEvent, Events.kNoneEvent⟩
  have hslot' : updatedSlot (Interest.disableAll.apply (p.objects ch)) pfd = slot := by
    simp [updatedSlot, Interest.apply, Channel.disableAll, Channel.update, h.fds ch, slot]
  let q : PollPoller :=
    { objects := Function.update p.objects ch o
      channels := p.channels
      pollfds := p.pollfds.set k slot }
  have hofd : o.fd = fd ch := h.fds ch
  have hqidx : (q.objects ch).index = k := by
    show (Function.update p.objects ch o ch).index = k
    rw [Function.update_self]
    exact hidx
  have hq : Tabled fd q := h.rewrite hnn hofd hidx hch hidx hk ⟨.inr (by rw [hofd]), rfl⟩
  have hspares : Spares fd ch p q := .rewrite hnn h hch hidx o slot
  obtain ⟨c, last, hc, hcidx, hlast, hswap⟩ := swapRemove_spec hnn hq.slotted hch hqidx
  have hqobj : q.objects ch = o := Function.update_self ..
  have hexec : PollPoller.remove
      { objects := Function.update p.objects ch (Interest.disableAll.apply (p.objects ch))
        channels := p.channels
        pollfds := p.pollfds.set k slot } ch = q.removeChannel ch := by
    simp [PollPoller.remove, PollPoller.setObject, Channel.isNoneEvent, Interest.apply,
      Channel.disableAll, Channel.update, q, o]
  have hremove := removeChannel_eq hq hch (by rw [hqobj]; rfl) hqidx
    (List.getElem?_set_self hk) rfl rfl
  rw [hslot', hexec, hremove, hswap]
  refine .ok ⟨hq.swapRemove hnn hch hqidx hc hcidx hlast, by simp, ?_,
    hspares.trans (.swapRemove hfd hnn hq hch hqidx hc hcidx hlast)⟩
  by_cases hcc : ch = c
  · subst hcc
    simp
  · show 0 ≤ (Function.update q.objects c _ ch).index
    rw [Function.update_of_ne hcc, hqidx]
    omega

/-- `disableAll(); remove()` of any other channel stops at an assertion: the
update appends a slot that is not negated, or the index is that of an earlier
registration. -/
theorem remove_unregistered (hnn : ∀ ch, 0 ≤ fd ch) (h : Tabled fd p)
    (hch : p.channels (fd ch) = none) :
    p.exec (.remove ch) = .error .removeSlot ∨ p.exec (.remove ch) = .error .updatePresent := by
  show (p.change ch .disableAll >>= fun p => p.remove ch) = _ ∨
    (p.change ch .disableAll >>= fun p => p.remove ch) = _
  rcases lt_or_ge (p.objects ch).index 0 with hidx | hidx
  · have hne : ¬ fd ch = -fd ch - 1 := by
      have := hnn ch
      omega
    left
    rw [change_fresh h .disableAll hidx hch, ok_bind]
    simp [PollPoller.remove, PollPoller.removeChannel, PollPoller.setObject, PollPoller.slot,
      Channel.isNoneEvent, Channel.remove, Interest.apply, Channel.disableAll, Channel.update,
      h.fds ch, hne]
  · right
    rw [change_stale h .disableAll hidx hch, error_bind]

/-- A teardown that returns was one of a registered channel. -/
theorem remove_ok (hfd : Function.Injective fd) (hnn : ∀ ch, 0 ≤ fd ch) (h : Tabled fd p)
    (hexec : p.exec (.remove ch) = .ok p') :
    p.channels (fd ch) = some ch ∧ Gone fd ch p p' := by
  rcases h.channels_cases hfd ch with hch | hch
  · rcases remove_unregistered hnn h hch with herr | herr
    · rw [herr] at hexec
      exact absurd hexec (by simp)
    · rw [herr] at hexec
      exact absurd hexec (by simp)
  · exact ⟨hch, (remove_registered hfd hnn h hch).post p' hexec⟩

/-! ## Runs -/

theorem exec_tabled (hfd : Function.Injective fd) (hnn : ∀ ch, 0 ≤ fd ch) (h : Tabled fd p)
    (a : Act) : Post (p.exec a) (Tabled fd) := by
  cases a with
  | change ch i => exact exec_change_tabled hfd hnn h ch i
  | remove ch =>
      intro p' hexec
      exact (remove_ok hfd hnn h hexec).2.tabled

theorem new_tabled (fd : ChannelPtr → Int) : Tabled fd (PollPoller.new fd) :=
  ⟨fun _ => rfl, fun _ _ h => absurd h (by simp [PollPoller.new]),
    fun _ _ h => absurd h (by simp [PollPoller.new])⟩

theorem run_tabled (hfd : Function.Injective fd) (hnn : ∀ ch, 0 ≤ fd ch) (acts : List Act) :
    Post (pollSys.runFrom (PollPoller.new fd) acts) (Tabled fd) := by
  have hlegal : pollSys.Legal (PollPoller.new fd) acts :=
    Sys.meets_of_forall (fun _ _ => trivial) _
  exact Sys.invariant_post (S := pollSys) (fun p a h _ => exec_tabled hfd hnn h a) (new_tabled fd)
    hlegal

end Table

/-! ## What `::poll` watches -/

/-- `::poll` watches descriptor `f` for events `e`. -/
def Watched (p : PollPoller) (f : Int) (e : Events) : Prop :=
  ∃ pfd ∈ p.pollfds, 0 ≤ pfd.fd ∧ pfd.events ≠ Events.kNoneEvent ∧ pfd.fd = f ∧ pfd.events = e

/-- A registered channel has descriptor `f` and the non-empty mask `e`. -/
def Wanted (p : PollPoller) (f : Int) (e : Events) : Prop :=
  ∃ ch, p.channels (p.objects ch).fd = some ch ∧ (p.objects ch).events ≠ Events.kNoneEvent ∧
    (p.objects ch).fd = f ∧ (p.objects ch).events = e

def PollsWanted (p : PollPoller) : Prop := ∀ f e, Watched p f e ↔ Wanted p f e

/-- The slot of the channel is negated. -/
def PollPoller.slotNegated (p : PollPoller) (ch : ChannelPtr) : Bool :=
  (p.slotAt ch).any fun pfd => pfd.fd < 0

/-- No interest is given to a registered channel whose slot is negated. -/
def NoRevival (p : PollPoller) : Act → Prop
  | .change ch i => p.channels (p.objects ch).fd = some ch → p.slotNegated ch = true →
      (i.apply (p.objects ch)).events = Events.kNoneEvent
  | .remove _ => True

instance decidableNoRevival (p : PollPoller) : ∀ a, Decidable (NoRevival p a)
  | .change ch i => inferInstanceAs (Decidable (p.channels (p.objects ch).fd = some ch →
      p.slotNegated ch = true → (i.apply (p.objects ch)).events = Events.kNoneEvent))
  | .remove _ => inferInstanceAs (Decidable True)

section Watching

variable {fd : ChannelPtr → Int} {p p' : PollPoller} {ch : ChannelPtr}

/-- A channel that wants something has a slot that is not negated. -/
def Shown (p : PollPoller) (ch : ChannelPtr) : Prop :=
  (p.objects ch).events ≠ Events.kNoneEvent → p.slotNegated ch = false

theorem slotNegated_eq {pfd : PollFd} (h : p.slotAt ch = some pfd) :
    p.slotNegated ch = decide (pfd.fd < 0) := by
  rw [PollPoller.slotNegated, h]
  rfl

theorem Tabled.slotAt_eq (h : Tabled fd p) (hch : p.channels (fd ch) = some ch) :
    ∃ pfd, p.slotAt ch = some pfd ∧ pfd ∈ p.pollfds ∧ (pfd.fd = fd ch ∨ pfd.fd = -fd ch - 1) ∧
      pfd.events = (p.objects ch).events := by
  obtain ⟨i, pfd, hi, hslot, hpfd, hevents⟩ := h.slot_of hch
  refine ⟨pfd, ?_, List.mem_of_getElem? hslot, hpfd, hevents⟩
  rw [PollPoller.slotAt, hi, Int.toNat_natCast]
  exact hslot

/-- Every slot is the slot of a registered channel. -/
theorem Tabled.owner (h : Tabled fd p) {pfd : PollFd} (hmem : pfd ∈ p.pollfds) :
    ∃ c, p.channels (fd c) = some c ∧ p.slotAt c = some pfd := by
  obtain ⟨i, hslot⟩ := List.mem_iff_getElem?.mp hmem
  obtain ⟨c, hc, hi⟩ := h.slots i pfd hslot
  refine ⟨c, hc, ?_⟩
  rw [PollPoller.slotAt, hi, Int.toNat_natCast]
  exact hslot

/-- Which pairs are watched is a matter of the signs in the slots. -/
theorem Tabled.pollsWanted_iff (hfd : Function.Injective fd) (hnn : ∀ ch, 0 ≤ fd ch)
    (h : Tabled fd p) :
    PollsWanted p ↔ ∀ ch, p.channels (fd ch) = some ch → Shown p ch := by
  constructor
  · intro hall ch hch hwant
    have hwanted : Wanted p (fd ch) (p.objects ch).events :=
      ⟨ch, by rw [h.fds ch]; exact hch, hwant, h.fds ch, rfl⟩
    obtain ⟨pfd, hmem, hpos, -, hpfd, -⟩ := (hall _ _).mpr hwanted
    obtain ⟨c, hc, hslot⟩ := h.owner hmem
    obtain ⟨pfd', hslot', -, hpfd', -⟩ := h.slotAt_eq hc
    obtain rfl : pfd = pfd' := Option.some.inj (hslot.symm.trans hslot')
    -- a slot that is not negated shows whose it is
    obtain rfl : c = ch := hfd (by have := hnn c; omega)
    rw [slotNegated_eq hslot]
    simpa using hpos
  · intro hshown f e
    constructor
    · rintro ⟨pfd, hmem, hpos, hwant, rfl, rfl⟩
      obtain ⟨c, hc, hslot⟩ := h.owner hmem
      obtain ⟨pfd', hslot', -, hpfd', hevents⟩ := h.slotAt_eq hc
      obtain rfl : pfd = pfd' := Option.some.inj (hslot.symm.trans hslot')
      have hfc : (p.objects c).fd = pfd.fd := by
        rw [h.fds c]
        have := hnn c
        omega
      refine ⟨c, ?_, ?_, hfc, hevents.symm⟩
      · rw [h.fds c]
        exact hc
      · rw [← hevents]
        exact hwant
    · rintro ⟨c, hc, hwant, rfl, rfl⟩
      rw [h.fds c] at hc ⊢
      obtain ⟨pfd, hslot, hmem, hpfd, hevents⟩ := h.slotAt_eq hc
      have hpos : 0 ≤ pfd.fd := by
        have := hshown c hc hwant
        rw [slotNegated_eq hslot] at this
        simpa using this
      refine ⟨pfd, hmem, hpos, ?_, ?_, hevents⟩
      · rw [hevents]
        exact hwant
      · have := hnn c
        omega

/-- Only the slot of the channel that changed is in question. -/
theorem pollsWanted_spares (hfd : Function.Injective fd) (hnn : ∀ ch, 0 ≤ fd ch)
    (h : Tabled fd p) (hw : PollsWanted p) (h' : Tabled fd p') (hs : Spares fd ch p p') :
    PollsWanted p' ↔ (p'.channels (fd ch) = some ch → Shown p' ch) := by
  rw [h'.pollsWanted_iff hfd hnn]
  rw [h.pollsWanted_iff hfd hnn] at hw
  constructor
  · intro hall
    exact hall ch
  · intro hch c hc
    by_cases hne : c = ch
    · rw [hne] at hc ⊢
      exact hch hc
    · obtain ⟨hsame, hevents, hslot⟩ := hs c hne
      rw [hsame] at hc
      intro hwant
      rw [hevents] at hwant
      rw [PollPoller.slotNegated, hslot hc]
      exact hw c hc hwant

theorem exec_pollsWanted (hfd : Function.Injective fd) (hnn : ∀ ch, 0 ≤ fd ch) (h : Tabled fd p)
    (hw : PollsWanted p) (a : Act) :
    Post (p.exec a) fun p' => (PollsWanted p' ↔ NoRevival p a) := by
  cases a with
  | change ch i =>
      intro p' hp'
      have h' : Tabled fd p' := exec_change_tabled hfd hnn h ch i p' hp'
      have hexec : p.change ch i = .ok p' := hp'
      show _ ↔ (p.channels (p.objects ch).fd = some ch → p.slotNegated ch = true →
        (i.apply (p.objects ch)).events = Events.kNoneEvent)
      rw [h.fds ch]
      rcases change_cases hfd h ch i with ⟨hch, hidx⟩ | ⟨-, herr⟩ | hch
      · -- the first slot of a channel is not negated
        rw [change_fresh h i hidx hch] at hexec
        obtain rfl := Except.ok.inj hexec
        refine iff_of_true ?_ (by simp [hch])
        rw [pollsWanted_spares hfd hnn h hw h' (.push hfd h hch _ _)]
        intro _ _
        simpa [PollPoller.slotNegated, PollPoller.slotAt] using hnn ch
      · rw [herr] at hexec
        exact absurd hexec (by simp)
      · obtain ⟨k, pfd, hidx, hslot, hpfd, -⟩ := h.slot_of hch
        have hk := (List.getElem?_eq_some_iff.mp hslot).1
        have hold : p.slotNegated ch = decide (pfd.fd < 0) :=
          slotNegated_eq (by rw [PollPoller.slotAt, hidx, Int.toNat_natCast]; exact hslot)
        rw [change_registered h i hch hidx hslot hpfd] at hexec
        obtain rfl := Except.ok.inj hexec
        rw [pollsWanted_spares hfd hnn h hw h' (.rewrite hnn h hch hidx _ _)]
        simp only [Shown, PollPoller.slotNegated, PollPoller.slotAt, Function.update_self,
          Interest.apply_index, hidx, Int.toNat_natCast, List.getElem?_set_self hk,
          Option.any_some, updatedSlot, hch, forall_const] at hold ⊢
        rw [hold]
        by_cases hnone : (i.apply (p.objects ch)).events = Events.kNoneEvent
        · simp [hnone]
        · simp [hnone]
  | remove ch =>
      intro p' hexec
      have hgone : Gone fd ch p p' := (remove_ok hfd hnn h hexec).2
      refine iff_of_true ?_ trivial
      rw [pollsWanted_spares hfd hnn h hw hgone.tabled hgone.spares, hgone.channel]
      intro hnone
      exact absurd hnone (by simp)

theorem new_pollsWanted (fd : ChannelPtr → Int) : PollsWanted (PollPoller.new fd) := by
  intro f e
  simp [Watched, Wanted, PollPoller.new]

/-- **What `::poll` watches is what the channels want.** Along a run, the pairs
`::poll` watches are after each operation the descriptors and masks of the
registered channels that want something, if and only if no interest is given to
a registered channel whose slot is negated. -/
theorem poll_watches_wanted_iff (hfd : Function.Injective fd) (hnn : ∀ ch, 0 ≤ fd ch)
    (acts : List Act) :
    (∀ pre, pre <+: acts → Post (pollSys.runFrom (PollPoller.new fd) pre) PollsWanted) ↔
      pollSys.Meets NoRevival (PollPoller.new fd) acts := by
  have hlegal : pollSys.Legal (PollPoller.new fd) acts :=
    Sys.meets_of_forall (fun _ _ => trivial) _
  refine Sys.always_iff_meets_of_invariant (S := pollSys) (I := Tabled fd) ?_ ?_ ?_
    (new_tabled fd) (new_pollsWanted fd) hlegal
  · intro p a h _
    exact exec_tabled hfd hnn h a
  · intro p a h hw _
    exact exec_pollsWanted hfd hnn h hw a
  · -- an operation that stops is not on a registered channel
    intro p a e h _ herr
    have hexec : p.exec a = .error e := herr
    cases a with
    | remove ch => exact trivial
    | change ch i =>
        intro hch
        rw [h.fds ch] at hch
        obtain ⟨k, pfd, hidx, hslot, hpfd, -⟩ := h.slot_of hch
        have hok := change_registered h i hch hidx hslot hpfd
        rw [show p.exec (.change ch i) = p.change ch i from rfl, hok] at hexec
        exact absurd hexec (by simp)

/-- Three channels; removing the first moves the third into its slot. -/
theorem poll_watches_wanted_iff_three :
    pollSys.Meets NoRevival (PollPoller.new fun ch => ch)
        [.change 4 .enableReading, .change 5 .enableWriting, .change 6 .enableReading, .remove 4,
          .change 6 .enableWriting, .change 5 .disableWriting] ∧
      Post (pollSys.runFrom (PollPoller.new fun ch => ch)
        [.change 4 .enableReading, .change 5 .enableWriting, .change 6 .enableReading, .remove 4,
          .change 6 .enableWriting, .change 5 .disableWriting]) PollsWanted := by
  have hmeets : pollSys.Meets NoRevival (PollPoller.new fun ch => ch)
      [.change 4 .enableReading, .change 5 .enableWriting, .change 6 .enableReading, .remove 4,
        .change 6 .enableWriting, .change 5 .disableWriting] := by decide
  have hall := (poll_watches_wanted_iff Nat.cast_injective
    (fun ch => Int.natCast_nonneg ch) _).mpr hmeets
  exact ⟨hmeets, hall _ List.prefix_rfl⟩

/-- A channel that is enabled, disabled and enabled again is not watched. -/
theorem poll_misses_enabled :
    Lands (pollSys.runFrom (PollPoller.new fun ch => ch)
      [.change 4 .enableReading, .change 4 .disableReading, .change 4 .enableReading]) fun p =>
      p.pollfds = [⟨-5, Events.kReadEvent, Events.kNoneEvent⟩] ∧ p.channels 4 = some 4 ∧
        (p.objects 4).events = Events.kReadEvent ∧ ¬ PollsWanted p := by
  have hrun : Lands (pollSys.runFrom (PollPoller.new fun ch => ch)
      [.change 4 .enableReading, .change 4 .disableReading, .change 4 .enableReading]) fun p =>
      p.pollfds = [⟨-5, Events.kReadEvent, Events.kNoneEvent⟩] ∧ p.channels 4 = some 4 ∧
        (p.objects 4).events = Events.kReadEvent ∧ (p.objects 4).fd = 4 := by decide
  refine hrun.mono fun p hp => ⟨hp.1, hp.2.1, hp.2.2.1, fun hwanted => ?_⟩
  obtain ⟨hslots, hch, hevents, hfour⟩ := hp
  have hwatched : Watched p 4 Events.kReadEvent :=
    (hwanted _ _).mpr ⟨4, by rw [hfour]; exact hch, by rw [hevents]; decide, hfour, hevents⟩
  obtain ⟨pfd, hmem, hpos, -, -, -⟩ := hwatched
  rw [hslots, List.mem_singleton] at hmem
  rw [hmem] at hpos
  exact absurd hpos (by decide)

end Watching

end Muduo.Poller
