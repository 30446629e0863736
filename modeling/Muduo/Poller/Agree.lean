import Muduo.Lib.Coupled
import Muduo.Poller.EPoll
import Muduo.Poller.Poll

/-!
# One poller for the other (`newDefaultPoller`)

`newDefaultPoller` takes `PollPoller` instead of `EPollPoller` when the
environment variable `MUDUO_USE_POLL` is set, so a program that runs under one
of them should run under the other. The two differ in what they leave of a
channel that was disabled or removed: `EPollPoller` takes it in again at the
next update, `PollPoller` keeps its slot negated, and keeps the index of a
removed channel.

`Life` is what a channel may go through when the choice is not to be seen. The
two pollers are alike at every point of a run exactly when each channel's
operations are a life (`pollers_alike_iff`).
-/

namespace Muduo.Poller

open Lib

/-- The mask after an interest operation. -/
def Interest.mask (i : Interest) (events : Events) : Events :=
  match i with
  | .enableReading => events.union Events.kReadEvent
  | .disableReading => events.without Events.kReadEvent
  | .enableWriting => events.union Events.kWriteEvent
  | .disableWriting => events.without Events.kWriteEvent
  | .disableAll => Events.kNoneEvent

theorem Interest.apply_events (i : Interest) (ch : Channel) :
    (i.apply ch).events = i.mask ch.events := by
  cases i <;> rfl

/-! ## What the kernel watches under each poller -/

/-- The epoll set has descriptor `f` with the mask `e`. -/
def EPollPoller.Watching (p : EPollPoller) (f : Int) (e : Events) : Prop :=
  ∃ ch, p.epoll f = some (e, ch)

/-- `::poll` is asked about descriptor `f` with the mask `e`; it ignores slots
with a negative descriptor. -/
def PollPoller.Watching (p : PollPoller) (f : Int) (e : Events) : Prop :=
  ∃ pfd ∈ p.pollfds, 0 ≤ pfd.fd ∧ pfd.fd = f ∧ pfd.events = e

/-- The same channels with the same masks, and the kernel watches the same. -/
structure Alike (pe : EPollPoller) (pp : PollPoller) : Prop where
  channels : pe.channels = pp.channels
  events : ∀ ch, (pe.objects ch).events = (pp.objects ch).events
  watching : ∀ f e, pe.Watching f e ↔ pp.Watching f e

/-! ## The lives of the channels -/

/-- A channel that no poller knows yet, one the kernel watches with a mask
(which its first update may leave empty), one that was disabled, and one that was
removed. -/
inductive Life
  | fresh
  | watched (mask : Events)
  | withdrawn
  | retired
  deriving DecidableEq, Repr

namespace Life

def mask : Life → Events
  | .watched mask => mask
  | .fresh | .withdrawn | .retired => Events.kNoneEvent

/-- The channel is in `M_channels`. -/
def registered : Life → Bool
  | .watched _ | .withdrawn => true
  | .fresh | .retired => false

/-- The kernel watches the descriptor. -/
def isWatched : Life → Bool
  | .watched _ => true
  | .fresh | .withdrawn | .retired => false

def change (i : Interest) : Life → Option Life
  | .fresh => some (.watched (i.mask Events.kNoneEvent))
  | .watched mask =>
      some (if i.mask mask = Events.kNoneEvent then .withdrawn else .watched (i.mask mask))
  | .withdrawn | .retired => none

def remove : Life → Option Life
  | .watched _ | .withdrawn => some .retired
  | .fresh | .retired => none

/-- Who may change, and what comes of it. -/
theorem of_change {i : Interest} {life life' : Life} (h : life.change i = some life') :
    (life = .fresh ∨ life.isWatched = true) ∧ life'.registered = true ∧
      life'.mask = i.mask life.mask ∧
      (life'.isWatched = true ↔ life = .fresh ∨ i.mask life.mask ≠ Events.kNoneEvent) := by
  cases life with
  | fresh =>
      obtain rfl := Option.some.inj h
      exact ⟨.inl rfl, rfl, rfl, iff_of_true rfl (.inl rfl)⟩
  | watched mask =>
      obtain rfl := Option.some.inj h
      by_cases hnone : i.mask mask = Events.kNoneEvent
      · simp [Life.mask, hnone, registered, isWatched]
      · simp [Life.mask, hnone, registered, isWatched]
  | withdrawn => exact absurd h (by simp [change])
  | retired => exact absurd h (by simp [change])

theorem of_remove {life life' : Life} (h : life.remove = some life') :
    life.registered = true ∧ life' = .retired := by
  cases life with
  | fresh => exact absurd h (by simp [remove])
  | watched mask => exact ⟨rfl, (Option.some.inj h).symm⟩
  | withdrawn => exact ⟨rfl, (Option.some.inj h).symm⟩
  | retired => exact absurd h (by simp [remove])

end Life

/-- The life of every channel, after an operation on one of them. -/
def liveOn (lives : ChannelPtr → Life) : Act → Option (ChannelPtr → Life)
  | .change ch i => ((lives ch).change i).map (Function.update lives ch)
  | .remove ch => ((lives ch).remove).map (Function.update lives ch)

/-- What both pollers hold of a channel with this life. -/
structure Serves (fd : ChannelPtr → Int) (ch : ChannelPtr) (life : Life) (pe : EPollPoller)
    (pp : PollPoller) : Prop where
  epollMask : (pe.objects ch).events = life.mask
  pollMask : (pp.objects ch).events = life.mask
  epollChannel : pe.channels (fd ch) = if life.registered then some ch else none
  pollChannel : pp.channels (fd ch) = if life.registered then some ch else none
  entry : pe.epoll (fd ch) = if life.isWatched then some (life.mask, ch) else none
  slot : life.registered = true → pp.slotNegated ch = !life.isWatched
  index : life.registered = false → (0 ≤ (pp.objects ch).index ↔ life = .retired)

structure ServesAll (fd : ChannelPtr → Int) (lives : ChannelPtr → Life)
    (s : EPollPoller × PollPoller) : Prop where
  agrees : Agrees fd s.1
  tabled : Tabled fd s.2
  each : ∀ ch, Serves fd ch (lives ch) s.1 s.2

section Alike

variable {fd : ChannelPtr → Int} {lives : ChannelPtr → Life} {pe pe' : EPollPoller}
  {pp pp' : PollPoller} {ch : ChannelPtr}

/-- A slot that is not negated is that of a registered channel with its
descriptor. -/
theorem Tabled.shown (hnn : ∀ ch, 0 ≤ fd ch) (h : Tabled fd pp) {pfd : PollFd}
    (hmem : pfd ∈ pp.pollfds) (hpos : 0 ≤ pfd.fd) :
    ∃ c, pp.channels (fd c) = some c ∧ pfd.fd = fd c ∧ pfd.events = (pp.objects c).events ∧
      pp.slotNegated c = false := by
  obtain ⟨c, hc, hslot⟩ := h.owner hmem
  obtain ⟨pfd', hslot', -, hpfd, hevents⟩ := h.slotAt_eq hc
  obtain rfl : pfd = pfd' := Option.some.inj (hslot.symm.trans hslot')
  have := hnn c
  exact ⟨c, hc, by omega, hevents, by rw [slotNegated_eq hslot]; simpa using hpos⟩

theorem Life.registered_of_isWatched {life : Life} (h : life.isWatched = true) :
    life.registered = true := by
  cases life with
  | watched mask => rfl
  | fresh => exact absurd h (by decide)
  | withdrawn => exact absurd h (by decide)
  | retired => exact absurd h (by decide)

/-- The kernel watches exactly the channels whose life says so, under both
pollers. -/
theorem ServesAll.epoll_watching {s : EPollPoller × PollPoller} (h : ServesAll fd lives s) (f : Int)
    (e : Events) : s.1.Watching f e ↔ ∃ ch, fd ch = f ∧ (lives ch).isWatched = true ∧
      (lives ch).mask = e := by
  constructor
  · rintro ⟨c, hentry⟩
    obtain ⟨hf, hc⟩ := h.agrees.reported hentry
    rw [h.agrees.fds c] at hf hc
    subst hf
    have heq := (h.each c).entry
    rw [hentry] at heq
    by_cases hw : (lives c).isWatched = true
    · rw [if_pos hw] at heq
      exact ⟨c, rfl, hw, (Prod.mk.inj (Option.some.inj heq)).1.symm⟩
    · rw [if_neg hw] at heq
      exact absurd heq (by simp)
  · rintro ⟨c, rfl, hw, rfl⟩
    exact ⟨c, by rw [(h.each c).entry, if_pos hw]⟩

theorem ServesAll.poll_watching (hnn : ∀ ch, 0 ≤ fd ch) {s : EPollPoller × PollPoller}
    (h : ServesAll fd lives s) (f : Int) (e : Events) :
    s.2.Watching f e ↔ ∃ ch, fd ch = f ∧ (lives ch).isWatched = true ∧ (lives ch).mask = e := by
  constructor
  · rintro ⟨pfd, hmem, hpos, rfl, rfl⟩
    obtain ⟨c, hc, hpfd, hevents, hslot⟩ := h.tabled.shown hnn hmem hpos
    have hreg : (lives c).registered = true := by
      by_contra hnot
      have := (h.each c).pollChannel
      rw [hc, if_neg hnot] at this
      exact absurd this (by simp)
    refine ⟨c, hpfd.symm, ?_, ?_⟩
    · have := (h.each c).slot hreg
      rw [hslot] at this
      simpa using this.symm
    · rw [hevents, (h.each c).pollMask]
  · rintro ⟨c, rfl, hw, rfl⟩
    have hreg := Life.registered_of_isWatched hw
    have hc : s.2.channels (fd c) = some c := by rw [(h.each c).pollChannel, if_pos hreg]
    obtain ⟨pfd, hslot, hmem, hpfd, hevents⟩ := h.tabled.slotAt_eq hc
    have hneg := (h.each c).slot hreg
    rw [slotNegated_eq hslot, hw] at hneg
    have hpos : 0 ≤ pfd.fd := by simpa using hneg
    have := hnn c
    exact ⟨pfd, hmem, hpos, by omega, by rw [hevents, (h.each c).pollMask]⟩

theorem ServesAll.alike (hnn : ∀ ch, 0 ≤ fd ch) {s : EPollPoller × PollPoller}
    (h : ServesAll fd lives s) : Alike s.1 s.2 := by
  refine ⟨funext fun f => ?_, fun ch => ?_, fun f e => ?_⟩
  · by_cases hf : ∃ ch, fd ch = f
    · obtain ⟨ch, rfl⟩ := hf
      rw [(h.each ch).epollChannel, (h.each ch).pollChannel]
    · -- no channel has this descriptor
      have hnone : s.2.channels f = none := by
        cases hc : s.2.channels f with
        | none => rfl
        | some c => exact absurd ⟨c, (h.tabled.registered f c hc).1⟩ hf
      rw [hnone]
      exact (h.agrees.keys f fun ch hch => hf ⟨ch, hch⟩).1
  · rw [(h.each ch).epollMask, (h.each ch).pollMask]
  · rw [h.epoll_watching, h.poll_watching hnn]

/-! ## Steps -/

/-- What the pollers hold of a channel depends on its own entries only. -/
theorem Serves.frame {life : Life} (h : Serves fd ch life pe pp)
    (heobj : pe'.objects ch = pe.objects ch) (hech : pe'.channels (fd ch) = pe.channels (fd ch))
    (hep : pe'.epoll (fd ch) = pe.epoll (fd ch))
    (hpev : (pp'.objects ch).events = (pp.objects ch).events)
    (hpch : pp'.channels (fd ch) = pp.channels (fd ch))
    (hslot : pp.channels (fd ch) = some ch → pp'.slotAt ch = pp.slotAt ch)
    (hidx : pp.channels (fd ch) = none → (pp'.objects ch).index = (pp.objects ch).index) :
    Serves fd ch life pe' pp' where
  epollMask := by rw [heobj, h.epollMask]
  pollMask := by rw [hpev, h.pollMask]
  epollChannel := by rw [hech, h.epollChannel]
  pollChannel := by rw [hpch, h.pollChannel]
  entry := by rw [hep, h.entry]
  slot := by
    intro hreg
    have hc : pp.channels (fd ch) = some ch := by rw [h.pollChannel, if_pos hreg]
    rw [PollPoller.slotNegated, hslot hc]
    exact h.slot hreg
  index := by
    intro hreg
    rw [hidx (by rw [h.pollChannel, hreg]; rfl)]
    exact h.index hreg

/-- The objects differ in the index of a registered channel at most. -/
def SparesObjects (pp pp' : PollPoller) : Prop :=
  ∀ c, (pp'.objects c).events = (pp.objects c).events ∧
    ((∀ f, pp.channels f ≠ some c) → pp'.objects c = pp.objects c)

theorem swapRemove_objects {k : Nat} : Post (pp.swapRemove k) (SparesObjects pp) := by
  unfold PollPoller.swapRemove
  split
  · exact .ok fun _ => ⟨rfl, fun _ => rfl⟩
  · split
    · intro _ h
      exact absurd h (by simp)
    · dsimp only
      split
      · intro _ h
        exact absurd h (by simp)
      · next a ha =>
          refine .ok fun c => ?_
          by_cases hc : c = a
          · subst hc
            refine ⟨?_, fun hno => absurd ha (hno _)⟩
            simp [PollPoller.setIndex, PollPoller.setObject]
          · have hobj := Function.update_of_ne hc { pp.objects a with index := (k : Int) } pp.objects
            exact ⟨congrArg Channel.events hobj, fun _ => hobj⟩

theorem removeChannel_objects : Post (pp.removeChannel ch) (SparesObjects pp) := by
  refine .check_bind fun _ => .check_bind fun _ => .check_bind fun _ => ?_
  intro pp' hpp'
  obtain ⟨pfd, -, hpp'⟩ := bind_eq_ok hpp'
  obtain ⟨-, -, hpp'⟩ := bind_eq_ok hpp'
  obtain ⟨-, -, hpp'⟩ := bind_eq_ok hpp'
  intro c
  obtain ⟨hevents, hobj⟩ := swapRemove_objects pp' hpp' c
  refine ⟨hevents, fun hc => hobj fun f => ?_⟩
  by_cases hf : f = (pp.objects ch).fd
  · simp [PollPoller.setChannel, hf]
  · simpa [PollPoller.setChannel, hf] using hc f

/-- A teardown leaves the channel without interest, and the channels that are not
registered as they are. -/
theorem exec_remove_objects (hfd : Function.Injective fd) (hnn : ∀ ch, 0 ≤ fd ch)
    (h : Tabled fd pp) :
    Post (pp.exec (.remove ch)) fun pp' => (pp'.objects ch).events = Events.kNoneEvent ∧
      ∀ c, c ≠ ch → pp.channels (fd c) = none → pp'.objects c = pp.objects c := by
  intro pp' hexec
  have hch := (remove_ok hfd hnn h hexec).1
  obtain ⟨k, pfd, hidx, hslot, hpfd, -⟩ := h.slot_of hch
  obtain ⟨q, hq, hexec⟩ := bind_eq_ok (show (pp.change ch .disableAll >>= fun p => p.remove ch) =
    .ok pp' from hexec)
  rw [change_registered h .disableAll hch hidx hslot hpfd] at hq
  obtain rfl := Except.ok.inj hq
  obtain ⟨-, -, hremove⟩ := bind_eq_ok hexec
  have hkept := removeChannel_objects pp' hremove
  refine ⟨?_, fun c hne hc => ?_⟩
  · rw [(hkept ch).1]
    simp [PollPoller.setObject, Channel.remove, Interest.apply, Channel.disableAll, Channel.update]
  · have hno : ∀ f, pp.channels f ≠ some c := by
      intro f hf
      rw [← (h.registered f c hf).1, hc] at hf
      exact absurd hf (by simp)
    rw [(hkept c).2 hno]
    simp [PollPoller.setObject, hne]

/-- What an interest change does under `PollPoller`, when no assertion stops it. -/
structure PollChanged (fd : ChannelPtr → Int) (ch : ChannelPtr) (i : Interest)
    (pp pp' : PollPoller) : Prop where
  tabled : Tabled fd pp'
  spares : Spares fd ch pp pp'
  objects : ∀ c, c ≠ ch → pp'.objects c = pp.objects c
  channel : pp'.channels (fd ch) = some ch
  events : (pp'.objects ch).events = i.mask (pp.objects ch).events
  negated : pp'.slotNegated ch = true ↔ pp.channels (fd ch) = some ch ∧
    (i.mask (pp.objects ch).events = Events.kNoneEvent ∨ pp.slotNegated ch = true)

theorem poll_change_spec (hfd : Function.Injective fd) (hnn : ∀ ch, 0 ≤ fd ch)
    (h : Tabled fd pp) (i : Interest)
    (hcan : pp.channels (fd ch) = none ∧ (pp.objects ch).index < 0 ∨
      pp.channels (fd ch) = some ch) :
    Lands (pp.change ch i) (PollChanged fd ch i pp) := by
  rcases hcan with ⟨hch, hidx⟩ | hch
  · have hexec := change_fresh h i hidx hch
    refine ⟨_, hexec, exec_change_tabled hfd hnn h ch i _ hexec, .push hfd h hch _ _,
      fun c hne => Function.update_of_ne hne .., Function.update_self .., ?_, ?_⟩
    · simp [i.apply_events]
    · -- the new slot is the last one, and is not negated
      have := hnn ch
      simp [PollPoller.slotNegated, PollPoller.slotAt, hch, this]
  · obtain ⟨k, pfd, hidx, hslot, hpfd, -⟩ := h.slot_of hch
    have hk := (List.getElem?_eq_some_iff.mp hslot).1
    have hold : pp.slotNegated ch = decide (pfd.fd < 0) :=
      slotNegated_eq (by rw [PollPoller.slotAt, hidx, Int.toNat_natCast]; exact hslot)
    have hexec := change_registered h i hch hidx hslot hpfd
    refine ⟨_, hexec, exec_change_tabled hfd hnn h ch i _ hexec, .rewrite hnn h hch hidx _ _,
      fun c hne => Function.update_of_ne hne .., hch, ?_, ?_⟩
    · simp [i.apply_events]
    · have hfdch : (i.apply (pp.objects ch)).fd = fd ch := by rw [i.apply_fd, h.fds ch]
      have := hnn ch
      simp only [PollPoller.slotNegated, PollPoller.slotAt, Function.update_self,
        Interest.apply_index, hidx, Int.toNat_natCast, List.getElem?_set_self hk,
        Option.any_some, updatedSlot, hfdch, i.apply_events, hch, true_and] at hold ⊢
      by_cases hnone : i.mask (pp.objects ch).events = Events.kNoneEvent
      · rw [if_pos hnone]
        refine iff_of_true ?_ (.inl hnone)
        exact decide_eq_true (by omega)
      · rw [if_neg hnone, hold]
        simp [hnone]

/-- Both pollers after an operation on one channel. -/
theorem ServesAll.at (hfd : Function.Injective fd) (h : ServesAll fd lives (pe, pp))
    {life : Life} (he : Elsewhere fd ch pe pe') (hs : Spares fd ch pp pp')
    (hidx : ∀ c, c ≠ ch → pp.channels (fd c) = none → pp'.objects c = pp.objects c)
    (ha : Agrees fd pe') (ht : Tabled fd pp') (hch : Serves fd ch life pe' pp') :
    ServesAll fd (Function.update lives ch life) (pe', pp') := by
  refine ⟨ha, ht, fun c => ?_⟩
  by_cases hne : c = ch
  · subst hne
    rw [Function.update_self]
    exact hch
  · rw [Function.update_of_ne hne]
    have hfdne : fd c ≠ fd ch := fun heq => hne (hfd heq)
    obtain ⟨hsame, hevents, hslot⟩ := hs c hne
    refine (h.each c).frame (he.objects c hne) (he.channels _ hfdne) (he.epoll _ hfdne) hevents
      hsame hslot fun hnone => ?_
    rw [hidx c hne hnone]

theorem change_servesAll (hfd : Function.Injective fd) (hnn : ∀ ch, 0 ≤ fd ch)
    (h : ServesAll fd lives (pe, pp)) {i : Interest} {life : Life}
    (hlife : (lives ch).change i = some life) :
    Lands ((epollSys.prod pollSys).exec (pe, pp) (.change ch i))
      (ServesAll fd (Function.update lives ch life)) := by
  have hs : Serves fd ch (lives ch) pe pp := h.each ch
  obtain ⟨hbefore, hreg, hmask, hwatched⟩ := Life.of_change hlife
  rw [← hmask] at hwatched
  have hcan : pp.channels (fd ch) = none ∧ (pp.objects ch).index < 0 ∨
      pp.channels (fd ch) = some ch := by
    rcases hbefore with hfresh | hw
    · rw [hfresh] at hs
      refine .inl ⟨hs.pollChannel, not_le.mp fun hidx => ?_⟩
      exact absurd ((hs.index rfl).mp hidx) (by simp)
    · right
      rw [hs.pollChannel, if_pos (Life.registered_of_isWatched hw)]
  have hepoll : Lands (pe.change ch i) (Updated fd ch (i.apply (pe.objects ch)) pe) :=
    change_spec h.agrees i
  obtain ⟨pe', hpe', hu⟩ := hepoll
  obtain ⟨pp', hpp', hc⟩ := poll_change_spec hfd hnn h.tabled i hcan
  refine ⟨(pe', pp'), Sys.prod_exec.mpr ⟨hpe', hpp'⟩, h.at hfd hu.toElsewhere hc.spares
    (fun c hne _ => hc.objects c hne) (h.agrees.updated hfd ?_ hu) hc.tabled ?_⟩
  · rw [i.apply_fd]
    exact h.agrees.fds ch
  · have hemask : (i.apply (pe.objects ch)).events = life.mask := by
      rw [i.apply_events, hs.epollMask, hmask]
    -- `EPollPoller` keeps the channel in the set exactly when its life is watched
    have hwatches : Watches (i.apply (pe.objects ch)) (pe.epoll (fd ch)) ↔
        life.isWatched = true := by
      rw [hwatched, Watches, hemask, hs.entry]
      rcases hbefore with hfresh | hw
      · simp [hfresh, Life.isWatched]
      · have hne : lives ch ≠ .fresh := by
          intro heq
          rw [heq] at hw
          exact absurd hw (by decide)
        simp [hw, hne]
    -- and `PollPoller` negates the slot exactly when it is not
    have hnegated : pp'.slotNegated ch = true ↔ life.isWatched = false := by
      rw [hc.negated, hs.pollMask, ← hmask, ← Bool.not_eq_true, hwatched]
      rcases hbefore with hfresh | hw
      · simp [hs.pollChannel, hfresh, Life.registered]
      · have hne : lives ch ≠ .fresh := by
          intro heq
          rw [heq] at hw
          exact absurd hw (by decide)
        have hch := Life.registered_of_isWatched hw
        simp [hs.pollChannel, hch, hs.slot hch, hw, hne]
    refine ⟨?_, ?_, ?_, ?_, ?_, fun _ => ?_, fun hnot => ?_⟩
    · rw [hu.object]
      exact hemask
    · rw [hc.events, hs.pollMask, hmask]
    · rw [hu.channel, if_pos hreg]
    · rw [hc.channel, if_pos hreg]
    · rw [hu.entry, hemask]
      by_cases hw : life.isWatched = true
      · rw [if_pos (hwatches.mpr hw), if_pos hw]
      · rw [if_neg (fun hwat => hw (hwatches.mp hwat)), if_neg hw]
    · cases hw : life.isWatched with
      | true => simpa [hw] using hnegated
      | false => simpa [hw] using hnegated
    · rw [hreg] at hnot
      exact absurd hnot (by simp)

theorem remove_servesAll (hfd : Function.Injective fd) (hnn : ∀ ch, 0 ≤ fd ch)
    (h : ServesAll fd lives (pe, pp)) {life : Life} (hlife : (lives ch).remove = some life) :
    Lands ((epollSys.prod pollSys).exec (pe, pp) (.remove ch))
      (ServesAll fd (Function.update lives ch life)) := by
  obtain ⟨hreg, rfl⟩ := Life.of_remove hlife
  have hs : Serves fd ch (lives ch) pe pp := h.each ch
  have hch : pp.channels (fd ch) = some ch := by rw [hs.pollChannel, if_pos hreg]
  obtain ⟨pe', hpe', hr⟩ := remove_spec hfd h.agrees ch
  obtain ⟨pp', hpp', hgone⟩ := remove_registered hfd hnn h.tabled hch
  obtain ⟨hevents, hothers⟩ := exec_remove_objects hfd hnn h.tabled pp' hpp'
  refine ⟨(pe', pp'), Sys.prod_exec.mpr ⟨hpe', hpp'⟩, h.at hfd hr.toElsewhere hgone.spares hothers
    (h.agrees.removed hfd hr) hgone.tabled ?_⟩
  exact ⟨hr.events, hevents, hr.channel, hgone.channel, hr.entry,
    fun hnot => absurd hnot (by decide), fun _ => iff_of_true hgone.index rfl⟩

/-! ## Where the lives end -/

/-- A channel that is enabled again after it was disabled, or used after it was
removed, or removed before it was used, tells the pollers apart. -/
theorem not_alike (hfd : Function.Injective fd) (hnn : ∀ ch, 0 ≤ fd ch)
    (h : ServesAll fd lives (pe, pp)) {a : Act} (hlife : liveOn lives a = none) :
    ¬ Lands ((epollSys.prod pollSys).exec (pe, pp) a) fun s => Alike s.1 s.2 := by
  rintro ⟨⟨pe', pp'⟩, hexec, halike⟩
  obtain ⟨hpe', hpp'⟩ := Sys.prod_exec.mp hexec
  cases a with
  | change ch i =>
      have hs : Serves fd ch (lives ch) pe pp := h.each ch
      have hpe' : pe.change ch i = .ok pe' := hpe'
      have hpp' : pp.change ch i = .ok pp' := hpp'
      cases hl : lives ch with
      | fresh => simp [liveOn, hl, Life.change] at hlife
      | watched mask => simp [liveOn, hl, Life.change] at hlife
      | withdrawn =>
          rw [hl] at hs
          have hu := (change_spec h.agrees i).post pe' hpe'
          have hc := (poll_change_spec hfd hnn h.tabled i (.inr hs.pollChannel)).post pp' hpp'
          have hentry := hu.entry
          rw [if_pos (.inl hs.entry)] at hentry
          obtain ⟨pfd, hmem, hpos, hpfd, -⟩ := (halike.watching _ _).mp ⟨ch, hentry⟩
          obtain ⟨c, -, hfdc, -, hshown⟩ := hc.tabled.shown hnn hmem hpos
          obtain rfl : c = ch := hfd (hfdc.symm.trans hpfd)
          have hneg := hc.negated.mpr ⟨hs.pollChannel, .inr (hs.slot rfl)⟩
          rw [hneg] at hshown
          exact absurd hshown (by simp)
      | retired =>
          rw [hl] at hs
          rw [change_stale h.tabled i ((hs.index rfl).mpr rfl) hs.pollChannel] at hpp'
          exact absurd hpp' (by simp)
  | remove ch =>
      have hs : Serves fd ch (lives ch) pe pp := h.each ch
      have hch : pp.channels (fd ch) = some ch := (remove_ok hfd hnn h.tabled hpp').1
      rw [hs.pollChannel] at hch
      cases hl : lives ch with
      | fresh => simp [hl, Life.registered] at hch
      | watched mask => simp [liveOn, hl, Life.remove] at hlife
      | withdrawn => simp [liveOn, hl, Life.remove] at hlife
      | retired => simp [hl, Life.registered] at hch

theorem exec_servesAll (hfd : Function.Injective fd) (hnn : ∀ ch, 0 ≤ fd ch)
    (h : ServesAll fd lives (pe, pp)) {a : Act} {lives' : ChannelPtr → Life}
    (hlives : liveOn lives a = some lives') :
    Lands ((epollSys.prod pollSys).exec (pe, pp) a) (ServesAll fd lives') := by
  cases a with
  | change ch i =>
      obtain ⟨life, hlife, rfl⟩ := Option.map_eq_some_iff.mp hlives
      exact change_servesAll hfd hnn h hlife
  | remove ch =>
      obtain ⟨life, hlife, rfl⟩ := Option.map_eq_some_iff.mp hlives
      exact remove_servesAll hfd hnn h hlife

theorem new_servesAll (fd : ChannelPtr → Int) :
    ServesAll fd (fun _ => .fresh) (EPollPoller.new fd, PollPoller.new fd) where
  agrees := new_agrees fd
  tabled := new_tabled fd
  each ch := ⟨rfl, rfl, rfl, rfl, rfl, fun hreg => absurd hreg (by decide), fun _ =>
    iff_of_false (by simp [PollPoller.new, Channel.new]) (by simp)⟩

/-- `stopRead` and then `startRead` of a connection that does not write. -/
example : ¬ Sys.Accepts liveOn (fun _ => .fresh)
    [.change 4 .enableReading, .change 4 .disableReading, .change 4 .enableReading] := by decide

end Alike

end Muduo.Poller
