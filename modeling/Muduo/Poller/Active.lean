import Muduo.Poller.Slots

/-!
# The active channels (`PollPoller::fillActiveChannels`)

`::poll` writes a `short` into the `revents` of every slot, and returns how many are not
zero. `fillActiveChannels` goes through the slots and stops when it has found that many:
the number that is left counts the slots in the rest of the table whose `revents` are not
zero, so nothing is left out. The asserts hold because a slot that is ready is not a
negated one, and its owner is registered under its descriptor.
-/

namespace Muduo.Poller

open Lib

/-- The assertions in the loop. -/
inductive ActiveFault
  /-- `ch != M_channels.end()`. -/
  | absent
  /-- `channel->fd() == pfd->fd`. -/
  | otherFd
  deriving DecidableEq, Repr

/-- What `fillActiveChannels` writes: `M_revents` of the channels, and
`*activeChannels`. -/
structure Active where
  revents : ChannelPtr → Int
  activeChannels : List ChannelPtr

/-- `channel->set_revents(pfd->revents)`, and `push_back(channel)`. -/
def Active.report (s : Active) (ch : ChannelPtr) (revents : Int) : Active where
  revents := Function.update s.revents ch revents
  activeChannels := s.activeChannels ++ [ch]

@[simp] theorem Active.report_self (s : Active) (ch : ChannelPtr) (r : Int) :
    (s.report ch r).revents ch = r := Function.update_self _ _ _

theorem Active.report_of_ne (s : Active) {c ch : ChannelPtr} (h : c ≠ ch) (r : Int) :
    (s.report ch r).revents c = s.revents c := Function.update_of_ne h _ _

namespace PollPoller

/-- `M_channels.find(pfd->fd)`, with both assertions. -/
def findChannel (p : PollPoller) (pfd : PollFd) : Except ActiveFault ChannelPtr :=
  match p.channels pfd.fd with
  | some ch => do
      check .otherFd ((p.objects ch).fd = pfd.fd)
      return ch
  | none => .error .absent

/-- The loop, from a slot on: the slots, each with its `revents`. -/
def fillLoop (p : PollPoller) : List (PollFd × Int) → Int → Active → Except ActiveFault Active
  | [], _, s => .ok s
  | (pfd, revents) :: rest, numEvents, s =>
      if numEvents > 0 then
        if revents > 0 then do
          let channel ← p.findChannel pfd
          fillLoop p rest (numEvents - 1) (s.report channel revents)
        else fillLoop p rest numEvents s
      else .ok s

/-- `fillActiveChannels(numEvents, activeChannels)`, with what `::poll` left in the
slots. -/
def fillActiveChannels (p : PollPoller) (revents : List Int) (numEvents : Int) (s : Active) :
    Except ActiveFault Active :=
  p.fillLoop (p.pollfds.zip revents) numEvents s

/-- The `revents` of a channel's own slot. -/
def reventsOf (p : PollPoller) (revents : List Int) (ch : ChannelPtr) : Int :=
  (revents[(p.objects ch).index.toNat]?).getD 0

/-- The channel is registered, and its slot is ready. -/
def Ready (p : PollPoller) (revents : List Int) (ch : ChannelPtr) : Prop :=
  p.channels (p.objects ch).fd = some ch ∧ p.reventsOf revents ch ≠ 0

end PollPoller

/-- What `::poll` may leave in the slots, and return. -/
structure PollResult (p : PollPoller) (revents : List Int) (numEvents : Int) : Prop where
  length : revents.length = p.pollfds.length
  /-- A slot with a negative descriptor is ignored. -/
  negated : ∀ x ∈ p.pollfds.zip revents, x.1.fd < 0 → x.2 = 0
  nonneg : ∀ r ∈ revents, 0 ≤ r
  count : numEvents = (revents.countP (· ≠ 0) : Nat)

/-- `ready` are the ready channels of the first `n` slots, in the order of their slots,
and they are what has been reported since `before`. -/
structure Filled (p : PollPoller) (revents : List Int) (before : Active) (n : Nat)
    (ready : List ChannelPtr) (s : Active) : Prop where
  channels : s.activeChannels = before.activeChannels ++ ready
  ordered : (ready.map fun ch => (p.objects ch).index).Pairwise (· < ·)
  mem : ∀ ch, ch ∈ ready ↔ p.Ready revents ch ∧ (p.objects ch).index < n
  own : ∀ ch ∈ ready, s.revents ch = p.reventsOf revents ch
  other : ∀ ch, ch ∉ ready → s.revents ch = before.revents ch

section Fill

variable {fd : ChannelPtr → Int} {p : PollPoller} {revents : List Int} {before s : Active}
  {ready : List ChannelPtr} {i n : Nat}

/-- The channel of a slot that is not negated. -/
theorem Slotted.owner_of_nonneg (hnn : ∀ ch, 0 ≤ fd ch) (h : Slotted fd p) {pfd : PollFd}
    (hslot : p.pollfds[i]? = some pfd) (hfd : 0 ≤ pfd.fd) :
    ∃ ch, p.channels pfd.fd = some ch ∧ (p.objects ch).fd = pfd.fd ∧
      (p.objects ch).index = (i : Nat) := by
  obtain ⟨ch, hch, hidx⟩ := h.owned i pfd hslot
  obtain ⟨k, q, hk, hq, hfor⟩ := h.slot_of hch
  obtain rfl : i = k := by omega
  obtain rfl : pfd = q := Option.some.inj (hslot.symm.trans hq)
  have hsame : pfd.fd = fd ch := by
    have := hnn ch
    unfold SlotFor at hfor
    omega
  exact ⟨ch, hsame ▸ hch, (h.fds ch).trans hsame.symm, hidx⟩

theorem Slotted.index_nonneg (h : Slotted fd p) {ch : ChannelPtr} (hready : p.Ready revents ch) :
    0 ≤ (p.objects ch).index := by
  obtain ⟨-, k, -, hk, -⟩ := h.registered _ _ hready.1
  omega

/-- No other channel is ready at a slot. -/
theorem Slotted.ready_unique (hnn : ∀ ch, 0 ≤ fd ch) (h : Slotted fd p) {a b : ChannelPtr}
    (ha : p.Ready revents a) (hb : p.Ready revents b)
    (heq : (p.objects a).index = (p.objects b).index) : a = b :=
  h.index_inj hnn ha.1 hb.1 heq

/-- A slot that is not ready adds no channel. -/
theorem Filled.skip (h : Filled p revents before i ready s) (hslot : revents[i]? = some 0) :
    Filled p revents before (i + 1) ready s := by
  refine ⟨h.channels, h.ordered, fun ch => (h.mem ch).trans ?_, h.own, h.other⟩
  refine and_congr_right fun hready => ⟨fun hlt => by omega, fun hlt => ?_⟩
  have hne : (p.objects ch).index ≠ i := by
    intro heq
    refine hready.2 ?_
    rw [PollPoller.reventsOf, heq, Int.toNat_natCast, hslot]
    rfl
  omega

/-- A slot that is ready adds its channel. -/
theorem Filled.report (hnn : ∀ ch, 0 ≤ fd ch) (hs : Slotted fd p)
    (h : Filled p revents before i ready s) {ch : ChannelPtr} {r : Int}
    (hready : p.Ready revents ch) (hidx : (p.objects ch).index = (i : Nat))
    (hslot : revents[i]? = some r) :
    Filled p revents before (i + 1) (ready ++ [ch]) (s.report ch r) := by
  have hnot : ch ∉ ready := by
    intro hmem
    have := ((h.mem ch).mp hmem).2
    omega
  have hown : p.reventsOf revents ch = r := by
    rw [PollPoller.reventsOf, hidx, Int.toNat_natCast, hslot]
    rfl
  refine ⟨?_, ?_, fun c => ?_, fun c hc => ?_, fun c hc => ?_⟩
  · rw [Active.report, h.channels, List.append_assoc]
  · rw [List.map_append, List.pairwise_append]
    refine ⟨h.ordered, by simp, fun a ha b hb => ?_⟩
    obtain ⟨c, hc, rfl⟩ := List.mem_map.mp ha
    obtain rfl : b = (p.objects ch).index := by simpa using hb
    rw [hidx]
    exact ((h.mem c).mp hc).2
  · rw [List.mem_append, List.mem_singleton, h.mem c]
    constructor
    · rintro (⟨hc, hlt⟩ | rfl)
      · exact ⟨hc, by omega⟩
      · exact ⟨hready, by omega⟩
    · rintro ⟨hc, hlt⟩
      rcases lt_or_ge (p.objects c).index (i : Int) with hlt' | hge
      · exact .inl ⟨hc, hlt'⟩
      · exact .inr (hs.ready_unique hnn hc hready (by omega))
  · rcases List.mem_append.mp hc with hc | hc
    · have hne : c ≠ ch := fun heq => hnot (heq ▸ hc)
      rw [s.report_of_ne hne]
      exact h.own c hc
    · obtain rfl := List.mem_singleton.mp hc
      rw [s.report_self, hown]
  · rw [List.mem_append, List.mem_singleton, not_or] at hc
    rw [s.report_of_ne hc.2]
    exact h.other c hc.1

/-- When nothing is ready in the rest of the table, these are all ready channels. -/
theorem Filled.all (hs : Slotted fd p) (h : Filled p revents before i ready s)
    (hrest : ∀ k, i ≤ k → ∀ r, revents[k]? = some r → r = 0) (ch : ChannelPtr) :
    ch ∈ ready ↔ p.Ready revents ch := by
  refine (h.mem ch).trans (and_iff_left_of_imp fun hready => ?_)
  have hnonneg := hs.index_nonneg hready
  by_contra hge
  refine hready.2 ?_
  unfold PollPoller.reventsOf
  cases hslot : revents[(p.objects ch).index.toNat]? with
  | none => rfl
  | some r => exact hrest _ (by omega) r hslot

theorem new_filled (hs : Slotted fd p) : Filled p revents before 0 [] before := by
  refine ⟨by simp, by simp, fun ch => iff_of_false (by simp) ?_,
    fun ch hch => absurd hch (by simp), fun _ _ => rfl⟩
  rintro ⟨hready, hlt⟩
  have := hs.index_nonneg hready
  omega

/-- The loop, from slot `i` on: the number that is left counts the slots that are still to
come and are ready. -/
theorem fillLoop_filled (hnn : ∀ ch, 0 ≤ fd ch) (hs : Slotted fd p) {total : Int}
    (hp : PollResult p revents total) (slots : List (PollFd × Int)) :
    ∀ (i : Nat) (numEvents : Int) (ready : List ChannelPtr) (s : Active),
      (p.pollfds.zip revents).drop i = slots →
      numEvents = (slots.countP (fun x => x.2 ≠ 0) : Nat) →
      Filled p revents before i ready s →
      Lands (p.fillLoop slots numEvents s) fun s' => ∃ j ready', Filled p revents before j ready' s' ∧
        ∀ ch, ch ∈ ready' ↔ p.Ready revents ch := by
  have hslots : ∀ {k : Nat} {r : Int}, revents[k]? = some r →
      ∃ pfd, (p.pollfds.zip revents)[k]? = some (pfd, r) := by
    intro k r hr
    have hlt := (List.getElem?_eq_some_iff.mp hr).1
    rw [hp.length] at hlt
    exact ⟨p.pollfds[k], List.getElem?_zip_eq_some.mpr ⟨List.getElem?_eq_getElem hlt, hr⟩⟩
  -- no slot from `i` on is ready
  have hdone : ∀ {i : Nat} {ready : List ChannelPtr} {s : Active},
      Filled p revents before i ready s → (∀ x ∈ (p.pollfds.zip revents).drop i, x.2 = 0) →
      ∃ j ready', Filled p revents before j ready' s ∧ ∀ ch, ch ∈ ready' ↔ p.Ready revents ch := by
    intro i ready s h hzero
    refine ⟨i, ready, h, h.all hs fun k hk r hr => ?_⟩
    obtain ⟨pfd, hslot⟩ := hslots hr
    refine hzero (pfd, r) (List.mem_of_getElem? (i := k - i) ?_)
    rw [List.getElem?_drop, Nat.add_sub_cancel' hk, hslot]
  induction slots with
  | nil =>
      intro i numEvents ready s hdrop _ h
      exact .ok (hdone h fun x hx => absurd (hdrop ▸ hx) (by simp))
  | cons x rest ih =>
      intro i numEvents ready s hdrop hcount h
      obtain ⟨pfd, r⟩ := x
      have hzip : (p.pollfds.zip revents)[i]? = some (pfd, r) := by
        have := congrArg (fun l => l[0]?) hdrop
        simpa using this
      have hrest : (p.pollfds.zip revents).drop (i + 1) = rest := by
        rw [← List.tail_drop, hdrop, List.tail_cons]
      obtain ⟨hpfd, hr⟩ := List.getElem?_zip_eq_some.mp hzip
      have hr₀ : 0 ≤ r := hp.nonneg r (List.mem_of_getElem? hr)
      rw [List.countP_cons] at hcount
      unfold PollPoller.fillLoop
      by_cases hnum : numEvents > 0
      · rw [if_pos hnum]
        by_cases hpos : r > 0
        · have hfd : 0 ≤ pfd.fd := by
            by_contra hneg
            have hzero : r = 0 :=
              hp.negated (pfd, r) (List.mem_of_getElem? hzip) (not_le.mp hneg)
            omega
          obtain ⟨ch, hch, hsame, hidx⟩ := hs.owner_of_nonneg hnn hpfd hfd
          have hready : p.Ready revents ch := by
            refine ⟨by rw [hsame]; exact hch, ?_⟩
            rw [PollPoller.reventsOf, hidx, Int.toNat_natCast, hr]
            exact hpos.ne'
          have hfind : p.findChannel pfd = .ok ch := by
            rw [PollPoller.findChannel, hch]
            exact (congrArg (· >>= _) (check_of _ hsame)).trans rfl
          rw [if_pos hpos, hfind, ok_bind]
          refine ih (i + 1) _ _ _ hrest ?_ (h.report hnn hs hready hidx hr)
          rw [if_pos (by simpa using hpos.ne')] at hcount
          omega
        · obtain rfl : r = 0 := by omega
          rw [if_neg hpos]
          refine ih (i + 1) _ _ _ hrest ?_ (h.skip hr)
          simpa using hcount
      · rw [if_neg hnum]
        refine .ok (hdone h fun y hy => ?_)
        rw [hdrop] at hy
        have hnone : ((pfd, r) :: rest).countP (fun x => decide (x.2 ≠ 0)) = 0 := by
          rw [List.countP_cons]
          omega
        simpa using List.countP_eq_zero.mp hnone y hy

/-- **Every ready channel is reported once.** Where the index table is a bijection and
`::poll` has reported as it should, the assertions hold; the channels of the slots that are
ready are appended, each once and in the order of the slots, each with the `revents` of its
own slot; and no other channel is written to. -/
theorem fillActiveChannels_reports (fd : ChannelPtr → Int) (hnn : ∀ ch, 0 ≤ fd ch)
    (p : PollPoller) (hs : Slotted fd p) (revents : List Int) (numEvents : Int)
    (hp : PollResult p revents numEvents) (before : Active) :
    Lands (p.fillActiveChannels revents numEvents before) fun s => ∃ ready : List ChannelPtr,
      s.activeChannels = before.activeChannels ++ ready ∧ ready.Nodup ∧
        (ready.map fun ch => (p.objects ch).index).Pairwise (· < ·) ∧
        (∀ ch, ch ∈ ready ↔ p.channels (p.objects ch).fd = some ch ∧ p.reventsOf revents ch ≠ 0) ∧
        (∀ ch ∈ ready, s.revents ch = p.reventsOf revents ch) ∧
        ∀ ch, ch ∉ ready → s.revents ch = before.revents ch := by
  have hcount : numEvents =
      ((p.pollfds.zip revents).countP (fun x => x.2 ≠ 0) : Nat) := by
    rw [hp.count]
    have hzip : (p.pollfds.zip revents).map Prod.snd = revents := List.map_snd_zip hp.length.le
    conv_lhs => rw [← hzip, List.countP_map]
    rfl
  refine (fillLoop_filled hnn hs hp _ 0 numEvents [] before (List.drop_zero ..) hcount
    (new_filled hs)).mono ?_
  rintro s ⟨n, ready, h, hall⟩
  refine ⟨ready, h.channels, ?_, h.ordered, hall, h.own, h.other⟩
  exact List.Nodup.of_map _ (h.ordered.imp fun hlt => hlt.ne)

end Fill

/-- Two channels, the first disabled; the second can be written to. -/
theorem fillActiveChannels_reports_two :
    Lands (slotSys.runFrom (PollPoller.new fun ch => ch)
      [.setEvents 4 Events.kReadEvent, .updateChannel 4, .setEvents 5 Events.kWriteEvent,
        .updateChannel 5, .setEvents 4 Events.kNoneEvent, .updateChannel 4]) fun p =>
      Lands (p.fillActiveChannels [0, 4] 1 ⟨fun _ => 0, []⟩) fun s => ∃ ready : List ChannelPtr,
        s.activeChannels = [] ++ ready ∧ ready.Nodup ∧
          ∀ ch ∈ ready, s.revents ch = p.reventsOf [0, 4] ch := by
  have hany : slotSys.Meets (fun _ _ => True) (PollPoller.new fun ch => ch)
      [.setEvents 4 Events.kReadEvent, .updateChannel 4, .setEvents 5 Events.kWriteEvent,
        .updateChannel 5, .setEvents 4 Events.kNoneEvent, .updateChannel 4] :=
    Sys.meets_of_forall (fun _ _ => trivial) _
  have hslotted : Ends (slotSys.runFrom (PollPoller.new fun ch => ch)
      [.setEvents 4 Events.kReadEvent, .updateChannel 4, .setEvents 5 Events.kWriteEvent,
        .updateChannel 5, .setEvents 4 Events.kNoneEvent, .updateChannel 4])
      (Slotted fun ch => ch) AtEntry :=
    Sys.invariant_ends (S := slotSys)
      (fun p a h _ => call_slotted (fun ch => Int.natCast_nonneg ch) h a) (new_slotted _) hany
  have hrun : Lands (slotSys.runFrom (PollPoller.new fun ch => ch)
      [.setEvents 4 Events.kReadEvent, .updateChannel 4, .setEvents 5 Events.kWriteEvent,
        .updateChannel 5, .setEvents 4 Events.kNoneEvent, .updateChannel 4]) fun p =>
      p.pollfds = [⟨-5, Events.kNoneEvent, Events.kNoneEvent⟩,
        ⟨5, Events.kWriteEvent, Events.kNoneEvent⟩] := by
    decide
  obtain ⟨p, hp, hslots⟩ := hrun
  have hresult : PollResult p [0, 4] 1 :=
    ⟨by rw [hslots]; rfl, by rw [hslots]; decide, by decide, by decide⟩
  refine ⟨p, hp, (fillActiveChannels_reports (fun ch => ch) (fun ch => Int.natCast_nonneg ch) p
    (hslotted.1 p hp) [0, 4] 1 hresult ⟨fun _ => 0, []⟩).mono ?_⟩
  rintro s ⟨ready, hchannels, hnodup, -, -, hown, -⟩
  exact ⟨ready, hchannels, hnodup, hown⟩

end Muduo.Poller
