import Muduo.Lib.Vec
import Muduo.Poller.Model

/-!
# The slots of `PollPoller`

`M_pollfds` has one slot for each registered channel, and the index of the channel is
the number of its slot (`Slotted`). Which events the slots hold is no matter here: the
calls are `updateChannel` and `removeChannel`, and the masks of the channels may be
anything in between. Three things happen to the table: a slot is appended, a slot is
overwritten, and a slot is given up for the last one. For each, the table is a table
again, and the other channels keep what is in their slots (`KeepsSlots`).
-/

namespace Muduo.Poller

open Lib PollPoller

/-- The slot is that of descriptor `f`, negated or not. -/
def SlotFor (f : Int) (pfd : PollFd) : Prop := pfd.fd = f ∨ pfd.fd = -f - 1

/-- The slot that the index of the channel names. -/
def PollPoller.slotAt (p : PollPoller) (ch : ChannelPtr) : Option PollFd :=
  p.pollfds[(p.objects ch).index.toNat]?

structure Slotted (fd : ChannelPtr → Int) (p : PollPoller) : Prop where
  fds : ∀ ch, (p.objects ch).fd = fd ch
  registered : ∀ f ch, p.channels f = some ch → fd ch = f ∧
    ∃ (i : Nat) (pfd : PollFd), (p.objects ch).index = i ∧ p.pollfds[i]? = some pfd ∧ SlotFor f pfd
  owned : ∀ i pfd, p.pollfds[i]? = some pfd →
    ∃ ch, p.channels (fd ch) = some ch ∧ (p.objects ch).index = (i : Nat)

/-- The registered channels other than `ch` stay registered, and keep what is in their
slots, wherever these are now. -/
def KeepsSlots (ch : ChannelPtr) (p p' : PollPoller) : Prop :=
  ∀ f c, p.channels f = some c → c ≠ ch → p'.channels f = some c ∧ p'.slotAt c = p.slotAt c

section Table

variable {fd : ChannelPtr → Int} {p p' : PollPoller} {ch : ChannelPtr}

theorem Slotted.slot_of (h : Slotted fd p) (hch : p.channels (fd ch) = some ch) :
    ∃ (i : Nat) (pfd : PollFd), (p.objects ch).index = i ∧ p.pollfds[i]? = some pfd ∧
      SlotFor (fd ch) pfd :=
  (h.registered _ _ hch).2

theorem Slotted.index_lt (h : Slotted fd p) (hch : p.channels (fd ch) = some ch) {k : Nat}
    (hidx : (p.objects ch).index = k) : k < p.pollfds.length := by
  obtain ⟨i, pfd, hi, hslot, -⟩ := h.slot_of hch
  have hlt := (List.getElem?_eq_some_iff.mp hslot).1
  omega

/-- An object that keeps its descriptor may be written back. -/
theorem Slotted.fd_update (h : Slotted fd p) {o : Channel} (ho : o.fd = fd ch) (c : ChannelPtr) :
    (Function.update p.objects ch o c).fd = fd c := by
  by_cases hne : c = ch
  · subst hne
    simpa using ho
  · simpa [hne] using h.fds c

/-- No two registered channels share a slot. -/
theorem Slotted.index_inj (hnn : ∀ ch, 0 ≤ fd ch) (h : Slotted fd p) {a b : ChannelPtr} {f g : Int}
    (ha : p.channels f = some a) (hb : p.channels g = some b)
    (heq : (p.objects a).index = (p.objects b).index) : a = b := by
  obtain ⟨rfl, i, pfd, hi, hslot, hpfd⟩ := h.registered _ _ ha
  obtain ⟨rfl, j, pfd', hj, hslot', hpfd'⟩ := h.registered _ _ hb
  have hij : i = j := by omega
  subst hij
  obtain rfl : pfd = pfd' := Option.some.inj (hslot.symm.trans hslot')
  -- a negated slot and a plain one differ in sign
  have hsame : fd a = fd b := by
    unfold SlotFor at hpfd hpfd'
    have := hnn a
    have := hnn b
    omega
  rw [hsame] at ha
  exact Option.some.inj (ha.symm.trans hb)

theorem Slotted.slotAt_eq (h : Slotted fd p) (hch : p.channels (fd ch) = some ch) :
    ∃ pfd, p.slotAt ch = some pfd ∧ SlotFor (fd ch) pfd := by
  obtain ⟨i, pfd, hi, hslot, hpfd⟩ := h.slot_of hch
  refine ⟨pfd, ?_, hpfd⟩
  rw [PollPoller.slotAt, hi, Int.toNat_natCast]
  exact hslot

/-- The objects change in what the table does not read. -/
theorem Slotted.objects (h : Slotted fd p) {objects : ChannelPtr → Channel}
    (hfd : ∀ c, (objects c).fd = (p.objects c).fd)
    (hindex : ∀ c, (objects c).index = (p.objects c).index) :
    Slotted fd { p with objects := objects } := by
  refine ⟨fun c => (hfd c).trans (h.fds c), fun f c hc => ?_, fun i pfd hslot => ?_⟩
  · obtain ⟨hf, i, pfd, hi, hslot⟩ := h.registered f c hc
    exact ⟨hf, i, pfd, (hindex c).trans hi, hslot⟩
  · obtain ⟨c, hc, hi⟩ := h.owned i pfd hslot
    exact ⟨c, hc, (hindex c).trans hi⟩

/-! ## A slot is appended -/

theorem Slotted.push (h : Slotted fd p) {o : Channel} {pfd : PollFd} (ho : o.fd = fd ch)
    (hpfd : pfd.fd = fd ch) (hch : p.channels (fd ch) = none) :
    Slotted fd
      { objects := Function.update p.objects ch { o with index := (p.pollfds.length : Nat) }
        channels := Function.update p.channels (fd ch) (some ch)
        pollfds := p.pollfds ++ [pfd] } := by
  refine ⟨fun c => ?_, fun f c hc => ?_, fun i q hslot => ?_⟩
  · refine h.fd_update ?_ c
    exact ho
  · by_cases hf : f = fd ch
    · -- the new channel, in the last slot
      subst hf
      obtain rfl : ch = c := by simpa using hc
      exact ⟨rfl, p.pollfds.length, pfd, by simp, by simp, .inl hpfd⟩
    · have hc' : p.channels f = some c := by simpa [hf] using hc
      obtain ⟨rfl, i, q, hidx, hslot, hq⟩ := h.registered _ _ hc'
      have hne : c ≠ ch := fun heq => hf (by rw [heq])
      have hlt : i < p.pollfds.length := (List.getElem?_eq_some_iff.mp hslot).1
      refine ⟨rfl, i, q, by simpa [hne] using hidx, ?_, hq⟩
      rw [List.getElem?_append_left hlt]
      exact hslot
  · rcases lt_or_ge i p.pollfds.length with hlt | hge
    · rw [List.getElem?_append_left hlt] at hslot
      obtain ⟨c, hc, hidx⟩ := h.owned i q hslot
      have hne' : fd c ≠ fd ch := by
        intro heq
        rw [heq, hch] at hc
        exact absurd hc (by simp)
      have hne : c ≠ ch := fun heq => hne' (by rw [heq])
      exact ⟨c, by simpa [hne'] using hc, by simpa [hne] using hidx⟩
    · have hlt := (List.getElem?_eq_some_iff.mp hslot).1
      have hi : i = p.pollfds.length := by
        rw [List.length_append, List.length_singleton] at hlt
        omega
      exact ⟨ch, by simp, by simp [hi]⟩

theorem KeepsSlots.push (h : Slotted fd p) (hch : p.channels (fd ch) = none) (o : Channel)
    (pfd : PollFd) :
    KeepsSlots ch p
      { objects := Function.update p.objects ch o
        channels := Function.update p.channels (fd ch) (some ch)
        pollfds := p.pollfds ++ [pfd] } := by
  intro f c hc hne
  have hf : f ≠ fd ch := by
    rintro rfl
    rw [hch] at hc
    exact absurd hc (by simp)
  obtain ⟨-, i, q, hi, hslot, -⟩ := h.registered _ _ hc
  have hlt := (List.getElem?_eq_some_iff.mp hslot).1
  refine ⟨by simpa [hf] using hc, ?_⟩
  simp only [PollPoller.slotAt, Function.update_of_ne hne, hi, Int.toNat_natCast]
  exact List.getElem?_append_left hlt

/-! ## A slot is overwritten -/

theorem Slotted.rewrite (hnn : ∀ ch, 0 ≤ fd ch) (h : Slotted fd p) {o : Channel} {k : Nat}
    {pfd : PollFd} (ho : o.fd = fd ch) (hindex : o.index = k)
    (hch : p.channels (fd ch) = some ch) (hidx : (p.objects ch).index = k)
    (hlt : k < p.pollfds.length) (hpfd : SlotFor (fd ch) pfd) :
    Slotted fd
      { objects := Function.update p.objects ch o
        channels := p.channels
        pollfds := p.pollfds.set k pfd } := by
  refine ⟨fun c => ?_, fun f c hc => ?_, fun i q hslot => ?_⟩
  · refine h.fd_update ?_ c
    exact ho
  · obtain ⟨rfl, i, q, hi, hslot, hq⟩ := h.registered _ _ hc
    refine ⟨rfl, ?_⟩
    by_cases hne : c = ch
    · subst hne
      exact ⟨k, pfd, by simpa using hindex, List.getElem?_set_self hlt, hpfd⟩
    · -- the slots of other channels are elsewhere
      have hik : k ≠ i := by
        rintro rfl
        exact hne (h.index_inj hnn hc hch (hi.trans hidx.symm))
      refine ⟨i, q, by simpa [hne] using hi, ?_, hq⟩
      rw [List.getElem?_set_ne hik]
      exact hslot
  · have hlt' : i < p.pollfds.length := by
      simpa using (List.getElem?_eq_some_iff.mp hslot).1
    obtain ⟨c, hc, hi⟩ := h.owned i _ (List.getElem?_eq_getElem hlt')
    refine ⟨c, hc, ?_⟩
    by_cases hne : c = ch
    · subst hne
      simpa [hindex] using hidx.symm.trans hi
    · simpa [hne] using hi

theorem KeepsSlots.rewrite (hnn : ∀ ch, 0 ≤ fd ch) (h : Slotted fd p) {k : Nat}
    (hch : p.channels (fd ch) = some ch) (hidx : (p.objects ch).index = k) (o : Channel)
    (pfd : PollFd) :
    KeepsSlots ch p
      { objects := Function.update p.objects ch o
        channels := p.channels
        pollfds := p.pollfds.set k pfd } := by
  intro f c hc hne
  obtain ⟨-, i, q, hi, hslot, -⟩ := h.registered _ _ hc
  have hki : k ≠ i := by
    rintro rfl
    exact hne (h.index_inj hnn hc hch (hi.trans hidx.symm))
  refine ⟨hc, ?_⟩
  simp only [PollPoller.slotAt, Function.update_of_ne hne, hi, Int.toNat_natCast]
  exact List.getElem?_set_ne hki

/-! ## A slot is given up for the last one -/

/-- Giving up slot `k` of channel `ch`: channel `c` in the last slot moves there.
When `ch` is in the last slot itself, nothing moves. -/
theorem swapRemove_spec (hnn : ∀ ch, 0 ≤ fd ch) (h : Slotted fd p)
    (hch : p.channels (fd ch) = some ch) {k : Nat} (hidx : (p.objects ch).index = k) :
    ∃ (c : ChannelPtr) (last : PollFd),
      p.channels (fd c) = some c ∧ (p.objects c).index = (p.pollfds.length - 1 : Nat) ∧
      p.pollfds[p.pollfds.length - 1]? = some last ∧
      (p.setChannel (fd ch) none).swapRemove k = .ok
        { objects := Function.update p.objects c { p.objects c with index := k }
          channels := Function.update p.channels (fd ch) none
          pollfds := (p.pollfds.set k last).dropLast } := by
  have hk : k < p.pollfds.length := h.index_lt hch hidx
  have hlt : p.pollfds.length - 1 < p.pollfds.length := by omega
  obtain ⟨last, hlast⟩ : ∃ last, p.pollfds[p.pollfds.length - 1]? = some last :=
    ⟨_, List.getElem?_eq_getElem hlt⟩
  obtain ⟨c, hc, hcidx⟩ := h.owned _ _ hlast
  refine ⟨c, last, hc, hcidx, hlast, ?_⟩
  by_cases hend : k = p.pollfds.length - 1
  · have hcch : c = ch := h.index_inj hnn hc hch (by rw [hcidx, hidx, hend])
    have hset : p.pollfds.set k last = p.pollfds := by
      rw [← hend] at hlast
      obtain ⟨hk', rfl⟩ := List.getElem?_eq_some_iff.mp hlast
      exact List.set_getElem_self hk'
    have hobj : Function.update p.objects c { p.objects c with index := (k : Int) } = p.objects := by
      rw [← hidx, ← hcch]
      exact Function.update_eq_self c p.objects
    rw [hset, hobj]
    exact if_pos hend
  · have hne : fd c ≠ fd ch := by
      intro heq
      rw [heq] at hc
      obtain rfl : ch = c := Option.some.inj (hch.symm.trans hc)
      rw [hidx] at hcidx
      omega
    -- the descriptor in the last slot, negated or not, is that of channel `c`
    have hatEnd : (if last.fd < 0 then -last.fd - 1 else last.fd) = fd c := by
      obtain ⟨j, pfd', hj, hslot', hpfd'⟩ := h.slot_of hc
      obtain rfl : p.pollfds.length - 1 = j := by omega
      obtain rfl : last = pfd' := Option.some.inj (hlast.symm.trans hslot')
      unfold SlotFor at hpfd'
      have := hnn c
      split <;> omega
    have hget : p.pollfds.getLast? = some last := by
      rw [List.getLast?_eq_getElem?]
      exact hlast
    simp [PollPoller.swapRemove, PollPoller.setChannel, PollPoller.setIndex, PollPoller.setObject,
      hend, hget, hatEnd, hne, hc]

section SwapRemove

variable (hnn : ∀ ch, 0 ≤ fd ch) (h : Slotted fd p) (hch : p.channels (fd ch) = some ch) {k : Nat}
  (hidx : (p.objects ch).index = k) {c : ChannelPtr} {last : PollFd}
  (hc : p.channels (fd c) = some c) (hcidx : (p.objects c).index = (p.pollfds.length - 1 : Nat))
  (hlast : p.pollfds[p.pollfds.length - 1]? = some last)

include hnn h hch hidx hc hcidx hlast

theorem KeepsSlots.swapRemove :
    KeepsSlots ch p
      { objects := Function.update p.objects c { p.objects c with index := (k : Int) }
        channels := Function.update p.channels (fd ch) none
        pollfds := (p.pollfds.set k last).dropLast } := by
  have hk : k < p.pollfds.length := h.index_lt hch hidx
  intro f a ha hne
  have hf : f ≠ fd ch := by
    rintro rfl
    exact hne (Option.some.inj (ha.symm.trans hch))
  refine ⟨by simpa [hf] using ha, ?_⟩
  obtain ⟨-, i, q, hi, hslot, -⟩ := h.registered _ _ ha
  have hlt := (List.getElem?_eq_some_iff.mp hslot).1
  have hik : i ≠ k := by
    rintro rfl
    exact hne (h.index_inj hnn ha hch (hi.trans hidx.symm))
  by_cases hac : a = c
  · -- the channel that moved
    subst hac
    simp only [PollPoller.slotAt, Function.update_self, Int.toNat_natCast, hi]
    rw [Vec.getElem?_set_dropLast k hk, if_pos (by omega), if_pos rfl,
      show i = p.pollfds.length - 1 by omega, hlast]
  · have hlen : i ≠ p.pollfds.length - 1 := by
      rintro rfl
      exact hac (h.index_inj hnn ha hc (hi.trans hcidx.symm))
    simp only [PollPoller.slotAt, Function.update_of_ne hac, hi, Int.toNat_natCast]
    rw [Vec.getElem?_set_dropLast i hk, if_pos (by omega), if_neg hik]

theorem Slotted.swapRemove :
    Slotted fd
      { objects := Function.update p.objects c { p.objects c with index := (k : Int) }
        channels := Function.update p.channels (fd ch) none
        pollfds := (p.pollfds.set k last).dropLast } := by
  have hk : k < p.pollfds.length := h.index_lt hch hidx
  refine ⟨fun a => ?_, fun f a ha => ?_, fun i pfd hslot => ?_⟩
  · refine h.fd_update ?_ a
    exact h.fds c
  · have hf : f ≠ fd ch := by
      rintro rfl
      exact absurd ha (by simp)
    have ha' : p.channels f = some a := by simpa [hf] using ha
    obtain ⟨rfl, i, pfd, hi, hslot, hpfd⟩ := h.registered _ _ ha'
    have hik : i ≠ k := by
      rintro rfl
      exact hf (by rw [h.index_inj hnn ha' hch (hi.trans hidx.symm)])
    refine ⟨rfl, ?_⟩
    by_cases hac : a = c
    · subst hac
      have hlen : i = p.pollfds.length - 1 := by omega
      have hlt : k < p.pollfds.length - 1 := by omega
      subst hlen
      obtain rfl : pfd = last := Option.some.inj (hslot.symm.trans hlast)
      refine ⟨k, pfd, by simp, ?_, hpfd⟩
      rw [Vec.getElem?_set_dropLast k hk, if_pos hlt, if_pos rfl]
    · have hlt : i < p.pollfds.length := (List.getElem?_eq_some_iff.mp hslot).1
      have hlen : i ≠ p.pollfds.length - 1 := by
        rintro rfl
        exact hac (h.index_inj hnn ha' hc (hi.trans hcidx.symm))
      refine ⟨i, pfd, by simpa [hac] using hi, ?_, hpfd⟩
      rw [Vec.getElem?_set_dropLast i hk, if_pos (by omega), if_neg hik]
      exact hslot
  · rw [Vec.getElem?_set_dropLast i hk] at hslot
    by_cases hi : i < p.pollfds.length - 1
    · rw [if_pos hi] at hslot
      have hstays : ∀ a, p.channels (fd a) = some a → (p.objects a).index ≠ (p.objects ch).index →
          Function.update p.channels (fd ch) none (fd a) = some a := by
        intro a ha hne
        have hne' : fd a ≠ fd ch := by
          intro heq
          rw [heq] at ha
          obtain rfl : ch = a := Option.some.inj (hch.symm.trans ha)
          exact hne rfl
        simpa [hne'] using ha
      by_cases hik : i = k
      · exact ⟨c, hstays c hc (by omega), by simp [hik]⟩
      · rw [if_neg hik] at hslot
        obtain ⟨a, ha, hai⟩ := h.owned i pfd hslot
        have hac : a ≠ c := by
          rintro rfl
          omega
        exact ⟨a, hstays a ha (by omega), by simpa [hac] using hai⟩
    · rw [if_neg hi] at hslot
      exact absurd hslot (by simp)

end SwapRemove

end Table

/-! ## The two calls -/

/-- The calls on the poller, and what may happen to the mask of a channel in between. -/
inductive SlotCall
  | setEvents (ch : ChannelPtr) (events : Events)
  | updateChannel (ch : ChannelPtr)
  | removeChannel (ch : ChannelPtr)
  deriving DecidableEq, Repr

namespace PollPoller

def call (p : PollPoller) : SlotCall → Except Fault PollPoller
  | .setEvents ch events => .ok (p.setObject ch { p.objects ch with events := events })
  | .updateChannel ch => p.updateChannel ch
  | .removeChannel ch => p.removeChannel ch

end PollPoller

def slotSys : Sys PollPoller SlotCall Fault := ⟨fun _ _ => True, PollPoller.call⟩

/-- The assertions at the entry of the two calls that depend on the caller. -/
def AtEntry : Fault → Prop
  | .updateAbsent | .updatePresent | .updateSame
  | .removePresent | .removeSame | .removeNone | .removeSlot => True
  | _ => False

/-- `removeChannel(ch)` takes the channel out of `M_channels` and its slot out of
`M_pollfds`, and leaves the other channels their slots. -/
structure Removes (ch : ChannelPtr) (p p' : PollPoller) : Prop where
  channels : p'.channels = Function.update p.channels (p.objects ch).fd none
  slot : ∃ pfd, p.slotAt ch = some pfd ∧ p.pollfds.Perm (pfd :: p'.pollfds)
  others : KeepsSlots ch p p'

section Calls

variable {fd : ChannelPtr → Int} {p : PollPoller} {ch : ChannelPtr}

/-- The index of a registered channel is in range. -/
theorem Slotted.slot_ok (h : Slotted fd p) (hch : p.channels (fd ch) = some ch) (e : Fault) :
    ∃ (k : Nat) (pfd : PollFd), (p.objects ch).index = k ∧ p.pollfds[k]? = some pfd ∧
      SlotFor (fd ch) pfd ∧ p.slot e (p.objects ch).index = .ok pfd := by
  obtain ⟨k, pfd, hidx, hslot, hpfd⟩ := h.slot_of hch
  refine ⟨k, pfd, hidx, hslot, hpfd, ?_⟩
  rw [PollPoller.slot, hidx, if_pos (Int.natCast_nonneg k), Int.toNat_natCast, hslot]

theorem updateChannel_slotted (hnn : ∀ ch, 0 ≤ fd ch) (h : Slotted fd p) (ch : ChannelPtr) :
    Ends (p.updateChannel ch) (Slotted fd) AtEntry := by
  unfold PollPoller.updateChannel
  dsimp only
  rw [h.fds ch]
  split
  · refine .check_bind (fun _ => trivial) fun habsent => ?_
    have hlen : (p.pollfds ++ [PollFd.mk (fd ch) (p.objects ch).events Events.kNoneEvent]).length - 1
        = p.pollfds.length := by simp
    rw [hlen]
    exact .ok (h.push (h.fds ch) rfl habsent)
  · refine .check_bind (fun _ => trivial) fun _ => .check_bind (fun _ => trivial) fun hsame => ?_
    obtain ⟨k, pfd, hidx, hslot, hpfd, hok⟩ := h.slot_ok hsame .updateIndex
    rw [hok, ok_bind]
    refine .check_bind (fun hbad => absurd hpfd hbad) fun _ => .ok ?_
    have hlt := (List.getElem?_eq_some_iff.mp hslot).1
    have hself : Function.update p.objects ch (p.objects ch) = p.objects :=
      Function.update_eq_self ch p.objects
    have hset : ∀ q, SlotFor (fd ch) q →
        Slotted fd { p with pollfds := p.pollfds.set (p.objects ch).index.toNat q } := by
      intro q hq
      have := h.rewrite hnn (h.fds ch) hidx hsame hidx hlt hq
      rw [hself] at this
      rw [hidx, Int.toNat_natCast]
      exact this
    split
    · exact hset _ (.inr rfl)
    · exact hset _ hpfd

theorem removeChannel_slotted (hnn : ∀ ch, 0 ≤ fd ch) (h : Slotted fd p) (ch : ChannelPtr) :
    Ends (p.removeChannel ch) (fun p' => Slotted fd p' ∧ Removes ch p p') AtEntry := by
  unfold PollPoller.removeChannel
  dsimp only
  rw [h.fds ch]
  refine .check_bind (fun _ => trivial) fun hpresent => .check_bind (fun _ => trivial) fun hsame => ?_
  refine .check_bind (fun _ => trivial) fun _ => ?_
  obtain ⟨k, pfd, hidx, hslot, -, hok⟩ := h.slot_ok hsame .removeIndex
  rw [hok, ok_bind]
  refine .check_bind (fun _ => trivial) fun _ => .check_bind (fun hbad => absurd hpresent hbad) fun _ => ?_
  obtain ⟨c, last, hc, hcidx, hlast, hswap⟩ := swapRemove_spec hnn h hsame hidx
  rw [hidx, Int.toNat_natCast, hswap]
  refine .ok ⟨h.swapRemove hnn hsame hidx hc hcidx hlast, ?_⟩
  refine ⟨by rw [h.fds ch], ⟨pfd, ?_, Vec.perm_set_dropLast hslot hlast⟩,
    .swapRemove hnn h hsame hidx hc hcidx hlast⟩
  rw [PollPoller.slotAt, hidx, Int.toNat_natCast, hslot]

/-- A mask can be set without the table noticing. -/
theorem objects_setEvents (p : PollPoller) (ch : ChannelPtr) (events : Events) (c : ChannelPtr) :
    ((p.setObject ch { p.objects ch with events := events }).objects c).fd = (p.objects c).fd ∧
      ((p.setObject ch { p.objects ch with events := events }).objects c).index =
        (p.objects c).index := by
  unfold PollPoller.setObject
  dsimp only
  by_cases hc : c = ch
  · subst hc
    rw [Function.update_self]
    exact ⟨rfl, rfl⟩
  · rw [Function.update_of_ne hc]
    exact ⟨rfl, rfl⟩

theorem call_slotted (hnn : ∀ ch, 0 ≤ fd ch) (h : Slotted fd p) (a : SlotCall) :
    Ends (p.call a) (Slotted fd) AtEntry := by
  cases a with
  | setEvents ch events =>
      have hkept := objects_setEvents p ch events
      exact .ok (h.objects (fun c => (hkept c).1) fun c => (hkept c).2)
  | updateChannel ch => exact updateChannel_slotted hnn h ch
  | removeChannel ch => exact (removeChannel_slotted hnn h ch).mono fun _ hp' => hp'.1

theorem new_slotted (fd : ChannelPtr → Int) : Slotted fd (PollPoller.new fd) := by
  refine ⟨fun _ => rfl, fun f c hc => ?_, fun i pfd hslot => ?_⟩
  · exact absurd hc (by simp [PollPoller.new])
  · exact absurd hslot (by simp [PollPoller.new])

/-- The descriptor that a slot is for. -/
def PollFd.owner (pfd : PollFd) : Int := if pfd.fd < 0 then -pfd.fd - 1 else pfd.fd

theorem SlotFor.owner_eq {f : Int} {pfd : PollFd} (hf : 0 ≤ f) (h : SlotFor f pfd) :
    pfd.owner = f := by
  unfold SlotFor at h
  unfold PollFd.owner
  split <;> omega

/-- `M_channels` and `M_pollfds` have the same size: the slots, read as descriptors, list
the keys of the map. -/
theorem Slotted.size_eq (hnn : ∀ ch, 0 ≤ fd ch) (h : Slotted fd p) :
    {f | p.channels f ≠ none}.encard = p.pollfds.length := by
  have howner : ∀ i pfd, p.pollfds[i]? = some pfd → ∃ ch, p.channels (fd ch) = some ch ∧
      (p.objects ch).index = (i : Nat) ∧ pfd.owner = fd ch := by
    intro i pfd hslot
    obtain ⟨ch, hch, hidx⟩ := h.owned i pfd hslot
    obtain ⟨k, q, hk, hq, hfor⟩ := h.slot_of hch
    obtain rfl : i = k := by omega
    obtain rfl : pfd = q := Option.some.inj (hslot.symm.trans hq)
    exact ⟨ch, hch, hidx, hfor.owner_eq (hnn ch)⟩
  have hnodup : (p.pollfds.map PollFd.owner).Nodup := by
    refine List.nodup_iff_getElem?_ne_getElem?.mpr fun i j hij hj heq => ?_
    rw [List.length_map] at hj
    rw [List.getElem?_map, List.getElem?_map, List.getElem?_eq_getElem (hij.trans hj),
      List.getElem?_eq_getElem hj] at heq
    obtain ⟨a, ha, hai, hao⟩ := howner i _ (List.getElem?_eq_getElem (hij.trans hj))
    obtain ⟨b, hb, hbj, hbo⟩ := howner j _ (List.getElem?_eq_getElem hj)
    have hsame : fd a = fd b := by
      rw [← hao, ← hbo]
      exact Option.some.inj heq
    rw [hsame] at ha
    obtain rfl : a = b := Option.some.inj (ha.symm.trans hb)
    omega
  have hkeys : {f | p.channels f ≠ none} = ↑(p.pollfds.map PollFd.owner).toFinset := by
    ext f
    rw [Set.mem_ofPred_eq, Finset.mem_coe, List.mem_toFinset, List.mem_map]
    constructor
    · intro hf
      obtain ⟨ch, hch⟩ := Option.ne_none_iff_exists'.mp hf
      obtain ⟨rfl, i, pfd, -, hslot, hfor⟩ := h.registered _ _ hch
      exact ⟨pfd, List.mem_of_getElem? hslot, hfor.owner_eq (hnn ch)⟩
    · rintro ⟨pfd, hmem, rfl⟩
      obtain ⟨i, hslot⟩ := List.mem_iff_getElem?.mp hmem
      obtain ⟨ch, hch, -, howns⟩ := howner i pfd hslot
      rw [howns, hch]
      simp
  rw [hkeys, Set.encard_coe_eq_coe_finsetCard, List.toFinset_card_of_nodup hnodup, List.length_map]

end Calls

/-- **The index table is a bijection.** For channels with non-negative descriptors, a
sequence of calls stops only at an assertion at the entry of one. Otherwise `M_pollfds`
is as large as `M_channels`; the index of every registered channel names a slot of its
descriptor, and no two name the same; and `removeChannel` takes out the slot of its
channel only. -/
theorem slots_bijective (fd : ChannelPtr → Int) (hnn : ∀ ch, 0 ≤ fd ch) (calls : List SlotCall) :
    Ends (slotSys.runFrom (PollPoller.new fd) calls) (fun p =>
      {f | p.channels f ≠ none}.encard = p.pollfds.length ∧
      (∀ f ch, p.channels f = some ch → (p.objects ch).fd = f ∧ 0 ≤ (p.objects ch).index ∧
        (p.objects ch).index < p.pollfds.length ∧
        ∃ pfd, p.slotAt ch = some pfd ∧ (pfd.fd = f ∨ pfd.fd = -f - 1)) ∧
      (∀ f g a b, p.channels f = some a → p.channels g = some b → a ≠ b →
        (p.objects a).index ≠ (p.objects b).index) ∧
      (∀ ch, Ends (p.removeChannel ch) (Removes ch p) AtEntry)) AtEntry := by
  have hany : slotSys.Meets (fun _ _ => True) (PollPoller.new fd) calls :=
    Sys.meets_of_forall (fun _ _ => trivial) _
  have hrun : Ends (slotSys.runFrom (PollPoller.new fd) calls) (Slotted fd) AtEntry :=
    Sys.invariant_ends (S := slotSys) (fun p a h _ => call_slotted hnn h a) (new_slotted fd) hany
  refine hrun.mono fun p h => ⟨h.size_eq hnn, fun f ch hch => ?_, fun f g a b ha hb hne heq => ?_,
    fun ch => (removeChannel_slotted hnn h ch).mono fun _ hp' => hp'.2⟩
  · obtain ⟨rfl, i, pfd, hidx, hslot, -⟩ := h.registered f ch hch
    have hlt := (List.getElem?_eq_some_iff.mp hslot).1
    exact ⟨h.fds ch, by omega, by omega, h.slotAt_eq hch⟩
  · exact hne (h.index_inj hnn ha hb heq)

/-- Three channels; the third is disabled, and removing the first moves its negated slot
into the hole. -/
theorem slots_bijective_moved :
    Lands (slotSys.runFrom (PollPoller.new fun ch => ch)
      [.setEvents 4 Events.kReadEvent, .updateChannel 4, .setEvents 5 Events.kWriteEvent,
        .updateChannel 5, .setEvents 6 Events.kReadEvent, .updateChannel 6,
        .setEvents 6 Events.kNoneEvent, .updateChannel 6, .setEvents 4 Events.kNoneEvent,
        .updateChannel 4, .removeChannel 4]) fun p =>
      p.pollfds = [⟨-7, Events.kNoneEvent, Events.kNoneEvent⟩,
          ⟨5, Events.kWriteEvent, Events.kNoneEvent⟩] ∧
        (p.objects 6).index = 0 ∧ {f | p.channels f ≠ none}.encard = p.pollfds.length := by
  have hspec := (slots_bijective (fun ch => ch) (fun ch => Int.natCast_nonneg ch)
    [.setEvents 4 Events.kReadEvent, .updateChannel 4, .setEvents 5 Events.kWriteEvent,
      .updateChannel 5, .setEvents 6 Events.kReadEvent, .updateChannel 6,
      .setEvents 6 Events.kNoneEvent, .updateChannel 6, .setEvents 4 Events.kNoneEvent,
      .updateChannel 4, .removeChannel 4]).1
  have hrun : Lands (slotSys.runFrom (PollPoller.new fun ch => ch)
      [.setEvents 4 Events.kReadEvent, .updateChannel 4, .setEvents 5 Events.kWriteEvent,
        .updateChannel 5, .setEvents 6 Events.kReadEvent, .updateChannel 6,
        .setEvents 6 Events.kNoneEvent, .updateChannel 6, .setEvents 4 Events.kNoneEvent,
        .updateChannel 4, .removeChannel 4]) fun p =>
      p.pollfds = [⟨-7, Events.kNoneEvent, Events.kNoneEvent⟩,
          ⟨5, Events.kWriteEvent, Events.kNoneEvent⟩] ∧ (p.objects 6).index = 0 := by
    decide
  obtain ⟨p, hp, hslots, hindex⟩ := hrun
  exact ⟨p, hp, hslots, hindex, (hspec p hp).1⟩

end Muduo.Poller
