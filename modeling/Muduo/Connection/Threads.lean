import Mathlib.Data.List.TakeWhile
import Muduo.Connection.Interest

/-!
# Sending and shutting down from other threads

`send` in another thread checks the state there and then queues the data;
`shutdown` in another thread changes the state there and then queues
`shutdownInLoop`. The queue keeps the two in order: a message whose `send` had
returned when `shutdown` was called is ahead of the `shutdownInLoop`
(`ThreadInv.before`).

`runInLoop` runs its argument inline in the loop thread, and the drain of
`handleWrite` acts on the state as soon as another thread has changed it. Both
ways `shutdownWrite` can come before messages that are still queued, and these
are then written after it. What is true in every case is that nothing else is:
once no checked `send` is waiting, a connection whose write side is shut down
writes no more (`Spent`).
-/

namespace Muduo.Connection

open Lib

/-- What had been observed when `shutdown()` found the connection up. -/
def beforeShutdown : List Obs → List Obs
  | [] => []
  | .shutdownCalled :: t => t
  | _ :: t => beforeShutdown t

/-- The part of the queue that runs before the first `shutdownInLoop`. -/
def ahead (q : List Functor) : List Functor := q.takeWhile (· ≠ .shutdownInLoop)

/-- No shutdown and no close has changed the state yet. -/
def Conn.Up (c : Conn) : Prop := c.state = .kConnecting ∨ c.state = .kConnected

/-- The `sendInLoop` of `send` number `id` has run, or it is in `q`. -/
def Handled (c : Conn) (id : Nat) (q : List Functor) : Prop :=
  .sendExecuted id ∈ c.trace ∨ ∃ m, .sendInLoop id m ∈ q

/-- The newest observation is a `shutdownWrite`. -/
def JustShut (c : Conn) : Prop := ∃ n t, c.trace = .shutdownWrite n :: t

theorem Conn.up_congr {c c' : Conn} (h : c'.state = c.state) : c'.Up ↔ c.Up := by
  unfold Conn.Up
  rw [h]

theorem Conn.not_up {c : Conn} (h : c.state = .kDisconnecting ∨ c.state = .kDisconnected) :
    ¬ c.Up := by
  rcases h with h | h <;> simp [Conn.Up, h]

theorem not_justShut {c : Conn} {o : Obs} {t : List Obs} (htr : c.trace = o :: t)
    (ho : o.isFin = false) : ¬ JustShut c := by
  rintro ⟨n, t', ht'⟩
  rw [htr] at ht'
  rw [(List.cons.inj ht').1] at ho
  exact absurd ho (by simp [Obs.isFin])

structure ThreadInv (c : Conn) : Prop where
  up : c.Up → .shutdownCalled ∉ c.trace ∧ .shutdownInLoop ∉ c.pending ∧ c.stopping = 0 ∧
    ¬ FinSent c
  off : JustShut c → c.channel.isWriting = false
  returned : ∀ id, .sendReturned id ∈ c.trace → Handled c id c.pending
  before : ∀ id, .sendReturned id ∈ beforeShutdown c.trace → Handled c id (ahead c.pending)

theorem ahead_cons (f : Functor) (q : List Functor) :
    ahead (f :: q) = if f = .shutdownInLoop then [] else f :: ahead q := by
  by_cases hf : f = .shutdownInLoop
  · simp [ahead, hf]
  · simp [ahead, hf]

theorem mem_ahead_append {f : Functor} {q : List Functor} (h : f ∈ ahead q)
    (more : List Functor) : f ∈ ahead (q ++ more) := by
  induction q with
  | nil => exact absurd h (by simp [ahead])
  | cons g q ih =>
      rw [List.cons_append, ahead_cons]
      rw [ahead_cons] at h
      split
      · rename_i hg
        rw [if_pos hg] at h
        exact absurd h (by simp)
      · rename_i hg
        rw [if_neg hg] at h
        rcases List.mem_cons.mp h with h | h
        · exact h ▸ List.mem_cons_self
        · exact List.mem_cons_of_mem _ (ih h)

theorem ahead_eq_self {q : List Functor} (h : .shutdownInLoop ∉ q) : ahead q = q := by
  refine List.takeWhile_eq_self_iff.mpr fun f hf => decide_eq_true ?_
  rintro rfl
  exact h hf

theorem Handled.mono {c c' : Conn} {id : Nat} {q q' : List Functor} (h : Handled c id q)
    (htr : ∀ o ∈ c.trace, o ∈ c'.trace) (hq : ∀ f ∈ q, f ∈ q') : Handled c' id q' := by
  rcases h with h | ⟨m, hm⟩
  · exact .inl (htr _ h)
  · exact .inr ⟨m, hq _ hm⟩

/-! ## Steps in the loop thread that call neither `send` nor `shutdown` -/

/-- The observations made when a call of the user returns or begins. -/
def Obs.isCall : Obs → Bool
  | .shutdownCalled | .sendReturned _ => true
  | _ => false

theorem beforeShutdown_append {t : List Obs} (h : ∀ o ∈ t, o.isCall = false) (tr : List Obs) :
    beforeShutdown (t ++ tr) = beforeShutdown tr := by
  induction t with
  | nil => rfl
  | cons o t ih =>
      have ho := h o List.mem_cons_self
      have ih' := ih fun o' ho' => h o' (List.mem_cons_of_mem o ho')
      cases o with
      | shutdownCalled => exact absurd ho (by simp [Obs.isCall])
      | _ => exact ih'

/-- From `c` to `c'` nothing was called: no new call in the trace, and no new
shutdown in the queue. -/
structure Plain (c c' : Conn) : Prop where
  trace : ∃ t, c'.trace = t ++ c.trace ∧ ∀ o ∈ t, o.isCall = false
  pending : ∃ q, c'.pending = c.pending ++ q ∧ .shutdownInLoop ∉ q
  stopping : c'.stopping = c.stopping
  up : c'.Up → c.Up
  fin : c'.Up → FinSent c' → FinSent c
  off : JustShut c' → c'.channel.isWriting = false ∨
    JustShut c ∧ c'.channel.isWriting = c.channel.isWriting

namespace Plain

theorem refl (c : Conn) : Plain c c :=
  ⟨⟨[], by simp⟩, ⟨[], by simp⟩, rfl, id, fun _ h => h, fun h => .inr ⟨h, rfl⟩⟩

/-- A plain step keeps the invariant: what is handled stays handled. -/
theorem inv {c c' : Conn} (hp : Plain c c') (h : ThreadInv c) : ThreadInv c' := by
  obtain ⟨t, ht, hcall⟩ := hp.trace
  obtain ⟨q, hq, hns⟩ := hp.pending
  have hmem : ∀ o, o ∈ c.trace → o ∈ c'.trace := by
    intro o ho
    rw [ht]
    exact List.mem_append_right t ho
  have hold : ∀ o, o.isCall = true → o ∈ c'.trace → o ∈ c.trace := by
    intro o ho hm
    rw [ht] at hm
    rcases List.mem_append.mp hm with hm | hm
    · rw [hcall o hm] at ho
      exact absurd ho (by simp)
    · exact hm
  refine ⟨fun hup => ?_, fun hj => ?_, fun id hid => ?_, fun id hid => ?_⟩
  · obtain ⟨hcalled, hpend, hstop, hfin⟩ := h.up (hp.up hup)
    refine ⟨fun hm => hcalled (hold _ rfl hm), ?_, hp.stopping.trans hstop,
      fun hf => hfin (hp.fin hup hf)⟩
    rw [hq]
    intro hm
    rcases List.mem_append.mp hm with hm | hm
    · exact hpend hm
    · exact hns hm
  · rcases hp.off hj with hoff | ⟨hj', heq⟩
    · exact hoff
    · rw [heq]
      exact h.off hj'
  · refine (h.returned id (hold _ rfl hid)).mono hmem fun f hf => ?_
    rw [hq]
    exact List.mem_append_left q hf
  · rw [ht, beforeShutdown_append hcall] at hid
    refine (h.before id hid).mono hmem fun f hf => ?_
    rw [hq]
    exact mem_ahead_append hf q

/-- A step without an observation. -/
theorem of_frame {c c' : Conn} {q : List Functor} (htr : c'.trace = c.trace)
    (hpe : c'.pending = c.pending ++ q) (hns : .shutdownInLoop ∉ q)
    (hst : c'.stopping = c.stopping) (hup : c'.Up → c.Up)
    (hch : c'.channel.isWriting = c.channel.isWriting) : Plain c c' where
  trace := ⟨[], by simp [htr]⟩
  pending := ⟨q, hpe, hns⟩
  stopping := hst
  up := hup
  fin := fun _ h => h.of_trace (by rw [finTrace, finTrace, htr])
  off := fun ⟨n, t, h⟩ => .inr ⟨⟨n, t, htr ▸ h⟩, hch⟩

/-- A step that ends with an observation of its own. -/
theorem of_observed {c c' : Conn} {o : Obs} (htr : c'.trace = o :: c.trace)
    (ho : o.isCall = false ∧ o.isFin = false) (hpe : c'.pending = c.pending)
    (hst : c'.stopping = c.stopping) (hup : c'.Up → c.Up) : Plain c c' where
  trace := ⟨[o], htr, by simpa using ho.1⟩
  pending := ⟨[], by simp [hpe]⟩
  stopping := hst
  up := hup
  fin := fun _ h => h.of_trace (by simp [finTrace, htr, ho.2])
  off := fun hj => absurd hj (not_justShut htr ho.2)

end Plain

/-- The output path: it queues notices and observes output. -/
theorem Moved.plain {c c' : Conn} (h : Moved c c') (hfin : c'.Up → FinSent c' → FinSent c)
    (hoff : JustShut c' → c'.channel.isWriting = false ∨
      JustShut c ∧ c'.channel.isWriting = c.channel.isWriting) : Plain c c' := by
  obtain ⟨t, ht, hout⟩ := h.trace
  obtain ⟨q, hq, hnotice⟩ := h.pending
  refine ⟨⟨t, ht, fun o ho => ?_⟩, ⟨q, hq, fun hm => ?_⟩, h.stopping, (Conn.up_congr h.state).mp,
    hfin, hoff⟩
  · have := hout o ho
    cases o <;> simp_all [Obs.isOutput, Obs.isCall]
  · exact absurd (hnotice _ hm) (by simp [Functor.isNotice])

namespace Conn

theorem plain_sendInLoop (c : Conn) (data : List Byte) (wr : WriteResult) :
    Post (c.sendInLoop data wr) (Plain c) := by
  by_cases hd : c.state = .kDisconnected
  · rw [sendInLoop_of_disconnected hd]
    exact .ok (.refl c)
  · intro c' hc'
    obtain ⟨hs, ⟨o, t, htop, ho⟩, -⟩ := sendInLoop_frame hd c' hc'
    refine (moved_sendInLoop c' hc').plain (fun _ hf => hf.of_trace hs.trace.symm) ?_
    exact fun hj => absurd hj (not_justShut htop ho)

theorem channel_shutdownInLoop (c : Conn) : c.shutdownInLoop.channel = c.channel := by
  rcases shutdownInLoop_cases c with ⟨-, heq⟩ | ⟨-, heq⟩ <;> rw [heq] <;> rfl

/-- `shutdownInLoop` runs only after the state has changed. -/
theorem plain_shutdownInLoop {c : Conn} (hup : ¬ c.Up) : Plain c c.shutdownInLoop := by
  have hmoved := moved_shutdownInLoop c
  refine hmoved.plain (fun hup' => absurd ((up_congr hmoved.state).mp hup') hup) fun hj => ?_
  -- it leaves the interest alone, and without one it is the one that shuts down
  rw [channel_shutdownInLoop]
  rcases shutdownInLoop_cases c with ⟨hw, heq⟩ | ⟨hw, heq⟩
  · obtain ⟨n, t, ht⟩ := hj
    rw [heq] at ht
    exact absurd (List.cons.inj ht).1 (by simp)
  · exact .inl hw

theorem isWriting_outputDrained (c : Conn) : c.outputDrained.channel.isWriting = false := by
  unfold outputDrained
  dsimp only
  split
  · rw [channel_shutdownInLoop, noticeWriteComplete_channel]
    exact Channel.isWriting_disableWriting _
  · rw [noticeWriteComplete_channel]
    exact Channel.isWriting_disableWriting _

theorem finTrace_outputDrained {c : Conn} (hup : c.Up) : finTrace c.outputDrained = finTrace c := by
  have hs := sameFin_noticeWriteComplete (c.setChannel c.channel.disableWriting)
  have hst := (moved_noticeWriteComplete (c.setChannel c.channel.disableWriting)).state
  unfold outputDrained
  dsimp only
  split
  · rename_i hd
    rw [hst] at hd
    have hd' : c.state = .kDisconnecting := hd
    rcases hup with hup | hup <;> rw [hup] at hd' <;> exact absurd hd' (by simp)
  · exact hs.trace

theorem plain_handleWrite (c : Conn) (wr : WriteResult) : Plain c (c.handleWrite wr) := by
  have hmoved := moved_handleWrite c wr
  refine hmoved.plain (fun hup hf => ?_) fun hj => ?_
  · refine hf.of_trace ?_
    unfold handleWrite
    split
    · dsimp only
      split
      · split
        · rw [finTrace_outputDrained]
          · rfl
          · exact (up_congr hmoved.state).mp hup
        · rfl
      · rfl
    · rfl
  · unfold handleWrite at hj ⊢
    split
    · rename_i hw
      rw [if_pos hw] at hj
      dsimp only at hj ⊢
      split
      · have hempty : c.outputBuffer.retrieveAll.readableBytes = 0 := by simp
        split
        · exact .inl (isWriting_outputDrained _)
        · rename_i hne
          exact absurd hempty hne
      · rename_i hnone
        rw [if_neg hnone] at hj
        exact absurd hj (not_justShut (o := .write _) rfl rfl)
    · rename_i hw
      rw [if_neg hw] at hj
      exact .inr ⟨hj, rfl⟩

theorem plain_handleClose (c : Conn) : Post c.handleClose (Plain c) := by
  unfold handleClose
  refine .check_bind fun _ => .ok (.of_observed (o := .connectionDown) rfl ⟨rfl, rfl⟩ rfl rfl ?_)
  exact fun hup => absurd hup (not_up (.inr rfl))

theorem plain_handleRead (c : Conn) (r : ReadResult) : Post (c.handleRead r) (Plain c) := by
  cases r with
  | bytes => exact .ok (.of_observed (o := .message) rfl ⟨rfl, rfl⟩ rfl rfl id)
  | eof => exact plain_handleClose c
  | fails e => exact .ok (.refl c)

theorem plain_connectEstablished (c : Conn) : Post c.connectEstablished (Plain c) := by
  unfold connectEstablished
  exact .check_bind fun h =>
    .ok (.of_observed (o := .connectionUp) rfl ⟨rfl, rfl⟩ rfl rfl fun _ => .inl h)

theorem plain_forceClose (c : Conn) : Plain c c.forceClose := by
  rw [forceClose_eq]
  refine .of_frame (q := [.forceCloseInLoop]) rfl rfl (by simp) rfl ?_ rfl
  exact fun hup => absurd hup (not_up (.inl rfl))

theorem plain_forceCloseWithDelay (c : Conn) : Plain c c.forceCloseWithDelay := by
  unfold forceCloseWithDelay
  split
  · refine .of_frame (q := []) rfl (by simp [setState]) (by simp) rfl ?_ rfl
    exact fun hup => absurd hup (not_up (.inl rfl))
  · exact .refl c

theorem plain_forceCloseInLoop (c : Conn) : Post c.forceCloseInLoop (Plain c) := by
  unfold forceCloseInLoop
  split
  · exact plain_handleClose c
  · exact .ok (.refl c)

theorem plain_startReadInLoop (c : Conn) : Plain c c.startReadInLoop := by
  unfold startReadInLoop
  split
  · exact .of_frame (q := []) rfl (by simp) (by simp) rfl id (Channel.isWriting_enableReading _)
  · exact .refl c

theorem plain_stopReadInLoop (c : Conn) : Plain c c.stopReadInLoop := by
  unfold stopReadInLoop
  split
  · exact .of_frame (q := []) rfl (by simp) (by simp) rfl id (Channel.isWriting_disableReading _)
  · exact .refl c

end Conn

/-! ## Calls -/

namespace ThreadInv

/-- The state change of `shutdown`: everything that was sent is ahead of the
`shutdownInLoop` that is now on its way. -/
theorem called {c c' : Conn} (h : ThreadInv c) (hup : c.Up) (hdown : ¬ c'.Up)
    (htr : c'.trace = .shutdownCalled :: c.trace) (hpe : c'.pending = c.pending) :
    ThreadInv c' := by
  have hret : ∀ id, .sendReturned id ∈ c.trace → Handled c' id c.pending := by
    intro id hid
    refine (h.returned id hid).mono (fun o ho => ?_) fun f hf => hf
    rw [htr]
    exact List.mem_cons_of_mem _ ho
  refine ⟨fun hup' => absurd hup' hdown, fun hj => absurd hj (not_justShut htr rfl),
    fun id hid => ?_, fun id hid => ?_⟩
  · rw [htr] at hid
    rw [hpe]
    exact hret id ((List.mem_cons.mp hid).resolve_left (by simp))
  · -- no other `shutdownInLoop` is queued, so the whole queue is ahead
    rw [htr] at hid
    rw [hpe, ahead_eq_self (h.up hup).2.1]
    exact hret id hid

/-- Taking a functor other than a `sendInLoop` off the queue. -/
theorem popped {c : Conn} (h : ThreadInv c) {f : Functor} {rest : List Functor}
    (hpend : c.pending = f :: rest) (hf : ∀ id m, f ≠ .sendInLoop id m) :
    ThreadInv { c with pending := rest } := by
  refine ⟨fun hup => ?_, h.off, fun id hid => ?_, fun id hid => ?_⟩
  · obtain ⟨hcalled, hns, hstop, hfin⟩ := h.up hup
    refine ⟨hcalled, fun hm => hns ?_, hstop, hfin⟩
    rw [hpend]
    exact List.mem_cons_of_mem f hm
  · rcases h.returned id hid with hx | ⟨m, hm⟩
    · exact .inl hx
    · rw [hpend] at hm
      exact .inr ⟨m, (List.mem_cons.mp hm).resolve_left (hf id m).symm⟩
  · rcases h.before id hid with hx | ⟨m, hm⟩
    · exact .inl hx
    · rw [hpend, ahead_cons] at hm
      split at hm
      · exact absurd hm (by simp)
      · exact .inr ⟨m, (List.mem_cons.mp hm).resolve_left (hf id m).symm⟩

/-- Taking a `sendInLoop` off the queue to run it. -/
theorem popped_send {c : Conn} (h : ThreadInv c) {id : Nat} {message : List Byte}
    {rest : List Functor} (hpend : c.pending = .sendInLoop id message :: rest) :
    ThreadInv ({ c with pending := rest }.observe (.sendExecuted id)) := by
  have hmoves : ∀ {i q}, Handled c i (.sendInLoop id message :: q) →
      Handled ({ c with pending := rest }.observe (.sendExecuted id)) i q := by
    rintro i q (hx | ⟨m, hm⟩)
    · exact .inl (List.mem_cons_of_mem _ hx)
    · rcases List.mem_cons.mp hm with hm | hm
      · injection hm with hid
        rw [hid]
        exact .inl List.mem_cons_self
      · exact .inr ⟨m, hm⟩
  refine ⟨fun hup => ?_, fun hj => absurd hj (not_justShut (o := .sendExecuted id) rfl rfl),
    fun i hi => ?_, fun i hi => ?_⟩
  · obtain ⟨hcalled, hns, hstop, hfin⟩ := h.up hup
    refine ⟨fun hm => hcalled ((List.mem_cons.mp hm).resolve_left (by simp)), fun hm => hns ?_,
      hstop, hfin⟩
    rw [hpend]
    exact List.mem_cons_of_mem _ hm
  · have hi' := h.returned i ((List.mem_cons.mp hi).resolve_left (by simp))
    rw [hpend] at hi'
    exact hmoves hi'
  · have hi' := h.before i hi
    rw [hpend, ahead_cons, if_neg (by simp)] at hi'
    exact hmoves hi'

/-- The end of a `send` of another thread. -/
theorem pushed {c c' : Conn} (h : ThreadInv c) {id : Nat} {message : List Byte}
    (hst : c'.state = c.state) (hstop : c'.stopping = c.stopping)
    (htr : c'.trace = .sendReturned id :: c.trace)
    (hpe : c'.pending = c.pending ++ [.sendInLoop id message]) : ThreadInv c' := by
  have hmem : ∀ o ∈ c.trace, o ∈ c'.trace := by
    intro o ho
    rw [htr]
    exact List.mem_cons_of_mem _ ho
  refine ⟨fun hup => ?_, fun hj => absurd hj (not_justShut htr rfl), fun i hi => ?_,
    fun i hi => ?_⟩
  · obtain ⟨hcalled, hns, hzero, hfin⟩ := h.up ((Conn.up_congr hst).mp hup)
    refine ⟨fun hm => ?_, fun hm => ?_, hstop.trans hzero, fun hf => hfin (hf.of_trace ?_)⟩
    · rw [htr] at hm
      exact hcalled ((List.mem_cons.mp hm).resolve_left (by simp))
    · rw [hpe] at hm
      rcases List.mem_append.mp hm with hm | hm
      · exact hns hm
      · exact absurd (List.mem_singleton.mp hm) (by simp)
    · simp [finTrace, htr, Obs.isFin]
  · rw [htr] at hi
    rw [hpe]
    rcases List.mem_cons.mp hi with hi | hi
    · injection hi with hi
      rw [hi]
      exact .inr ⟨message, List.mem_append_right _ List.mem_cons_self⟩
    · exact (h.returned i hi).mono hmem fun f hf => List.mem_append_left _ hf
  · rw [htr] at hi
    rw [hpe]
    exact (h.before i hi).mono hmem fun f hf => mem_ahead_append hf _

end ThreadInv

/-! ## Steps and runs -/

theorem next_threads {c : Conn} (h : ThreadInv c) (r : ReadResult) (wr : WriteResult) :
    Post (exec c (.next r wr)) ThreadInv := by
  simp only [exec]
  cases htodo : c.todo with
  | nil => exact .ok h
  | cons t rest =>
      dsimp only
      have hpop : ThreadInv { c with todo := rest } := ⟨h.up, h.off, h.returned, h.before⟩
      cases t with
      | closeCallback =>
          refine .ok (Plain.inv ?_ hpop)
          exact .of_observed (o := .closeCallback) rfl ⟨rfl, rfl⟩ rfl rfl id
      | callback cb =>
          cases cb with
          | close => exact (Conn.plain_handleClose _).mono fun _ hp => hp.inv hpop
          | error => exact .ok hpop
          | read => exact (Conn.plain_handleRead _ r).mono fun _ hp => hp.inv hpop
          | write => exact .ok ((Conn.plain_handleWrite _ wr).inv hpop)

theorem runFunctor_threads {c : Conn} (h : ThreadInv c) (wr : WriteResult) :
    Post (exec c (.runFunctor wr)) ThreadInv := by
  simp only [exec]
  cases hpend : c.pending with
  | nil => exact .ok h
  | cons f rest =>
      dsimp only
      cases f with
      | sendInLoop id message =>
          have hrun := h.popped_send hpend
          exact (Conn.plain_sendInLoop _ message wr).mono fun _ hp => hp.inv hrun
      | shutdownInLoop =>
          have hup : ¬ c.Up := by
            intro hup
            refine (h.up hup).2.1 ?_
            rw [hpend]
            exact List.mem_cons_self
          have hpop := h.popped hpend (by simp)
          refine .ok (Plain.inv ?_ hpop)
          exact Conn.plain_shutdownInLoop hup
      | forceCloseInLoop =>
          exact (Conn.plain_forceCloseInLoop _).mono fun _ hp => hp.inv (h.popped hpend (by simp))
      | startReadInLoop =>
          exact .ok ((Conn.plain_startReadInLoop _).inv (h.popped hpend (by simp)))
      | stopReadInLoop =>
          exact .ok ((Conn.plain_stopReadInLoop _).inv (h.popped hpend (by simp)))
      | writeComplete => exact .ok (h.popped hpend (by simp))
      | highWaterMark len => exact .ok (h.popped hpend (by simp))

theorem exec_threads {c : Conn} (h : ThreadInv c) (a : Act) (hen : Enabled c a) :
    Post (exec c a) ThreadInv := by
  cases a with
  | connectEstablished => exact (Conn.plain_connectEstablished c).mono fun _ hp => hp.inv h
  | poll revents => exact .ok ⟨h.up, h.off, h.returned, h.before⟩
  | next r wr => exact next_threads h r wr
  | sendInLoop data wr => exact (Conn.plain_sendInLoop c data wr).mono fun _ hp => hp.inv h
  | handleWrite wr => exact .ok ((Conn.plain_handleWrite c wr).inv h)
  | send message wr =>
      simp only [exec, Conn.send]
      split
      · exact (Conn.plain_sendInLoop c message wr).mono fun _ hp => hp.inv h
      · exact .ok h
  | shutdown =>
      simp only [exec, Conn.shutdown]
      split
      · rename_i hc
        have hdown : ¬ ((c.setState .kDisconnecting).observe .shutdownCalled).Up :=
          Conn.not_up (.inl rfl)
        have hcalled := h.called (.inr hc) hdown rfl rfl
        exact .ok ((Conn.plain_shutdownInLoop hdown).inv hcalled)
      · exact .ok h
  | forceClose => exact .ok ((Conn.plain_forceClose c).inv h)
  | forceCloseWithDelay => exact .ok ((Conn.plain_forceCloseWithDelay c).inv h)
  | startRead => exact .ok ((Conn.plain_startReadInLoop c).inv h)
  | stopRead => exact .ok ((Conn.plain_stopReadInLoop c).inv h)
  | runFunctor wr => exact runFunctor_threads h wr
  | timer =>
      have hpop : ThreadInv { c with timers := c.timers - 1 } :=
        ⟨h.up, h.off, h.returned, h.before⟩
      exact .ok ((Conn.plain_forceClose _).inv hpop)
  | threadSend message =>
      simp only [exec, Conn.threadSend]
      split
      · exact .ok ⟨h.up, h.off, h.returned, h.before⟩
      · exact .ok h
  | threadSendPush k =>
      simp only [exec, Conn.threadSendPush]
      split
      · exact .ok (h.pushed rfl rfl rfl rfl)
      · exact .ok h
  | threadShutdown =>
      simp only [exec, Conn.threadShutdown]
      split
      · rename_i hc
        exact .ok (h.called (.inr hc) (Conn.not_up (.inl rfl)) rfl rfl)
      · exact .ok h
  | threadShutdownPush =>
      have hup : ¬ c.Up := by
        intro hup
        have hpos : 0 < c.stopping := hen
        rw [(h.up hup).2.2.1] at hpos
        exact absurd hpos (by simp)
      refine .ok ⟨fun hup' => absurd hup' hup, h.off, fun id hid => ?_, fun id hid => ?_⟩
      · exact (h.returned id hid).mono (fun _ ho => ho) fun f hf => List.mem_append_left _ hf
      · exact (h.before id hid).mono (fun _ ho => ho) fun f hf => mem_ahead_append hf _
  | threadStartRead =>
      refine .ok (Plain.inv ?_ h)
      exact .of_frame (q := [.startReadInLoop]) rfl rfl (by simp) rfl id rfl
  | threadStopRead =>
      refine .ok (Plain.inv ?_ h)
      exact .of_frame (q := [.stopReadInLoop]) rfl rfl (by simp) rfl id rfl

theorem new_threads (sockfd : Int) (writeComplete highWater : Bool) (mark : Nat) :
    ThreadInv (Conn.new sockfd writeComplete highWater mark) where
  up := fun _ => ⟨by simp [Conn.new], by simp [Conn.new], rfl, by simp [FinSent, finTrace, Conn.new]⟩
  off := by
    rintro ⟨n, t, ht⟩
    exact absurd ht (by simp [Conn.new])
  returned := fun id hid => absurd hid (by simp [Conn.new])
  before := fun id hid => absurd hid (by simp [Conn.new, beforeShutdown])

/-! ## After the last byte -/

/-- The operation is not a direct call of the private `sendInLoop`: data
reaches the connection through `send`. -/
def ThroughSend (_ : Conn) : Act → Prop
  | .sendInLoop _ _ => False
  | _ => True

instance decidableThroughSend (c : Conn) : ∀ a, Decidable (ThroughSend c a)
  | .sendInLoop _ _ => inferInstanceAs (Decidable False)
  | .connectEstablished | .poll _ | .next _ _ | .handleWrite _ | .send _ _ | .shutdown
  | .forceClose | .forceCloseWithDelay | .startRead | .stopRead | .runFunctor _ | .timer
  | .threadSend _ | .threadSendPush _ | .threadShutdown | .threadShutdownPush
  | .threadStartRead | .threadStopRead => inferInstanceAs (Decidable True)

/-- No `send` that passed its check is waiting. -/
def NoSendWaiting (c : Conn) : Prop :=
  c.sending = [] ∧ ∀ id m, .sendInLoop id m ∉ c.pending

/-- The connection has nothing left to write, and since `base` it has written
nothing. -/
structure Spent (base : List Obs) (c : Conn) : Prop where
  down : ¬ c.Up
  off : c.channel.isWriting = false
  idle : NoSendWaiting c
  trace : ∃ t, c.trace = t ++ base ∧ ∀ taken, .write taken ∉ t

namespace Spent

/-- A step that neither queues data nor turns the write interest on, and does
not write. -/
theorem step {base : List Obs} {c c' : Conn} (h : Spent base c) (hdown : ¬ c.Up → ¬ c'.Up)
    (hoff : c.channel.isWriting = false → c'.channel.isWriting = false)
    (hsend : c'.sending = c.sending)
    (hpe : ∀ id m, .sendInLoop id m ∈ c'.pending → .sendInLoop id m ∈ c.pending)
    (htr : ∃ t, c'.trace = t ++ c.trace ∧ ∀ taken, .write taken ∉ t) : Spent base c' := by
  obtain ⟨t, ht, hno⟩ := h.trace
  obtain ⟨t', ht', hno'⟩ := htr
  refine ⟨hdown h.down, hoff h.off, ⟨hsend.trans h.idle.1, fun id m hm => ?_⟩,
    ⟨t' ++ t, ?_, fun taken hm => ?_⟩⟩
  · exact h.idle.2 id m (hpe id m hm)
  · rw [ht', ht, List.append_assoc]
  · rcases List.mem_append.mp hm with hm | hm
    · exact hno' taken hm
    · exact hno taken hm

theorem frame {base : List Obs} {c c' : Conn} (h : Spent base c) (hst : c'.state = c.state)
    (hch : c'.channel.isWriting = c.channel.isWriting) (hsend : c'.sending = c.sending)
    (hpe : ∀ id m, .sendInLoop id m ∈ c'.pending → .sendInLoop id m ∈ c.pending)
    (htr : c'.trace = c.trace) : Spent base c' := by
  refine h.step (fun hd => ?_) (fun ho => hch.trans ho) hsend hpe ⟨[], by simp [htr]⟩
  rwa [Conn.up_congr hst]

theorem not_connected {base : List Obs} {c : Conn} (h : Spent base c) : c.state ≠ .kConnected :=
  fun hc => h.down (.inr hc)

theorem handleClose {base : List Obs} {c : Conn} (h : Spent base c) :
    Post c.handleClose (Spent base) := by
  unfold Conn.handleClose
  exact .check_bind fun _ => .ok (h.step (fun _ => Conn.not_up (.inr rfl)) (fun _ => rfl) rfl
    (fun _ _ hm => hm) ⟨[.connectionDown], rfl, by simp⟩)

theorem forceClose {base : List Obs} {c : Conn} (h : Spent base c) : Spent base c.forceClose := by
  rw [Conn.forceClose_eq]
  refine h.step (fun _ => Conn.not_up (.inl rfl)) id rfl (fun id m hm => ?_) ⟨[], rfl, by simp⟩
  rcases List.mem_append.mp hm with hm | hm
  · exact hm
  · exact absurd (List.mem_singleton.mp hm) (by simp)

theorem shutdownInLoop {base : List Obs} {c : Conn} (h : Spent base c) :
    Spent base c.shutdownInLoop := by
  rcases Conn.shutdownInLoop_cases c with ⟨-, heq⟩ | ⟨-, heq⟩
  · rw [heq]
    exact h.step id id rfl (fun _ _ hm => hm) ⟨[.shutdownInLoop], rfl, by simp⟩
  · rw [heq]
    exact h.step id id rfl (fun _ _ hm => hm)
      ⟨[.shutdownWrite c.outputBuffer.readableBytes, .shutdownInLoop], rfl, by simp⟩

theorem startReadInLoop {base : List Obs} {c : Conn} (h : Spent base c) :
    Spent base c.startReadInLoop := by
  unfold Conn.startReadInLoop
  split
  · exact h.frame rfl (Channel.isWriting_enableReading _) rfl (fun _ _ hm => hm) rfl
  · exact h

theorem stopReadInLoop {base : List Obs} {c : Conn} (h : Spent base c) :
    Spent base c.stopReadInLoop := by
  unfold Conn.stopReadInLoop
  split
  · exact h.frame rfl (Channel.isWriting_disableReading _) rfl (fun _ _ hm => hm) rfl
  · exact h

/-- Queueing anything but data. -/
theorem queue {base : List Obs} {c c' : Conn} (h : Spent base c) {f : Functor}
    (hf : ∀ id m, f ≠ .sendInLoop id m) (hst : c'.state = c.state)
    (hch : c'.channel = c.channel) (hsend : c'.sending = c.sending)
    (hpe : c'.pending = c.pending ++ [f]) (htr : c'.trace = c.trace) : Spent base c' := by
  refine h.frame hst (by rw [hch]) hsend (fun id m hm => ?_) htr
  rw [hpe] at hm
  rcases List.mem_append.mp hm with hm | hm
  · exact hm
  · exact absurd (List.mem_singleton.mp hm).symm (hf id m)

theorem next {base : List Obs} {c : Conn} (h : Spent base c) (r : ReadResult)
    (wr : WriteResult) : Post (exec c (.next r wr)) (Spent base) := by
  simp only [exec]
  cases htodo : c.todo with
  | nil => exact .ok h
  | cons t rest =>
      dsimp only
      have hpop : Spent base { c with todo := rest } := ⟨h.down, h.off, h.idle, h.trace⟩
      cases t with
      | closeCallback =>
          exact .ok (hpop.step id id rfl (fun _ _ hm => hm) ⟨[.closeCallback], rfl, by simp⟩)
      | callback cb =>
          cases cb with
          | close => exact hpop.handleClose
          | error => exact .ok hpop
          | read =>
              cases r with
              | bytes =>
                  exact .ok (hpop.step id id rfl (fun _ _ hm => hm) ⟨[.message], rfl, by simp⟩)
              | eof => exact hpop.handleClose
              | fails e => exact .ok hpop
          | write =>
              show Post (.ok (Conn.handleWrite _ wr)) (Spent base)
              rw [Conn.handleWrite_of_not_writing hpop.off]
              exact .ok hpop

theorem runFunctor {base : List Obs} {c : Conn} (h : Spent base c) (wr : WriteResult) :
    Post (exec c (.runFunctor wr)) (Spent base) := by
  simp only [exec]
  cases hpend : c.pending with
  | nil => exact .ok h
  | cons f rest =>
      dsimp only
      have hpop : Spent base { c with pending := rest } := by
        refine h.frame rfl rfl rfl (fun id m hm => ?_) rfl
        rw [hpend]
        exact List.mem_cons_of_mem f hm
      cases f with
      | sendInLoop id message =>
          refine absurd ?_ (h.idle.2 id message)
          rw [hpend]
          exact List.mem_cons_self
      | shutdownInLoop => exact .ok hpop.shutdownInLoop
      | forceCloseInLoop =>
          show Post (Conn.forceCloseInLoop _) (Spent base)
          unfold Conn.forceCloseInLoop
          split
          · exact hpop.handleClose
          · exact .ok hpop
      | startReadInLoop => exact .ok hpop.startReadInLoop
      | stopReadInLoop => exact .ok hpop.stopReadInLoop
      | writeComplete => exact .ok hpop
      | highWaterMark len => exact .ok hpop

/-- Nothing makes a spent connection write again. -/
theorem exec {base : List Obs} {c : Conn} (h : Spent base c) (a : Act) (hen : Enabled c a)
    (hsend : ThroughSend c a) : Post (exec c a) (Spent base) := by
  have hnc := h.not_connected
  cases a with
  | connectEstablished => exact absurd (.inl hen) h.down
  | poll revents => exact .ok ⟨h.down, h.off, h.idle, h.trace⟩
  | next r wr => exact h.next r wr
  | sendInLoop data wr => exact absurd hsend id
  | handleWrite wr =>
      show Post (.ok (Conn.handleWrite c wr)) (Spent base)
      rw [Conn.handleWrite_of_not_writing h.off]
      exact .ok h
  | send message wr =>
      show Post (Conn.send c message wr) (Spent base)
      rw [Conn.send, if_neg hnc]
      exact .ok h
  | shutdown =>
      show Post (.ok (Conn.shutdown c)) (Spent base)
      rw [Conn.shutdown, if_neg hnc]
      exact .ok h
  | forceClose => exact .ok h.forceClose
  | forceCloseWithDelay =>
      simp only [Connection.exec, Conn.forceCloseWithDelay]
      split
      · exact .ok (h.step (fun _ => Conn.not_up (.inl rfl)) id rfl (fun _ _ hm => hm)
          ⟨[], rfl, by simp⟩)
      · exact .ok h
  | startRead => exact .ok h.startReadInLoop
  | stopRead => exact .ok h.stopReadInLoop
  | runFunctor wr => exact h.runFunctor wr
  | timer =>
      have hpop : Spent base { c with timers := c.timers - 1 } := ⟨h.down, h.off, h.idle, h.trace⟩
      exact .ok hpop.forceClose
  | threadSend message =>
      show Post (.ok (Conn.threadSend c message)) (Spent base)
      rw [Conn.threadSend, if_neg hnc]
      exact .ok h
  | threadSendPush k =>
      have hlt : k < c.sending.length := hen
      rw [h.idle.1] at hlt
      exact absurd hlt (by simp)
  | threadShutdown =>
      show Post (.ok (Conn.threadShutdown c)) (Spent base)
      rw [Conn.threadShutdown, if_neg hnc]
      exact .ok h
  | threadShutdownPush => exact .ok (h.queue (f := .shutdownInLoop) (by simp) rfl rfl rfl rfl rfl)
  | threadStartRead => exact .ok (h.queue (f := .startReadInLoop) (by simp) rfl rfl rfl rfl rfl)
  | threadStopRead => exact .ok (h.queue (f := .stopReadInLoop) (by simp) rfl rfl rfl rfl rfl)

end Spent

/-! ## The two guarantees -/

section Runs

variable {sockfd : Int} {writeComplete highWater : Bool} {mark : Nat}

theorem threads_run {acts : List Act}
    (hlegal : connSys.Legal (Conn.new sockfd writeComplete highWater mark) acts) :
    Post (connSys.runFrom (Conn.new sockfd writeComplete highWater mark) acts) ThreadInv :=
  Sys.invariant_post (S := connSys) (fun _ a h hen => exec_threads h a hen)
    (new_threads sockfd writeComplete highWater mark) hlegal

/-- **Data and shutdown across threads.** In every run in which data reaches
the connection through `send`:

* when a queued `shutdownInLoop` runs, every message whose `send` had returned
  when `shutdown()` was called has been executed;
* when `shutdownWrite` has just been called and no `send` that passed its check
  is waiting, `sockets::write` is never called again. -/
theorem sends_and_shutdown (acts : List Act)
    (hlegal : connSys.Legal (Conn.new sockfd writeComplete highWater mark) acts)
    (hsend : connSys.Meets ThroughSend (Conn.new sockfd writeComplete highWater mark) acts) :
    ∀ p q c, acts = p ++ q →
      connSys.runFrom (Conn.new sockfd writeComplete highWater mark) p = .ok c →
      (c.pending.head? = some .shutdownInLoop →
        ∀ id, .sendReturned id ∈ beforeShutdown c.trace → .sendExecuted id ∈ c.trace) ∧
      (JustShut c → NoSendWaiting c → Post (connSys.runFrom c q) fun c' =>
        ∃ t, c'.trace = t ++ c.trace ∧ ∀ taken, .write taken ∉ t) := by
  rintro p q c rfl hp
  obtain ⟨hlp, -⟩ := Sys.meets_append.mp hlegal
  have hinv : ThreadInv c := threads_run hlp c hp
  constructor
  · intro hhead id hid
    rcases hinv.before id hid with hx | ⟨m, hm⟩
    · exact hx
    · -- with the shutdown at the head, nothing is ahead of it
      obtain ⟨rest, hrest⟩ := List.head?_eq_some_iff.mp hhead
      rw [hrest, ahead_cons, if_pos rfl] at hm
      exact absurd hm (by simp)
  · intro hjust hidle
    have hup : ¬ c.Up := by
      intro hup
      obtain ⟨n, t, ht⟩ := hjust
      exact (hinv.up hup).2.2.2 ⟨n, (mem_finTrace rfl).mpr (by rw [ht]; exact List.mem_cons_self)⟩
    have hspent : Spent c.trace c := ⟨hup, hinv.off hjust, hidle, [], rfl, by simp⟩
    obtain ⟨-, hq⟩ := Sys.meets_append.mp (Sys.meets_and.mpr ⟨hlegal, hsend⟩)
    exact (Sys.invariant_post (S := connSys) (fun _ a h hok => h.exec a hok.1 hok.2) hspent
      (hq c hp)).mono fun _ h => h.trace

end Runs

/-- A message sent from another thread is still queued when the loop thread
calls `shutdown()`: the write side is shut down first, and the message is
written after it. -/
theorem inline_shutdown_overtakes_send :
    connSys.Legal (Conn.new 5 false false 64)
        [.connectEstablished, .threadSend [1], .threadSendPush 0, .shutdown,
          .runFunctor (.accepts 1)] ∧
      Lands (connSys.runFrom (Conn.new 5 false false 64)
        [.connectEstablished, .threadSend [1], .threadSendPush 0, .shutdown,
          .runFunctor (.accepts 1)]) fun c =>
        c.trace = [.write [1], .passed [1], .sendExecuted 0, .shutdownWrite 0, .shutdownInLoop,
          .shutdownCalled, .sendReturned 0, .connectionUp] := by
  decide +kernel

/-- Two messages and then a shutdown, all from other threads: after the queued
`shutdownInLoop` nothing is written, whatever the loop still does. -/
theorem sends_and_shutdown_queued :
    connSys.Legal (Conn.new 5 false false 64) [.connectEstablished, .threadSend [1],
        .threadSend [2], .threadSendPush 1, .threadSendPush 0, .threadShutdown,
        .threadShutdownPush, .runFunctor (.accepts 1), .runFunctor (.accepts 1),
        .runFunctor (.accepts 1), .handleWrite (.accepts 1)] ∧
    ∀ p q c, [.connectEstablished, .threadSend [1], .threadSend [2], .threadSendPush 1,
        .threadSendPush 0, .threadShutdown, .threadShutdownPush, .runFunctor (.accepts 1),
        .runFunctor (.accepts 1), .runFunctor (.accepts 1), .handleWrite (.accepts 1)] = p ++ q →
      connSys.runFrom (Conn.new 5 false false 64) p = .ok c →
      (c.pending.head? = some .shutdownInLoop →
        ∀ id, .sendReturned id ∈ beforeShutdown c.trace → .sendExecuted id ∈ c.trace) ∧
      (JustShut c → NoSendWaiting c → Post (connSys.runFrom c q) fun c' =>
        ∃ t, c'.trace = t ++ c.trace ∧ ∀ taken, .write taken ∉ t) :=
  ⟨by decide +kernel, sends_and_shutdown _ (by decide +kernel) (by decide +kernel)⟩

end Muduo.Connection
