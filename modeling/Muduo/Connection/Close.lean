import Muduo.Connection.System

/-!
# A connection closes once

Close is reached from a zero read, from `POLLHUP`, from a queued
`forceCloseInLoop` and from a delayed `forceClose`. The code keeps no record of
a close other than `M_state`, and three paths do not look at it (`Orderly`):

* `startReadInLoop` turns the read interest back on;
* `forceClose` assigns `kDisconnecting` whatever the state;
* `handleEventWithGuard` runs the read callback after the close callback of
  the same dispatch, and a zero read closes again.

In every run that avoids the three, `CloseInv` holds: the assertion of
`handleClose` is never met, both callbacks are called at most once, and a
closed connection stays closed, without interest.
-/

namespace Muduo.Connection

open Lib

/-- How often `M_connectionCallback` was invoked for DOWN. -/
def downs (c : Conn) : Nat := c.trace.count .connectionDown

/-- How often `M_closeCallback` was invoked. -/
def closes (c : Conn) : Nat := c.trace.count .closeCallback

/-- The operation runs `startReadInLoop`. -/
def startsRead (c : Conn) : Act → Bool
  | .startRead => true
  | .runFunctor _ => c.pending.head? = some .startReadInLoop
  | _ => false

/-- The operation calls `forceClose`. -/
def forcesClose : Act → Bool
  | .forceClose | .timer => true
  | _ => false

/-- The operation is a read callback that finds the end of the stream. -/
def readsEof (c : Conn) : Act → Bool
  | .next .eof _ => c.todo.head? = some (.callback .read)
  | _ => false

/-- After the close, reading is not restarted, the close is not forced again,
and no read callback of the same dispatch finds the end of the stream. -/
def Orderly (c : Conn) (a : Act) : Prop :=
  c.state = .kDisconnected →
    startsRead c a = false ∧ forcesClose a = false ∧ readsEof c a = false

instance (c : Conn) (a : Act) : Decidable (Orderly c a) :=
  inferInstanceAs (Decidable (_ → _))

/-- The invariant of an established connection. -/
structure CloseInv (c : Conn) : Prop where
  established : c.state ≠ .kConnecting
  /-- Before the close neither callback has been invoked. -/
  up : c.state ≠ .kDisconnected →
    downs c = 0 ∧ closes c = 0 ∧ .closeCallback ∉ c.todo
  /-- After it, one DOWN; the close callback was invoked or is still due. -/
  down : c.state = .kDisconnected →
    c.channel.events = Events.kNoneEvent ∧ downs c = 1 ∧
      closes c + c.todo.count .closeCallback ≤ 1
  /-- A dispatch closes first or not at all. -/
  first : .callback .close ∉ c.todo.tail
  due : .callback .close ∈ c.todo → c.state ≠ .kDisconnected

theorem CloseInv.connected_or {c : Conn} (h : CloseInv c) (hs : c.state ≠ .kDisconnected) :
    c.state = .kConnected ∨ c.state = .kDisconnecting := by
  have hne := h.established
  cases hst : c.state with
  | kDisconnected => exact absurd hst hs
  | kConnecting => exact absurd hst hne
  | kConnected => exact .inl rfl
  | kDisconnecting => exact .inr rfl

/-- `c'` is as far from or past its close as `c`. -/
structure Steady (c c' : Conn) : Prop where
  todo : c'.todo = c.todo
  downs : downs c' = downs c
  closes : closes c' = closes c
  up : c.state = .kConnected ∨ c.state = .kDisconnecting →
    c'.state = .kConnected ∨ c'.state = .kDisconnecting
  down : c.state = .kDisconnected → c.channel.events = Events.kNoneEvent →
    c'.state = .kDisconnected ∧ c'.channel.events = Events.kNoneEvent

namespace Steady

theorem refl (c : Conn) : Steady c c :=
  ⟨rfl, rfl, rfl, fun h => h, fun h h' => ⟨h, h'⟩⟩

/-- A step that only records an observation other than the two callbacks. -/
theorem noted {c c' : Conn} {o : Obs} (hdown : o ≠ .connectionDown) (hclose : o ≠ .closeCallback)
    (htrace : c'.trace = o :: c.trace) (htodo : c'.todo = c.todo) (hstate : c'.state = c.state)
    (hchannel : c'.channel = c.channel) : Steady c c' := by
  refine ⟨htodo, ?_, ?_, ?_, ?_⟩
  · unfold Connection.downs
    rw [htrace, List.count_cons_of_ne hdown]
  · unfold Connection.closes
    rw [htrace, List.count_cons_of_ne hclose]
  · rw [hstate]
    exact id
  · rw [hstate, hchannel]
    exact And.intro

theorem inv {c c' : Conn} (hs : Steady c c') (h : CloseInv c) :
    CloseInv c' ∧ (c.state = .kDisconnected → c'.state = .kDisconnected) := by
  by_cases hd : c.state = .kDisconnected
  · obtain ⟨hev, hdowns, hcloses⟩ := h.down hd
    obtain ⟨hd', hev'⟩ := hs.down hd hev
    refine ⟨⟨by rw [hd']; simp, fun hn => absurd hd' hn, fun _ => ?_, ?_, ?_⟩, fun _ => hd'⟩
    · rw [hs.downs, hs.closes, hs.todo]
      exact ⟨hev', hdowns, hcloses⟩
    · rw [hs.todo]
      exact h.first
    · rw [hs.todo]
      intro hdue
      exact absurd hd (h.due hdue)
  · have hup := hs.up (h.connected_or hd)
    have hnd : c'.state ≠ .kDisconnected := by
      rcases hup with hup | hup <;> rw [hup] <;> simp
    refine ⟨⟨?_, fun _ => ?_, fun hd' => absurd hd' hnd, ?_, fun _ => hnd⟩,
      fun hd' => absurd hd' hd⟩
    · rcases hup with hup | hup <;> rw [hup] <;> simp
    · rw [hs.downs, hs.closes, hs.todo]
      exact h.up hd
    · rw [hs.todo]
      exact h.first

end Steady

/-- Output observations are neither of the two callbacks. -/
theorem Moved.count {c c' : Conn} (h : Moved c c') {o : Obs} (ho : o.isOutput = false) :
    c'.trace.count o = c.trace.count o := by
  obtain ⟨t, ht, hout⟩ := h.trace
  have hzero : t.count o = 0 := by
    rw [List.count_eq_zero]
    intro hmem
    rw [hout o hmem] at ho
    exact absurd ho (by simp)
  rw [ht, List.count_append, hzero, Nat.zero_add]

theorem Moved.steady {c c' : Conn} (h : Moved c c')
    (hev : c.state = .kDisconnected → c.channel.events = Events.kNoneEvent →
      c'.channel.events = Events.kNoneEvent) : Steady c c' where
  todo := h.todo
  downs := h.count rfl
  closes := h.count rfl
  up := fun hs => by rw [h.state]; exact hs
  down := fun hd hn => ⟨h.state.trans hd, hev hd hn⟩

namespace Conn

theorem steady_shutdownInLoop (c : Conn) : Steady c c.shutdownInLoop := by
  refine (moved_shutdownInLoop c).steady fun _ hn => ?_
  unfold shutdownInLoop
  dsimp only
  split <;> exact hn

theorem steady_sendInLoop (c : Conn) (data : List Byte) (wr : WriteResult) :
    Lands (c.sendInLoop data wr) (Steady c) := by
  by_cases hd : c.state = .kDisconnected
  · rw [sendInLoop_of_disconnected hd]
    exact .ok (.refl c)
  · exact (sendInLoop_lands c data wr).mono fun _ hm => hm.steady fun hd' => absurd hd' hd

theorem steady_handleWrite (c : Conn) (wr : WriteResult) : Steady c (c.handleWrite wr) := by
  refine (moved_handleWrite c wr).steady fun _ hn => ?_
  rw [handleWrite_of_not_writing (Channel.isWriting_of_none hn)]
  exact hn

theorem steady_shutdown (c : Conn) : Steady c c.shutdown := by
  unfold shutdown
  split
  · rename_i hc
    have h := moved_shutdownInLoop ((c.setState .kDisconnecting).observe .shutdownCalled)
    refine ⟨h.todo, ?_, ?_, fun _ => .inr h.state, fun hd => ?_⟩
    · exact h.count (o := .connectionDown) rfl
    · exact h.count (o := .closeCallback) rfl
    · rw [hc] at hd
      exact absurd hd (by simp)
  · exact .refl c

theorem steady_forceClose {c : Conn} (hd : c.state ≠ .kDisconnected) :
    Steady c c.forceClose := by
  rw [forceClose_eq]
  exact ⟨rfl, rfl, rfl, fun _ => .inr rfl, fun hd' => absurd hd' hd⟩

theorem steady_forceCloseWithDelay (c : Conn) : Steady c c.forceCloseWithDelay := by
  unfold forceCloseWithDelay
  split
  · rename_i hup
    refine ⟨rfl, rfl, rfl, fun _ => .inr rfl, fun hd => ?_⟩
    rw [hd] at hup
    exact absurd hup (by simp)
  · exact .refl c

theorem steady_startReadInLoop {c : Conn} (hd : c.state ≠ .kDisconnected) :
    Steady c c.startReadInLoop := by
  unfold startReadInLoop
  split
  · exact ⟨rfl, rfl, rfl, fun h => h, fun hd' => absurd hd' hd⟩
  · exact .refl c

/-- Stopping to read is harmless after the close: there is no interest left to
withdraw. -/
theorem steady_stopReadInLoop (c : Conn) : Steady c c.stopReadInLoop := by
  unfold stopReadInLoop
  split
  · exact ⟨rfl, rfl, rfl, fun h => h,
      fun hd hn => ⟨hd, Channel.events_disableReading_of_none hn⟩⟩
  · exact .refl c

theorem steady_threadSend (c : Conn) (message : List Byte) :
    Steady c (c.threadSend message) := by
  unfold threadSend
  split <;> exact ⟨rfl, rfl, rfl, fun h => h, fun h h' => ⟨h, h'⟩⟩

theorem steady_threadSendPush (c : Conn) (k : Nat) : Steady c (c.threadSendPush k) := by
  unfold threadSendPush
  split
  · exact .noted (by simp) (by simp) rfl rfl rfl rfl
  · exact .refl c

theorem steady_threadShutdown (c : Conn) : Steady c c.threadShutdown := by
  unfold threadShutdown
  split
  · rename_i hc
    refine ⟨rfl, ?_, ?_, fun _ => .inr rfl, fun hd => ?_⟩
    · exact List.count_cons_of_ne (by simp)
    · exact List.count_cons_of_ne (by simp)
    · rw [hc] at hd
      exact absurd hd (by simp)
  · exact .refl c

/-- `handleClose` on a connection that is up: the assertion holds, and the
close callback becomes due. -/
theorem handleClose_inv {c : Conn} (h : CloseInv c) (hd : c.state ≠ .kDisconnected)
    (hfirst : .callback .close ∉ c.todo) : Lands c.handleClose CloseInv := by
  obtain ⟨hdowns, hcloses, hdue⟩ := h.up hd
  unfold handleClose
  refine .check_bind (h.connected_or hd) (.ok ⟨by simp [observe, setChannel, setState], ?_, ?_, ?_, ?_⟩)
  · intro hn
    exact absurd rfl hn
  · intro _
    refine ⟨rfl, ?_, ?_⟩
    · show List.count Obs.connectionDown (Obs.connectionDown :: c.trace) = 1
      rw [List.count_cons_self]
      exact congrArg (· + 1) hdowns
    · show List.count Obs.closeCallback (Obs.connectionDown :: c.trace) +
        List.count Todo.closeCallback (Todo.closeCallback :: c.todo) ≤ 1
      rw [List.count_cons_of_ne (by simp), List.count_cons_self,
        List.count_eq_zero.mpr hdue]
      exact Nat.le_of_eq (congrArg (· + 1) hcloses)
  · exact hfirst
  · intro hmem
    rcases List.mem_cons.mp hmem with heq | hmem
    · exact absurd heq (by simp)
    · exact absurd hmem hfirst

end Conn

/-! ## Steps -/

/-- The callbacks of a dispatch begin with the close callback, if it is there. -/
theorem close_not_mem_tail (revents : Events) :
    Todo.callback .close ∉ ((Channel.handleEventWithGuard revents).map Todo.callback).tail := by
  unfold Channel.handleEventWithGuard
  split <;> split <;> split <;> split <;> simp

theorem closeCallback_not_mem_map (cbs : List Callback) :
    Todo.closeCallback ∉ cbs.map Todo.callback := by
  intro hmem
  obtain ⟨cb, -, hcb⟩ := List.mem_map.mp hmem
  exact absurd hcb (by simp)

/-- Taking the next entry off the list of things to run. -/
private theorem popped_inv {c : Conn} (h : CloseInv c) {t : Todo} {rest : List Todo}
    (htodo : c.todo = t :: rest) :
    CloseInv { c with todo := rest } ∧ Todo.callback .close ∉ rest := by
  have hfirst : Todo.callback .close ∉ rest := by
    have := h.first
    rwa [htodo] at this
  refine ⟨⟨h.established, fun hn => ?_, fun hd => ?_, ?_, fun hmem => absurd hmem hfirst⟩, hfirst⟩
  · obtain ⟨hdowns, hcloses, hdue⟩ := h.up hn
    refine ⟨hdowns, hcloses, fun hmem => hdue ?_⟩
    rw [htodo]
    exact List.mem_cons_of_mem _ hmem
  · obtain ⟨hev, hdowns, hcloses⟩ := h.down hd
    refine ⟨hev, hdowns, Nat.le_trans (Nat.add_le_add_left ?_ _) hcloses⟩
    rw [htodo]
    exact List.count_le_count_cons
  · intro hmem
    exact hfirst (List.mem_of_mem_tail hmem)

/-- Invoking the close callback, which is due. -/
private theorem closeCallback_inv {c : Conn} (h : CloseInv c) {rest : List Todo}
    (htodo : c.todo = .closeCallback :: rest) :
    CloseInv ({ c with todo := rest }.observe .closeCallback) := by
  obtain ⟨hpop, hfirst⟩ := popped_inv h htodo
  have hd : c.state = .kDisconnected := by
    by_contra hn
    exact (h.up hn).2.2 (by rw [htodo]; exact List.mem_cons_self)
  obtain ⟨hev, hdowns, hcloses⟩ := h.down hd
  refine ⟨h.established, fun hn => absurd hd hn, fun _ => ⟨hev, ?_, ?_⟩, hpop.first, hpop.due⟩
  · show List.count Obs.connectionDown (Obs.closeCallback :: c.trace) = 1
    rw [List.count_cons_of_ne (by simp)]
    exact hdowns
  · show List.count Obs.closeCallback (Obs.closeCallback :: c.trace) + rest.count .closeCallback ≤ 1
    rw [htodo, List.count_cons_self] at hcloses
    rw [List.count_cons_self]
    unfold closes at hcloses
    omega

/-- What every step of an orderly run does: it passes its assertions, keeps the
invariant, and leaves a closed connection closed. -/
def Advances (c : Conn) (x : Except Assert Conn) : Prop :=
  Lands x fun c' => CloseInv c' ∧ (c.state = .kDisconnected → c'.state = .kDisconnected)

private theorem advances_of_steady {c c₁ : Conn} (h : CloseInv c₁) (hst : c₁.state = c.state)
    {x : Except Assert Conn} (hx : Lands x (Steady c₁)) : Advances c x := by
  refine hx.mono fun c' hs => ?_
  have := hs.inv h
  rw [hst] at this
  exact this

theorem next_advances {c : Conn} (h : CloseInv c) {r : ReadResult} {wr : WriteResult}
    (ho : Orderly c (.next r wr)) : Advances c (exec c (.next r wr)) := by
  simp only [exec]
  cases htodo : c.todo with
  | nil => exact .ok ⟨h, fun hd => hd⟩
  | cons t rest =>
      dsimp only
      obtain ⟨hpop, hfirst⟩ := popped_inv h htodo
      have hclose : c.state ≠ .kDisconnected →
          Advances c (Conn.handleClose { c with todo := rest }) := fun hd =>
        (Conn.handleClose_inv hpop hd hfirst).mono fun _ hc => ⟨hc, fun hd' => absurd hd' hd⟩
      cases t with
      | closeCallback => exact .ok ⟨closeCallback_inv h htodo, fun hd => hd⟩
      | callback cb =>
          cases cb with
          | close => exact hclose (h.due (by rw [htodo]; exact List.mem_cons_self))
          | error => exact .ok ⟨hpop, fun hd => hd⟩
          | read =>
              cases r with
              | bytes =>
                  refine advances_of_steady hpop rfl (.ok ?_)
                  exact .noted (o := .message) (by simp) (by simp) rfl rfl rfl rfl
              | eof =>
                  refine hclose fun hd => ?_
                  have := (ho hd).2.2
                  simp [readsEof, htodo] at this
              | fails e => exact .ok ⟨hpop, fun hd => hd⟩
          | write => exact advances_of_steady hpop rfl (.ok (Conn.steady_handleWrite _ wr))

theorem runFunctor_advances {c : Conn} (h : CloseInv c) {wr : WriteResult}
    (hen : Enabled c (.runFunctor wr)) (ho : Orderly c (.runFunctor wr)) :
    Advances c (exec c (.runFunctor wr)) := by
  simp only [exec]
  cases hpend : c.pending with
  | nil => exact .ok ⟨h, fun hd => hd⟩
  | cons f rest =>
      dsimp only
      have hpop : CloseInv { c with pending := rest } :=
        ⟨h.established, h.up, h.down, h.first, h.due⟩
      cases f with
      | sendInLoop id message =>
          have hobs : CloseInv ({ c with pending := rest }.observe (.sendExecuted id)) := by
            have hs : Steady { c with pending := rest }
                ({ c with pending := rest }.observe (.sendExecuted id)) :=
              .noted (by simp) (by simp) rfl rfl rfl rfl
            exact (hs.inv hpop).1
          exact advances_of_steady hobs rfl (Conn.steady_sendInLoop _ message wr)
      | shutdownInLoop => exact advances_of_steady hpop rfl (.ok (Conn.steady_shutdownInLoop _))
      | forceCloseInLoop =>
          -- the functor looks at the state again, so a second close is dropped
          show Advances c (Conn.forceCloseInLoop { c with pending := rest })
          unfold Conn.forceCloseInLoop
          split
          · rename_i hup
            have hd : c.state ≠ .kDisconnected := by
              intro hd
              rcases hup with hup | hup
              · rw [show c.state = .kConnected from hup] at hd
                exact absurd hd (by simp)
              · rw [show c.state = .kDisconnecting from hup] at hd
                exact absurd hd (by simp)
            refine (Conn.handleClose_inv hpop hd ?_).mono fun _ hc => ⟨hc, fun hd' => absurd hd' hd⟩
            show Todo.callback .close ∉ c.todo
            rw [hen.1]
            simp
          · exact .ok ⟨hpop, fun hd => hd⟩
      | startReadInLoop =>
          refine advances_of_steady hpop rfl (.ok (Conn.steady_startReadInLoop fun hd => ?_))
          have := (ho hd).1
          simp [startsRead, hpend] at this
      | stopReadInLoop => exact advances_of_steady hpop rfl (.ok (Conn.steady_stopReadInLoop _))
      | writeComplete => exact .ok ⟨hpop, fun hd => hd⟩
      | highWaterMark len => exact .ok ⟨hpop, fun hd => hd⟩

/-- One step of an orderly run. -/
theorem exec_advances {c : Conn} (h : CloseInv c) (a : Act) (hen : Enabled c a)
    (ho : Orderly c a) : Advances c (exec c a) := by
  have hsteady : ∀ {x : Except Assert Conn}, Lands x (Steady c) → Advances c x :=
    fun hx => advances_of_steady h rfl hx
  cases a with
  | connectEstablished => exact absurd hen h.established
  | poll revents =>
      -- poll reports no channel without interest
      have hd : c.state ≠ .kDisconnected := fun hd => hen.2.1 (h.down hd).1
      refine .ok ⟨⟨h.established, fun _ => ?_, fun hd' => absurd hd' hd,
        close_not_mem_tail revents, fun _ => hd⟩, fun hd' => hd'⟩
      obtain ⟨hdowns, hcloses, -⟩ := h.up hd
      exact ⟨hdowns, hcloses, closeCallback_not_mem_map _⟩
  | next r wr => exact next_advances h ho
  | sendInLoop data wr => exact hsteady (Conn.steady_sendInLoop c data wr)
  | handleWrite wr => exact hsteady (.ok (Conn.steady_handleWrite c wr))
  | send message wr =>
      simp only [exec, Conn.send]
      split
      · exact hsteady (Conn.steady_sendInLoop c message wr)
      · exact hsteady (.ok (.refl c))
  | shutdown => exact hsteady (.ok (Conn.steady_shutdown c))
  | forceClose =>
      refine hsteady (.ok (Conn.steady_forceClose fun hd => ?_))
      exact absurd (ho hd).2.1 (by simp [forcesClose])
  | forceCloseWithDelay => exact hsteady (.ok (Conn.steady_forceCloseWithDelay c))
  | startRead =>
      refine hsteady (.ok (Conn.steady_startReadInLoop fun hd => ?_))
      exact absurd (ho hd).1 (by simp [startsRead])
  | stopRead => exact hsteady (.ok (Conn.steady_stopReadInLoop c))
  | runFunctor wr => exact runFunctor_advances h hen ho
  | timer =>
      have hpop : CloseInv { c with timers := c.timers - 1 } :=
        ⟨h.established, h.up, h.down, h.first, h.due⟩
      refine advances_of_steady hpop rfl (.ok (Conn.steady_forceClose fun hd => ?_))
      exact absurd (ho hd).2.1 (by simp [forcesClose])
  | threadSend message => exact hsteady (.ok (Conn.steady_threadSend c message))
  | threadSendPush k => exact hsteady (.ok (Conn.steady_threadSendPush c k))
  | threadShutdown => exact hsteady (.ok (Conn.steady_threadShutdown c))
  | threadShutdownPush =>
      exact hsteady (.ok ⟨rfl, rfl, rfl, fun h => h, fun h h' => ⟨h, h'⟩⟩)
  | threadStartRead => exact hsteady (.ok ⟨rfl, rfl, rfl, fun h => h, fun h h' => ⟨h, h'⟩⟩)
  | threadStopRead => exact hsteady (.ok ⟨rfl, rfl, rfl, fun h => h, fun h h' => ⟨h, h'⟩⟩)

/-! ## Runs -/

section Runs

variable {sockfd : Int} {writeComplete highWater : Bool} {mark : Nat}

theorem established_inv :
    Lands (exec (Conn.new sockfd writeComplete highWater mark) .connectEstablished) CloseInv := by
  refine .check_bind rfl (.ok ⟨by simp [Conn.observe, Conn.setChannel, Conn.setState], ?_, ?_, ?_, ?_⟩)
  · intro _
    exact ⟨rfl, rfl, by simp [Conn.observe, Conn.setChannel, Conn.setState, Conn.new]⟩
  · intro hd
    exact absurd hd (by simp [Conn.observe, Conn.setChannel, Conn.setState])
  · simp [Conn.observe, Conn.setChannel, Conn.setState, Conn.new]
  · intro hmem
    simp [Conn.observe, Conn.setChannel, Conn.setState, Conn.new] at hmem

/-- An orderly run from an established connection keeps the invariant; if it
starts closed, it stays closed. -/
theorem orderly_run {c : Conn} (h : CloseInv c) {acts : List Act}
    (hacts : connSys.Meets (fun c a => Enabled c a ∧ Orderly c a) c acts) :
    Lands (connSys.runFrom c acts) CloseInv ∧
      (c.state = .kDisconnected → Lands (connSys.runFrom c acts) fun c' =>
        CloseInv c' ∧ c'.state = .kDisconnected) := by
  refine ⟨Sys.invariant_lands (S := connSys) ?_ h hacts, fun hd => ?_⟩
  · intro c a h hok
    exact (exec_advances h a hok.1 hok.2).mono fun _ hc => hc.1
  · refine Sys.invariant_lands (S := connSys)
      (I := fun c => CloseInv c ∧ c.state = .kDisconnected) ?_ ⟨h, hd⟩ hacts
    intro c a hc hok
    exact (exec_advances hc.1 a hok.1 hok.2).mono fun _ hc' => ⟨hc'.1, hc'.2 hc.2⟩

/-- **A connection closes at most once and stays closed.** In every run that
begins with `connectEstablished` and in which, once the connection is down,
reading is not restarted, the close is not forced again and no zero read
follows in the dispatch that closed, no assertion fails, DOWN and the close
callback are each invoked at most once, and once the connection is down it is
down, without interest, in every later state. -/
theorem closes_at_most_once (acts : List Act)
    (hlegal : connSys.Legal (Conn.new sockfd writeComplete highWater mark)
      (.connectEstablished :: acts))
    (horderly : connSys.Meets Orderly (Conn.new sockfd writeComplete highWater mark)
      (.connectEstablished :: acts)) :
    Lands (connSys.runFrom (Conn.new sockfd writeComplete highWater mark)
        (.connectEstablished :: acts)) (fun c => downs c ≤ 1 ∧ closes c ≤ 1) ∧
      ∀ p q c, acts = p ++ q →
        connSys.runFrom (Conn.new sockfd writeComplete highWater mark)
          (.connectEstablished :: p) = .ok c →
        c.state = .kDisconnected →
        Lands (connSys.runFrom c q) fun c' =>
          c'.state = .kDisconnected ∧ c'.channel.events = Events.kNoneEvent := by
  have hmeets := Sys.meets_and.mpr ⟨hlegal, horderly⟩
  obtain ⟨-, hrest⟩ := Sys.meets_cons.mp hmeets
  obtain ⟨c₀, hexec, hinv₀⟩ : Lands (exec (Conn.new sockfd writeComplete highWater mark)
      .connectEstablished) CloseInv := established_inv
  have hacts := hrest c₀ hexec
  -- every run begins with the same first step
  have hrun : ∀ l, connSys.runFrom (Conn.new sockfd writeComplete highWater mark)
      (.connectEstablished :: l) = connSys.runFrom c₀ l := by
    intro l
    rw [Sys.runFrom_cons]
    change (exec _ .connectEstablished >>= _) = _
    rw [hexec, ok_bind]
  constructor
  · rw [hrun]
    refine (orderly_run hinv₀ hacts).1.mono fun c hc => ?_
    by_cases hd : c.state = .kDisconnected
    · obtain ⟨-, hdowns, hcloses⟩ := hc.down hd
      omega
    · obtain ⟨hdowns, hcloses, -⟩ := hc.up hd
      omega
  · rintro p q c rfl hp hd
    rw [hrun] at hp
    obtain ⟨hmp, hmq⟩ := Sys.meets_append.mp hacts
    have hc : CloseInv c := (orderly_run hinv₀ hmp).1.post c hp
    refine ((orderly_run hc (hmq c hp)).2 hd).mono fun c' hc' => ?_
    exact ⟨hc'.2, (hc'.1.down hc'.2).1⟩

end Runs

/-- The peer hangs up while a forced close is already queued: the queued one
finds the connection down. -/
theorem closes_at_most_once_hangup_before_forced :
    Lands (connSys.runFrom (Conn.new 5 true true 64)
      [.connectEstablished, .send [1, 2, 3] (.accepts 1), .forceClose,
        .poll { Events.kNoneEvent with pollhup := true }, .next .bytes (.accepts 0),
        .next .bytes (.accepts 0), .runFunctor (.accepts 0), .shutdown])
      fun c => downs c ≤ 1 ∧ closes c ≤ 1 :=
  (closes_at_most_once [.send [1, 2, 3] (.accepts 1), .forceClose,
    .poll { Events.kNoneEvent with pollhup := true }, .next .bytes (.accepts 0),
    .next .bytes (.accepts 0), .runFunctor (.accepts 0), .shutdown]
    (by decide +kernel) (by decide +kernel)).1

/-- `POLLHUP` together with `POLLPRI`: the close callback runs, then the read
callback finds the end of the stream and closes a second time. -/
theorem hangup_with_urgent_data_closes_twice :
    connSys.Legal (Conn.new 5 false false 64)
        [.connectEstablished,
          .poll { Events.kNoneEvent with pollpri := true, pollhup := true },
          .next .eof (.accepts 0), .next .eof (.accepts 0), .next .eof (.accepts 0)] ∧
      connSys.runFrom (Conn.new 5 false false 64)
        [.connectEstablished,
          .poll { Events.kNoneEvent with pollpri := true, pollhup := true },
          .next .eof (.accepts 0), .next .eof (.accepts 0), .next .eof (.accepts 0)] =
        .error .handleCloseState :=
  ⟨by decide +kernel, rfl⟩

end Muduo.Connection
