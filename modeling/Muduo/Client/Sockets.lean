import Muduo.Client.Connector

/-!
# The sockets of a connector

Every socket a connector creates is accounted for: the channel holds it while
the connector is connecting, and afterwards it has been closed or handed on,
once (`Accounted.all`). The channel of an attempt that is over stays in
`M_channel` until the queued `resetChannel` runs, so there is at most one such
functor in the queue, and it never finds the channel of a later attempt
(`Accounted.resets`): `connecting` asserts that `M_channel` is empty.
-/

namespace Muduo.Client

open Lib

/-- The socket of the attempt in flight. -/
def live (c : Connector) : List Nat :=
  match c.state, c.channel with
  | .kConnecting, some ch => [ch.fd.toNat]
  | _, _ => []

/-- The channel that `connecting` makes for a socket. -/
def attemptChannel (sockfd : Nat) : Channel := (Channel.new sockfd).enableWriting

structure Accounted (c : Connector) : Prop where
  all : (live c ++ (c.closed ++ c.passed)).Perm (List.range c.sockets)
  connecting : c.state = .kConnecting → ∃ sockfd, c.channel = some (attemptChannel sockfd)
  idle : c.state ≠ .kConnecting → ∀ ch, c.channel = some ch → ch.addedToLoop = false
  resets : c.pending.count .resetChannel =
    if c.state ≠ .kConnecting ∧ c.channel ≠ none then 1 else 0

theorem live_of_connecting {c : Connector} {sockfd : Nat} (hst : c.state = .kConnecting)
    (hch : c.channel = some (attemptChannel sockfd)) : live c = [sockfd] := by
  unfold live
  rw [hst, hch]
  rfl

theorem live_of_not_connecting {c : Connector} (hst : c.state ≠ .kConnecting) : live c = [] := by
  unfold live
  cases h : c.state with
  | kConnecting => exact absurd h hst
  | kDisconnected => rfl
  | kConnected => rfl

namespace Accounted

variable {c c' : Connector}

/-- Nothing happened to the sockets, and no attempt began or ended. -/
theorem frame (h : Accounted c) (hst : c'.state = .kConnecting ↔ c.state = .kConnecting)
    (hch : c'.channel = c.channel) (hsk : c'.sockets = c.sockets) (hcl : c'.closed = c.closed)
    (hpa : c'.passed = c.passed)
    (hpe : c'.pending.count .resetChannel = c.pending.count .resetChannel) : Accounted c' := by
  have hlive : live c' = live c := by
    by_cases hc : c.state = .kConnecting
    · obtain ⟨sockfd, hs⟩ := h.connecting hc
      rw [live_of_connecting hc hs, live_of_connecting (hst.mpr hc) (hch.trans hs)]
    · rw [live_of_not_connecting hc, live_of_not_connecting fun hc' => hc (hst.mp hc')]
  refine ⟨?_, fun hc => ?_, fun hc ch hs => ?_, ?_⟩
  · rw [hlive, hcl, hpa, hsk]
    exact h.all
  · rw [hch]
    exact h.connecting (hst.mp hc)
  · exact h.idle (fun hc' => hc (hst.mpr hc')) ch (hch ▸ hs)
  · rw [hpe, h.resets, hch]
    simp only [ne_eq, hst]

/-- Queueing anything but a `resetChannel`. -/
theorem queue (h : Accounted c) {f : Functor} (hf : f ≠ .resetChannel)
    (hst : c'.state = c.state) (hch : c'.channel = c.channel) (hsk : c'.sockets = c.sockets)
    (hcl : c'.closed = c.closed) (hpa : c'.passed = c.passed)
    (hpe : c'.pending = c.pending ++ [f]) : Accounted c' := by
  refine h.frame (by rw [hst]) hch hsk hcl hpa ?_
  rw [hpe, List.count_append, List.count_singleton]
  simp [hf]

/-- An attempt ends: its socket is closed or handed on, its channel is off the
loop, and the reset of the channel is queued. -/
theorem leave (h : Accounted c) (hc : c.state = .kConnecting) {sockfd : Nat}
    (hs : c.channel = some (attemptChannel sockfd)) (hst : c'.state ≠ .kConnecting)
    (hch : c'.channel = some (attemptChannel sockfd).disableAll.remove)
    (hsk : c'.sockets = c.sockets)
    (hgone : c'.closed = sockfd :: c.closed ∧ c'.passed = c.passed ∨
      c'.closed = c.closed ∧ c'.passed = sockfd :: c.passed)
    (hpe : c'.pending = c.pending ++ [.resetChannel]) : Accounted c' := by
  have hall := h.all
  rw [live_of_connecting hc hs] at hall
  -- while connecting no reset is queued, so the new one is the only one
  have hresets := h.resets
  rw [if_neg fun hn => hn.1 hc] at hresets
  refine ⟨?_, fun hc' => absurd hc' hst, fun _ ch hch' => ?_, ?_⟩
  · rw [live_of_not_connecting hst, List.nil_append, hsk]
    refine List.Perm.trans ?_ hall
    rcases hgone with ⟨hcl, hpa⟩ | ⟨hcl, hpa⟩
    · rw [hcl, hpa]
      exact .refl _
    · rw [hcl, hpa]
      exact List.perm_middle
  · rw [hch] at hch'
    cases hch'
    rfl
  · rw [hpe, List.count_append, hresets, if_pos ⟨hst, by rw [hch]; simp⟩]
    rfl

private theorem range_succ_perm (n : Nat) : (n :: List.range n).Perm (List.range (n + 1)) := by
  rw [List.range_succ]
  exact (List.perm_append_singleton n (List.range n)).symm

/-- A socket is created and closed at once. -/
theorem createClosed (h : Accounted c) (hc : c.state ≠ .kConnecting)
    (hst : c'.state ≠ .kConnecting) (hch : c'.channel = c.channel)
    (hsk : c'.sockets = c.sockets + 1) (hcl : c'.closed = c.sockets :: c.closed)
    (hpa : c'.passed = c.passed) (hpe : c'.pending = c.pending) : Accounted c' := by
  have hall := h.all
  rw [live_of_not_connecting hc, List.nil_append] at hall
  refine ⟨?_, fun hc' => absurd hc' hst, fun _ ch hs => h.idle hc ch (hch ▸ hs), ?_⟩
  · rw [live_of_not_connecting hst, List.nil_append, hcl, hpa, hsk]
    exact (hall.cons c.sockets).trans (range_succ_perm c.sockets)
  · rw [hpe, h.resets, hch]
    simp only [ne_eq, hc, hst]

/-- A socket is created, and an attempt with it begins. -/
theorem createHeld (h : Accounted c) (hc : c.state ≠ .kConnecting) (hnone : c.channel = none)
    (hst : c'.state = .kConnecting) (hch : c'.channel = some (attemptChannel c.sockets))
    (hsk : c'.sockets = c.sockets + 1) (hcl : c'.closed = c.closed)
    (hpa : c'.passed = c.passed) (hpe : c'.pending = c.pending) : Accounted c' := by
  have hall := h.all
  rw [live_of_not_connecting hc, List.nil_append] at hall
  refine ⟨?_, fun _ => ⟨_, hch⟩, fun hc' => absurd hst hc', ?_⟩
  · rw [live_of_connecting hst hch, hcl, hpa, hsk]
    exact (hall.cons c.sockets).trans (range_succ_perm c.sockets)
  · rw [hpe, h.resets, if_neg fun hn => hn.2 hnone, if_neg fun hn => hn.1 hst]

end Accounted

/-! ## What the operations can do -/

/-- The parts of a connector that neither a new attempt nor the end of one
touches. -/
structure SameCalls (c c' : Connector) : Prop where
  todo : c'.todo = c.todo
  starting : c'.starting = c.starting
  stopping : c'.stopping = c.stopping

/-- The attempt of `c`, with the socket `sockfd`, is over in `c'`. -/
structure Left (sockfd : Nat) (c c' : Connector) : Prop extends SameCalls c c' where
  state : c'.state = .kDisconnected ∨ c'.state = .kConnected ∧ c'.timers = c.timers
  channel : c'.channel = some (attemptChannel sockfd).disableAll.remove
  sockets : c'.sockets = c.sockets
  gone : c'.closed = sockfd :: c.closed ∧ c'.passed = c.passed ∨
    c'.closed = c.closed ∧ c'.passed = sockfd :: c.passed
  pending : c'.pending = c.pending ++ [.resetChannel]
  timers : c'.timers ≤ c.timers + 1

/-- A socket was created in `c'` and closed at once. -/
structure Tried (c c' : Connector) : Prop extends SameCalls c c' where
  state : c'.state = .kDisconnected
  channel : c'.channel = c.channel
  sockets : c'.sockets = c.sockets + 1
  closed : c'.closed = c.sockets :: c.closed
  passed : c'.passed = c.passed
  pending : c'.pending = c.pending
  timers : c'.timers ≤ c.timers + 1

/-- An attempt with a new socket is in flight in `c'`. -/
structure Began (c c' : Connector) : Prop extends SameCalls c c' where
  none_before : c.channel = none
  state : c'.state = .kConnecting
  channel : c'.channel = some (attemptChannel c.sockets)
  sockets : c'.sockets = c.sockets + 1
  closed : c'.closed = c.closed
  passed : c'.passed = c.passed
  pending : c'.pending = c.pending
  timers : c'.timers = c.timers

namespace Connector

/-- The channel goes off the loop; the attempt is over once its socket is
closed or handed on. -/
theorem removeAndResetChannel_of {c : Connector} {sockfd : Nat}
    (hs : c.channel = some (attemptChannel sockfd)) :
    c.removeAndResetChannel = .ok (({ c with
      channel := some (attemptChannel sockfd).disableAll.remove }).queueInLoop .resetChannel,
      sockfd) := by
  unfold removeAndResetChannel
  rw [hs]
  rfl

@[simp] theorem retry_state (c : Connector) (sockfd : Nat) :
    (c.retry sockfd).state = .kDisconnected := by
  unfold retry
  dsimp only
  split
  · rfl
  · rfl

@[simp] theorem retry_passed (c : Connector) (sockfd : Nat) :
    (c.retry sockfd).passed = c.passed := by
  unfold retry
  dsimp only
  split
  · rfl
  · rfl

@[simp] theorem retry_sockets (c : Connector) (sockfd : Nat) :
    (c.retry sockfd).sockets = c.sockets := by
  unfold retry
  dsimp only
  split
  · rfl
  · rfl

theorem retry_left {c c₁ : Connector} {sockfd : Nat}
    (h₁ : c₁.channel = some (attemptChannel sockfd).disableAll.remove)
    (hpe : c₁.pending = c.pending ++ [.resetChannel]) (hsk : c₁.sockets = c.sockets)
    (hcl : c₁.closed = c.closed) (hpa : c₁.passed = c.passed) (hti : c₁.timers = c.timers)
    (hcalls : SameCalls c c₁) : Left sockfd c (c₁.retry sockfd) := by
  have hgone : (c₁.close sockfd).closed = sockfd :: c.closed := congrArg (sockfd :: ·) hcl
  unfold retry
  dsimp only
  split
  · exact ⟨⟨hcalls.todo, hcalls.starting, hcalls.stopping⟩, .inl rfl, h₁, hsk,
      .inl ⟨hgone, hpa⟩, hpe, Nat.le_of_eq (congrArg (· + 1) hti)⟩
  · exact ⟨⟨hcalls.todo, hcalls.starting, hcalls.stopping⟩, .inl rfl, h₁, hsk,
      .inl ⟨hgone, hpa⟩, hpe, Nat.le_succ_of_le (Nat.le_of_eq hti)⟩

theorem handleError_spec {c : Connector} (h : Accounted c) : Lands c.handleError fun c' =>
    c' = c ∨ c.state = .kConnecting ∧ ∃ sockfd, c.channel = some (attemptChannel sockfd) ∧
      Left sockfd c c' := by
  unfold handleError
  split
  · rename_i hc
    obtain ⟨sockfd, hs⟩ := h.connecting hc
    rw [removeAndResetChannel_of hs, ok_bind]
    exact .ok (.inr ⟨hc, sockfd, hs, retry_left rfl rfl rfl rfl rfl rfl ⟨rfl, rfl, rfl⟩⟩)
  · exact .ok (.inl rfl)

theorem stopInLoop_spec {c : Connector} (h : Accounted c) : Lands c.stopInLoop fun c' =>
    c' = c ∨ c.state = .kConnecting ∧ ∃ sockfd, c.channel = some (attemptChannel sockfd) ∧
      Left sockfd c c' := by
  unfold stopInLoop
  split
  · rename_i hc
    obtain ⟨sockfd, hs⟩ := h.connecting hc
    rw [removeAndResetChannel_of (c := c.setState .kDisconnected) hs, ok_bind]
    exact .ok (.inr ⟨hc, sockfd, hs, retry_left rfl rfl rfl rfl rfl rfl ⟨rfl, rfl, rfl⟩⟩)
  · exact .ok (.inl rfl)

/-- `handleWrite` while connecting: whatever the socket says, the attempt is
over. -/
theorem handleWrite_connecting {c : Connector} (h : Accounted c) (hc : c.state = .kConnecting)
    (err selfConnect : Bool) : Lands (c.handleWrite err selfConnect) fun c' =>
      ∃ sockfd, c.channel = some (attemptChannel sockfd) ∧ Left sockfd c c' := by
  obtain ⟨sockfd, hs⟩ := h.connecting hc
  unfold handleWrite
  rw [if_pos hc, removeAndResetChannel_of hs, ok_bind]
  dsimp only
  have hretry : Left sockfd c ((({ c with
      channel := some (attemptChannel sockfd).disableAll.remove }).queueInLoop
        .resetChannel).retry sockfd) :=
    retry_left rfl rfl rfl rfl rfl rfl ⟨rfl, rfl, rfl⟩
  split
  · exact .ok ⟨sockfd, hs, hretry⟩
  · split
    · exact .ok ⟨sockfd, hs, hretry⟩
    · split
      · exact .ok ⟨sockfd, hs, ⟨rfl, rfl, rfl⟩, .inr ⟨rfl, rfl⟩, rfl, rfl, .inr ⟨rfl, rfl⟩, rfl,
          Nat.le_succ _⟩
      · exact .ok ⟨sockfd, hs, ⟨rfl, rfl, rfl⟩, .inr ⟨rfl, rfl⟩, rfl, rfl, .inl ⟨rfl, rfl⟩, rfl,
          Nat.le_succ _⟩

/-- `startInLoop`, if it returns: nothing, a socket closed at once, or a new
attempt. -/
theorem startInLoop_post {c : Connector} (savedErrno : Option Errno) :
    Post (c.startInLoop savedErrno) fun c' =>
      c.state = .kDisconnected ∧ (c' = c ∨ Tried c c' ∨ Began c c') := by
  unfold startInLoop
  refine .check_bind fun hc => ?_
  split
  · unfold doConnect
    dsimp only
    cases outcome savedErrno with
    | connecting =>
        refine .check_bind fun hnone => .ok ⟨hc, .inr (.inr ?_)⟩
        exact ⟨⟨rfl, rfl, rfl⟩, hnone, rfl, rfl, rfl, rfl, rfl, rfl, rfl⟩
    | retry =>
        refine .ok ⟨hc, .inr (.inl ?_)⟩
        unfold retry
        dsimp only
        split
        · exact ⟨⟨rfl, rfl, rfl⟩, rfl, rfl, rfl, rfl, rfl, rfl, Nat.le_refl _⟩
        · exact ⟨⟨rfl, rfl, rfl⟩, rfl, rfl, rfl, rfl, rfl, rfl, Nat.le_succ _⟩
    | giveUp =>
        exact .ok ⟨hc, .inr (.inl ⟨⟨rfl, rfl, rfl⟩, hc, rfl, rfl, rfl, rfl, rfl, Nat.le_succ _⟩)⟩
  · exact .ok ⟨hc, .inl rfl⟩

/-- With `M_connect` set, `startInLoop` creates a socket. -/
theorem startInLoop_creates {c : Connector} (hconnect : c.connect = true)
    (savedErrno : Option Errno) :
    Post (c.startInLoop savedErrno) fun c' => c'.sockets = c.sockets + 1 := by
  unfold startInLoop
  refine .check_bind fun _ => ?_
  rw [if_pos hconnect]
  unfold doConnect
  dsimp only
  cases outcome savedErrno with
  | connecting => exact .check_bind fun _ => .ok rfl
  | retry => exact .ok (retry_sockets _ _)
  | giveUp => exact .ok rfl

end Connector

theorem Accounted.left {c c' : Connector} {sockfd : Nat} (h : Accounted c)
    (hc : c.state = .kConnecting) (hs : c.channel = some (attemptChannel sockfd))
    (hl : Left sockfd c c') : Accounted c' := by
  refine h.leave hc hs ?_ hl.channel hl.sockets hl.gone hl.pending
  rcases hl.state with hst | ⟨hst, -⟩ <;> rw [hst] <;> simp

theorem Accounted.started {c c' : Connector} (h : Accounted c) (hd : c.state = .kDisconnected)
    (hs : c' = c ∨ Tried c c' ∨ Began c c') : Accounted c' := by
  have hc : c.state ≠ .kConnecting := by rw [hd]; simp
  rcases hs with rfl | ht | hb
  · exact h
  · exact h.createClosed hc (by rw [ht.state]; simp) ht.channel ht.sockets ht.closed ht.passed
      ht.pending
  · exact h.createHeld hc hb.none_before hb.state hb.channel hb.sockets hb.closed hb.passed
      hb.pending

/-! ## Steps and runs -/

/-- `startInLoop`, after whatever its caller did before it. -/
theorem startInLoop_accounted {c : Connector} (h : Accounted c) (savedErrno : Option Errno) :
    Post (c.startInLoop savedErrno) Accounted :=
  (Connector.startInLoop_post savedErrno).mono fun _ hs => h.started hs.1 hs.2

private theorem accounted_of_left {c c' : Connector} (h : Accounted c)
    (hs : c' = c ∨ c.state = .kConnecting ∧ ∃ sockfd, c.channel = some (attemptChannel sockfd) ∧
      Left sockfd c c') : Accounted c' := by
  rcases hs with rfl | ⟨hc, sockfd, hs, hl⟩
  · exact h
  · exact h.left hc hs hl

/-- The queued reset finds a channel that is off the loop. -/
theorem resetChannel_accounted {c : Connector} (h : Accounted c) {rest : List Functor}
    (hpend : c.pending = .resetChannel :: rest) :
    Accounted ({ c with pending := rest }.resetChannel) := by
  have hresets := h.resets
  rw [hpend, List.count_cons_self] at hresets
  have hstale : c.state ≠ .kConnecting ∧ c.channel ≠ none := by
    by_contra hn
    rw [if_neg hn] at hresets
    exact absurd hresets (by simp)
  rw [if_pos hstale] at hresets
  refine ⟨?_, fun hc => absurd hc hstale.1,
    fun _ ch hch => absurd hch (by simp [Connector.resetChannel]), ?_⟩
  · have hall := h.all
    rw [live_of_not_connecting hstale.1] at hall
    have hnil : live ({ c with pending := rest }.resetChannel) = [] :=
      live_of_not_connecting hstale.1
    rw [hnil]
    exact hall
  · rw [if_neg fun hn => hn.2 rfl]
    show rest.count .resetChannel = 0
    omega

theorem runFunctor_accounted {c : Connector} (h : Accounted c) (savedErrno : Option Errno) :
    Post (exec c (.runFunctor savedErrno)) Accounted := by
  simp only [exec]
  cases hpend : c.pending with
  | nil => exact .ok h
  | cons f rest =>
      dsimp only
      have hpop : f ≠ .resetChannel → Accounted { c with pending := rest } := by
        intro hf
        refine h.frame Iff.rfl rfl rfl rfl rfl ?_
        rw [hpend, List.count_cons_of_ne hf]
      cases f with
      | startInLoop => exact startInLoop_accounted (hpop (by simp)) savedErrno
      | stopInLoop =>
          have h' := hpop (by simp)
          exact (Connector.stopInLoop_spec h').post.mono fun _ hs => accounted_of_left h' hs
      | resetChannel => exact .ok (resetChannel_accounted h hpend)

theorem next_accounted {c : Connector} (h : Accounted c) (err selfConnect : Bool) :
    Post (exec c (.next err selfConnect)) Accounted := by
  simp only [exec]
  cases htodo : c.todo with
  | nil => exact .ok h
  | cons cb rest =>
      dsimp only
      have hpop : Accounted { c with todo := rest } := h.frame Iff.rfl rfl rfl rfl rfl rfl
      cases cb with
      | close => exact .ok hpop
      | read => exact .ok hpop
      | error =>
          exact (Connector.handleError_spec hpop).post.mono fun _ hs => accounted_of_left hpop hs
      | write =>
          show Post (Connector.handleWrite _ err selfConnect) Accounted
          by_cases hc : c.state = .kConnecting
          · refine (Connector.handleWrite_connecting hpop hc err selfConnect).post.mono ?_
            rintro c' ⟨sockfd, hs, hl⟩
            exact hpop.left hc hs hl
          · -- an error callback of the same dispatch has ended the attempt
            unfold Connector.handleWrite
            rw [if_neg hc]
            exact .check_bind fun _ => .ok hpop

theorem exec_accounted {c : Connector} (h : Accounted c) (a : Act) (hen : Enabled c a) :
    Post (exec c a) Accounted := by
  have hflag : ∀ b, Accounted { c with connect := b } :=
    fun b => h.frame Iff.rfl rfl rfl rfl rfl rfl
  cases a with
  | start savedErrno => exact startInLoop_accounted (hflag true) savedErrno
  | stop => exact .ok (h.queue (f := .stopInLoop) (by simp) rfl rfl rfl rfl rfl rfl)
  | restart savedErrno =>
      -- the assignment of `kDisconnected` hides no attempt in flight
      have hc : c.state ≠ .kConnecting := hen
      refine startInLoop_accounted ?_ savedErrno
      refine h.frame ?_ rfl rfl rfl rfl rfl
      exact iff_of_false (by simp) hc
  | threadStart => exact .ok (h.frame Iff.rfl rfl rfl rfl rfl rfl)
  | threadStartPush => exact .ok (h.queue (f := .startInLoop) (by simp) rfl rfl rfl rfl rfl rfl)
  | threadStop => exact .ok (h.frame Iff.rfl rfl rfl rfl rfl rfl)
  | threadStopPush => exact .ok (h.queue (f := .stopInLoop) (by simp) rfl rfl rfl rfl rfl rfl)
  | runFunctor savedErrno => exact runFunctor_accounted h savedErrno
  | timer savedErrno =>
      have hpop : Accounted { c with timers := c.timers - 1 } :=
        h.frame Iff.rfl rfl rfl rfl rfl rfl
      exact startInLoop_accounted hpop savedErrno
  | poll revents => exact .ok (h.frame Iff.rfl rfl rfl rfl rfl rfl)
  | next err selfConnect => exact next_accounted h err selfConnect

theorem new_accounted : Accounted Connector.new := by
  refine ⟨.refl _, fun hc => absurd hc (by simp [Connector.new]),
    fun _ ch hch => absurd hch (by simp [Connector.new]), ?_⟩
  rw [if_neg fun hn => hn.2 rfl]
  rfl

/-- Without a queued reset, a connector that is not connecting has no channel. -/
theorem Accounted.no_channel {c : Connector} (h : Accounted c) (hc : c.state ≠ .kConnecting)
    (hno : .resetChannel ∉ c.pending) : c.channel = none := by
  have hresets := h.resets
  rw [List.count_eq_zero.mpr hno] at hresets
  by_contra hch
  rw [if_pos ⟨hc, hch⟩] at hresets
  exact absurd hresets (by simp)

/-- `startInLoop` on a disconnected connector without a channel. -/
theorem startInLoop_lands {c : Connector} (hd : c.state = .kDisconnected)
    (hnone : c.channel = none) (savedErrno : Option Errno) :
    Lands (c.startInLoop savedErrno) fun c' => c' = c ∨ Tried c c' ∨ Began c c' := by
  have hret : ∃ c', c.startInLoop savedErrno = .ok c' := by
    unfold Connector.startInLoop
    rw [check_of _ hd, ok_bind]
    split
    · unfold Connector.doConnect
      dsimp only
      cases Connector.outcome savedErrno with
      | connecting =>
          have hnone' : (c.createSocket.setState .kConnecting).channel = none := hnone
          unfold Connector.connecting
          dsimp only
          rw [check_of _ hnone', ok_bind]
          exact ⟨_, rfl⟩
      | retry => exact ⟨_, rfl⟩
      | giveUp => exact ⟨_, rfl⟩
    · exact ⟨_, rfl⟩
  obtain ⟨c', hc'⟩ := hret
  exact ⟨c', hc', (Connector.startInLoop_post savedErrno c' hc').2⟩

/-- The socket is the descriptor of the registered channel of an attempt in
flight. -/
def Held (c : Connector) (sockfd : Nat) : Prop :=
  c.state = .kConnecting ∧ ∃ ch, c.channel = some ch ∧ ch.fd = sockfd ∧ ch.addedToLoop = true

theorem Accounted.held_iff {c : Connector} (h : Accounted c) (sockfd : Nat) :
    Held c sockfd ↔ sockfd ∈ live c := by
  by_cases hc : c.state = .kConnecting
  · obtain ⟨i, hs⟩ := h.connecting hc
    rw [live_of_connecting hc hs, List.mem_singleton]
    constructor
    · rintro ⟨-, ch, hch, hfd, -⟩
      rw [hs] at hch
      cases hch
      exact (Int.ofNat.inj hfd).symm
    · rintro rfl
      exact ⟨hc, _, hs, rfl, rfl⟩
  · rw [live_of_not_connecting hc]
    exact iff_of_false (fun hh => hc hh.1) (by simp)

/-- **No socket is leaked or closed twice.** In every run, up to an assertion,
every socket created is in exactly one of three conditions: it is held by the
registered channel of the attempt in flight, it has been closed once, or it has
been handed on once and not closed. At most one is held. -/
theorem sockets_accounted (acts : List Act) (h : connectorSys.Legal Connector.new acts) :
    Post (connectorSys.runFrom Connector.new acts) fun c =>
      (∀ i, i < c.sockets →
        (Held c i ∧ c.closed.count i = 0 ∧ c.passed.count i = 0) ∨
        (¬ Held c i ∧ c.closed.count i = 1 ∧ c.passed.count i = 0) ∨
        (¬ Held c i ∧ c.closed.count i = 0 ∧ c.passed.count i = 1)) ∧
      ∀ i j, Held c i → Held c j → i = j := by
  have hrun := Sys.invariant_post (S := connectorSys) (fun c a h hen => exec_accounted h a hen)
    new_accounted h
  refine hrun.mono fun c hc => ⟨fun i hi => ?_, ?_⟩
  · -- the three lists together hold every socket exactly once
    have hone : (live c).count i + (c.closed.count i + c.passed.count i) = 1 := by
      rw [← List.count_append, ← List.count_append, hc.all.count_eq]
      exact List.count_eq_one_of_mem List.nodup_range (List.mem_range.mpr hi)
    rw [hc.held_iff i, ← List.count_pos_iff]
    omega
  · rintro i j ⟨-, ch, hch, hi, -⟩ ⟨-, ch', hch', hj, -⟩
    rw [hch] at hch'
    cases hch'
    exact Int.ofNat.inj (hi.symm.trans hj)

/-- A refused attempt, one that fails in a dispatch with both an error and a
write event, one abandoned by `stop`, and one that succeeds. -/
theorem sockets_accounted_four_attempts :
    Post (connectorSys.runFrom Connector.new
      [.start (some .ECONNREFUSED), .timer (some .EINPROGRESS),
        .poll { Events.kNoneEvent with pollerr := true, pollout := true }, .next true false,
        .next true false, .runFunctor none, .timer none, .threadStop, .threadStopPush,
        .runFunctor none, .runFunctor none, .start none,
        .poll { Events.kNoneEvent with pollout := true }, .next false false]) fun c =>
      (∀ i, i < c.sockets →
        (Held c i ∧ c.closed.count i = 0 ∧ c.passed.count i = 0) ∨
        (¬ Held c i ∧ c.closed.count i = 1 ∧ c.passed.count i = 0) ∨
        (¬ Held c i ∧ c.closed.count i = 0 ∧ c.passed.count i = 1)) ∧
      ∀ i j, Held c i → Held c j → i = j :=
  sockets_accounted _ (by decide +kernel)

end Muduo.Client
