import Muduo.Client.Connector

/-!
# A stopped connector

`Client.Connector` takes a function of the loop thread as one step. Whether a `stop`
in another thread comes in time depends on less: such a function reads `M_connect`,
and what it does next it does even if `stop` has been called in between. Here the
functions are cut at these places (`Decided`), and the calls of other threads fall
between the pieces.

So a socket may be created, a timer started or a connection handed on after `stop()`
has been called; but not after `stopInLoop`, which the loop thread runs when it is
through with the function that `stop` overtook.
-/

namespace Muduo.Client

open Lib Connector

/-- What a function of the loop thread is about to do: to enter `startInLoop`, or
what stands behind a test of `M_connect` that it has passed. -/
inductive Decided
  | startInLoop (savedErrno : Option Errno)
  | connect (savedErrno : Option Errno)
  | runAfter
  | newConnection (sockfd : Nat)
  deriving DecidableEq, Repr

/-- A connector, and where its loop thread is. -/
structure Interleaved where
  conn : Connector
  /-- `none` while the loop thread is in no function of the connector. -/
  decided : Option Decided
  /-- The number of calls of `runAfter`. -/
  scheduled : Nat

namespace Interleaved

def new : Interleaved := ⟨.new, none, 0⟩

/-- The function of the loop thread is through. -/
def done (s : Interleaved) (c : Connector) : Interleaved := { s with conn := c, decided := none }

/-- The function stops short of `d`. -/
def about (s : Interleaved) (c : Connector) (d : Decided) : Interleaved :=
  { s with conn := c, decided := some d }

/-- `startInLoop`, up to `connect`. -/
def startInLoop (s : Interleaved) (c : Connector) (savedErrno : Option Errno) :
    Except Assert Interleaved := do
  check .startInLoopState (c.state = .kDisconnected)
  return if c.connect = true then s.about c (.connect savedErrno) else s.done c

/-- `retry`, up to `runAfter`. -/
def retry (s : Interleaved) (c : Connector) (sockfd : Nat) : Interleaved :=
  let c := (c.close sockfd).setState .kDisconnected
  if c.connect = true then s.about c .runAfter else s.done c

/-- `connect`, up to the end of a `retry` in it. -/
def doConnect (s : Interleaved) (c : Connector) (savedErrno : Option Errno) :
    Except Assert Interleaved :=
  let sockfd := c.sockets
  let c := c.createSocket
  match outcome savedErrno with
  | .connecting => do
      let c ← c.connecting sockfd
      return s.done c
  | .retry => .ok (s.retry c sockfd)
  | .giveUp => .ok (s.done (c.close sockfd))

/-- `runAfter` in `retry`. -/
def runAfter (s : Interleaved) (c : Connector) : Interleaved :=
  { conn := { c with
      timers := c.timers + 1, retryDelayMs := min (c.retryDelayMs * 2) kMaxRetryDelayMs }
    decided := none
    scheduled := s.scheduled + 1 }

def stopInLoop (s : Interleaved) (c : Connector) : Except Assert Interleaved :=
  if c.state = .kConnecting then do
    let (c, sockfd) ← (c.setState .kDisconnected).removeAndResetChannel
    return s.retry c sockfd
  else .ok (s.done c)

/-- `handleWrite`, up to the invocation of `M_newConnectionCallback`. -/
def handleWrite (s : Interleaved) (c : Connector) (err selfConnect : Bool) :
    Except Assert Interleaved :=
  if c.state = .kConnecting then do
    let (c, sockfd) ← c.removeAndResetChannel
    if err = true then
      return s.retry c sockfd
    else if selfConnect = true then
      return s.retry c sockfd
    else
      let c := c.setState .kConnected
      if c.connect = true then return s.about c (.newConnection sockfd)
      else return s.done (c.close sockfd)
  else do
    check .handleWriteState (c.state = .kDisconnected)
    return s.done c

def handleError (s : Interleaved) (c : Connector) : Except Assert Interleaved :=
  if c.state = .kConnecting then do
    let (c, sockfd) ← c.removeAndResetChannel
    return s.retry c sockfd
  else .ok (s.done c)

def runTodo (s : Interleaved) (c : Connector) (err selfConnect : Bool) :
    Callback → Except Assert Interleaved
  | .error => s.handleError c
  | .write => s.handleWrite c err selfConnect
  | .close | .read => .ok (s.done c)

def runFunctor (s : Interleaved) (c : Connector) (savedErrno : Option Errno) :
    Functor → Except Assert Interleaved
  | .startInLoop => s.startInLoop c savedErrno
  | .stopInLoop => s.stopInLoop c
  | .resetChannel => .ok (s.done c.resetChannel)

/-- The loop thread goes on. -/
def proceed (s : Interleaved) : Except Assert Interleaved :=
  match s.decided with
  | none => .ok s
  | some (.startInLoop savedErrno) => s.startInLoop s.conn savedErrno
  | some (.connect savedErrno) => s.doConnect s.conn savedErrno
  | some .runAfter => .ok (s.runAfter s.conn)
  | some (.newConnection sockfd) => .ok (s.done (s.conn.newConnection sockfd))

/-- The first piece of an operation. -/
def begin (s : Interleaved) : Act → Except Assert Interleaved
  | .start savedErrno => .ok (s.about { s.conn with connect := true } (.startInLoop savedErrno))
  | .stop => .ok (s.done s.conn.stop)
  | .restart savedErrno => .ok (s.about
      { s.conn with state := .kDisconnected, retryDelayMs := kInitRetryDelayMs, connect := true }
      (.startInLoop savedErrno))
  | .runFunctor savedErrno =>
      match s.conn.pending with
      | f :: rest => s.runFunctor { s.conn with pending := rest } savedErrno f
      | [] => .ok s
  | .timer savedErrno => s.startInLoop { s.conn with timers := s.conn.timers - 1 } savedErrno
  | .poll revents => .ok (s.done { s.conn with todo := Connector.handleEvent revents })
  | .next err selfConnect =>
      match s.conn.todo with
      | cb :: rest => s.runTodo { s.conn with todo := rest } err selfConnect cb
      | [] => .ok s
  -- the calls of other threads, wherever the loop thread is
  | .threadStart =>
      .ok { s with conn := { s.conn with connect := true, starting := s.conn.starting + 1 } }
  | .threadStartPush => .ok { s with
      conn := { s.conn with starting := s.conn.starting - 1 }.queueInLoop .startInLoop }
  | .threadStop =>
      .ok { s with conn := { s.conn with connect := false, stopping := s.conn.stopping + 1 } }
  | .threadStopPush => .ok { s with
      conn := { s.conn with stopping := s.conn.stopping - 1 }.queueInLoop .stopInLoop }

end Interleaved

/-- The operation is a piece of a call in another thread. -/
def Act.ofThread : Act → Bool
  | .threadStart | .threadStartPush | .threadStop | .threadStopPush => true
  | _ => false

/-- The operation is a call of `restart`. -/
def Act.restarts : Act → Bool
  | .restart _ => true
  | _ => false

inductive Step
  | act (a : Act)
  | proceed
  deriving DecidableEq, Repr

namespace Interleaved

def exec (s : Interleaved) : Step → Except Assert Interleaved
  | .act a => s.begin a
  | .proceed => s.proceed

/-- The loop thread begins with nothing before it is through; `restart` may be called
even while an attempt is in flight. -/
def Enabled (s : Interleaved) : Step → Prop
  | .act a => (a.restarts = true ∨ Client.Enabled s.conn a) ∧ (a.ofThread = true ∨ s.decided = none)
  | .proceed => s.decided ≠ none

instance decidableEnabled (s : Interleaved) : ∀ a, Decidable (s.Enabled a)
  | .act _ => inferInstanceAs (Decidable (_ ∧ _))
  | .proceed => inferInstanceAs (Decidable (_ ≠ _))

end Interleaved

def interleavedSys : Sys Interleaved Step Assert := ⟨Interleaved.Enabled, Interleaved.exec⟩

instance (s : Interleaved) (a : Step) : Decidable (interleavedSys.enabled s a) :=
  s.decidableEnabled a

/-! ## The pieces make up the operation -/

/-- From here, with no other thread coming in between, the loop thread gets through
with `c'`. -/
def Reaches (x : Except Assert Interleaved) (c' : Connector) : Prop :=
  ∃ n k, (x >>= fun s => interleavedSys.runFrom s (List.replicate n .proceed)) =
    .ok ⟨c', none, k⟩

section Pieces

variable (s : Interleaved) {c c' : Connector}

theorem reaches_done (c : Connector) : Reaches (.ok (s.done c)) c := ⟨0, s.scheduled, rfl⟩

/-- One piece more. -/
theorem Reaches.about {d : Decided} (h : Reaches (s.about c d).proceed c') :
    Reaches (.ok (s.about c d)) c' := by
  obtain ⟨n, k, hrun⟩ := h
  exact ⟨n + 1, k, hrun⟩

theorem reaches_retry (c : Connector) (sockfd : Nat) :
    Reaches (.ok (s.retry c sockfd)) (c.retry sockfd) := by
  unfold Interleaved.retry Connector.retry
  dsimp only
  split
  · exact .about s ⟨0, s.scheduled + 1, rfl⟩
  · exact reaches_done s _

theorem reaches_doConnect {savedErrno : Option Errno} (h : c.doConnect savedErrno = .ok c') :
    Reaches (s.doConnect c savedErrno) c' := by
  unfold Connector.doConnect at h
  unfold Interleaved.doConnect
  dsimp only at h ⊢
  cases houtcome : outcome savedErrno with
  | connecting =>
      rw [houtcome] at h
      have h : c.createSocket.connecting c.sockets = .ok c' := h
      dsimp only
      rw [h]
      exact reaches_done s c'
  | retry =>
      rw [houtcome] at h
      obtain rfl := Except.ok.inj h
      exact reaches_retry s _ _
  | giveUp =>
      rw [houtcome] at h
      obtain rfl := Except.ok.inj h
      exact reaches_done s _

theorem reaches_startInLoop {savedErrno : Option Errno} (h : c.startInLoop savedErrno = .ok c') :
    Reaches (s.startInLoop c savedErrno) c' := by
  unfold Connector.startInLoop at h
  unfold Interleaved.startInLoop
  obtain ⟨u, hu, h⟩ := bind_eq_ok h
  rw [hu, ok_bind]
  split at h
  · rw [if_pos ‹_›]
    exact .about s (reaches_doConnect _ h)
  · obtain rfl := Except.ok.inj h
    rw [if_neg ‹_›]
    exact reaches_done s _

theorem reaches_stopInLoop (h : c.stopInLoop = .ok c') : Reaches (s.stopInLoop c) c' := by
  unfold Connector.stopInLoop at h
  unfold Interleaved.stopInLoop
  split at h
  · rw [if_pos ‹_›]
    obtain ⟨r, hr, h⟩ := bind_eq_ok h
    obtain rfl := Except.ok.inj h
    rw [hr, ok_bind]
    exact reaches_retry s _ _
  · obtain rfl := Except.ok.inj h
    rw [if_neg ‹_›]
    exact reaches_done s _

theorem reaches_handleWrite {err selfConnect : Bool} (h : c.handleWrite err selfConnect = .ok c') :
    Reaches (s.handleWrite c err selfConnect) c' := by
  unfold Connector.handleWrite at h
  unfold Interleaved.handleWrite
  split at h
  · rw [if_pos ‹_›]
    obtain ⟨⟨c₁, sockfd⟩, hr, h⟩ := bind_eq_ok h
    rw [hr, ok_bind]
    dsimp only at h ⊢
    split at h
    · rw [if_pos ‹_›]
      obtain rfl := Except.ok.inj h
      exact reaches_retry s _ _
    · rw [if_neg ‹_›]
      split at h
      · rw [if_pos ‹_›]
        obtain rfl := Except.ok.inj h
        exact reaches_retry s _ _
      · rw [if_neg ‹_›]
        split at h
        · rw [if_pos ‹_›]
          obtain rfl := Except.ok.inj h
          exact .about s (reaches_done _ _)
        · rw [if_neg ‹_›]
          obtain rfl := Except.ok.inj h
          exact reaches_done s _
  · rw [if_neg ‹_›]
    obtain ⟨u, hu, h⟩ := bind_eq_ok h
    obtain rfl := Except.ok.inj h
    rw [hu, ok_bind]
    exact reaches_done s _

theorem reaches_handleError (h : c.handleError = .ok c') : Reaches (s.handleError c) c' := by
  unfold Connector.handleError at h
  unfold Interleaved.handleError
  split at h
  · rw [if_pos ‹_›]
    obtain ⟨r, hr, h⟩ := bind_eq_ok h
    obtain rfl := Except.ok.inj h
    rw [hr, ok_bind]
    exact reaches_retry s _ _
  · obtain rfl := Except.ok.inj h
    rw [if_neg ‹_›]
    exact reaches_done s _

end Pieces

/-- **The pieces make up the operation.** What `exec` does in one step is what its
pieces do when no other thread comes in between. -/
theorem reaches_exec (c c' : Connector) (k : Nat) (a : Act) (h : exec c a = .ok c') :
    Reaches (Interleaved.begin ⟨c, none, k⟩ a) c' := by
  cases a with
  | start savedErrno => exact .about _ (reaches_startInLoop _ h)
  | restart savedErrno => exact .about _ (reaches_startInLoop _ h)
  | stop | threadStart | threadStartPush | threadStop | threadStopPush | poll revents =>
      obtain rfl := Except.ok.inj h
      exact ⟨0, k, rfl⟩
  | timer savedErrno => exact reaches_startInLoop _ h
  | runFunctor savedErrno =>
      cases hpending : c.pending with
      | nil =>
          simp only [exec, hpending] at h
          obtain rfl := Except.ok.inj h
          simp only [Interleaved.begin, hpending]
          exact ⟨0, k, rfl⟩
      | cons f rest =>
          simp only [exec, hpending] at h
          simp only [Interleaved.begin, hpending]
          cases f with
          | startInLoop => exact reaches_startInLoop _ h
          | stopInLoop => exact reaches_stopInLoop _ h
          | resetChannel =>
              obtain rfl := Except.ok.inj h
              exact reaches_done _ _
  | next err selfConnect =>
      cases htodo : c.todo with
      | nil =>
          simp only [exec, htodo] at h
          obtain rfl := Except.ok.inj h
          simp only [Interleaved.begin, htodo]
          exact ⟨0, k, rfl⟩
      | cons cb rest =>
          simp only [exec, htodo] at h
          simp only [Interleaved.begin, htodo]
          cases cb with
          | error => exact reaches_handleError _ h
          | write => exact reaches_handleWrite _ h
          | close | read =>
              obtain rfl := Except.ok.inj h
              exact reaches_done _ _

/-! ## After the stop -/

/-- The step is a call of `start` or `restart`. -/
def Step.starts : Step → Bool
  | .act (.start _) | .act (.restart _) | .act .threadStart => true
  | _ => false

/-- The step is a call of `stop`. -/
def Step.stops : Step → Bool
  | .act .stop | .act .threadStop => true
  | _ => false

/-- `stop` was called, `stopInLoop` has run since, and neither `start` nor `restart`
was called in the meantime. -/
def Stopped (acts : List Step) : Prop :=
  ∃ pre stop before savedErrno since s,
    acts = pre ++ stop :: (before ++ .act (.runFunctor savedErrno) :: since) ∧
    stop.stops = true ∧ (∀ a ∈ before, a.starts = false) ∧ (∀ a ∈ since, a.starts = false) ∧
    interleavedSys.runFrom .new (pre ++ stop :: before) = .ok s ∧
    s.conn.pending.head? = some .stopInLoop

/-- Between the two states no socket was created, no retry timer was scheduled, and
`M_newConnectionCallback` was not invoked. -/
structure Unmoved (s s' : Interleaved) : Prop where
  sockets : s'.conn.sockets = s.conn.sockets
  scheduled : s'.scheduled = s.scheduled
  passed : s'.conn.passed = s.conn.passed

/-- The connector is stopped, and the loop thread is in none of its functions. -/
structure Off (s : Interleaved) : Prop where
  connect : s.conn.connect = false
  idle : s.decided = none

/-- What a function of the loop thread does that was entered with the connector `c`. -/
structure Entered (s : Interleaved) (c : Connector) (s' : Interleaved) : Prop where
  connect : s'.conn.connect = c.connect
  stopped : c.connect = false → s'.decided = none ∧ s'.scheduled = s.scheduled ∧
    s'.conn.sockets = c.sockets ∧ s'.conn.passed = c.passed

section Entered

variable {s s' : Interleaved} {c c₁ : Connector}

theorem entered_done (s : Interleaved) (c : Connector) : Entered s c (s.done c) :=
  ⟨rfl, fun _ => ⟨rfl, rfl, rfl, rfl⟩⟩

/-- The connector was changed in what does not matter here. -/
theorem Entered.of_eq (h : Entered s c₁ s') (hconnect : c₁.connect = c.connect)
    (hsockets : c₁.sockets = c.sockets) (hpassed : c₁.passed = c.passed) : Entered s c s' := by
  refine ⟨h.connect.trans hconnect, fun hc => ?_⟩
  rw [← hsockets, ← hpassed]
  exact h.stopped (hconnect.trans hc)

theorem entered_retry (s : Interleaved) (c : Connector) (sockfd : Nat) :
    Entered s c (s.retry c sockfd) := by
  unfold Interleaved.retry
  dsimp only
  split
  · rename_i hconnect
    refine ⟨rfl, fun hc => ?_⟩
    have hc : (c.close sockfd).connect = false := hc
    exact absurd (hconnect.symm.trans hc) (by simp)
  · exact (entered_done s _).of_eq rfl rfl rfl

theorem entered_startInLoop (s : Interleaved) (c : Connector) (savedErrno : Option Errno) :
    Post (s.startInLoop c savedErrno) (Entered s c) := by
  refine .check_bind fun _ => .ok ?_
  split
  · rename_i hconnect
    exact ⟨rfl, fun hc => absurd (hconnect.symm.trans hc) (by simp)⟩
  · exact entered_done s c

/-- `removeAndResetChannel` touches the channel and the queue only. -/
theorem removeAndResetChannel_kept (c : Connector) : Post c.removeAndResetChannel fun r =>
    r.1.connect = c.connect ∧ r.1.sockets = c.sockets ∧ r.1.passed = c.passed := by
  unfold Connector.removeAndResetChannel
  split
  · exact fun r hr => absurd hr (by simp)
  · exact .ok ⟨rfl, rfl, rfl⟩

theorem entered_stopInLoop (s : Interleaved) (c : Connector) :
    Post (s.stopInLoop c) (Entered s c) := by
  unfold Interleaved.stopInLoop
  split
  · refine (removeAndResetChannel_kept _).bind fun r hr => .ok ?_
    exact (entered_retry s r.1 r.2).of_eq hr.1 hr.2.1 hr.2.2
  · exact .ok (entered_done s c)

theorem entered_handleError (s : Interleaved) (c : Connector) :
    Post (s.handleError c) (Entered s c) := by
  unfold Interleaved.handleError
  split
  · refine (removeAndResetChannel_kept _).bind fun r hr => .ok ?_
    exact (entered_retry s r.1 r.2).of_eq hr.1 hr.2.1 hr.2.2
  · exact .ok (entered_done s c)

theorem entered_handleWrite (s : Interleaved) (c : Connector) (err selfConnect : Bool) :
    Post (s.handleWrite c err selfConnect) (Entered s c) := by
  unfold Interleaved.handleWrite
  split
  · refine (removeAndResetChannel_kept _).bind fun r hr => ?_
    obtain ⟨c₁, sockfd⟩ := r
    obtain ⟨hconnect, hsockets, hpassed⟩ := hr
    dsimp only
    split
    · exact .ok ((entered_retry s c₁ sockfd).of_eq hconnect hsockets hpassed)
    · split
      · exact .ok ((entered_retry s c₁ sockfd).of_eq hconnect hsockets hpassed)
      · split
        · -- the connection is handed on only when the test was passed
          rename_i hset
          have hset : c₁.connect = true := hset
          refine .ok ⟨hconnect, fun hc => ?_⟩
          exact absurd (hset.symm.trans (hconnect.trans hc)) (by simp)
        · exact .ok ((entered_done s _).of_eq hconnect hsockets hpassed)
  · exact .check_bind fun _ => .ok (entered_done s c)

/-- An operation other than `start` and `restart`, when the loop thread is free to
begin with it. -/
theorem begin_entered (s : Interleaved) (hidle : s.decided = none) {a : Act}
    (ha : (Step.act a).starts = false) :
    Post (s.begin a) fun s' => s.conn.connect = false → Off s' ∧ Unmoved s s' := by
  have hfrom : ∀ {c s'}, Entered s c s' → c.connect = s.conn.connect →
      c.sockets = s.conn.sockets → c.passed = s.conn.passed →
      s.conn.connect = false → Off s' ∧ Unmoved s s' := by
    intro c s' h hconnect hsockets hpassed hc
    obtain ⟨hnone, hscheduled, hsockets', hpassed'⟩ := h.stopped (hconnect.trans hc)
    exact ⟨⟨h.connect.trans (hconnect.trans hc), hnone⟩, hsockets'.trans hsockets, hscheduled,
      hpassed'.trans hpassed⟩
  cases a with
  | start savedErrno | restart savedErrno | threadStart => exact absurd ha (by simp [Step.starts])
  | stop => exact .ok fun _ => ⟨⟨rfl, rfl⟩, rfl, rfl, rfl⟩
  | threadStop => exact .ok fun _ => ⟨⟨rfl, hidle⟩, rfl, rfl, rfl⟩
  | threadStartPush | threadStopPush => exact .ok fun hc => ⟨⟨hc, hidle⟩, rfl, rfl, rfl⟩
  | poll revents => exact .ok fun hc => ⟨⟨hc, rfl⟩, rfl, rfl, rfl⟩
  | timer savedErrno =>
      exact (entered_startInLoop s _ savedErrno).mono fun s' h => hfrom h rfl rfl rfl
  | runFunctor savedErrno =>
      simp only [Interleaved.begin]
      cases hpending : s.conn.pending with
      | nil => exact .ok fun hc => ⟨⟨hc, hidle⟩, rfl, rfl, rfl⟩
      | cons f rest =>
          cases f with
          | startInLoop =>
              exact (entered_startInLoop s _ savedErrno).mono fun s' h => hfrom h rfl rfl rfl
          | stopInLoop => exact (entered_stopInLoop s _).mono fun s' h => hfrom h rfl rfl rfl
          | resetChannel =>
              exact .ok (hfrom (entered_done s (Connector.resetChannel _)) rfl rfl rfl)
  | next err selfConnect =>
      simp only [Interleaved.begin]
      cases htodo : s.conn.todo with
      | nil => exact .ok fun hc => ⟨⟨hc, hidle⟩, rfl, rfl, rfl⟩
      | cons cb rest =>
          cases cb with
          | error => exact (entered_handleError s _).mono fun s' h => hfrom h rfl rfl rfl
          | write => exact (entered_handleWrite s _ _ _).mono fun s' h => hfrom h rfl rfl rfl
          | close | read => exact .ok (hfrom (entered_done s _) rfl rfl rfl)

/-- While the connector is off, a step other than `start` and `restart` leaves it off. -/
theorem exec_off (h : Off s) {a : Step} (hen : s.Enabled a) (ha : a.starts = false) :
    Post (s.exec a) fun s' => Off s' ∧ Unmoved s s' := by
  cases a with
  | act a => exact (begin_entered s h.idle ha).mono fun s' hs' => hs' h.connect
  | proceed => exact absurd h.idle hen

/-- Going on does not set `M_connect`. -/
theorem proceed_connect (s : Interleaved) :
    Post s.proceed fun s' => s'.conn.connect = s.conn.connect := by
  unfold Interleaved.proceed
  split
  · exact .ok rfl
  · exact (entered_startInLoop s _ _).mono fun s' h => h.connect
  · unfold Interleaved.doConnect
    dsimp only
    split
    · unfold Connector.connecting
      intro s' hs'
      obtain ⟨c, hc, hs'⟩ := bind_eq_ok hs'
      obtain ⟨u, -, hc⟩ := bind_eq_ok hc
      obtain rfl := Except.ok.inj hc
      obtain rfl := Except.ok.inj hs'
      rfl
    · exact .ok (entered_retry s _ _).connect
    · exact .ok rfl
  · exact .ok rfl
  · exact .ok rfl

/-- Only `start` and `restart` set `M_connect`, wherever the loop thread is. -/
theorem exec_connect (hconnect : s.conn.connect = false) {a : Step} (hen : s.Enabled a)
    (ha : a.starts = false) : Post (s.exec a) fun s' => s'.conn.connect = false := by
  cases a with
  | proceed => exact (proceed_connect s).mono fun s' hs' => hs'.trans hconnect
  | act a =>
      rcases hen.2 with hthread | hidle
      · cases a with
        | threadStart => exact absurd ha (by simp [Step.starts])
        | threadStop => exact .ok rfl
        | threadStartPush | threadStopPush => exact .ok hconnect
        | _ => exact absurd hthread (by simp [Act.ofThread])
      · exact (begin_entered s hidle ha).mono fun s' hs' => (hs' hconnect).1.connect

theorem stops_connect {a : Step} (ha : a.stops = true) :
    Post (s.exec a) fun s' => s'.conn.connect = false := by
  cases a with
  | proceed => exact absurd ha (by simp [Step.stops])
  | act a =>
      cases a with
      | stop | threadStop => exact .ok rfl
      | _ => exact absurd ha (by simp [Step.stops])

end Entered

/-- When `stopInLoop` has run, the connector is off. -/
theorem off_of_stopped {acts : List Step} (hlegal : interleavedSys.Legal .new acts)
    (hstopped : Stopped acts) : Post (interleavedSys.runFrom .new acts) Off := by
  obtain ⟨pre, stop, before, savedErrno, since, -, rfl, hstop, hbefore, hsince, -, -⟩ := hstopped
  rw [Sys.runFrom_append]
  intro s hrun
  obtain ⟨s₀, hpre, hrun⟩ := bind_eq_ok hrun
  obtain ⟨s₁, hcall, hrun⟩ := bind_eq_ok hrun
  have hrest := (Sys.meets_cons.mp ((Sys.meets_append.mp hlegal).2 s₀ hpre)).2 s₁ hcall
  obtain ⟨hlegal₁, hrest⟩ := Sys.meets_append.mp hrest
  rw [Sys.runFrom_append] at hrun
  obtain ⟨s₂, hmid, hrun⟩ := bind_eq_ok hrun
  have hconnect : s₂.conn.connect = false :=
    Sys.invariant_post (S := interleavedSys)
      (fun s a h ha => exec_connect (a := a) h ha.1 ha.2) (stops_connect hstop s₁ hcall)
      (Sys.meets_and.mpr ⟨hlegal₁, Sys.meets_of_forall hbefore s₁⟩) s₂ hmid
  -- the loop thread was free to run a functor
  obtain ⟨hen, hrest⟩ := Sys.meets_cons.mp (hrest s₂ hmid)
  have hidle : s₂.decided = none := hen.2.resolve_left (by simp [Act.ofThread])
  obtain ⟨s₃, hfunctor, hrun⟩ := bind_eq_ok hrun
  have hoff : Off s₃ :=
    (begin_entered s₂ hidle (a := .runFunctor savedErrno) rfl s₃ hfunctor hconnect).1
  exact Sys.invariant_post (S := interleavedSys)
    (fun s a h ha => (exec_off (a := a) h ha.1 ha.2).mono fun s' h' => h'.1) hoff
    (Sys.meets_and.mpr ⟨hrest s₃ hfunctor, Sys.meets_of_forall hsince s₃⟩) s hrun

/-- **A stop is final.** In every run in which `stop` was called and `stopInLoop` has
run since, with no `start` or `restart` in between: as long as none follows, no step
creates a socket, schedules a retry timer or invokes `M_newConnectionCallback`. -/
theorem stop_is_final (acts post : List Step) (hlegal : interleavedSys.Legal .new (acts ++ post))
    (hstopped : Stopped acts) (hpost : ∀ a ∈ post, a.starts = false) :
    Post (interleavedSys.runFrom .new acts) fun s =>
      interleavedSys.Meets (fun s a => Post (interleavedSys.exec s a) (Unmoved s)) s post := by
  obtain ⟨hacts, hrest⟩ := Sys.meets_append.mp hlegal
  intro s hrun
  have hoff : Off s := off_of_stopped hacts hstopped s hrun
  refine Sys.invariant_meets (S := interleavedSys) (I := Off) (fun s a h ha => ?_) hoff
    (Sys.meets_and.mpr ⟨hrest s hrun, Sys.meets_of_forall hpost s⟩)
  have hexec := exec_off (a := a) h ha.1 ha.2
  exact ⟨hexec.mono fun s' h' => h'.2, hexec.mono fun s' h' => h'.1⟩

/-- The stop comes when `retry` has passed its test: one more timer is started. It
fires after `stopInLoop`, and nothing happens. -/
theorem stop_is_final_late :
    Lands (interleavedSys.runFrom .new
      [.act (.start (some .ECONNREFUSED)), .proceed, .proceed, .act .threadStop, .proceed,
        .act .threadStopPush, .act (.runFunctor none)]) fun s =>
      s.scheduled = 1 ∧ s.conn.timers = 1 ∧ interleavedSys.Meets
        (fun s a => Post (interleavedSys.exec s a) (Unmoved s)) s [.act (.timer none)] := by
  have hrun : Lands (interleavedSys.runFrom .new
      [.act (.start (some .ECONNREFUSED)), .proceed, .proceed, .act .threadStop, .proceed,
        .act .threadStopPush, .act (.runFunctor none)]) fun s =>
      s.scheduled = 1 ∧ s.conn.timers = 1 := by decide
  obtain ⟨s, hs, hscheduled, htimers⟩ := hrun
  refine ⟨s, hs, hscheduled, htimers, ?_⟩
  exact stop_is_final
    [.act (.start (some .ECONNREFUSED)), .proceed, .proceed, .act .threadStop, .proceed,
      .act .threadStopPush, .act (.runFunctor none)] [.act (.timer none)] (by decide)
    ⟨[.act (.start (some .ECONNREFUSED)), .proceed, .proceed], .act .threadStop,
      [.proceed, .act .threadStopPush], none, [], _, rfl, rfl, by decide, by decide, rfl, rfl⟩
    (by decide) s hs

end Muduo.Client
