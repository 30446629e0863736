import Muduo.Client.Lifecycle

/-!
# Destroying a client

`~TcpClient` runs here in the loop thread, in a callback or a functor, at any point of
a run; the source says itself that in another thread it is not safe. With a connection
it installs another close callback there and lets go of the connector; without one it
stops the connector and holds it for another second (`removeConnector`). A retry timer
holds the connector too. What nothing holds is destroyed, and `~Connector` asserts that
`M_channel` is empty.

The functors a connector queues, its callback for new connections, and the close
callback of a connection hold an address only. No run uses the address of the client
after its end. The address of the connector is another matter: nobody may let go of it
while one of its functors is queued (`Drained`), which the destructor does when it
runs between the end of an attempt and the reset of its channel.
-/

namespace Muduo.Client

open Lib

/-! ## The object -/

inductive ObjectFault
  /-- An assertion of the client or of its connector. -/
  | client (e : ClientAssert)
  /-- A member function of the client is called after the destructor. -/
  | clientFreed
  /-- A member function of the connector is called after its destructor. -/
  | connectorFreed
  /-- The assertion of `~Connector`. -/
  | connectorChannel
  deriving DecidableEq, Repr

/-- A client and what outlives it: the connector and the connections stay in `client`
after the end. -/
structure ClientObject where
  client : TcpClient
  alive : Bool
  /-- The timer of `removeConnector` has not fired yet. -/
  keeper : Bool
  hasConnector : Bool
  /-- The connections whose close callback is `detail::removeConnection`. -/
  detached : List Nat

namespace ClientObject

def new : ClientObject := ⟨.new, true, false, true, []⟩

abbrev connector (s : ClientObject) : Connector := s.client.connector

/-- Nothing holds the connector: not the client, no timer. -/
def Released (s : ClientObject) : Prop :=
  s.alive = false ∧ s.keeper = false ∧ s.connector.timers = 0

instance (s : ClientObject) : Decidable s.Released :=
  inferInstanceAs (Decidable (s.alive = false ∧ s.keeper = false ∧ s.connector.timers = 0))

/-- A reference to the connector has gone; after the last one `~Connector` runs. -/
def releaseConnector (s : ClientObject) : Except ObjectFault ClientObject :=
  if s.Released then do
    check .connectorChannel (s.connector.channel = none)
    return { s with hasConnector := false }
  else .ok s

/-- `~TcpClient` with a connection, whose close callback it sets. -/
def detach (s : ClientObject) (conn : Nat) : ClientObject :=
  { s with
    client := { s.client with connection := none }
    alive := false
    detached := conn :: s.detached }

/-- `~TcpClient` without a connection. -/
def abandon (s : ClientObject) : ClientObject :=
  { s with
    client := { s.client with connector := s.connector.stop }
    alive := false
    keeper := true }

/-- `~TcpClient`, the destructors of the members included. -/
def destruct (s : ClientObject) : Except ObjectFault ClientObject :=
  match s.client.connection with
  | some conn => (s.detach conn).releaseConnector
  | none => s.abandon.releaseConnector

/-- The empty `detail::removeConnector` ran, and its timer is deleted. -/
def removeConnector (s : ClientObject) : Except ObjectFault ClientObject :=
  { s with keeper := false }.releaseConnector

/-- `detail::removeConnection`, which the connection calls in the loop thread. -/
def removeDetached (s : ClientObject) (conn : Nat) : ClientObject :=
  { s with client := { s.client with live := s.client.live.erase conn } }

/-- The close callback of a connection. -/
def close (s : ClientObject) (conn : Nat) (savedErrno : Option Errno) :
    Except ObjectFault ClientObject :=
  if conn ∈ s.detached then .ok (s.removeDetached conn)
  else do
    check .clientFreed (s.alive = true)
    let t ← (s.client.removeConnection conn savedErrno).mapError .client
    return { s with client := t }

/-- A step of the connector. `M_newConnectionCallback` is bound to the client. -/
def onConnector (s : ClientObject) (a : Act) : Except ObjectFault ClientObject := do
  check .connectorFreed (s.hasConnector = true)
  let c ← (Client.exec s.connector a).mapError fun e => .client (.connector e)
  check .clientFreed (c.passed = s.connector.passed ∨ s.alive = true)
  { s with client := s.client.deliver c }.releaseConnector

end ClientObject

inductive ObjectAct
  /-- A call of the client. -/
  | call (a : ClientAct)
  | connector (a : Act)
  /-- The connection invokes its close callback. -/
  | close (conn : Nat) (savedErrno : Option Errno)
  | destruct
  /-- The timer of the destructor fires. -/
  | removeConnector
  deriving DecidableEq, Repr

/-- What the owner of a client does with it. -/
def ClientAct.isCall : ClientAct → Bool
  | .connector _ | .close _ _ => false
  | _ => true

/-- No call of another thread is under way. -/
def NoCall (t : TcpClient) : Prop :=
  t.connecting = 0 ∧ t.disconnecting = 0 ∧ t.stopping = 0 ∧ t.connector.starting = 0 ∧
    t.connector.stopping = 0

instance (t : TcpClient) : Decidable (NoCall t) :=
  inferInstanceAs (Decidable (t.connecting = 0 ∧ t.disconnecting = 0 ∧ t.stopping = 0 ∧
    t.connector.starting = 0 ∧ t.connector.stopping = 0))

/-- A timer is no callback of the connector's channel. -/
def isTimer : Act → Bool
  | .timer _ => true
  | _ => false

namespace ClientObject

def exec (s : ClientObject) : ObjectAct → Except ObjectFault ClientObject
  | .call a => do
      let t ← (s.client.exec a).mapError .client
      return { s with client := t }
  | .connector a => s.onConnector a
  | .close conn savedErrno => s.close conn savedErrno
  | .destruct => s.destruct
  | .removeConnector => s.removeConnector

/-- The owner calls a client only while it exists, and destroys it when no call is
under way. -/
def enabled (s : ClientObject) : ObjectAct → Prop
  | .call a => s.alive = true ∧ a.isCall = true ∧ s.client.enabled a
  | .connector a => TcpClient.ownStep a = true ∧ Enabled s.connector a ∧
      (isTimer a = true → s.connector.todo = [])
  | .close conn _ => conn ∈ s.client.live
  | .destruct => s.alive = true ∧ NoCall s.client ∧ s.connector.todo = []
  | .removeConnector => s.keeper = true ∧ s.connector.todo = []

instance decidableEnabled (s : ClientObject) : ∀ a, Decidable (s.enabled a)
  | .call a => inferInstanceAs (Decidable (s.alive = true ∧ a.isCall = true ∧ s.client.enabled a))
  | .connector a => inferInstanceAs (Decidable (TcpClient.ownStep a = true ∧
      Enabled s.connector a ∧ (isTimer a = true → s.connector.todo = [])))
  | .close conn _ => inferInstanceAs (Decidable (conn ∈ s.client.live))
  | .destruct => inferInstanceAs (Decidable (s.alive = true ∧ NoCall s.client ∧
      s.connector.todo = []))
  | .removeConnector => inferInstanceAs (Decidable (s.keeper = true ∧ s.connector.todo = []))

end ClientObject

def objectSys : Sys ClientObject ObjectAct ObjectFault := ⟨ClientObject.enabled, ClientObject.exec⟩

instance (s : ClientObject) (a : ObjectAct) : Decidable (objectSys.enabled s a) :=
  s.decidableEnabled a

/-! ## The connector on its own -/

/-- What no function of the connector but `start`, `stop` and `restart` writes, and the
timers, which they only add to. -/
structure Keeps (c c' : Connector) : Prop extends SameCalls c c' where
  connect : c'.connect = c.connect
  timers : c.timers ≤ c'.timers

section Connector

variable {c c' : Connector}

theorem Keeps.trans {c'' : Connector} (h : Keeps c c') (h' : Keeps c' c'') : Keeps c c'' where
  todo := h'.todo.trans h.todo
  starting := h'.starting.trans h.starting
  stopping := h'.stopping.trans h.stopping
  connect := h'.connect.trans h.connect
  timers := h.timers.trans h'.timers

theorem Keeps.rfl : Keeps c c := ⟨⟨.refl _, .refl _, .refl _⟩, .refl _, le_rfl⟩

theorem retry_keeps (c : Connector) (sockfd : Nat) : Keeps c (c.retry sockfd) := by
  unfold Connector.retry
  dsimp only
  split
  · exact ⟨⟨.refl _, .refl _, .refl _⟩, .refl _, Nat.le_succ _⟩
  · exact ⟨⟨.refl _, .refl _, .refl _⟩, .refl _, le_rfl⟩

theorem removeAndResetChannel_keeps (c : Connector) :
    Post c.removeAndResetChannel fun r => Keeps c r.1 := by
  unfold Connector.removeAndResetChannel
  cases c.channel with
  | none => exact fun r hr => absurd hr (by simp)
  | some ch => exact .ok ⟨⟨.refl _, .refl _, .refl _⟩, .refl _, le_rfl⟩

/-- After `M_connect` was cleared no attempt begins. -/
theorem startInLoop_keeps (c : Connector) (savedErrno : Option Errno) :
    Post (c.startInLoop savedErrno) fun c' =>
      Keeps c c' ∧ (c.connect = false → c' = c ∧ c.state = .kDisconnected) := by
  unfold Connector.startInLoop
  refine .check_bind fun hd => ?_
  split
  · rename_i hflag
    have hon : ¬ c.connect = false := by
      rw [hflag]
      simp
    unfold Connector.doConnect
    dsimp only
    cases Connector.outcome savedErrno with
    | connecting =>
        refine .check_bind fun _ => .ok ⟨?_, fun hoff => absurd hoff hon⟩
        exact ⟨⟨.refl _, .refl _, .refl _⟩, .refl _, le_rfl⟩
    | retry =>
        have hsocket : Keeps c c.createSocket := ⟨⟨.refl _, .refl _, .refl _⟩, .refl _, le_rfl⟩
        exact .ok ⟨hsocket.trans (retry_keeps _ _), fun hoff => absurd hoff hon⟩
    | giveUp =>
        exact .ok ⟨⟨⟨.refl _, .refl _, .refl _⟩, .refl _, le_rfl⟩, fun hoff => absurd hoff hon⟩
  · exact .ok ⟨Keeps.rfl, fun _ => ⟨.refl _, hd⟩⟩

/-- The function keeps what it must, and leaves no attempt in flight. -/
def Settles (c c' : Connector) : Prop := Keeps c c' ∧ c'.state ≠ .kConnecting

theorem Settles.retried {c₁ : Connector} (h : Keeps c c₁) (sockfd : Nat) :
    Settles c (c₁.retry sockfd) :=
  ⟨h.trans (retry_keeps c₁ sockfd), by simp⟩

theorem stopInLoop_settles (c : Connector) : Post c.stopInLoop (Settles c) := by
  unfold Connector.stopInLoop
  split
  · refine (removeAndResetChannel_keeps (c.setState .kDisconnected)).bind fun r hr => .ok ?_
    have hset : Keeps c (c.setState .kDisconnected) :=
      ⟨⟨.refl _, .refl _, .refl _⟩, .refl _, le_rfl⟩
    exact .retried (hset.trans hr) r.2
  · exact .ok ⟨Keeps.rfl, ‹_›⟩

theorem handleError_settles (c : Connector) : Post c.handleError (Settles c) := by
  unfold Connector.handleError
  split
  · exact (removeAndResetChannel_keeps c).bind fun r hr => .ok (.retried hr r.2)
  · exact .ok ⟨Keeps.rfl, ‹_›⟩

theorem handleWrite_settles (c : Connector) (err selfConnect : Bool) :
    Post (c.handleWrite err selfConnect) (Settles c) := by
  unfold Connector.handleWrite
  split
  · refine (removeAndResetChannel_keeps c).bind fun r hr => ?_
    dsimp only
    have hend : ∀ c₁ : Connector, Keeps r.1 c₁ → c₁.state = .kConnected → Settles c c₁ := by
      intro c₁ hk hst
      refine ⟨hr.trans hk, ?_⟩
      rw [hst]
      simp
    split
    · exact .ok (.retried hr r.2)
    · split
      · exact .ok (.retried hr r.2)
      · split
        · exact .ok (hend _ ⟨⟨.refl _, .refl _, .refl _⟩, .refl _, le_rfl⟩ (.refl _))
        · exact .ok (hend _ ⟨⟨.refl _, .refl _, .refl _⟩, .refl _, le_rfl⟩ (.refl _))
  · exact .check_bind fun _ => .ok ⟨Keeps.rfl, ‹_›⟩

/-- An attempt in flight that `stop` was called for will still see `stopInLoop`. -/
def Winds (c : Connector) : Prop :=
  c.connect = false → c.state = .kConnecting → .stopInLoop ∈ c.pending ∨ 0 < c.stopping

theorem Winds.of_settled (h : c.state ≠ .kConnecting) : Winds c := fun _ hst => absurd hst h

theorem startInLoop_winds (c : Connector) (savedErrno : Option Errno) :
    Post (c.startInLoop savedErrno) Winds := by
  refine (startInLoop_keeps c savedErrno).mono fun c' h hoff hst => ?_
  obtain ⟨rfl, hd⟩ := h.2 (h.1.connect.symm.trans hoff)
  rw [hd] at hst
  exact absurd hst (by simp)

theorem exec_winds (h : Winds c) (a : Act) : Post (exec c a) Winds := by
  cases a with
  | start savedErrno | restart savedErrno | timer savedErrno => exact startInLoop_winds _ savedErrno
  | stop => exact .ok fun _ _ => .inl (List.mem_append_right _ List.mem_cons_self)
  | threadStart => exact .ok fun hoff => absurd hoff (by simp)
  | threadStartPush =>
      exact .ok fun hoff hst => (h hoff hst).imp (List.mem_append_left _) id
  | threadStop => exact .ok fun _ _ => .inr (Nat.succ_pos _)
  | threadStopPush => exact .ok fun _ _ => .inl (List.mem_append_right _ List.mem_cons_self)
  | poll revents => exact .ok h
  | runFunctor savedErrno =>
      simp only [exec]
      cases hpend : c.pending with
      | nil => exact .ok h
      | cons f rest =>
          cases f with
          | startInLoop => exact startInLoop_winds _ savedErrno
          | stopInLoop => exact (stopInLoop_settles _).mono fun _ hs => .of_settled hs.2
          | resetChannel =>
              refine .ok fun hoff hst => (h hoff hst).imp (fun hmem => ?_) id
              rw [hpend] at hmem
              exact (List.mem_cons.mp hmem).resolve_left (by simp)
  | next err selfConnect =>
      simp only [exec]
      cases c.todo with
      | nil => exact .ok h
      | cons cb rest =>
          cases cb with
          | close | read => exact .ok h
          | error => exact (handleError_settles _).mono fun _ hs => .of_settled hs.2
          | write => exact (handleWrite_settles _ err selfConnect).mono fun _ hs => .of_settled hs.2

/-- What a step of the connector does that is no call: no call begins, and only a
timer that fires lets go of the connector. -/
structure Runs (a : Act) (c c' : Connector) : Prop where
  starting : c'.starting ≤ c.starting
  stopping : c'.stopping ≤ c.stopping
  connect : c'.connect = c.connect
  timers : isTimer a = false → c.timers ≤ c'.timers

theorem Keeps.runs {a : Act} {c₀ : Connector} (h : Keeps c₀ c') (hstart : c₀.starting ≤ c.starting)
    (hstop : c₀.stopping ≤ c.stopping) (hconnect : c₀.connect = c.connect)
    (htimers : isTimer a = false → c.timers ≤ c₀.timers) : Runs a c c' where
  starting := h.starting ▸ hstart
  stopping := h.stopping ▸ hstop
  connect := h.connect.trans hconnect
  timers hno := (htimers hno).trans h.timers

theorem exec_runs (c : Connector) {a : Act} (ha : TcpClient.ownStep a = true) :
    Post (exec c a) (Runs a c) := by
  have hsame : Runs a c c := Keeps.rfl.runs le_rfl le_rfl rfl fun _ => le_rfl
  cases a with
  | start _ | stop | restart _ | threadStart | threadStop =>
      exact absurd ha (by simp [TcpClient.ownStep])
  | timer savedErrno =>
      exact (startInLoop_keeps _ savedErrno).mono fun _ hk =>
        hk.1.runs le_rfl le_rfl rfl fun hno => absurd hno (by simp [isTimer])
  | threadStartPush => exact .ok ⟨Nat.sub_le _ _, le_rfl, rfl, fun _ => le_rfl⟩
  | threadStopPush => exact .ok ⟨le_rfl, Nat.sub_le _ _, rfl, fun _ => le_rfl⟩
  | poll revents => exact .ok ⟨le_rfl, le_rfl, rfl, fun _ => le_rfl⟩
  | runFunctor savedErrno =>
      simp only [exec]
      cases c.pending with
      | nil => exact .ok hsame
      | cons f rest =>
          cases f with
          | startInLoop =>
              exact (startInLoop_keeps _ savedErrno).mono fun _ hk =>
                hk.1.runs le_rfl le_rfl rfl fun _ => le_rfl
          | stopInLoop =>
              exact (stopInLoop_settles _).mono fun _ hs =>
                hs.1.runs le_rfl le_rfl rfl fun _ => le_rfl
          | resetChannel => exact .ok ⟨le_rfl, le_rfl, rfl, fun _ => le_rfl⟩
  | next err selfConnect =>
      simp only [exec]
      cases c.todo with
      | nil => exact .ok hsame
      | cons cb rest =>
          cases cb with
          | close | read => exact .ok ⟨le_rfl, le_rfl, rfl, fun _ => le_rfl⟩
          | error =>
              exact (handleError_settles _).mono fun _ hs =>
                hs.1.runs le_rfl le_rfl rfl fun _ => le_rfl
          | write =>
              exact (handleWrite_settles _ err selfConnect).mono fun _ hs =>
                hs.1.runs le_rfl le_rfl rfl fun _ => le_rfl

/-- A connector that has been stopped, or is connected, gives no socket away and stays
so. -/
def Barred (c : Connector) : Prop := c.connect = false ∨ c.state = .kConnected

theorem exec_barred (h : Barred c) {a : Act} (ha : TcpClient.ownStep a = true) :
    Post (exec c a) fun c' => Barred c' ∧ c'.passed = c.passed := by
  have hno : ∀ e, a ≠ .restart e := by
    rintro e rfl
    exact absurd ha (by simp [TcpClient.ownStep])
  intro c' hc'
  have hruns := exec_runs c ha c' hc'
  cases exec_move c hno c' hc' with
  | quiet hq =>
      refine ⟨h.imp (fun hoff => hruns.connect.trans hoff) hq.state.mpr, hq.passed⟩
  | connected sockfd hok hst hflag hs hp =>
      rcases h with hoff | hup
      · rw [hoff] at hflag
        exact absurd hflag (by simp)
      · rw [hup] at hst
        exact absurd hst (by simp)
  | abandoned hok hst hflag hs hp => exact ⟨.inr hs, hp⟩

end Connector

/-! ## What the end leaves -/

/-- The connections that outlive the client do not call it, and the connector gives it
no socket; no functor that is queued belongs to a connector that is gone. -/
structure OutOfReach (s : ClientObject) : Prop where
  connections : s.alive = false → ∀ conn ∈ s.client.live, conn ∈ s.detached
  sockets : s.alive = false → Barred s.connector
  functors : s.hasConnector = false → s.connector.pending = []

/-- The last reference to the connector goes when none of its functors is queued. The
last one is the client's, where it has a connection, or the timer's of the destructor,
or that of a retry timer. -/
def Drained (s : ClientObject) : ObjectAct → Prop
  | .destruct => s.client.connection ≠ none → s.connector.timers = 0 → s.connector.pending = []
  | .removeConnector => s.connector.timers = 0 → s.connector.pending = []
  | .connector a => isTimer a = true → s.alive = false → s.keeper = false →
      s.connector.timers = 1 → s.connector.state = .kDisconnected → s.connector.pending = []
  | _ => True

instance decidableDrained (s : ClientObject) : ∀ a, Decidable (Drained s a)
  | .destruct => inferInstanceAs (Decidable (s.client.connection ≠ none →
      s.connector.timers = 0 → s.connector.pending = []))
  | .removeConnector => inferInstanceAs (Decidable (s.connector.timers = 0 →
      s.connector.pending = []))
  | .connector a => inferInstanceAs (Decidable (isTimer a = true → s.alive = false →
      s.keeper = false → s.connector.timers = 1 → s.connector.state = .kDisconnected →
      s.connector.pending = []))
  | .call _ | .close _ _ => inferInstanceAs (Decidable True)

/-- An assertion of the connector, of those that fail in a run without a destructor. -/
def Asserts (e : ObjectFault) : Prop := ∃ e', e = .client (.connector e')

/-- What holds of a client before its end and after it. -/
structure Sound (s : ClientObject) : Prop where
  accounted : Accounted s.connector
  winds : Winds s.connector
  client : s.alive = true → ClientInv s.client ∧ s.keeper = false ∧ s.detached = []
  calls : s.alive = false → s.connector.starting = 0 ∧ s.connector.stopping = 0
  connections : s.alive = false → ∀ conn ∈ s.client.live, conn ∈ s.detached
  sockets : s.alive = false → Barred s.connector

/-- The connector exists as long as something holds it. -/
structure ObjectInv (s : ClientObject) : Prop extends Sound s where
  holder : s.hasConnector = false ↔ s.Released
  channel : s.hasConnector = false → s.connector.channel = none
  todo : s.hasConnector = false → s.connector.todo = []

section Object

variable {s : ClientObject}

/-- After the end, a connector at rest has no channel: an attempt in flight would have
`stopInLoop` queued. -/
theorem Sound.no_channel (h : Sound s) (hdead : s.alive = false)
    (hpending : s.connector.pending = []) : s.connector.channel = none := by
  refine h.accounted.no_channel (fun hst => ?_) ?_
  · rcases h.sockets hdead with hoff | hup
    · rcases h.winds hoff hst with hmem | hpos
      · rw [hpending] at hmem
        exact absurd hmem (by simp)
      · have := (h.calls hdead).2
        omega
    · rw [hup] at hst
      exact absurd hst (by simp)
  · rw [hpending]
    simp

theorem releaseConnector_inv (h : Sound s) (hhas : s.hasConnector = true)
    (htodo : s.Released → s.connector.todo = []) : Post s.releaseConnector ObjectInv := by
  have hno : ¬ s.hasConnector = false := by
    rw [hhas]
    simp
  unfold ClientObject.releaseConnector
  split
  · rename_i hlast
    refine .check_bind fun hchannel => .ok ⟨⟨h.accounted, h.winds, h.client, h.calls,
      h.connections, h.sockets⟩, iff_of_true rfl hlast, fun _ => hchannel, fun _ => htodo hlast⟩
  · rename_i hheld
    exact .ok ⟨h, iff_of_false hno hheld, fun hgone => absurd hgone hno,
      fun hgone => absurd hgone hno⟩

/-- Letting go of the connector is safe if and only if nothing of it is queued. -/
theorem releaseConnector_ends (h : Sound s) (hhas : s.hasConnector = true) :
    Ends s.releaseConnector OutOfReach Asserts ↔ (s.Released → s.connector.pending = []) := by
  unfold ClientObject.releaseConnector
  split
  · rename_i hlast
    constructor
    · intro hends _
      by_cases hchannel : s.connector.channel = none
      · rw [check_of _ hchannel, ok_bind] at hends
        exact (hends.1 _ rfl).functors rfl
      · rw [check_of_not _ hchannel, error_bind] at hends
        obtain ⟨e', he⟩ := hends.2 _ rfl
        exact absurd he (by simp)
    · intro hdrained
      have hchannel := h.no_channel hlast.1 (hdrained hlast)
      rw [check_of _ hchannel, ok_bind]
      exact .ok ⟨h.connections, h.sockets, fun _ => hdrained hlast⟩
  · rename_i hheld
    refine iff_of_true (.ok ⟨h.connections, h.sockets, fun hgone => ?_⟩) fun hlast =>
      absurd hlast hheld
    rw [hhas] at hgone
    exact absurd hgone (by simp)

theorem ObjectInv.exists_of_held (h : ObjectInv s) (hheld : ¬ s.Released) :
    s.hasConnector = true := by
  rw [← Bool.not_eq_false, h.holder]
  exact hheld

theorem ObjectInv.exists_of_alive (h : ObjectInv s) (halive : s.alive = true) :
    s.hasConnector = true := by
  refine h.exists_of_held fun hlast => ?_
  have hdead := hlast.1
  rw [halive] at hdead
  exact absurd hdead (by simp)

/-- While the client exists there is nothing to be out of reach of. -/
theorem OutOfReach.of_alive (halive : s.alive = true) (hhas : s.hasConnector = true) :
    OutOfReach s := by
  refine ⟨fun hdead => ?_, fun hdead => ?_, fun hgone => ?_⟩
  · rw [halive] at hdead
    exact absurd hdead (by simp)
  · rw [halive] at hdead
    exact absurd hdead (by simp)
  · rw [hhas] at hgone
    exact absurd hgone (by simp)

theorem ObjectInv.of_alive (h : ClientInv s.client) (hwinds : Winds s.connector)
    (halive : s.alive = true) (hhas : s.hasConnector = true) (hkeeper : s.keeper = false)
    (hdetached : s.detached = []) : ObjectInv s := by
  have hlives : ¬ s.alive = false := by
    rw [halive]
    simp
  have hno : ¬ s.hasConnector = false := by
    rw [hhas]
    simp
  exact ⟨⟨h.accounted, hwinds, fun _ => ⟨h, hkeeper, hdetached⟩, fun hdead => absurd hdead hlives,
    fun hdead => absurd hdead hlives, fun hdead => absurd hdead hlives⟩,
    iff_of_false hno fun hlast => hlives hlast.1, fun hgone => absurd hgone hno,
    fun hgone => absurd hgone hno⟩

/-! ### Calls and closes -/

theorem onConnector_winds {t : TcpClient} {f : Connector → Except Assert Connector}
    (h : Post (f t.connector) Winds) : Post (t.onConnector f) fun t' => Winds t'.connector := by
  intro t' ht'
  obtain ⟨c, hc, heq⟩ := bind_eq_ok ht'
  obtain rfl := Except.ok.inj heq
  exact h c (mapError_eq_ok hc)

theorem call_winds {t : TcpClient} (h : Winds t.connector) {a : ClientAct}
    (ha : a.isCall = true) : Post (t.exec a) fun t' => Winds t'.connector := by
  cases a with
  | connect savedErrno =>
      exact onConnector_winds (t := { t with connect := true })
        (f := fun c => c.start savedErrno) (exec_winds h (.start savedErrno))
  | stop => exact .ok (exec_winds h .stop _ rfl)
  | threadConnectStart =>
      exact onConnector_winds (t := { t with connecting := t.connecting - 1 })
        (f := fun c => Client.exec c .threadStart) (exec_winds h .threadStart)
  | threadStopStop =>
      exact onConnector_winds (t := { t with stopping := t.stopping - 1 })
        (f := fun c => Client.exec c .threadStop) (exec_winds h .threadStop)
  | disconnect | enableRetry | threadConnect | threadDisconnect | threadDisconnectShutdown
  | threadStop => exact .ok h
  | connector _ | close _ _ => exact absurd ha (by simp [ClientAct.isCall])

theorem removeConnection_winds {t : TcpClient} (h : Winds t.connector) (conn : Nat)
    (savedErrno : Option Errno) :
    Post (t.removeConnection conn savedErrno) fun t' => Winds t'.connector := by
  unfold TcpClient.removeConnection
  refine .check_bind fun _ => ?_
  dsimp only
  split
  · exact onConnector_winds (exec_winds h (.restart savedErrno))
  · exact .ok h

/-- A member function of a client that exists. -/
theorem member_step (h : ObjectInv s) (halive : s.alive = true) {a : ClientAct}
    (ha : s.client.enabled a)
    (hwinds : Post (s.client.exec a) fun t => Winds t.connector) {x : Except ObjectFault ClientObject}
    (hx : x = (s.client.exec a).mapError .client >>= fun t => .ok { s with client := t }) :
    Post x ObjectInv ∧ Ends x OutOfReach Asserts := by
  obtain ⟨hclient, hkeeper, hdetached⟩ := h.client halive
  have hhas := h.exists_of_alive halive
  subst hx
  cases hexec : s.client.exec a with
  | ok t =>
      exact ⟨.ok (.of_alive (client_exec_inv hclient ha t hexec) (hwinds t hexec) halive hhas hkeeper
        hdetached), .ok (.of_alive halive hhas)⟩
  | error e =>
      obtain ⟨e', rfl⟩ := client_exec_error hclient ha hexec
      refine ⟨fun _ hs => absurd hs (by simp [Except.mapError]),
        fun _ hs => absurd hs (by simp [Except.mapError]), fun e he => ?_⟩
      exact ⟨e', (Except.error.inj he).symm⟩

theorem close_step (h : ObjectInv s) {conn : Nat} (hconn : conn ∈ s.client.live)
    (savedErrno : Option Errno) :
    Post (s.close conn savedErrno) ObjectInv ∧
      (OutOfReach s → Ends (s.close conn savedErrno) OutOfReach Asserts) := by
  have hmem : ∀ {c : Nat}, c ∈ s.client.live.erase conn → c ∈ s.client.live := List.mem_of_mem_erase
  unfold ClientObject.close
  split
  · -- only a destructor sets such a callback
    rename_i hdet
    have hdead : s.alive = false := by
      by_contra hlives
      obtain ⟨-, -, hnil⟩ := h.client (by simpa using hlives)
      rw [hnil] at hdet
      exact absurd hdet (by simp)
    have hlives : ¬ s.alive = true := by
      rw [hdead]
      simp
    refine ⟨.ok ⟨⟨h.accounted, h.winds, fun hlive => absurd hlive hlives, h.calls,
      fun _ c hc => h.connections hdead c (hmem hc), h.sockets⟩, h.holder, h.channel, h.todo⟩, ?_⟩
    intro hreach
    exact .ok ⟨fun _ c hc => hreach.connections hdead c (hmem hc), hreach.sockets, hreach.functors⟩
  · rename_i hdet
    have halive : s.alive = true := by
      by_contra hlives
      exact hdet (h.connections (by simpa using hlives) conn hconn)
    rw [check_of _ halive, ok_bind]
    obtain ⟨hinv, hends⟩ := member_step h halive (a := .close conn savedErrno) hconn
      (removeConnection_winds h.winds conn savedErrno) rfl
    exact ⟨hinv, fun _ => hends⟩

/-! ### The connector -/

/-- A timer finds a stopped connector disconnected, and leaves it as it was. -/
theorem timer_spec {c : Connector} (savedErrno : Option Errno) :
    Post (Client.exec c (.timer savedErrno)) fun c' =>
      c.state = .kDisconnected ∧ c.timers - 1 ≤ c'.timers ∧ c'.todo = c.todo ∧
        (c.connect = false → c' = { c with timers := c.timers - 1 }) := by
  intro c' hc'
  obtain ⟨hd, -⟩ := Connector.startInLoop_post savedErrno c' hc'
  obtain ⟨hkeeps, hoff⟩ := startInLoop_keeps _ savedErrno c' hc'
  exact ⟨hd, hkeeps.timers, hkeeps.todo, fun hflag => (hoff hflag).1⟩

theorem timer_lands {c : Connector} (savedErrno : Option Errno) (hoff : c.connect = false)
    (hd : c.state = .kDisconnected) :
    Client.exec c (.timer savedErrno) = .ok { c with timers := c.timers - 1 } := by
  show Connector.startInLoop _ savedErrno = _
  unfold Connector.startInLoop
  rw [check_of _ hd, ok_bind, if_neg (by rw [hoff]; simp)]
  rfl

theorem Barred.off {c : Connector} (h : Barred c) (hd : c.state = .kDisconnected) :
    c.connect = false := by
  refine h.resolve_right fun hup => ?_
  rw [hd] at hup
  exact absurd hup (by simp)

theorem deliver_connector (t : TcpClient) (c : Connector) : (t.deliver c).connector = c := by
  unfold TcpClient.deliver
  dsimp only
  split
  · split <;> rfl
  · rfl

/-- The client is given a socket only while it exists. -/
theorem deliver_sound (h : ObjectInv s) {a : Act} (ha : s.enabled (.connector a)) {c : Connector}
    (hc : Client.exec s.connector a = .ok c) :
    Sound { s with client := s.client.deliver c } ∧ (c.passed = s.connector.passed ∨ s.alive = true) := by
  obtain ⟨hown, hen, -⟩ := ha
  have hno : ∀ e, a ≠ .restart e := by
    rintro e rfl
    exact absurd hown (by simp [TcpClient.ownStep])
  have hacc := exec_accounted h.accounted a hen c hc
  have hruns := exec_runs s.connector hown c hc
  have hconn : ({ s with client := s.client.deliver c } : ClientObject).connector = c :=
    deliver_connector s.client c
  constructor
  · refine ⟨?_, ?_, fun halive => ?_, fun hdead => ?_, fun hdead => ?_, fun hdead => ?_⟩
    · rw [hconn]
      exact hacc
    · rw [hconn]
      exact exec_winds h.winds a c hc
    · obtain ⟨hclient, hrest⟩ := h.client halive
      exact ⟨hclient.deliver hacc (exec_move _ hno c hc), hrest⟩
    · rw [hconn]
      obtain ⟨hstart, hstop⟩ := h.calls hdead
      have := hruns.starting
      have := hruns.stopping
      omega
    · have hpassed := (exec_barred (h.sockets hdead) hown c hc).2
      have hsame : s.client.deliver c = { s.client with connector := c } := deliver_of_same hpassed
      dsimp only
      rw [hsame]
      exact h.connections hdead
    · rw [hconn]
      exact (exec_barred (h.sockets hdead) hown c hc).1
  · by_cases halive : s.alive = true
    · exact .inr halive
    · exact .inl (exec_barred (h.sockets (by simpa using halive)) hown c hc).2

/-- Nothing of a connector that is gone runs. -/
theorem OutOfReach.exists_of_enabled (hreach : OutOfReach s) (h : ObjectInv s) {a : Act}
    (ha : s.enabled (.connector a)) : s.hasConnector = true := by
  by_contra hno
  have hgone : s.hasConnector = false := by simpa using hno
  obtain ⟨hdead, -, htimers⟩ := h.holder.mp hgone
  obtain ⟨hstart, hstop⟩ := h.calls hdead
  obtain ⟨hown, hen, -⟩ := ha
  cases a with
  | start _ | stop | restart _ | threadStart | threadStop =>
      exact absurd hown (by simp [TcpClient.ownStep])
  | threadStartPush => exact absurd hen (by simp [Enabled, hstart])
  | threadStopPush => exact absurd hen (by simp [Enabled, hstop])
  | runFunctor savedErrno => exact hen.2 (hreach.functors hgone)
  | timer savedErrno => exact absurd hen (by simp [Enabled, htimers])
  | poll revents =>
      obtain ⟨-, ch, hch, -⟩ := hen
      rw [h.channel hgone] at hch
      exact absurd hch (by simp)
  | next err selfConnect => exact hen (h.todo hgone)

/-- Of the steps of the connector, only a timer lets go of the connector. -/
theorem last_is_timer (h : ObjectInv s) (hhas : s.hasConnector = true) {a : Act}
    (hown : TcpClient.ownStep a = true) {c : Connector} (hc : Client.exec s.connector a = .ok c)
    (hlast : ({ s with client := s.client.deliver c } : ClientObject).Released) :
    isTimer a = true ∧ s.alive = false ∧ s.keeper = false ∧ c.timers = 0 := by
  obtain ⟨hdead, hkeeper, htimers⟩ := hlast
  have hconn : ({ s with client := s.client.deliver c } : ClientObject).connector = c :=
    deliver_connector s.client c
  rw [hconn] at htimers
  refine ⟨?_, hdead, hkeeper, htimers⟩
  by_contra hno
  have hle := (exec_runs s.connector hown c hc).timers (by simpa using hno)
  have hgone := h.holder.mpr ⟨hdead, hkeeper, by omega⟩
  rw [hhas] at hgone
  exact absurd hgone (by simp)

theorem exists_timer {a : Act} (ha : isTimer a = true) : ∃ savedErrno, a = .timer savedErrno := by
  cases a with
  | timer savedErrno => exact ⟨savedErrno, rfl⟩
  | _ => exact absurd ha (by simp [isTimer])

theorem onConnector_inv (h : ObjectInv s) {a : Act} (ha : s.enabled (.connector a)) :
    Post (s.onConnector a) ObjectInv := by
  unfold ClientObject.onConnector
  refine .check_bind fun hhas => ?_
  intro s' hs'
  obtain ⟨c, hmap, hs'⟩ := bind_eq_ok hs'
  obtain ⟨-, -, hs'⟩ := bind_eq_ok hs'
  have hc := mapError_eq_ok hmap
  refine releaseConnector_inv (deliver_sound h ha hc).1 hhas (fun hlast => ?_) s' hs'
  obtain ⟨htimer, -⟩ := last_is_timer h hhas ha.1 hc hlast
  obtain ⟨savedErrno, rfl⟩ := exists_timer htimer
  obtain ⟨-, -, htodo, -⟩ := timer_spec savedErrno c hc
  show (s.client.deliver c).connector.todo = []
  rw [deliver_connector, htodo]
  exact ha.2.2 rfl

theorem onConnector_ends (h : ObjectInv s) (hreach : OutOfReach s) {a : Act}
    (ha : s.enabled (.connector a)) :
    Ends (s.onConnector a) OutOfReach Asserts ↔ Drained s (.connector a) := by
  have hhas := hreach.exists_of_enabled h ha
  unfold ClientObject.onConnector
  rw [check_of _ hhas, ok_bind]
  cases hc : Client.exec s.connector a with
  | error e =>
      refine iff_of_true ⟨fun _ hs => absurd hs (by simp [Except.mapError]), fun e' he => ?_⟩ ?_
      · exact ⟨e, (Except.error.inj he).symm⟩
      · intro htimer hdead _ _ hd
        obtain ⟨savedErrno, rfl⟩ := exists_timer htimer
        rw [timer_lands savedErrno ((h.sockets hdead).off hd) hd] at hc
        exact absurd hc (by simp)
  | ok c =>
      obtain ⟨hsound, hpassed⟩ := deliver_sound h ha hc
      show Ends (check _ _ >>= _) _ _ ↔ _
      rw [check_of _ hpassed, ok_bind, releaseConnector_ends hsound hhas]
      have hconn : ({ s with client := s.client.deliver c } : ClientObject).connector = c :=
        deliver_connector s.client c
      rw [hconn]
      constructor
      · intro hdrained htimer hdead hkeeper hone hd
        obtain ⟨savedErrno, rfl⟩ := exists_timer htimer
        have hoff := (h.sockets hdead).off hd
        obtain rfl := Except.ok.inj ((timer_lands savedErrno hoff hd).symm.trans hc)
        refine hdrained ⟨hdead, hkeeper, ?_⟩
        rw [hconn]
        show s.connector.timers - 1 = 0
        omega
      · intro hdrained hlast
        obtain ⟨htimer, hdead, hkeeper, hzero⟩ := last_is_timer h hhas ha.1 hc hlast
        obtain ⟨savedErrno, rfl⟩ := exists_timer htimer
        obtain ⟨hd, hle, -, hsame⟩ := timer_spec savedErrno c hc
        have hpos : 0 < s.connector.timers := ha.2.1
        rw [hsame ((h.sockets hdead).off hd)]
        exact hdrained rfl hdead hkeeper (by omega) hd

/-! ### The destructor and its timer -/

theorem destruct_step (h : ObjectInv s) (ha : s.enabled .destruct) :
    Post s.destruct ObjectInv ∧
      (Ends s.destruct OutOfReach Asserts ↔ Drained s .destruct) := by
  obtain ⟨halive, ⟨-, -, -, hstart, hstop⟩, htodo⟩ := ha
  obtain ⟨hclient, hkeeper, -⟩ := h.client halive
  have hhas := h.exists_of_alive halive
  have hended : ¬ false = true := by simp
  unfold ClientObject.destruct
  cases hconnection : s.client.connection with
  | none =>
      dsimp only
      -- the timer holds the connector
      have hlive : s.client.live = [] := by
        rcases hclient.one with ⟨hnil, -⟩ | ⟨conn, -, hsome, -⟩
        · exact hnil
        · rw [hconnection] at hsome
          exact absurd hsome (by simp)
      have hsound : Sound s.abandon := by
        refine ⟨exec_accounted h.accounted .stop trivial _ rfl, exec_winds h.winds .stop _ rfl,
          fun hlives => absurd hlives hended, fun _ => ⟨hstart, hstop⟩, fun _ conn hconn => ?_,
          fun _ => .inl rfl⟩
        have hnil : s.abandon.client.live = [] := hlive
        rw [hnil] at hconn
        exact absurd hconn (by simp)
      have hheld : ¬ s.abandon.Released := fun hlast => absurd hlast.2.1 (by simp [ClientObject.abandon])
      refine ⟨releaseConnector_inv hsound hhas fun hlast => absurd hlast hheld, ?_⟩
      rw [releaseConnector_ends hsound hhas]
      exact iff_of_true (fun hlast => absurd hlast hheld) fun hne => absurd hconnection hne
  | some conn =>
      dsimp only
      obtain ⟨hlive, hup⟩ : s.client.live = [conn] ∧ s.connector.state = .kConnected := by
        rcases hclient.one with ⟨-, hnone⟩ | ⟨conn', hlive, hsome, hup⟩
        · rw [hconnection] at hnone
          exact absurd hnone (by simp)
        · rw [hconnection] at hsome
          obtain rfl := Option.some.inj hsome
          exact ⟨hlive, hup⟩
      have hsound : Sound (s.detach conn) := by
        refine ⟨h.accounted, h.winds, fun hlives => absurd hlives hended,
          fun _ => ⟨hstart, hstop⟩, fun _ c hc => ?_, fun _ => .inr hup⟩
        have hc' : c ∈ s.client.live := hc
        rw [hlive] at hc'
        exact List.mem_cons.mpr (.inl (List.mem_singleton.mp hc'))
      refine ⟨releaseConnector_inv hsound hhas fun _ => htodo, ?_⟩
      rw [releaseConnector_ends hsound hhas]
      constructor
      · exact fun hdrained _ hzero => hdrained ⟨rfl, hkeeper, hzero⟩
      · intro hdrained hlast
        exact hdrained (by rw [hconnection]; simp) hlast.2.2

theorem removeConnector_step (h : ObjectInv s) (ha : s.enabled .removeConnector) :
    Post s.removeConnector ObjectInv ∧
      (Ends s.removeConnector OutOfReach Asserts ↔ Drained s .removeConnector) := by
  obtain ⟨hkeeper, htodo⟩ := ha
  have hdead : s.alive = false := by
    by_contra hlives
    obtain ⟨-, hoff, -⟩ := h.client (by simpa using hlives)
    rw [hkeeper] at hoff
    exact absurd hoff (by simp)
  have hhas : s.hasConnector = true := by
    refine h.exists_of_held fun hlast => ?_
    have hoff := hlast.2.1
    rw [hkeeper] at hoff
    exact absurd hoff (by simp)
  have hlives : ¬ s.alive = true := by
    rw [hdead]
    simp
  have hsound : Sound { s with keeper := false } :=
    ⟨h.accounted, h.winds, fun hlive => absurd hlive hlives, h.calls, h.connections, h.sockets⟩
  unfold ClientObject.removeConnector
  refine ⟨releaseConnector_inv hsound hhas fun _ => htodo, ?_⟩
  rw [releaseConnector_ends hsound hhas]
  exact ⟨fun hdrained hzero => hdrained ⟨hdead, rfl, hzero⟩, fun hdrained hlast =>
    hdrained hlast.2.2⟩

/-! ## Runs -/

theorem new_objectInv : ObjectInv ClientObject.new :=
  .of_alive new_clientInv (.of_settled (by simp [ClientObject.new, TcpClient.new, Connector.new]))
    rfl rfl rfl rfl

theorem object_exec_inv (h : ObjectInv s) {a : ObjectAct} (ha : s.enabled a) :
    Post (s.exec a) ObjectInv := by
  cases a with
  | call a =>
      obtain ⟨halive, hcall, hen⟩ := ha
      exact (member_step h halive hen (call_winds h.winds hcall) rfl).1
  | connector a => exact onConnector_inv h ha
  | close conn savedErrno => exact (close_step h ha savedErrno).1
  | destruct => exact (destruct_step h ha).1
  | removeConnector => exact (removeConnector_step h ha).1

theorem object_exec_ends (h : ObjectInv s) (hreach : OutOfReach s) {a : ObjectAct}
    (ha : s.enabled a) : Ends (s.exec a) OutOfReach Asserts ↔ Drained s a := by
  cases a with
  | call a =>
      obtain ⟨halive, hcall, hen⟩ := ha
      exact iff_of_true (member_step h halive hen (call_winds h.winds hcall) rfl).2 trivial
  | connector a => exact onConnector_ends h hreach ha
  | close conn savedErrno => exact iff_of_true ((close_step h ha savedErrno).2 hreach) trivial
  | destruct => exact (destruct_step h ha).2
  | removeConnector => exact (removeConnector_step h ha).2

theorem releaseConnector_spares {e : ObjectFault} (herr : s.releaseConnector = .error e) :
    e ≠ .clientFreed := by
  unfold ClientObject.releaseConnector at herr
  split at herr
  · rcases bind_eq_error herr with hstop | ⟨_, -, hok⟩
    · unfold check at hstop
      split at hstop
      · exact absurd hstop (by simp)
      · rw [← Except.error.inj hstop]
        simp
    · exact absurd hok (by simp [pure, Except.pure])
  · exact absurd herr (by simp)

/-- No member function of the client is called after its end. -/
theorem object_exec_spares (h : ObjectInv s) {a : ObjectAct} (ha : s.enabled a) {e : ObjectFault}
    (herr : s.exec a = .error e) : e ≠ .clientFreed := by
  cases a with
  | call a =>
      rcases bind_eq_error herr with hmap | ⟨_, -, hok⟩
      · obtain ⟨e', -, rfl⟩ := mapError_eq_error hmap
        simp
      · exact absurd hok (by simp [pure, Except.pure])
  | connector a =>
      rcases bind_eq_error herr with hstop | ⟨_, -, herr⟩
      · unfold check at hstop
        split at hstop
        · exact absurd hstop (by simp)
        · rw [← Except.error.inj hstop]
          simp
      · rcases bind_eq_error herr with hmap | ⟨c, hmap, herr⟩
        · obtain ⟨e', -, rfl⟩ := mapError_eq_error hmap
          simp
        · have hpassed := (deliver_sound h ha (mapError_eq_ok hmap)).2
          rw [check_of _ hpassed, ok_bind] at herr
          exact releaseConnector_spares herr
  | close conn savedErrno =>
      have herr' : s.close conn savedErrno = .error e := herr
      unfold ClientObject.close at herr'
      split at herr'
      · exact absurd herr' (by simp)
      · rename_i hdet
        have halive : s.alive = true := by
          by_contra hlives
          exact hdet (h.connections (by simpa using hlives) conn ha)
        rw [check_of _ halive, ok_bind] at herr'
        rcases bind_eq_error herr' with hmap | ⟨_, -, hok⟩
        · obtain ⟨e', -, rfl⟩ := mapError_eq_error hmap
          simp
        · exact absurd hok (by simp [pure, Except.pure])
  | destruct =>
      have herr' : s.destruct = .error e := herr
      unfold ClientObject.destruct at herr'
      split at herr'
      · exact releaseConnector_spares herr'
      · exact releaseConnector_spares herr'
  | removeConnector => exact releaseConnector_spares herr

/-- **A client that has been destroyed is out of reach.** In every run of a client that
is destroyed in its loop thread, no member function of it is called afterwards: the
connections that outlive it have another close callback, and the connector is given
no more sockets to hand on. Of the connector the same holds, and `~Connector` finds no
channel, if and only if the last reference to it goes when none of its functors is
queued; then no run is stopped but by the other assertions of the connector. -/
theorem destroyed_out_of_reach_iff (acts : List ObjectAct)
    (hlegal : objectSys.Legal ClientObject.new acts) :
    Ends (objectSys.runFrom ClientObject.new acts)
      (fun s => s.alive = false →
        (∀ conn ∈ s.client.live, conn ∈ s.detached) ∧ Barred s.connector) (· ≠ .clientFreed) ∧
    ((∀ p, p <+: acts → Ends (objectSys.runFrom ClientObject.new p) OutOfReach Asserts) ↔
      objectSys.Meets Drained ClientObject.new acts) := by
  constructor
  · have hrun := Sys.invariant_ends (S := objectSys) (Q := (· ≠ .clientFreed))
      (fun _ _ h ha => ⟨object_exec_inv h ha, fun _ herr => object_exec_spares h ha herr⟩)
      new_objectInv hlegal
    exact hrun.mono fun s h hdead => ⟨h.connections hdead, h.sockets hdead⟩
  · exact Sys.always_ends_iff_meets (S := objectSys) (fun _ _ h ha => object_exec_inv h ha)
      (fun _ _ h hreach ha => object_exec_ends h hreach ha) new_objectInv
      (.of_alive rfl rfl) hlegal

/-- A client destroyed while an attempt is in flight, one destroyed with a connection
that closes later, and one destroyed before the channel of the attempt was reset. -/
theorem destroyed_out_of_reach_three :
    (∀ p, p <+: [.call (.connect (some .EINPROGRESS)), .destruct, .connector (.runFunctor none),
        .connector (.runFunctor none), .removeConnector] →
      Ends (objectSys.runFrom ClientObject.new p) OutOfReach Asserts) ∧
    (∀ p, p <+: [.call (.connect none),
        .connector (.poll { Events.kNoneEvent with pollout := true }),
        .connector (.next false false), .connector (.runFunctor none), .destruct, .close 0 none] →
      Ends (objectSys.runFrom ClientObject.new p) OutOfReach Asserts) ∧
    ¬ ∀ p, p <+: [.call (.connect none),
        .connector (.poll { Events.kNoneEvent with pollout := true }),
        .connector (.next false false), .destruct] →
      Ends (objectSys.runFrom ClientObject.new p) OutOfReach Asserts := by
  refine ⟨?_, ?_, fun hall => ?_⟩
  · exact (destroyed_out_of_reach_iff _ (by decide +kernel)).2.mpr (by decide +kernel)
  · exact (destroyed_out_of_reach_iff _ (by decide +kernel)).2.mpr (by decide +kernel)
  · exact absurd ((destroyed_out_of_reach_iff _ (by decide +kernel)).2.mp hall) (by decide +kernel)

end Object

end Muduo.Client
