import Muduo.Client.TcpClient

/-!
# The connections of a client

While a connection is live the connector is in `kConnected`, and only `restart`
takes it out of that state; `restart` is called by `removeConnection`, when the
connection has gone. So there is never a second attempt beside a connection
(`ClientInv`).

The converse fails. `removeConnection` leaves the connector in `kConnected`
unless it restarts it, and so does an attempt that succeeds after `stop()`: then
there is no connection, and the next `connect()` fails the assertion of
`startInLoop`. In the runs without these two steps (`Reconnects`) a client at
rest can be connected again.
-/

namespace Muduo.Client

open Lib

/-! ## What a step of the connector does to its state -/

/-- No socket is given to the callback, and the connector is connected after the
step if it was before. -/
structure Quiet (c c' : Connector) : Prop where
  passed : c'.passed = c.passed
  state : c'.state = .kConnected ↔ c.state = .kConnected

/-- The step is the write event of an attempt that has succeeded. -/
def Succeeds (c : Connector) (a : Act) : Prop :=
  a = .next false false ∧ c.todo.head? = some .write ∧ c.state = .kConnecting

instance (c : Connector) (a : Act) : Decidable (Succeeds c a) :=
  inferInstanceAs (Decidable (_ ∧ _ ∧ _))

/-- A quiet step, or one with a `success`: the socket is given to the callback, or
closed if `stop` was called. -/
inductive Move (success : Prop) (c c' : Connector) : Prop
  | quiet : Quiet c c' → Move success c c'
  | connected (sockfd : Nat) : success → c.state = .kConnecting → c.connect = true →
      c'.state = .kConnected → c'.passed = sockfd :: c.passed → Move success c c'
  | abandoned : success → c.state = .kConnecting → c.connect = false →
      c'.state = .kConnected → c'.passed = c.passed → Move success c c'

section Moves

variable {success : Prop} {c c' : Connector}

theorem startInLoop_not_connected (savedErrno : Option Errno) :
    Post (c.startInLoop savedErrno) fun c' => c'.passed = c.passed ∧ c'.state ≠ .kConnected := by
  refine (Connector.startInLoop_post savedErrno).mono fun c' hs => ?_
  obtain ⟨hd, rfl | ht | hb⟩ := hs
  · exact ⟨rfl, by rw [hd]; simp⟩
  · exact ⟨ht.passed, by rw [ht.state]; simp⟩
  · exact ⟨hb.passed, by rw [hb.state]; simp⟩

/-- `startInLoop`, after what its caller did before it to `c₀`. -/
theorem startInLoop_quiet (c₀ : Connector) (hstate : c.state = c₀.state)
    (hpassed : c.passed = c₀.passed) (savedErrno : Option Errno) :
    Post (c.startInLoop savedErrno) (Quiet c₀) := by
  intro c' hc'
  obtain ⟨hd, -⟩ := Connector.startInLoop_post savedErrno c' hc'
  obtain ⟨hp, hs⟩ := startInLoop_not_connected savedErrno c' hc'
  refine ⟨hp.trans hpassed, iff_of_false hs ?_⟩
  rw [← hstate, hd]
  simp

theorem removeAndResetChannel_post (c : Connector) :
    Post c.removeAndResetChannel fun r =>
      r.1.passed = c.passed ∧ r.1.state = c.state ∧ r.1.connect = c.connect := by
  unfold Connector.removeAndResetChannel
  cases c.channel with
  | none =>
      intro r hr
      exact absurd hr (by simp)
  | some ch => exact .ok ⟨rfl, rfl, rfl⟩

/-- The end of an attempt by `retry`. -/
theorem Move.retried {c₁ : Connector} (hc : c.state = .kConnecting) (hpassed : c₁.passed = c.passed)
    (sockfd : Nat) : Move success c (c₁.retry sockfd) := by
  refine .quiet ⟨(c₁.retry_passed sockfd).trans hpassed, iff_of_false ?_ ?_⟩
  · simp
  · rw [hc]
    simp

theorem stopInLoop_move (c : Connector) : Post c.stopInLoop (Move success c) := by
  unfold Connector.stopInLoop
  split
  · rename_i hc
    refine (removeAndResetChannel_post (c.setState .kDisconnected)).bind fun r hr => .ok ?_
    exact .retried hc hr.1 r.2
  · exact .ok (.quiet ⟨rfl, Iff.rfl⟩)

theorem handleError_move (c : Connector) : Post c.handleError (Move success c) := by
  unfold Connector.handleError
  split
  · rename_i hc
    refine (removeAndResetChannel_post c).bind fun r hr => .ok ?_
    exact .retried hc hr.1 r.2
  · exact .ok (.quiet ⟨rfl, Iff.rfl⟩)

theorem handleWrite_move (c : Connector) (err selfConnect : Bool) :
    Post (c.handleWrite err selfConnect)
      (Move (err = false ∧ selfConnect = false ∧ c.state = .kConnecting) c) := by
  unfold Connector.handleWrite
  split
  · rename_i hc
    refine (removeAndResetChannel_post c).bind fun r hr => ?_
    obtain ⟨hpassed, -, hconnect⟩ := hr
    dsimp only
    split
    · exact .ok (.retried hc hpassed r.2)
    · rename_i herr
      split
      · exact .ok (.retried hc hpassed r.2)
      · rename_i hself
        have hsuccess : err = false ∧ selfConnect = false ∧ c.state = .kConnecting :=
          ⟨Bool.eq_false_iff.mpr herr, Bool.eq_false_iff.mpr hself, hc⟩
        split
        · rename_i hflag
          refine .ok (.connected r.2 hsuccess hc (hconnect.symm.trans hflag) rfl ?_)
          exact congrArg (r.2 :: ·) hpassed
        · rename_i hflag
          have hoff : r.1.connect = false := Bool.eq_false_iff.mpr hflag
          exact .ok (.abandoned hsuccess hc (hconnect.symm.trans hoff) rfl hpassed)
  · exact .check_bind fun _ => .ok (.quiet ⟨rfl, Iff.rfl⟩)

/-- What a move needs of the state before it. -/
theorem Move.congr {success' : Prop} {c₀ : Connector} (h : Move success c c')
    (hsuccess : success → success') (hstate : c.state = c₀.state)
    (hconnect : c.connect = c₀.connect) (hpassed : c.passed = c₀.passed) : Move success' c₀ c' := by
  cases h with
  | quiet hq => exact .quiet ⟨hq.passed.trans hpassed, by rw [hq.state, hstate]⟩
  | connected sockfd hok hc hflag hs hp =>
      exact .connected sockfd (hsuccess hok) (hstate.symm.trans hc) (hconnect.symm.trans hflag) hs
        (hp.trans (congrArg (sockfd :: ·) hpassed))
  | abandoned hok hc hflag hs hp =>
      exact .abandoned (hsuccess hok) (hstate.symm.trans hc) (hconnect.symm.trans hflag) hs
        (hp.trans hpassed)

/-- Every step but `restart`. -/
theorem exec_move (c : Connector) {a : Act} (ha : ∀ e, a ≠ .restart e) :
    Post (exec c a) (Move (Succeeds c a) c) := by
  cases a with
  | start savedErrno =>
      exact (startInLoop_quiet (c := { c with connect := true }) c rfl rfl savedErrno).mono
        fun _ hq => .quiet hq
  | restart savedErrno => exact absurd rfl (ha savedErrno)
  | timer savedErrno =>
      exact (startInLoop_quiet (c := { c with timers := c.timers - 1 }) c rfl rfl savedErrno).mono
        fun _ hq => .quiet hq
  | runFunctor savedErrno =>
      simp only [exec]
      cases c.pending with
      | nil => exact .ok (.quiet ⟨rfl, Iff.rfl⟩)
      | cons f rest =>
          cases f with
          | startInLoop =>
              exact (startInLoop_quiet (c := { c with pending := rest }) c rfl rfl savedErrno).mono
                fun _ hq => .quiet hq
          | stopInLoop =>
              exact (stopInLoop_move { c with pending := rest }).mono
                fun _ h => h.congr id rfl rfl rfl
          | resetChannel => exact .ok (.quiet ⟨rfl, Iff.rfl⟩)
  | next err selfConnect =>
      simp only [exec]
      cases htodo : c.todo with
      | nil => exact .ok (.quiet ⟨rfl, Iff.rfl⟩)
      | cons cb rest =>
          cases cb with
          | close => exact .ok (.quiet ⟨rfl, Iff.rfl⟩)
          | read => exact .ok (.quiet ⟨rfl, Iff.rfl⟩)
          | error =>
              exact (handleError_move { c with todo := rest }).mono
                fun _ h => h.congr id rfl rfl rfl
          | write =>
              refine (handleWrite_move { c with todo := rest } err selfConnect).mono fun _ h => ?_
              refine h.congr (fun hok => ?_) rfl rfl rfl
              obtain ⟨rfl, rfl, hst⟩ := hok
              exact ⟨rfl, by rw [htodo]; rfl, hst⟩
  | stop | threadStart | threadStartPush | threadStop | threadStopPush | poll revents =>
      exact .ok (.quiet ⟨rfl, Iff.rfl⟩)

end Moves

/-! ## At most one connection -/

/-- No connection, or one, which is `M_connection` and whose connector is
connected. -/
structure ClientInv (t : TcpClient) : Prop where
  accounted : Accounted t.connector
  one : t.live = [] ∧ t.connection = none ∨
    ∃ conn, t.live = [conn] ∧ t.connection = some conn ∧ t.connector.state = .kConnected
  restarts : ∀ r ∈ t.restarts, r.1 = [] ∧ r.2 ≠ .kConnecting

section Client

variable {t t' : TcpClient}

/-- Nothing is delivered unless the connector passed a socket on. -/
theorem deliver_of_same {c : Connector} (hp : c.passed = t.connector.passed) :
    t.deliver c = { t with connector := c } := by
  unfold TcpClient.deliver
  rw [hp]
  cases hl : t.connector.passed with
  | nil => rfl
  | cons sockfd rest => exact if_neg fun heq => absurd (congrArg List.length heq) (by simp)

theorem deliver_of_passed {c : Connector} {sockfd : Nat}
    (hp : c.passed = sockfd :: t.connector.passed) :
    t.deliver c = { t with connector := c }.newConnection sockfd := by
  unfold TcpClient.deliver
  rw [hp]
  exact if_pos rfl

theorem ClientInv.quiet (h : ClientInv t) {c : Connector} (hc : Accounted c)
    (hq : Quiet t.connector c) : ClientInv { t with connector := c } := by
  refine ⟨hc, ?_, h.restarts⟩
  rcases h.one with hnone | ⟨conn, hlive, hconn, hst⟩
  · exact .inl hnone
  · exact .inr ⟨conn, hlive, hconn, hq.state.mpr hst⟩

/-- The connector moves, and the client takes what it is given. -/
theorem ClientInv.deliver (h : ClientInv t) {success : Prop} {c : Connector} (hc : Accounted c)
    (hm : Move success t.connector c) : ClientInv (t.deliver c) := by
  cases hm with
  | quiet hq =>
      rw [deliver_of_same hq.passed]
      exact h.quiet hc hq
  | connected sockfd hok hst hflag hs hp =>
      -- the connector was connecting, so there was no connection
      rw [deliver_of_passed hp]
      refine ⟨hc, ?_, h.restarts⟩
      rcases h.one with ⟨hlive, -⟩ | ⟨conn, -, -, hst'⟩
      · exact .inr ⟨sockfd, congrArg (sockfd :: ·) hlive, rfl, hs⟩
      · rw [hst] at hst'
        exact absurd hst' (by simp)
  | abandoned hok hst hflag hs hp =>
      rw [deliver_of_same hp]
      refine ⟨hc, ?_, h.restarts⟩
      rcases h.one with hnone | ⟨conn, -, -, hst'⟩
      · exact .inl hnone
      · rw [hst] at hst'
        exact absurd hst' (by simp)

/-- A step that leaves the connections and the connector alone. -/
theorem ClientInv.frame (h : ClientInv t) (hc : t'.connector = t.connector)
    (hlive : t'.live = t.live) (hconn : t'.connection = t.connection)
    (hrestarts : t'.restarts = t.restarts) : ClientInv t' := by
  refine ⟨by rw [hc]; exact h.accounted, ?_, by rw [hrestarts]; exact h.restarts⟩
  rw [hlive, hconn, hc]
  exact h.one

/-- A call of the connector that gives nothing to the callback. -/
theorem ClientInv.onConnector (h : ClientInv t) {f : Connector → Except Assert Connector}
    (hacc : Post (f t.connector) Accounted) (hquiet : Post (f t.connector) (Quiet t.connector)) :
    Post (t.onConnector f) ClientInv := by
  intro t' ht'
  obtain ⟨c, hc, heq⟩ := bind_eq_ok ht'
  obtain rfl := Except.ok.inj heq
  exact h.quiet (hacc c (mapError_eq_ok hc)) (hquiet c (mapError_eq_ok hc))

/-- A live connection is the only one, and the connector is connected. -/
theorem ClientInv.of_mem (h : ClientInv t) {conn : Nat} (hconn : conn ∈ t.live) :
    t.live = [conn] ∧ t.connection = some conn ∧ t.connector.state = .kConnected := by
  rcases h.one with ⟨hnil, -⟩ | ⟨c, hl, hc, hst⟩
  · rw [hnil] at hconn
    exact absurd hconn (by simp)
  · rw [hl, List.mem_singleton] at hconn
    subst hconn
    exact ⟨hl, hc, hst⟩

/-- `removeConnection` calls `restart` when no connection is left. -/
theorem removeConnection_inv (h : ClientInv t) {conn : Nat} (hconn : conn ∈ t.live)
    (savedErrno : Option Errno) : Post (t.removeConnection conn savedErrno) ClientInv := by
  obtain ⟨hlive, -, hst⟩ := h.of_mem hconn
  have hgone : t.live.erase conn = [] := by
    rw [hlive]
    simp
  have hne : t.connector.state ≠ .kConnecting := by
    rw [hst]
    simp
  unfold TcpClient.removeConnection
  refine .check_bind fun _ => ?_
  dsimp only
  rw [hgone]
  split
  · intro t' ht'
    obtain ⟨c, hc, heq⟩ := bind_eq_ok ht'
    obtain rfl := Except.ok.inj heq
    have hrestart := mapError_eq_ok hc
    refine ⟨exec_accounted h.accounted (.restart savedErrno) hne c hrestart, .inl ⟨rfl, rfl⟩, ?_⟩
    intro r hr
    rcases List.mem_cons.mp hr with rfl | hr
    · exact ⟨rfl, hne⟩
    · exact h.restarts r hr
  · exact .ok ⟨h.accounted, .inl ⟨rfl, rfl⟩, h.restarts⟩

theorem client_exec_inv (h : ClientInv t) {a : ClientAct} (ha : t.enabled a) :
    Post (t.exec a) ClientInv := by
  cases a with
  | connect savedErrno =>
      refine ClientInv.onConnector (t := { t with connect := true })
        (f := fun c => c.start savedErrno) (h.frame rfl rfl rfl rfl) ?_ ?_
      · exact exec_accounted h.accounted (.start savedErrno) trivial
      · exact startInLoop_quiet (c := { t.connector with connect := true }) t.connector rfl rfl
          savedErrno
  | disconnect => exact .ok (h.frame rfl rfl rfl rfl)
  | stop =>
      have hoff : ClientInv { t with connect := false } := h.frame rfl rfl rfl rfl
      have hacc : Accounted t.connector.stop := exec_accounted h.accounted .stop trivial _ rfl
      exact .ok (hoff.quiet hacc ⟨rfl, Iff.rfl⟩)
  | enableRetry => exact .ok (h.frame rfl rfl rfl rfl)
  | threadConnect => exact .ok (h.frame rfl rfl rfl rfl)
  | threadConnectStart =>
      refine ClientInv.onConnector (t := { t with connecting := t.connecting - 1 })
        (f := fun c => exec c .threadStart) (h.frame rfl rfl rfl rfl) ?_ ?_
      · exact exec_accounted h.accounted .threadStart trivial
      · exact .ok ⟨rfl, Iff.rfl⟩
  | threadDisconnect => exact .ok (h.frame rfl rfl rfl rfl)
  | threadDisconnectShutdown => exact .ok (h.frame rfl rfl rfl rfl)
  | threadStop => exact .ok (h.frame rfl rfl rfl rfl)
  | threadStopStop =>
      refine ClientInv.onConnector (t := { t with stopping := t.stopping - 1 })
        (f := fun c => exec c .threadStop) (h.frame rfl rfl rfl rfl) ?_ ?_
      · exact exec_accounted h.accounted .threadStop trivial
      · exact .ok ⟨rfl, Iff.rfl⟩
  | connector a =>
      obtain ⟨hown, hen⟩ := ha
      intro t' ht'
      obtain ⟨c, hc, heq⟩ := bind_eq_ok ht'
      obtain rfl := Except.ok.inj heq
      have hexec := mapError_eq_ok hc
      have hno : ∀ e, a ≠ .restart e := by
        rintro e rfl
        exact absurd hown (by simp [TcpClient.ownStep])
      exact h.deliver (exec_accounted h.accounted a hen c hexec) (exec_move _ hno c hexec)
  | close conn savedErrno => exact removeConnection_inv h ha savedErrno

theorem new_clientInv : ClientInv TcpClient.new :=
  ⟨new_accounted, .inl ⟨rfl, rfl⟩, fun _ hr => absurd hr (by simp [TcpClient.new])⟩

/-- The assertion is one of the connector's. -/
def Connectors (e : ClientAssert) : Prop := ∃ e', e = .connector e'

theorem mapError_connectors {α : Type} {x : Except Assert α} {e : ClientAssert}
    (h : x.mapError ClientAssert.connector = .error e) : Connectors e := by
  cases x with
  | error e' => exact ⟨e', (Except.error.inj h).symm⟩
  | ok a => exact absurd h (by simp [Except.mapError])

/-- A call of the connector, and then a statement that returns. -/
theorem connectors_of_bind {x : Except Assert Connector} {g : Connector → TcpClient}
    {e : ClientAssert}
    (h : (x.mapError ClientAssert.connector >>= fun c => Except.ok (g c)) = .error e) :
    Connectors e := by
  rcases bind_eq_error h with herr | ⟨c, -, hok⟩
  · exact mapError_connectors herr
  · exact absurd hok (by simp)

/-- The assertion `M_connection == conn` does not stop a client. -/
theorem client_exec_error (h : ClientInv t) {a : ClientAct} (ha : t.enabled a) {e : ClientAssert}
    (herr : t.exec a = .error e) : Connectors e := by
  cases a with
  | connect savedErrno => exact connectors_of_bind herr
  | threadConnectStart => exact connectors_of_bind herr
  | threadStopStop => exact connectors_of_bind herr
  | connector a => exact connectors_of_bind herr
  | close conn savedErrno =>
      obtain ⟨-, hconnection, -⟩ := h.of_mem ha
      simp only [TcpClient.exec, TcpClient.removeConnection] at herr
      rw [check_of _ hconnection, ok_bind] at herr
      split at herr
      · exact connectors_of_bind herr
      · exact absurd herr (by simp [pure, Except.pure])
  | disconnect | stop | enableRetry | threadConnect | threadDisconnect
  | threadDisconnectShutdown | threadStop => exact absurd herr (by simp [TcpClient.exec])

/-- **At most one connection.** In every run, up to an assertion of the connector:
at most one connection is live, it is `M_connection`, and every call of `restart`
was made when no connection was live and no attempt in flight. The assertion of
`removeConnection` stops no run. -/
theorem client_one_connection (acts : List ClientAct)
    (hlegal : clientSys.Legal TcpClient.new acts) :
    Post (clientSys.runFrom TcpClient.new acts) (fun t =>
      t.live.length ≤ 1 ∧ t.connection = t.live.head? ∧
        ∀ r ∈ t.restarts, r.1 = [] ∧ r.2 ≠ .kConnecting) ∧
    clientSys.runFrom TcpClient.new acts ≠ .error .removeConnection := by
  obtain ⟨hinv, herror⟩ := Sys.invariant_ends (S := clientSys) (Q := Connectors)
    (fun t a h ha => ⟨client_exec_inv h ha, fun e he => client_exec_error h ha he⟩)
    new_clientInv hlegal
  refine ⟨hinv.mono fun t h => ?_, fun hrun => ?_⟩
  · rcases h.one with ⟨hlive, hconn⟩ | ⟨conn, hlive, hconn, -⟩
    · rw [hlive, hconn]
      exact ⟨Nat.zero_le 1, rfl, h.restarts⟩
    · rw [hlive, hconn]
      exact ⟨le_rfl, rfl, h.restarts⟩
  · obtain ⟨e, he⟩ := herror _ hrun
    exact absurd he (by simp)

/-- A connection that is closed and replaced by a second one. -/
theorem client_one_connection_reconnect :
    Lands (clientSys.runFrom TcpClient.new
      [.enableRetry, .connect none,
        .connector (.poll { Events.kNoneEvent with pollout := true }),
        .connector (.next false false), .connector (.runFunctor none),
        .close 0 (some .EINPROGRESS),
        .connector (.poll { Events.kNoneEvent with pollout := true }),
        .connector (.next false false), .disconnect]) fun t =>
      t.live = [1] ∧ t.connection = t.live.head? ∧
        ∀ r ∈ t.restarts, r.1 = [] ∧ r.2 ≠ .kConnecting := by
  have hspec := client_one_connection
    [.enableRetry, .connect none,
      .connector (.poll { Events.kNoneEvent with pollout := true }),
      .connector (.next false false), .connector (.runFunctor none),
      .close 0 (some .EINPROGRESS),
      .connector (.poll { Events.kNoneEvent with pollout := true }),
      .connector (.next false false), .disconnect] (by decide +kernel)
  have hrun : Lands (clientSys.runFrom TcpClient.new
      [.enableRetry, .connect none,
        .connector (.poll { Events.kNoneEvent with pollout := true }),
        .connector (.next false false), .connector (.runFunctor none),
        .close 0 (some .EINPROGRESS),
        .connector (.poll { Events.kNoneEvent with pollout := true }),
        .connector (.next false false), .disconnect]) fun t => t.live = [1] := by decide +kernel
  obtain ⟨t, ht, hlive⟩ := hrun
  exact ⟨t, ht, hlive, (hspec.1 t ht).2⟩

/-! ## Connecting again -/

/-- No connection, no attempt in flight, and nothing of the connector's that is
still to run. -/
structure AtRest (t : TcpClient) : Prop where
  live : t.live = []
  attempt : t.connector.state ≠ .kConnecting
  timers : t.connector.timers = 0
  pending : t.connector.pending = []

instance (t : TcpClient) : Decidable (AtRest t) :=
  decidable_of_iff (t.live = [] ∧ t.connector.state ≠ .kConnecting ∧ t.connector.timers = 0 ∧
    t.connector.pending = [])
    ⟨fun ⟨hl, ha, ht, hp⟩ => ⟨hl, ha, ht, hp⟩, fun h => ⟨h.live, h.attempt, h.timers, h.pending⟩⟩

/-- The two steps that would leave the connector connected without a connection:
an attempt that succeeds after `stop()`, and the close of a connection that is
not replaced. -/
def Reconnects (t : TcpClient) : ClientAct → Prop
  | .connector a => Succeeds t.connector a → t.connector.connect = true
  | .close _ _ => t.retry = true ∧ t.connect = true
  | _ => True

instance decidableReconnects (t : TcpClient) : ∀ a, Decidable (Reconnects t a)
  | .connector a => inferInstanceAs (Decidable (Succeeds t.connector a → t.connector.connect = true))
  | .close _ _ => inferInstanceAs (Decidable (t.retry = true ∧ t.connect = true))
  | .connect _ | .disconnect | .stop | .enableRetry | .threadConnect | .threadConnectStart
  | .threadDisconnect | .threadDisconnectShutdown | .threadStop | .threadStopStop =>
      inferInstanceAs (Decidable True)

/-- A connected connector has a connection. -/
def Connects (t : TcpClient) : Prop := t.connector.state = .kConnected → t.live ≠ []

theorem Connects.frame (h : Connects t)
    (hstate : t'.connector.state = .kConnected → t.connector.state = .kConnected)
    (hlive : t'.live = t.live) : Connects t' := by
  intro hst
  rw [hlive]
  exact h (hstate hst)

/-- A call of the connector that gives nothing to the callback. -/
theorem Connects.onConnector (h : Connects t) {f : Connector → Except Assert Connector}
    (hquiet : Post (f t.connector) (Quiet t.connector)) : Post (t.onConnector f) Connects := by
  intro t' ht'
  obtain ⟨c, hc, heq⟩ := bind_eq_ok ht'
  obtain rfl := Except.ok.inj heq
  exact h.frame (hquiet c (mapError_eq_ok hc)).state.mp rfl

theorem client_exec_connects (h : Connects t) {a : ClientAct} (ha : t.enabled a)
    (hgood : Reconnects t a) : Post (t.exec a) Connects := by
  cases a with
  | connect savedErrno =>
      refine Connects.onConnector (t := { t with connect := true })
        (f := fun c => c.start savedErrno) (h.frame id rfl) ?_
      exact startInLoop_quiet (c := { t.connector with connect := true }) t.connector rfl rfl
        savedErrno
  | threadConnectStart =>
      exact Connects.onConnector (t := { t with connecting := t.connecting - 1 })
        (f := fun c => exec c .threadStart) (h.frame id rfl) (.ok ⟨rfl, Iff.rfl⟩)
  | threadStopStop =>
      exact Connects.onConnector (t := { t with stopping := t.stopping - 1 })
        (f := fun c => exec c .threadStop) (h.frame id rfl) (.ok ⟨rfl, Iff.rfl⟩)
  | connector a =>
      intro t' ht'
      obtain ⟨c, hc, heq⟩ := bind_eq_ok ht'
      obtain rfl := Except.ok.inj heq
      have hno : ∀ e, a ≠ .restart e := by
        rintro e rfl
        exact absurd ha.1 (by simp [TcpClient.ownStep])
      cases exec_move _ hno c (mapError_eq_ok hc) with
      | quiet hq =>
          rw [deliver_of_same hq.passed]
          exact h.frame hq.state.mp rfl
      | connected sockfd hok hst hflag hs hp =>
          rw [deliver_of_passed hp]
          exact fun _ => List.cons_ne_nil _ _
      | abandoned hok hst hflag hs hp =>
          rw [hgood hok] at hflag
          exact absurd hflag (by simp)
  | close conn savedErrno =>
      -- the restart takes the connector out of its state
      simp only [TcpClient.exec, TcpClient.removeConnection]
      refine .check_bind fun _ => ?_
      rw [if_pos (show t.retry = true ∧ t.connect = true from hgood)]
      intro t' ht'
      obtain ⟨c, hc, heq⟩ := bind_eq_ok ht'
      obtain rfl := Except.ok.inj heq
      intro hst
      exact absurd hst (startInLoop_not_connected savedErrno c (mapError_eq_ok hc)).2
  | disconnect | stop | enableRetry | threadConnect | threadDisconnect
  | threadDisconnectShutdown | threadStop => exact .ok (h.frame id rfl)

/-- From a disconnected state with nothing pending, `connect()` passes the
assertions and creates a socket. -/
theorem doConnect_starts (h : ClientInv t) (hd : t.connector.state = .kDisconnected)
    (hpending : t.connector.pending = []) (savedErrno : Option Errno) :
    Lands (t.doConnect savedErrno) fun t' =>
      t'.connector.sockets = t.connector.sockets + 1 := by
  -- the channel of the last attempt has been reset
  have hnone : t.connector.channel = none := by
    refine h.accounted.no_channel (by rw [hd]; simp) ?_
    rw [hpending]
    simp
  let c : Connector := { t.connector with connect := true }
  obtain ⟨c', hstart, -⟩ := startInLoop_lands (c := c) hd hnone savedErrno
  have hsockets : c'.sockets = t.connector.sockets + 1 :=
    Connector.startInLoop_creates (c := c) rfl savedErrno c' hstart
  refine ⟨{ t with connect := true, connector := c' }, ?_, hsockets⟩
  show ((c.startInLoop savedErrno).mapError ClientAssert.connector >>= _) = _
  rw [hstart]
  rfl

/-- **A client at rest can be connected again.** In every run in which no attempt
succeeds after `stop()` and no connection closes without being replaced, the
connector of a client at rest is disconnected, and `connect()` passes the
assertions and starts an attempt. -/
theorem client_connects_again (acts : List ClientAct)
    (hlegal : clientSys.Legal TcpClient.new acts)
    (hgood : clientSys.Meets Reconnects TcpClient.new acts) :
    Post (clientSys.runFrom TcpClient.new acts) fun t => AtRest t →
      t.connector.state = .kDisconnected ∧
      ∀ savedErrno, Lands (clientSys.exec t (.connect savedErrno)) fun t' =>
        t'.connector.sockets = t.connector.sockets + 1 := by
  have hinit : Connects TcpClient.new := fun hst => absurd hst (by simp [TcpClient.new, Connector.new])
  have hrun := Sys.invariant_post (S := clientSys) (I := fun t => ClientInv t ∧ Connects t)
    (fun t a h ha t' ht' => ⟨client_exec_inv h.1 ha.1 t' ht',
      client_exec_connects h.2 ha.1 ha.2 t' ht'⟩)
    ⟨new_clientInv, hinit⟩ (Sys.meets_and.mpr ⟨hlegal, hgood⟩)
  refine hrun.mono fun t ht hrest => ?_
  have hd : t.connector.state = .kDisconnected := by
    cases hst : t.connector.state with
    | kDisconnected => rfl
    | kConnecting => exact absurd hst hrest.attempt
    | kConnected => exact absurd hrest.live (ht.2 hst)
  exact ⟨hd, fun savedErrno => doConnect_starts ht.1 hd hrest.pending savedErrno⟩

/-- An attempt that `stop()` abandons before its write event. -/
theorem client_connects_again_after_stop :
    Lands (clientSys.runFrom TcpClient.new
      [.connect none, .stop, .connector (.runFunctor none), .connector (.runFunctor none)]) fun t =>
      AtRest t ∧ t.connector.state = .kDisconnected ∧
        Lands (clientSys.exec t (.connect none)) fun t' => t'.connector.sockets = 2 := by
  have hspec := client_connects_again
    [.connect none, .stop, .connector (.runFunctor none), .connector (.runFunctor none)]
    (by decide +kernel) (by decide +kernel)
  have hrun : Lands (clientSys.runFrom TcpClient.new
      [.connect none, .stop, .connector (.runFunctor none), .connector (.runFunctor none)]) fun t =>
      AtRest t ∧ t.connector.sockets = 1 := by decide +kernel
  obtain ⟨t, ht, hrest, hsockets⟩ := hrun
  obtain ⟨hd, hconnect⟩ := hspec t ht hrest
  rw [hsockets] at hconnect
  exact ⟨t, ht, hrest, hd, hconnect none⟩

/-- A run after which the client is at rest with a connected connector, and
`connect()` fails the assertion of `startInLoop`. -/
def Stuck (acts : List ClientAct) : Prop :=
  clientSys.Legal TcpClient.new acts ∧
    Lands (clientSys.runFrom TcpClient.new acts)
      (fun t => AtRest t ∧ t.connector.state = .kConnected) ∧
    clientSys.runFrom TcpClient.new (acts ++ [.connect none]) =
      .error (.connector .startInLoopState)

/-- After `disconnect()` and the close of the connection; after a close by the peer
without the retry; and after a `stop()` in the iteration in which the write event
is dispatched. -/
theorem client_stuck_connected :
    Stuck [.connect none, .connector (.poll { Events.kNoneEvent with pollout := true }),
      .connector (.next false false), .connector (.runFunctor none), .enableRetry, .disconnect,
      .close 0 none] ∧
    Stuck [.connect none, .connector (.poll { Events.kNoneEvent with pollout := true }),
      .connector (.next false false), .connector (.runFunctor none), .close 0 none] ∧
    Stuck [.connect none, .connector (.poll { Events.kNoneEvent with pollout := true }), .stop,
      .connector (.next false false), .connector (.runFunctor none),
      .connector (.runFunctor none)] :=
  ⟨⟨by decide +kernel, by decide +kernel, rfl⟩, ⟨by decide +kernel, by decide +kernel, rfl⟩,
    ⟨by decide +kernel, by decide +kernel, rfl⟩⟩

end Client

end Muduo.Client
