import Mathlib
import Muduo.Client.Sockets

/-!
# The client (`TcpClient.h`, `TcpClient.cpp`)

A `TcpClient` is a connector, the flags `M_retry` and `M_connect`, and
`M_connection`. Its connections live in the connector's loop: `newConnection` is
the connector's callback, and `removeConnection` is the close callback of every
connection, which may call `restart`. A connection is named by its socket.

`connect`, `disconnect` and `stop` may be called in any thread. In another thread
than the loop's, the assignment to `M_connect` and the call of the connector or
of the connection are two steps.
-/

namespace Muduo.Client

open Lib

/-- The assertions a client can fail. -/
inductive ClientAssert
  | connector (e : Assert)
  | removeConnection
  deriving DecidableEq, Repr

structure TcpClient where
  connector : Connector
  retry : Bool
  connect : Bool
  nextConnId : Nat
  connection : Option Nat
  /-- Calls in other threads between their assignment to `M_connect` and what
  they do next: `connect`, `disconnect` and `stop`. -/
  connecting : Nat
  disconnecting : Nat
  stopping : Nat
  /-- The connections that `newConnection` created and that have not gone through
  `removeConnection`, newest first. -/
  live : List Nat
  /-- The connections that `disconnect` has shut down. -/
  shutdown : List Nat
  /-- The connections whose `connectDestroyed` is queued. -/
  destroyed : List Nat
  /-- For each call of `restart`, the connections that were live then and the
  state the connector was in. -/
  restarts : List (List Nat × States)

namespace TcpClient

def new : TcpClient where
  connector := Connector.new
  retry := false
  connect := true
  nextConnId := 1
  connection := none
  connecting := 0
  disconnecting := 0
  stopping := 0
  live := []
  shutdown := []
  destroyed := []
  restarts := []

/-- A call of the connector, with its assertions. -/
def onConnector (t : TcpClient) (f : Connector → Except Assert Connector) :
    Except ClientAssert TcpClient := do
  let c ← (f t.connector).mapError .connector
  return { t with connector := c }

def newConnection (t : TcpClient) (sockfd : Nat) : TcpClient :=
  { t with
    nextConnId := t.nextConnId + 1
    connection := some sockfd
    live := sockfd :: t.live }

/-- The connector has become `c`; a socket it has given to
`M_newConnectionCallback` on the way goes to `newConnection`. -/
def deliver (t : TcpClient) (c : Connector) : TcpClient :=
  let t' := { t with connector := c }
  match c.passed with
  | sockfd :: rest => if rest = t.connector.passed then t'.newConnection sockfd else t'
  | [] => t'

/-- `M_connector->start()` included. -/
def doConnect (t : TcpClient) (savedErrno : Option Errno) : Except ClientAssert TcpClient :=
  { t with connect := true }.onConnector fun c => c.start savedErrno

def shutdownConnection (t : TcpClient) : TcpClient :=
  { t with shutdown := t.connection.toList ++ t.shutdown }

def disconnect (t : TcpClient) : TcpClient :=
  { t with connect := false }.shutdownConnection

def stop (t : TcpClient) : TcpClient :=
  { t with connect := false, connector := t.connector.stop }

def enableRetry (t : TcpClient) : TcpClient := { t with retry := true }

def removeConnection (t : TcpClient) (conn : Nat) (savedErrno : Option Errno) :
    Except ClientAssert TcpClient := do
  check .removeConnection (t.connection = some conn)
  let t := { t with
    connection := none
    live := t.live.erase conn
    destroyed := t.destroyed ++ [conn] }
  if t.retry = true ∧ t.connect = true then
    let t := { t with restarts := (t.live, t.connector.state) :: t.restarts }
    t.onConnector fun c => c.restart savedErrno
  else return t

end TcpClient

/-! ## Runs -/

inductive ClientAct
  /-- `connect`, `disconnect` and `stop` in the loop thread. -/
  | connect (savedErrno : Option Errno)
  | disconnect
  | stop
  | enableRetry
  /-- `connect` in another thread: the assignment, then `M_connector->start()`,
  whose own push is a step of the connector. -/
  | threadConnect
  | threadConnectStart
  /-- `disconnect` in another thread: the assignment, then the rest. -/
  | threadDisconnect
  | threadDisconnectShutdown
  /-- `stop` in another thread: the assignment, then `M_connector->stop()`. -/
  | threadStop
  | threadStopStop
  /-- What reaches the connector from its loop, and the pushes of its calls. -/
  | connector (a : Act)
  /-- The connection invokes its close callback. -/
  | close (conn : Nat) (savedErrno : Option Errno)
  deriving DecidableEq, Repr

namespace TcpClient

def exec (t : TcpClient) : ClientAct → Except ClientAssert TcpClient
  | .connect savedErrno => t.doConnect savedErrno
  | .disconnect => .ok t.disconnect
  | .stop => .ok t.stop
  | .enableRetry => .ok t.enableRetry
  | .threadConnect => .ok { t with connect := true, connecting := t.connecting + 1 }
  | .threadConnectStart =>
      { t with connecting := t.connecting - 1 }.onConnector fun c => Client.exec c .threadStart
  | .threadDisconnect => .ok { t with connect := false, disconnecting := t.disconnecting + 1 }
  | .threadDisconnectShutdown =>
      .ok { t with disconnecting := t.disconnecting - 1 }.shutdownConnection
  | .threadStop => .ok { t with connect := false, stopping := t.stopping + 1 }
  | .threadStopStop =>
      { t with stopping := t.stopping - 1 }.onConnector fun c => Client.exec c .threadStop
  | .connector a => do
      let c ← (Client.exec t.connector a).mapError .connector
      return t.deliver c
  | .close conn savedErrno => t.removeConnection conn savedErrno

/-- The steps of the connector that are not calls of the client. -/
def ownStep : Act → Bool
  | .start _ | .stop | .restart _ | .threadStart | .threadStop => false
  | _ => true

/-- A connection invokes its close callback at most once. -/
def enabled (t : TcpClient) : ClientAct → Prop
  | .threadConnectStart => 0 < t.connecting
  | .threadDisconnectShutdown => 0 < t.disconnecting
  | .threadStopStop => 0 < t.stopping
  | .connector a => ownStep a = true ∧ Enabled t.connector a
  | .close conn _ => conn ∈ t.live
  | _ => True

instance decidableEnabled (t : TcpClient) : ∀ a, Decidable (t.enabled a)
  | .threadConnectStart => inferInstanceAs (Decidable (0 < t.connecting))
  | .threadDisconnectShutdown => inferInstanceAs (Decidable (0 < t.disconnecting))
  | .threadStopStop => inferInstanceAs (Decidable (0 < t.stopping))
  | .connector a => inferInstanceAs (Decidable (ownStep a = true ∧ Enabled t.connector a))
  | .close conn _ => inferInstanceAs (Decidable (conn ∈ t.live))
  | .connect _ | .disconnect | .stop | .enableRetry | .threadConnect | .threadDisconnect
  | .threadStop => inferInstanceAs (Decidable True)

end TcpClient

def clientSys : Sys TcpClient ClientAct ClientAssert := ⟨TcpClient.enabled, TcpClient.exec⟩

instance (t : TcpClient) (a : ClientAct) : Decidable (clientSys.enabled t a) :=
  t.decidableEnabled a

end Muduo.Client
