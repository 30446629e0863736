import Muduo.Lib.System
import Muduo.Net.Channel
import Muduo.Net.Sockets

/-!
# The connector (`Connector.h`, `Connector.cpp`)

A `Connector` together with what it shares with its loop: the functors it has
queued there, the retry timers it has started, and the callbacks of the current
dispatch of its channel. `start` and `stop` may be called in any thread: they
write `M_connect` in the caller's thread, and what they leave to the loop is
queued, except that `start` in the loop thread runs `startInLoop` inline. A
function that runs in the loop thread is one step; so are the two halves of a
call made in another thread, the assignment and the push.

A socket is named by its place in the order of creation, which is also the
descriptor its channel carries.
-/

namespace Muduo.Client

open Lib

/-- `enum States`. -/
inductive States
  | kDisconnected | kConnecting | kConnected
  deriving DecidableEq, Repr

/-- The assertions of `Connector.cpp`, and a dereference of a null `M_channel`. -/
inductive Assert
  | startInLoopState | connectingChannel | handleWriteState | nullChannel
  deriving DecidableEq, Repr

/-- What a connector queues on its loop. -/
inductive Functor
  | startInLoop | stopInLoop | resetChannel
  deriving DecidableEq, Repr

def kMaxRetryDelayMs : Nat := 30 * 1000

def kInitRetryDelayMs : Nat := 500

structure Connector where
  connect : Bool
  state : States
  channel : Option Channel
  retryDelayMs : Nat
  /-- The connector's functors in the loop's queue. -/
  pending : List Functor
  /-- Retry timers not fired yet; each is bound to `startInLoop`. -/
  timers : Nat
  /-- Callbacks of the channel that the current dispatch has still to run. -/
  todo : List Callback
  /-- `start` calls of other threads between the assignment and the push. -/
  starting : Nat
  /-- `stop` calls of other threads between the assignment and the push. -/
  stopping : Nat
  /-- The number of sockets created. -/
  sockets : Nat
  /-- The sockets closed by `sockets::close`, newest first. -/
  closed : List Nat
  /-- The sockets given to `M_newConnectionCallback`, newest first. -/
  passed : List Nat

namespace Connector

def new : Connector where
  connect := false
  state := .kDisconnected
  channel := none
  retryDelayMs := kInitRetryDelayMs
  pending := []
  timers := 0
  todo := []
  starting := 0
  stopping := 0
  sockets := 0
  closed := []
  passed := []

def setState (c : Connector) (s : States) : Connector := { c with state := s }

/-- `M_loop->queueInLoop(f)`. -/
def queueInLoop (c : Connector) (f : Functor) : Connector :=
  { c with pending := c.pending ++ [f] }

/-- `sockets::close(sockfd)`. -/
def close (c : Connector) (sockfd : Nat) : Connector := { c with closed := sockfd :: c.closed }

/-- `M_newConnectionCallback(sockfd)`. -/
def newConnection (c : Connector) (sockfd : Nat) : Connector :=
  { c with passed := sockfd :: c.passed }

def retry (c : Connector) (sockfd : Nat) : Connector :=
  let c := (c.close sockfd).setState .kDisconnected
  if c.connect = true then
    -- `runAfter`: nothing keeps the identifier of the timer
    { c with timers := c.timers + 1, retryDelayMs := min (c.retryDelayMs * 2) kMaxRetryDelayMs }
  else c

/-- `removeAndResetChannel`: the channel is taken off the loop, and lives on
until the queued `resetChannel` runs. -/
def removeAndResetChannel (c : Connector) : Except Assert (Connector × Nat) :=
  match c.channel with
  | none => .error .nullChannel
  | some ch =>
      let ch := ch.disableAll.remove
      .ok ({ c with channel := some ch }.queueInLoop .resetChannel, ch.fd.toNat)

def resetChannel (c : Connector) : Connector := { c with channel := none }

def connecting (c : Connector) (sockfd : Nat) : Except Assert Connector := do
  let c := c.setState .kConnecting
  check .connectingChannel (c.channel = none)
  return { c with channel := some (Channel.new sockfd).enableWriting }

/-- What `connect` does next with the new socket. -/
inductive Outcome
  | connecting | retry | giveUp
  deriving DecidableEq, Repr

/-- The `switch` on `savedErrno`; `none` is 0, and `EAGAIN` is `EWOULDBLOCK`. -/
def outcome : Option Errno → Outcome
  | none | some .EINPROGRESS | some .EINTR | some .EISCONN => .connecting
  | some .EWOULDBLOCK | some .EADDRINUSE | some .EADDRNOTAVAIL | some .ECONNREFUSED
  | some .ENETUNREACH => .retry
  | _ => .giveUp

/-- `createNonblockingOrDie`. -/
def createSocket (c : Connector) : Connector := { c with sockets := c.sockets + 1 }

/-- `connect`, given the error number of `sockets::connect`. -/
def doConnect (c : Connector) (savedErrno : Option Errno) : Except Assert Connector :=
  let sockfd := c.sockets
  let c := c.createSocket
  match outcome savedErrno with
  | .connecting => c.connecting sockfd
  | .retry => .ok (c.retry sockfd)
  | .giveUp => .ok (c.close sockfd)

def startInLoop (c : Connector) (savedErrno : Option Errno) : Except Assert Connector := do
  check .startInLoopState (c.state = .kDisconnected)
  if c.connect = true then c.doConnect savedErrno else return c

/-- `start`, called in the loop thread. -/
def start (c : Connector) (savedErrno : Option Errno) : Except Assert Connector :=
  { c with connect := true }.startInLoop savedErrno

/-- `stop`, called in the loop thread. -/
def stop (c : Connector) : Connector := { c with connect := false }.queueInLoop .stopInLoop

/-- `restart`; its `M_connected = true` is read as `M_connect`. -/
def restart (c : Connector) (savedErrno : Option Errno) : Except Assert Connector :=
  { c with state := .kDisconnected, retryDelayMs := kInitRetryDelayMs, connect := true
    }.startInLoop savedErrno

def stopInLoop (c : Connector) : Except Assert Connector :=
  if c.state = .kConnecting then do
    let (c, sockfd) ← (c.setState .kDisconnected).removeAndResetChannel
    return c.retry sockfd
  else .ok c

/-- `handleWrite`, given whether `getSocketError` returns an error and what
`isSelfConnect` answers. -/
def handleWrite (c : Connector) (err selfConnect : Bool) : Except Assert Connector :=
  if c.state = .kConnecting then do
    let (c, sockfd) ← c.removeAndResetChannel
    if err = true then
      return c.retry sockfd
    else if selfConnect = true then
      return c.retry sockfd
    else
      let c := c.setState .kConnected
      -- `stop` may have been called while the attempt was in flight
      if c.connect = true then return c.newConnection sockfd
      else return c.close sockfd
  else do
    check .handleWriteState (c.state = .kDisconnected)
    return c

def handleError (c : Connector) : Except Assert Connector :=
  if c.state = .kConnecting then do
    let (c, sockfd) ← c.removeAndResetChannel
    return c.retry sockfd
  else .ok c

/-- The callbacks of a dispatch: a connector's channel has an error and a write
callback, and no others. -/
def handleEvent (revents : Events) : List Callback :=
  (Channel.handleEventWithGuard revents).filter fun cb => cb = .error ∨ cb = .write

def runTodo (c : Connector) (err selfConnect : Bool) : Callback → Except Assert Connector
  | .error => c.handleError
  | .write => c.handleWrite err selfConnect
  | .close | .read => .ok c

def runFunctor (c : Connector) (savedErrno : Option Errno) : Functor → Except Assert Connector
  | .startInLoop => c.startInLoop savedErrno
  | .stopInLoop => c.stopInLoop
  | .resetChannel => .ok c.resetChannel

end Connector

/-! ## Runs -/

inductive Act
  /-- `start` in the loop thread; the argument is the result of
  `sockets::connect`, should it be called. -/
  | start (savedErrno : Option Errno)
  /-- `stop` in the loop thread. -/
  | stop
  | restart (savedErrno : Option Errno)
  /-- `start` in another thread: the assignment. -/
  | threadStart
  | threadStartPush
  /-- `stop` in another thread: the assignment. -/
  | threadStop
  | threadStopPush
  /-- The loop runs the connector's oldest queued functor. -/
  | runFunctor (savedErrno : Option Errno)
  /-- A retry timer fires. -/
  | timer (savedErrno : Option Errno)
  /-- poll reports `revents` for the connector's channel. -/
  | poll (revents : Events)
  /-- The next callback of the dispatch runs. -/
  | next (err selfConnect : Bool)
  deriving DecidableEq, Repr

def exec (c : Connector) : Act → Except Assert Connector
  | .start savedErrno => c.start savedErrno
  | .stop => .ok c.stop
  | .restart savedErrno => c.restart savedErrno
  | .threadStart => .ok { c with connect := true, starting := c.starting + 1 }
  | .threadStartPush => .ok ({ c with starting := c.starting - 1 }.queueInLoop .startInLoop)
  | .threadStop => .ok { c with connect := false, stopping := c.stopping + 1 }
  | .threadStopPush => .ok ({ c with stopping := c.stopping - 1 }.queueInLoop .stopInLoop)
  | .runFunctor savedErrno =>
      match c.pending with
      | f :: rest => { c with pending := rest }.runFunctor savedErrno f
      | [] => .ok c
  | .timer savedErrno => { c with timers := c.timers - 1 }.startInLoop savedErrno
  | .poll revents => .ok { c with todo := Connector.handleEvent revents }
  | .next err selfConnect =>
      match c.todo with
      | cb :: rest => { c with todo := rest }.runTodo err selfConnect cb
      | [] => .ok c

/-- When an operation can reach the connector. Poll reports a channel while it
is registered and has an interest, and functors wait until the dispatch is
over; `restart` is called only while no attempt is in flight. -/
def Enabled (c : Connector) : Act → Prop
  | .restart _ => c.state ≠ .kConnecting
  | .threadStartPush => 0 < c.starting
  | .threadStopPush => 0 < c.stopping
  | .runFunctor _ => c.todo = [] ∧ c.pending ≠ []
  | .timer _ => 0 < c.timers
  | .poll revents => c.todo = [] ∧ ∃ ch ∈ c.channel, ch.addedToLoop = true ∧
      ch.events ≠ Events.kNoneEvent ∧ ch.events.Reports revents
  | .next _ _ => c.todo ≠ []
  | _ => True

instance decidableEnabled (c : Connector) : ∀ a, Decidable (Enabled c a)
  | .restart _ => inferInstanceAs (Decidable (c.state ≠ .kConnecting))
  | .threadStartPush => inferInstanceAs (Decidable (0 < c.starting))
  | .threadStopPush => inferInstanceAs (Decidable (0 < c.stopping))
  | .runFunctor _ => inferInstanceAs (Decidable (c.todo = [] ∧ c.pending ≠ []))
  | .timer _ => inferInstanceAs (Decidable (0 < c.timers))
  | .poll revents => inferInstanceAs (Decidable (c.todo = [] ∧ ∃ ch ∈ c.channel,
      ch.addedToLoop = true ∧ ch.events ≠ Events.kNoneEvent ∧ ch.events.Reports revents))
  | .next _ _ => inferInstanceAs (Decidable (c.todo ≠ []))
  | .start _ | .stop | .threadStart | .threadStop => inferInstanceAs (Decidable True)

/-- A connector and everything that can reach it. -/
def connectorSys : Sys Connector Act Assert := ⟨Enabled, exec⟩

instance (c : Connector) (a : Act) : Decidable (connectorSys.enabled c a) := decidableEnabled c a

end Muduo.Client
