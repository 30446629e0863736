import Muduo.Buffer.Wf
import Muduo.Net.Sockets
import Muduo.Net.Channel

/-!
# A TCP connection in its loop (`TcpConnection.h`, `TcpConnection.cpp`)

`Conn` is a `TcpConnection` together with what it shares with its event loop:
the functors it has queued there, the delayed closes it has scheduled, and the
callbacks of the current dispatch that are still to run. Member functions are
functions on `Conn`. User callbacks are not code of the connection: where one
is invoked the model records it, and whatever it calls back arrives as further
operations.

`trace` records, newest first, what the connection did to its socket and to
its callbacks. It is not read by any member function.
-/

namespace Muduo.Connection

open Lib

/-- `enum StateE`. -/
inductive StateE
  | kDisconnected | kConnecting | kConnected | kDisconnecting
  deriving DecidableEq, Repr

/-- The value of the enumerator, as the code tests it in a condition. -/
def StateE.toNat : StateE → Nat
  | .kDisconnected => 0
  | .kConnecting => 1
  | .kConnected => 2
  | .kDisconnecting => 3

/-- The assertions of `TcpConnection.cpp` on the modelled paths. -/
inductive Assert
  | connectEstablishedState | handleCloseState | sendInLoopRemaining
  deriving DecidableEq, Repr

/-- What a connection queues on its loop. A `sendInLoop` carries the number of
the `send` call it comes from. -/
inductive Functor
  | sendInLoop (id : Nat) (message : List Byte)
  | shutdownInLoop
  | forceCloseInLoop
  | startReadInLoop
  | stopReadInLoop
  | writeComplete
  | highWaterMark (len : Nat)
  deriving DecidableEq, Repr

/-- What the loop thread still has to run before it returns to the loop: the
rest of a dispatch, and the rest of a `handleClose` whose user callback is
running. -/
inductive Todo
  | callback (cb : Callback)
  | closeCallback
  deriving DecidableEq, Repr

/-- What the outside sees of a connection. -/
inductive Obs
  /-- `sendInLoop` was given data while the connection was not down. -/
  | passed (data : List Byte)
  /-- `sockets::write` was called and took these bytes. -/
  | write (taken : List Byte)
  /-- A high-water-mark callback was queued. -/
  | highWater (len : Nat)
  | shutdownInLoop
  /-- `M_socket->shutdownWrite()`, with so many bytes still buffered. -/
  | shutdownWrite (left : Nat)
  | connectionUp
  | connectionDown
  | closeCallback
  | message
  /-- `shutdown()` found the connection up. -/
  | shutdownCalled
  /-- `send()` number `id`, made in another thread, returned. -/
  | sendReturned (id : Nat)
  /-- The `sendInLoop` of `send()` number `id` ran. -/
  | sendExecuted (id : Nat)
  deriving DecidableEq, Repr

structure Conn where
  state : StateE
  channel : Channel
  outputBuffer : Buffer.Valid
  reading : Bool
  highWaterMark : Nat
  /-- Is a write-complete callback set? -/
  writeCompleteCallback : Bool
  /-- Is a high-water-mark callback set? -/
  highWaterMarkCallback : Bool
  /-- The connection's functors in the loop's queue. -/
  pending : List Functor
  /-- Delayed closes not fired yet. -/
  timers : Nat
  todo : List Todo
  /-- `send` calls of other threads between their state check and their push. -/
  sending : List (Nat × List Byte)
  /-- `shutdown` calls of other threads between the state change and the push. -/
  stopping : Nat
  sends : Nat
  trace : List Obs

namespace Conn

/-- `TcpConnection(...)`, on the descriptor `sockfd`. -/
def new (sockfd : Int) (writeCompleteCallback highWaterMarkCallback : Bool)
    (highWaterMark : Nat) : Conn where
  state := .kConnecting
  channel := Channel.new sockfd
  outputBuffer := Buffer.Valid.fresh Buffer.kInitialSize
  reading := true
  highWaterMark := highWaterMark
  writeCompleteCallback := writeCompleteCallback
  highWaterMarkCallback := highWaterMarkCallback
  pending := []
  timers := 0
  todo := []
  sending := []
  stopping := 0
  sends := 0
  trace := []

def observe (c : Conn) (o : Obs) : Conn := { c with trace := o :: c.trace }

def setState (c : Conn) (s : StateE) : Conn := { c with state := s }

def setChannel (c : Conn) (ch : Channel) : Conn := { c with channel := ch }

def setOutput (c : Conn) (b : Buffer.Valid) : Conn := { c with outputBuffer := b }

/-- `M_loop->queueInLoop(f)`. -/
def queueInLoop (c : Conn) (f : Functor) : Conn := { c with pending := c.pending ++ [f] }

/-! ## Output -/

/-- `if(M_writeCompleteCallback) M_loop->queueInLoop(...)`. -/
def noticeWriteComplete (c : Conn) : Conn :=
  if c.writeCompleteCallback = true then c.queueInLoop .writeComplete else c

/-- Queue the high-water-mark callback when `more` bytes carry the output
buffer across the mark. -/
def noticeHighWater (c : Conn) (more : Nat) : Conn :=
  let oldLen := c.outputBuffer.readableBytes
  if c.highWaterMark ≤ oldLen + more ∧ oldLen < c.highWaterMark ∧
      c.highWaterMarkCallback = true then
    (c.queueInLoop (.highWaterMark (oldLen + more))).observe (.highWater (oldLen + more))
  else c

/-- The local variables of `sendInLoop` after its direct write. -/
structure DirectWrite where
  conn : Conn
  nwrote : Nat
  remaining : Nat
  faultError : Bool

/-- The first half of `sendInLoop`: if nothing waits in the output queue, try
writing directly. -/
def tryWrite (c : Conn) (data : List Byte) (wr : WriteResult) : DirectWrite :=
  if c.channel.isWriting = false ∧ c.outputBuffer.readableBytes = 0 then
    let c := c.observe (.write (wr.taken data))
    match wr with
    | .accepts limit =>
        let nwrote := min limit data.length
        let remaining := data.length - nwrote
        { conn := if remaining = 0 then c.noticeWriteComplete else c
          nwrote, remaining, faultError := false }
    | .fails errno =>
        { conn := c, nwrote := 0, remaining := data.length
          faultError := errno ≠ .EWOULDBLOCK ∧ (errno = .EPIPE ∨ errno = .ECONNRESET) }
  else
    -- output is waiting, and what comes now must not overtake it
    { conn := c, nwrote := 0, remaining := data.length, faultError := false }

/-- The second half of `sendInLoop`: buffer what the direct write left. -/
def bufferRest (c : Conn) (rest : List Byte) : Conn :=
  let c := c.noticeHighWater rest.length
  let c := c.setOutput (c.outputBuffer.append rest)
  if c.channel.isWriting = false then c.setChannel c.channel.enableWriting else c

def sendInLoop (c : Conn) (data : List Byte) (wr : WriteResult) : Except Assert Conn :=
  if c.state = .kDisconnected then
    -- give up writing
    .ok c
  else do
    let w := (c.observe (.passed data)).tryWrite data wr
    check .sendInLoopRemaining (w.remaining ≤ data.length)
    if w.faultError = false ∧ 0 < w.remaining then
      return w.conn.bufferRest ((data.drop w.nwrote).take w.remaining)
    else
      return w.conn

/-- `send`, called in the loop thread. -/
def send (c : Conn) (message : List Byte) (wr : WriteResult) : Except Assert Conn :=
  if c.state = .kConnected then c.sendInLoop message wr else .ok c

def shutdownInLoop (c : Conn) : Conn :=
  let c := c.observe .shutdownInLoop
  if c.channel.isWriting = false then
    c.observe (.shutdownWrite c.outputBuffer.readableBytes)
  else c

/-- `shutdown`, called in the loop thread: `runInLoop` runs its argument
inline there. -/
def shutdown (c : Conn) : Conn :=
  if c.state = .kConnected then
    ((c.setState .kDisconnecting).observe .shutdownCalled).shutdownInLoop
  else c

/-- The end of `handleWrite`, when the output buffer has run empty. -/
def outputDrained (c : Conn) : Conn :=
  let c := c.setChannel c.channel.disableWriting
  let c := c.noticeWriteComplete
  if c.state = .kDisconnecting then c.shutdownInLoop else c

def handleWrite (c : Conn) (wr : WriteResult) : Conn :=
  if c.channel.isWriting = true then
    let data := c.outputBuffer.readable
    let c := c.observe (.write (wr.taken data))
    if 0 < wr.count data.length then
      -- the whole buffer is dropped, however few bytes the socket took
      let c := c.setOutput c.outputBuffer.retrieveAll
      if c.outputBuffer.readableBytes = 0 then c.outputDrained else c
    else c
  else c

/-! ## Closing -/

/-- `handleClose`, up to the invocation of `M_connectionCallback`;
`M_closeCallback` runs when that callback is done. -/
def handleClose (c : Conn) : Except Assert Conn := do
  check .handleCloseState (c.state = .kConnected ∨ c.state = .kDisconnecting)
  let c := c.setState .kDisconnected
  let c := c.setChannel c.channel.disableAll
  let c := c.observe .connectionDown
  return { c with todo := .closeCallback :: c.todo }

/-- `forceClose`. Its condition reads `M_state == kConnected || M_state =
kDisconnecting`: read as a disjunction, its right operand assigns. -/
def forceClose (c : Conn) : Conn :=
  let r : Bool × Conn :=
    if c.state = .kConnected then (true, c)
    else
      let c := c.setState .kDisconnecting
      (c.state.toNat != 0, c)
  if r.1 then (r.2.setState .kDisconnecting).queueInLoop .forceCloseInLoop else r.2

/-- `forceCloseWithDelay`; the loop's timer holds the delayed `forceClose`. -/
def forceCloseWithDelay (c : Conn) : Conn :=
  if c.state = .kConnected ∨ c.state = .kDisconnecting then
    let c := c.setState .kDisconnecting
    { c with timers := c.timers + 1 }
  else c

def forceCloseInLoop (c : Conn) : Except Assert Conn :=
  if c.state = .kConnected ∨ c.state = .kDisconnecting then c.handleClose else .ok c

/-! ## Reading and setting up -/

def startReadInLoop (c : Conn) : Conn :=
  if c.reading = false ∨ c.channel.isReading = false then
    { c with channel := c.channel.enableReading, reading := true }
  else c

def stopReadInLoop (c : Conn) : Conn :=
  if c.reading = true ∨ c.channel.isReading = true then
    { c with channel := c.channel.disableReading, reading := false }
  else c

def connectEstablished (c : Conn) : Except Assert Conn := do
  check .connectEstablishedState (c.state = .kConnecting)
  let c := c.setState .kConnected
  let c := c.setChannel c.channel.tie.enableReading
  return c.observe .connectionUp

/-- `handleRead`, given what `readFd` returned; an error is only logged. -/
def handleRead (c : Conn) : ReadResult → Except Assert Conn
  | .bytes => .ok (c.observe .message)
  | .eof => c.handleClose
  | .fails _ => .ok c

end Conn
end Muduo.Connection
