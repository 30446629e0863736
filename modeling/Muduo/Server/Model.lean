import Muduo.Connection.System
import Muduo.Lib.Format

/-!
# A server and its connections (`TcpServer.h`, `TcpServer.cpp`)

A `World` is a `TcpServer`, the connections it has made, and the functor queues of
the loops that run them. A connection is known by its place in the list of all
connections made: functors and callbacks share its ownership, so none is freed
while one of them names it. Every connection is a `Connection.Conn` and takes its
own steps; the server hears of it through the close callback.

Each loop has one thread. `runInLoop` runs its argument at once in the thread of
its own loop and queues it from any other. The functors of a batch and those queued
behind it are one queue here: the loop runs them in that order.

The destructor is two steps, its body and the destruction of the members, since
the threads of the other loops run on between them. Destroying `M_threadPool` joins
these threads, unless someone else shares the pool.

`connectDestroyed` is declared in `TcpConnection.h` and has no definition in the
repository: what it does to a connection is the parameter `d`.
-/

namespace Muduo.Server

open Lib

/-- An event loop. -/
abbrev Loop := Nat

/-- `TcpConnection::connectDestroyed`. -/
abbrev Destroy := Connection.Conn → Except Connection.Assert Connection.Conn

/-- What the server and its connections give to loops. -/
inductive Task
  | connectEstablished | removeConnectionInLoop | connectDestroyed
  deriving DecidableEq, Repr

structure Functor where
  task : Task
  conn : Nat
  deriving DecidableEq, Repr

inductive Fault
  /-- `assert(n == 1)` in `removeConnectionInLoop`. -/
  | erased
  /-- A member function was entered after the destructor had completed. -/
  | destroyed
  | connection (a : Connection.Assert)
  deriving DecidableEq, Repr

structure TcpServer where
  loop : Loop
  ipPort : List Char
  name : List Char
  /-- Is a write-complete callback set? -/
  writeCompleteCallback : Bool
  nextConnId : Int
  connections : Std.TreeMap (List Char) Nat

/-- `M_name + buf`, for the connection with number `id`. -/
def TcpServer.connName (s : TcpServer) (id : Int) : List Char :=
  s.name ++ snprintf 64 ('-' :: s.ipPort ++ '#' :: decimal id)

/-- `++M_nextConnId`, in an `int`. -/
def TcpServer.bumpConnId (s : TcpServer) : Int := Int.bmod (s.nextConnId + 1) (2 ^ 32)

/-- A connection of the server. The last four fields record what has happened to
it; no function reads them. -/
structure Peer where
  loop : Loop
  name : List Char
  conn : Connection.Conn
  /-- `connectEstablished` has run. -/
  established : Bool
  /-- How often the connection has invoked its close callback. -/
  closed : Nat
  /-- `removeConnectionInLoop` has run. -/
  removed : Bool
  /-- `connectDestroyed` has run. -/
  destroyed : Bool

/-- The initial `M_highWaterMark` of a connection. -/
def kHighWaterMark : Nat := 64 * 1024 * 1024

/-- `new TcpConnection(ioLoop, connName, sockfd, ..)`. -/
def Peer.new (ioLoop : Loop) (connName : List Char) (sockfd : Int)
    (writeCompleteCallback : Bool) : Peer where
  loop := ioLoop
  name := connName
  conn := .new sockfd writeCompleteCallback false kHighWaterMark
  established := false
  closed := 0
  removed := false
  destroyed := false

inductive Phase
  | alive
  /-- Between the body of `~TcpServer` and the end of its members. -/
  | destructing
  | destroyed
  deriving DecidableEq, Repr

/-- The step of a connection invokes `M_closeCallback`. -/
def invokesClose (c : Connection.Conn) : Connection.Act → Bool
  | .next _ _ => c.todo.head? = some .closeCallback
  | _ => false

structure World where
  server : TcpServer
  phase : Phase
  /-- The threads of the pool have been joined. -/
  joined : Bool
  peers : List Peer
  queue : Loop → List Functor
  /-- What each loop has been given so far, to run or to queue. -/
  given : Loop → List Functor

namespace World

def new (loop : Loop) (ipPort name : List Char) (writeCompleteCallback : Bool) : World where
  server := ⟨loop, ipPort, name, writeCompleteCallback, 1, ∅⟩
  phase := .alive
  joined := false
  peers := []
  queue := fun _ => []
  given := fun _ => []

/-- Change connection `i`. -/
def onPeer (w : World) (i : Nat) (f : Peer → Except Fault Peer) : Except Fault World :=
  match w.peers[i]? with
  | some p => do
      let p ← f p
      return { w with peers := w.peers.set i p }
  | none => .ok w

def give (w : World) (l : Loop) (f : Functor) : World :=
  { w with given := Function.update w.given l (w.given l ++ [f]) }

def push (w : World) (l : Loop) (f : Functor) : World :=
  { w with queue := Function.update w.queue l (w.queue l ++ [f]) }

/-- `l->queueInLoop(f)`. -/
def queueInLoop (w : World) (l : Loop) (f : Functor) : World := (w.give l f).push l f

/-! ## What the functors do -/

def connectEstablished (w : World) (i : Nat) : Except Fault World :=
  w.onPeer i fun p => do
    let c ← p.conn.connectEstablished.mapError .connection
    return { p with conn := c, established := true }

def connectDestroyed (d : Destroy) (w : World) (i : Nat) : Except Fault World :=
  w.onPeer i fun p => do
    let c ← (d p.conn).mapError .connection
    return { p with conn := c, destroyed := true }

def removeConnectionInLoop (w : World) (i : Nat) : Except Fault World :=
  match w.peers[i]? with
  | some p => do
      check .destroyed (w.phase ≠ .destroyed)
      let n := if p.name ∈ w.server.connections then 1 else 0
      let w := { w with
        server := { w.server with connections := w.server.connections.erase p.name }
        peers := w.peers.set i { p with removed := true } }
      check .erased (n = 1)
      return w.queueInLoop p.loop ⟨.connectDestroyed, i⟩
  | none => .ok w

def runTask (d : Destroy) (w : World) (i : Nat) : Task → Except Fault World
  | .connectEstablished => w.connectEstablished i
  | .removeConnectionInLoop => w.removeConnectionInLoop i
  | .connectDestroyed => w.connectDestroyed d i

/-- `l->runInLoop(f)`, called in the thread of the loop `thread`. -/
def runInLoop (d : Destroy) (w : World) (thread l : Loop) (f : Functor) : Except Fault World :=
  if thread = l then (w.give l f).runTask d f.conn f.task else .ok (w.queueInLoop l f)

/-! ## The server -/

/-- `newConnection`, up to its last line. -/
def addConnection (w : World) (ioLoop : Loop) (sockfd : Int) : World :=
  let connName := w.server.connName w.server.nextConnId
  { w with
    server := { w.server with
      nextConnId := w.server.bumpConnId
      connections := w.server.connections.insert connName w.peers.length }
    peers := w.peers ++ [.new ioLoop connName sockfd w.server.writeCompleteCallback] }

/-- `newConnection`, for which the thread pool has chosen `ioLoop`. -/
def newConnection (d : Destroy) (w : World) (ioLoop : Loop) (sockfd : Int) : Except Fault World := do
  check .destroyed (w.phase ≠ .destroyed)
  (w.addConnection ioLoop sockfd).runInLoop d w.server.loop ioLoop
    ⟨.connectEstablished, w.peers.length⟩

/-- `removeConnection`, the close callback of every connection. -/
def removeConnection (d : Destroy) (w : World) (thread : Loop) (i : Nat) : Except Fault World := do
  check .destroyed (w.phase ≠ .destroyed)
  w.runInLoop d thread w.server.loop ⟨.removeConnectionInLoop, i⟩

/-- One turn of the loop in `~TcpServer`. -/
def destroyOne (d : Destroy) (w : World) (i : Nat) : Except Fault World :=
  match w.peers[i]? with
  | some p => w.runInLoop d w.server.loop p.loop ⟨.connectDestroyed, i⟩
  | none => .ok w

def destroyAll (d : Destroy) (w : World) : List (List Char × Nat) → Except Fault World
  | [] => .ok w
  | e :: es => do
      let w ← w.destroyOne d e.2
      w.destroyAll d es

/-! ## Steps -/

/-- A step of connection `i`, in its own thread or in that of a user. -/
def connStep (d : Destroy) (w : World) (i : Nat) (a : Connection.Act) : Except Fault World :=
  match w.peers[i]? with
  | some p => do
      let c ← (Connection.exec p.conn a).mapError .connection
      if invokesClose p.conn a = true then
        let w := { w with peers := w.peers.set i { p with conn := c, closed := p.closed + 1 } }
        w.removeConnection d p.loop i
      else
        return { w with peers := w.peers.set i { p with conn := c } }
  | none => .ok w

/-- The loop `l` runs its oldest functor. -/
def runFunctor (d : Destroy) (w : World) (l : Loop) : Except Fault World :=
  match w.queue l with
  | f :: rest => { w with queue := Function.update w.queue l rest }.runTask d f.conn f.task
  | [] => .ok w

/-- The body of `~TcpServer`. -/
def destroyBegin (d : Destroy) (w : World) : Except Fault World := do
  let w ← w.destroyAll d w.server.connections.toList
  return { w with phase := .destructing }

/-- The destruction of the members of the server. -/
def destroyEnd (w : World) (joins : Bool) : World := { w with phase := .destroyed, joined := joins }

end World

inductive Act
  | newConnection (ioLoop : Loop) (sockfd : Int)
  | runFunctor (l : Loop)
  | conn (i : Nat) (a : Connection.Act)
  | destroyBegin
  /-- `joins`: the server held the last reference to the thread pool. -/
  | destroyEnd (joins : Bool)
  deriving DecidableEq, Repr

def exec (d : Destroy) (w : World) : Act → Except Fault World
  | .newConnection ioLoop sockfd => w.newConnection d ioLoop sockfd
  | .runFunctor l => w.runFunctor d l
  | .conn i a => w.connStep d i a
  | .destroyBegin => w.destroyBegin d
  | .destroyEnd joins => .ok (w.destroyEnd joins)

/-- The thread of the loop `l` is free to take a step. -/
def World.runs (w : World) (l : Loop) : Prop :=
  if l = w.server.loop then w.phase ≠ .destructing else w.joined = false

instance (w : World) (l : Loop) : Decidable (w.runs l) :=
  inferInstanceAs (Decidable
    (if l = w.server.loop then w.phase ≠ .destructing else w.joined = false))

/-- The step is taken by the thread of the connection's loop; `forceClose` may be called
in any. -/
def inLoop : Connection.Act → Bool
  | .forceClose | .forceCloseWithDelay | .threadSend _ | .threadSendPush _ | .threadShutdown
  | .threadShutdownPush | .threadStartRead | .threadStopRead => false
  | _ => true

/-- How a step comes to a connection of a server. Its loop brings events, functors
and timers. The user knows the connection from `M_connectionCallback` on.
`connectEstablished` comes through the server, and the rest is private. -/
def reaches (c : Connection.Conn) : Connection.Act → Bool
  | .connectEstablished | .sendInLoop _ _ | .handleWrite _ => false
  | .poll _ | .next _ _ | .runFunctor _ | .timer => true
  | _ => .connectionUp ∈ c.trace

/-- The acceptor calls `newConnection` until it is destroyed with the server. The
threads of the pool are joined when they have left their callbacks. -/
def enabled (w : World) : Act → Prop
  | .newConnection _ _ => w.phase = .alive
  | .runFunctor l => w.queue l ≠ [] ∧ w.runs l
  | .conn i a => ∃ p ∈ w.peers[i]?,
      (inLoop a = true → w.runs p.loop) ∧ reaches p.conn a = true ∧ Connection.Enabled p.conn a
  | .destroyBegin => w.phase = .alive
  | .destroyEnd joins => w.phase = .destructing ∧
      (joins = true → ∀ p ∈ w.peers, p.loop ≠ w.server.loop → p.conn.todo = [])

instance decidableEnabled (w : World) : ∀ a, Decidable (enabled w a)
  | .newConnection _ _ => inferInstanceAs (Decidable (w.phase = .alive))
  | .runFunctor l => inferInstanceAs (Decidable (w.queue l ≠ [] ∧ w.runs l))
  | .conn i a => inferInstanceAs (Decidable (∃ p ∈ w.peers[i]?,
      (inLoop a = true → w.runs p.loop) ∧ reaches p.conn a = true ∧ Connection.Enabled p.conn a))
  | .destroyBegin => inferInstanceAs (Decidable (w.phase = .alive))
  | .destroyEnd joins => inferInstanceAs (Decidable (w.phase = .destructing ∧
      (joins = true → ∀ p ∈ w.peers, p.loop ≠ w.server.loop → p.conn.todo = [])))

def serverSys (d : Destroy) : Sys World Act Fault := ⟨enabled, exec d⟩

instance (d : Destroy) (w : World) (a : Act) : Decidable ((serverSys d).enabled w a) :=
  decidableEnabled w a

end Muduo.Server
