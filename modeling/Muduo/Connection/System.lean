import Muduo.Connection.Model
import Muduo.Lib.System

/-!
# Runs of a connection

The operations that reach a connection, from its own loop thread (events,
queued functors, timers, and the calls its user makes from callbacks) and from
other threads, which check the state in their own time and leave the rest to
the loop's queue. Events are dispatched as `Channel::handleEvent` does: `poll`
fixes the callbacks that `M_revents` selects, each `next` runs one of them, and
nothing else of the loop runs in between except what user callbacks call.

`Moved` says what the output path (`sendInLoop`, `handleWrite`,
`shutdownInLoop`) leaves alone; every invariant below starts from it.
-/

namespace Muduo.Connection

open Lib

/-- One operation on a connection. -/
inductive Act
  | connectEstablished
  /-- poll reports `revents` for the connection's channel. -/
  | poll (revents : Events)
  /-- The next callback of the current dispatch runs. -/
  | next (r : ReadResult) (wr : WriteResult)
  /-- A direct call of the private `sendInLoop`. -/
  | sendInLoop (data : List Byte) (wr : WriteResult)
  /-- A direct call of `handleWrite`. -/
  | handleWrite (wr : WriteResult)
  | send (message : List Byte) (wr : WriteResult)
  | shutdown
  | forceClose
  | forceCloseWithDelay
  | startRead
  | stopRead
  /-- The loop runs the connection's oldest queued functor. -/
  | runFunctor (wr : WriteResult)
  /-- A delayed close fires. -/
  | timer
  /-- `send` in another thread: the state check. -/
  | threadSend (message : List Byte)
  /-- The push that ends the `k`-th unfinished `send` of another thread. -/
  | threadSendPush (k : Nat)
  /-- `shutdown` in another thread: the state check and change. -/
  | threadShutdown
  /-- The push that ends a `shutdown` of another thread. -/
  | threadShutdownPush
  | threadStartRead
  | threadStopRead
  deriving DecidableEq, Repr

namespace Conn

/-- Run one callback of the channel, or the close callback. -/
def runTodo (c : Conn) (r : ReadResult) (wr : WriteResult) : Todo → Except Assert Conn
  | .callback .close => c.handleClose
  | .callback .error => .ok c
  | .callback .read => c.handleRead r
  | .callback .write => .ok (c.handleWrite wr)
  | .closeCallback => .ok (c.observe .closeCallback)

def runFunctor (c : Conn) (wr : WriteResult) : Functor → Except Assert Conn
  | .sendInLoop id message => (c.observe (.sendExecuted id)).sendInLoop message wr
  | .shutdownInLoop => .ok c.shutdownInLoop
  | .forceCloseInLoop => c.forceCloseInLoop
  | .startReadInLoop => .ok c.startReadInLoop
  | .stopReadInLoop => .ok c.stopReadInLoop
  | .writeComplete => .ok c
  | .highWaterMark _ => .ok c

/-- `send` in another thread, up to the push. -/
def threadSend (c : Conn) (message : List Byte) : Conn :=
  if c.state = .kConnected then
    { c with sending := c.sending ++ [(c.sends, message)], sends := c.sends + 1 }
  else c

def threadSendPush (c : Conn) (k : Nat) : Conn :=
  match c.sending[k]? with
  | some (id, message) =>
      ({ c with sending := c.sending.eraseIdx k }.queueInLoop
        (.sendInLoop id message)).observe (.sendReturned id)
  | none => c

/-- `shutdown` in another thread, up to the push. -/
def threadShutdown (c : Conn) : Conn :=
  if c.state = .kConnected then
    let c := (c.setState .kDisconnecting).observe .shutdownCalled
    { c with stopping := c.stopping + 1 }
  else c

def threadShutdownPush (c : Conn) : Conn :=
  { c with stopping := c.stopping - 1 }.queueInLoop .shutdownInLoop

end Conn

def exec (c : Conn) : Act → Except Assert Conn
  | .connectEstablished => c.connectEstablished
  | .poll revents =>
      .ok { c with todo := (Channel.handleEventWithGuard revents).map .callback }
  | .next r wr =>
      match c.todo with
      | t :: rest => { c with todo := rest }.runTodo r wr t
      | [] => .ok c
  | .sendInLoop data wr => c.sendInLoop data wr
  | .handleWrite wr => .ok (c.handleWrite wr)
  | .send message wr => c.send message wr
  | .shutdown => .ok c.shutdown
  | .forceClose => .ok c.forceClose
  | .forceCloseWithDelay => .ok c.forceCloseWithDelay
  | .startRead => .ok c.startReadInLoop
  | .stopRead => .ok c.stopReadInLoop
  | .runFunctor wr =>
      match c.pending with
      | f :: rest => { c with pending := rest }.runFunctor wr f
      | [] => .ok c
  | .timer => .ok { c with timers := c.timers - 1 }.forceClose
  | .threadSend message => .ok (c.threadSend message)
  | .threadSendPush k => .ok (c.threadSendPush k)
  | .threadShutdown => .ok c.threadShutdown
  | .threadShutdownPush => .ok c.threadShutdownPush
  | .threadStartRead => .ok (c.queueInLoop .startReadInLoop)
  | .threadStopRead => .ok (c.queueInLoop .stopReadInLoop)

/-- When an operation can reach the connection. Poll reports a channel only
while it has an interest; functors, timers and events wait until the current
dispatch is over. -/
def Enabled (c : Conn) : Act → Prop
  | .connectEstablished => c.state = .kConnecting
  | .poll revents =>
      c.todo = [] ∧ c.channel.events ≠ Events.kNoneEvent ∧ c.channel.events.Reports revents
  | .next _ _ => c.todo ≠ []
  | .runFunctor _ => c.todo = [] ∧ c.pending ≠ []
  | .timer => c.todo = [] ∧ 0 < c.timers
  | .threadSendPush k => k < c.sending.length
  | .threadShutdownPush => 0 < c.stopping
  | _ => True

instance decidableEnabled (c : Conn) : ∀ a, Decidable (Enabled c a)
  | .connectEstablished => inferInstanceAs (Decidable (c.state = .kConnecting))
  | .poll revents => inferInstanceAs (Decidable
      (c.todo = [] ∧ c.channel.events ≠ Events.kNoneEvent ∧ c.channel.events.Reports revents))
  | .next _ _ => inferInstanceAs (Decidable (c.todo ≠ []))
  | .runFunctor _ => inferInstanceAs (Decidable (c.todo = [] ∧ c.pending ≠ []))
  | .timer => inferInstanceAs (Decidable (c.todo = [] ∧ 0 < c.timers))
  | .threadSendPush k => inferInstanceAs (Decidable (k < c.sending.length))
  | .threadShutdownPush => inferInstanceAs (Decidable (0 < c.stopping))
  | .sendInLoop _ _ | .handleWrite _ | .send _ _ | .shutdown | .forceClose
  | .forceCloseWithDelay | .startRead | .stopRead | .threadSend _ | .threadShutdown
  | .threadStartRead | .threadStopRead => inferInstanceAs (Decidable True)

/-- A connection and everything that can reach it. -/
def connSys : Sys Conn Act Assert := ⟨Enabled, exec⟩

instance (c : Conn) (a : Act) : Decidable (connSys.enabled c a) := decidableEnabled c a

/-! ## What the output path leaves alone -/

/-- An observation of the output path. -/
def Obs.isOutput : Obs → Bool
  | .passed _ | .write _ | .highWater _ | .shutdownInLoop | .shutdownWrite _ => true
  | _ => false

/-- A functor the output path queues: a notification for the user. -/
def Functor.isNotice : Functor → Bool
  | .writeComplete | .highWaterMark _ => true
  | _ => false

/-- `c'` comes from `c` by output operations: only the output buffer, the
write interest, notices in the queue and output observations are new. -/
structure Moved (c c' : Conn) : Prop where
  state : c'.state = c.state
  reading : c'.reading = c.reading
  isReading : c'.channel.isReading = c.channel.isReading
  todo : c'.todo = c.todo
  timers : c'.timers = c.timers
  sending : c'.sending = c.sending
  stopping : c'.stopping = c.stopping
  sends : c'.sends = c.sends
  pending : ∃ q, c'.pending = c.pending ++ q ∧ ∀ f ∈ q, f.isNotice = true
  trace : ∃ t, c'.trace = t ++ c.trace ∧ ∀ o ∈ t, o.isOutput = true

namespace Moved

theorem refl (c : Conn) : Moved c c :=
  ⟨rfl, rfl, rfl, rfl, rfl, rfl, rfl, rfl, ⟨[], by simp⟩, ⟨[], by simp⟩⟩

theorem trans {c₁ c₂ c₃ : Conn} (h : Moved c₁ c₂) (h' : Moved c₂ c₃) : Moved c₁ c₃ := by
  obtain ⟨q, hq, hqn⟩ := h.pending
  obtain ⟨q', hq', hqn'⟩ := h'.pending
  obtain ⟨t, ht, hto⟩ := h.trace
  obtain ⟨t', ht', hto'⟩ := h'.trace
  refine ⟨h'.state.trans h.state, h'.reading.trans h.reading, h'.isReading.trans h.isReading,
    h'.todo.trans h.todo, h'.timers.trans h.timers, h'.sending.trans h.sending,
    h'.stopping.trans h.stopping, h'.sends.trans h.sends, ⟨q ++ q', ?_, ?_⟩, ⟨t' ++ t, ?_, ?_⟩⟩
  · rw [hq', hq, List.append_assoc]
  · intro f hf
    rcases List.mem_append.mp hf with hf | hf
    · exact hqn f hf
    · exact hqn' f hf
  · rw [ht', ht, List.append_assoc]
  · intro o ho
    rcases List.mem_append.mp ho with ho | ho
    · exact hto' o ho
    · exact hto o ho

theorem observe {c : Conn} {o : Obs} (h : o.isOutput = true) : Moved c (c.observe o) :=
  ⟨rfl, rfl, rfl, rfl, rfl, rfl, rfl, rfl, ⟨[], by simp [Conn.observe]⟩,
    ⟨[o], rfl, by simpa using h⟩⟩

theorem queue {c : Conn} {f : Functor} (h : f.isNotice = true) : Moved c (c.queueInLoop f) :=
  ⟨rfl, rfl, rfl, rfl, rfl, rfl, rfl, rfl, ⟨[f], rfl, by simpa using h⟩,
    ⟨[], by simp [Conn.queueInLoop]⟩⟩

theorem setOutput (c : Conn) (b : Buffer.Valid) : Moved c (c.setOutput b) :=
  ⟨rfl, rfl, rfl, rfl, rfl, rfl, rfl, rfl, ⟨[], by simp [Conn.setOutput]⟩,
    ⟨[], by simp [Conn.setOutput]⟩⟩

theorem setChannel {c : Conn} {ch : Channel} (h : ch.isReading = c.channel.isReading) :
    Moved c (c.setChannel ch) :=
  ⟨rfl, rfl, h, rfl, rfl, rfl, rfl, rfl, ⟨[], by simp [Conn.setChannel]⟩,
    ⟨[], by simp [Conn.setChannel]⟩⟩

end Moved

namespace Conn

theorem moved_shutdownInLoop (c : Conn) : Moved c c.shutdownInLoop := by
  unfold shutdownInLoop
  refine (Moved.observe (o := .shutdownInLoop) rfl).trans ?_
  dsimp only
  split
  · exact .observe rfl
  · exact .refl _

theorem moved_noticeWriteComplete (c : Conn) : Moved c c.noticeWriteComplete := by
  unfold noticeWriteComplete
  split
  · exact .queue rfl
  · exact .refl c

theorem moved_noticeHighWater (c : Conn) (more : Nat) : Moved c (c.noticeHighWater more) := by
  unfold noticeHighWater
  dsimp only
  split
  · exact (Moved.queue rfl).trans (.observe rfl)
  · exact .refl c

theorem moved_tryWrite (c : Conn) (data : List Byte) (wr : WriteResult) :
    Moved c (c.tryWrite data wr).conn := by
  unfold tryWrite
  split
  · refine (Moved.observe (o := .write (wr.taken data)) rfl).trans ?_
    cases wr with
    | accepts limit =>
        dsimp only
        split
        · exact moved_noticeWriteComplete _
        · exact .refl _
    | fails errno => exact .refl _
  · exact .refl c

theorem moved_bufferRest (c : Conn) (rest : List Byte) : Moved c (c.bufferRest rest) := by
  have h₁ := moved_noticeHighWater c rest.length
  have h₂ := h₁.trans (.setOutput _ ((c.noticeHighWater rest.length).outputBuffer.append rest))
  unfold bufferRest
  dsimp only
  split
  · exact h₂.trans (.setChannel (Channel.isReading_enableWriting _))
  · exact h₂

theorem moved_sendInLoop {c : Conn} {data : List Byte} {wr : WriteResult} :
    Post (c.sendInLoop data wr) (Moved c) := by
  unfold sendInLoop
  split
  · exact .ok (.refl c)
  · refine .check_bind fun _ => ?_
    have hw := (Moved.observe (c := c) (o := .passed data) rfl).trans
      (moved_tryWrite _ data wr)
    split
    · exact .ok (hw.trans (moved_bufferRest _ _))
    · exact .ok hw

theorem moved_outputDrained (c : Conn) : Moved c c.outputDrained := by
  have h₁ : Moved c (c.setChannel c.channel.disableWriting) :=
    .setChannel (Channel.isReading_disableWriting _)
  have h₂ := h₁.trans (moved_noticeWriteComplete _)
  unfold outputDrained
  dsimp only
  split
  · exact h₂.trans (moved_shutdownInLoop _)
  · exact h₂

theorem moved_handleWrite (c : Conn) (wr : WriteResult) : Moved c (c.handleWrite wr) := by
  have h₁ : Moved c (c.observe (.write (wr.taken c.outputBuffer.readable))) := .observe rfl
  have h₂ := h₁.trans (.setOutput _ c.outputBuffer.retrieveAll)
  unfold handleWrite
  split
  · dsimp only
    split
    · split
      · exact h₂.trans (moved_outputDrained _)
      · exact h₂
    · exact h₁
  · exact .refl c

/-- The condition of `forceClose` is true in every state, because it assigns a
non-zero enumerator: the call always sets `kDisconnecting` and always queues a
close. -/
theorem forceClose_eq (c : Conn) :
    c.forceClose = (c.setState .kDisconnecting).queueInLoop .forceCloseInLoop := by
  unfold forceClose
  by_cases h : c.state = .kConnected
  · rw [if_pos h]
    rfl
  · rw [if_neg h]
    rfl

/-- The assertion in `sendInLoop` holds for every result of the write. -/
theorem tryWrite_remaining (c : Conn) (data : List Byte) (wr : WriteResult) :
    (c.tryWrite data wr).remaining = data.length - (c.tryWrite data wr).nwrote ∧
      (c.tryWrite data wr).nwrote ≤ data.length := by
  unfold tryWrite
  split
  · cases wr with
    | accepts limit => exact ⟨rfl, Nat.min_le_right _ _⟩
    | fails errno => exact ⟨rfl, Nat.zero_le _⟩
  · exact ⟨rfl, Nat.zero_le _⟩

/-- `sendInLoop` always returns. -/
theorem sendInLoop_lands (c : Conn) (data : List Byte) (wr : WriteResult) :
    Lands (c.sendInLoop data wr) (Moved c) := by
  have hret : ∃ c', c.sendInLoop data wr = .ok c' := by
    unfold sendInLoop
    split
    · exact ⟨c, rfl⟩
    · dsimp only
      rw [check_of _ (by have := tryWrite_remaining (c.observe (.passed data)) data wr; omega)]
      split
      · exact ⟨_, rfl⟩
      · exact ⟨_, rfl⟩
  obtain ⟨c', hc'⟩ := hret
  exact ⟨c', hc', moved_sendInLoop c' hc'⟩

theorem sendInLoop_of_disconnected {c : Conn} (h : c.state = .kDisconnected)
    (data : List Byte) (wr : WriteResult) : c.sendInLoop data wr = .ok c := by
  rw [sendInLoop, if_pos h]

theorem handleWrite_of_not_writing {c : Conn} (h : c.channel.isWriting = false)
    (wr : WriteResult) : c.handleWrite wr = c := by
  rw [handleWrite, if_neg (by rw [h]; simp)]

end Conn
end Muduo.Connection
