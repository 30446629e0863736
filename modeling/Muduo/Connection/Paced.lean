import Muduo.Connection.HighWater
import Muduo.Connection.Stream
import Muduo.Connection.Threads

/-!
# A user who waits for the write-complete callback

The write-complete callback is there to hold back a user who has more to send than the
peer takes: it sends one message, and the next when the callback says that the output has
run empty (`Paced`). The right to send, a queued callback and buffered output are then one
token that goes round. There is never more than one, so that the output buffer never holds
more than one message (`PacedInv`).

The token is lost where a direct write neither ends in a callback nor leaves something to
buffer: when it fails with an error that `sendInLoop` takes for the end of the connection,
and when it fails for an empty message (`Answered`). Otherwise the user never waits for
good.
-/

namespace Muduo.Connection

open Lib

/-- The write-complete callbacks in the queue. -/
def Conn.notices (c : Conn) : Nat := c.pending.count .writeComplete

structure Paced where
  conn : Conn
  /-- The user may send. -/
  turn : Bool

/-- The user is called back: the connection is up, or a write is complete. -/
def callsBack (c : Conn) : Act → Bool
  | .connectEstablished => true
  | .runFunctor _ => c.pending.head? = some .writeComplete
  | _ => false

def Act.sends : Act → Bool
  | .send _ _ => true
  | _ => false

namespace Paced

def new (sockfd : Int) (highWater : Bool) (mark : Nat) : Paced :=
  ⟨Conn.new sockfd true highWater mark, false⟩

def exec (s : Paced) (a : Act) : Except Assert Paced := do
  let c ← Connection.exec s.conn a
  return ⟨c, callsBack s.conn a || (s.turn && !a.sends)⟩

/-- Messages have at most `most` bytes. Nobody else sends. -/
def Waits (most : Nat) (s : Paced) : Act → Prop
  | .send message _ => s.turn = true ∧ message.length ≤ most
  | .sendInLoop _ _ | .threadSend _ => False
  | _ => True

instance (most : Nat) (s : Paced) : ∀ a, Decidable (Waits most s a)
  | .send message _ => inferInstanceAs (Decidable (s.turn = true ∧ message.length ≤ most))
  | .sendInLoop _ _ | .threadSend _ => inferInstanceAs (Decidable False)
  | .connectEstablished | .poll _ | .next _ _ | .handleWrite _ | .shutdown | .forceClose
  | .forceCloseWithDelay | .startRead | .stopRead | .runFunctor _ | .timer
  | .threadSendPush _ | .threadShutdown | .threadShutdownPush
  | .threadStartRead | .threadStopRead => inferInstanceAs (Decidable True)

def Enabled (most : Nat) (s : Paced) (a : Act) : Prop :=
  Connection.Enabled s.conn a ∧ s.Waits most a

instance (most : Nat) (s : Paced) (a : Act) : Decidable (s.Enabled most a) :=
  inferInstanceAs (Decidable (_ ∧ _))

/-- The right to send, the queued callbacks, and buffered output. -/
def tokens (s : Paced) : Nat :=
  s.turn.toNat + s.conn.notices + if 0 < s.conn.buffered then 1 else 0

end Paced

def pacedSys (most : Nat) : Sys Paced Act Assert := ⟨Paced.Enabled most, Paced.exec⟩

instance (most : Nat) (s : Paced) (a : Act) : Decidable ((pacedSys most).enabled s a) :=
  inferInstanceAs (Decidable (s.Enabled most a))

/-! ## What an operation does to the token -/

/-- What the operations of the loop leave alone, as long as the connection is up. -/
structure Untouched (c c' : Conn) : Prop where
  callback : c'.writeCompleteCallback = c.writeCompleteCallback
  waiting : NoSendWaiting c → NoSendWaiting c'
  notices : c'.notices = c.notices
  output : c'.outputBuffer = c.outputBuffer
  up : c'.Up → c'.state = c.state ∧ c'.channel.isWriting = c.channel.isWriting

namespace Untouched

variable {c c' c₁ c₂ c₃ : Conn}

theorem refl (c : Conn) : Untouched c c := ⟨rfl, id, rfl, rfl, fun _ => ⟨rfl, rfl⟩⟩

theorem trans (h : Untouched c₁ c₂) (h' : Untouched c₂ c₃) : Untouched c₁ c₃ := by
  refine ⟨h'.callback.trans h.callback, fun hw => h'.waiting (h.waiting hw),
    h'.notices.trans h.notices, h'.output.trans h.output, fun hup => ?_⟩
  obtain ⟨hstate, hwriting⟩ := h'.up hup
  have hup₂ : c₂.Up := by
    unfold Conn.Up at hup ⊢
    rwa [hstate] at hup
  obtain ⟨hstate', hwriting'⟩ := h.up hup₂
  exact ⟨hstate.trans hstate', hwriting.trans hwriting'⟩

/-- Only what the definition does not mention has changed. -/
theorem of_eq (hcallback : c'.writeCompleteCallback = c.writeCompleteCallback)
    (hpending : c'.pending = c.pending) (hsending : c'.sending = c.sending)
    (houtput : c'.outputBuffer = c.outputBuffer)
    (hup : c'.Up → c'.state = c.state ∧ c'.channel.isWriting = c.channel.isWriting) :
    Untouched c c' := by
  refine ⟨hcallback, ?_, ?_, houtput, hup⟩
  · unfold NoSendWaiting
    rw [hpending, hsending]
    exact id
  · unfold Conn.notices
    rw [hpending]

/-- Something else is queued. -/
theorem queue {f : Functor} (hf : f ≠ .writeComplete) (hsend : ∀ id m, f ≠ .sendInLoop id m) :
    Untouched c (c.queueInLoop f) := by
  refine ⟨rfl, fun hw => ⟨hw.1, fun id m hm => ?_⟩, ?_, rfl, fun _ => ⟨rfl, rfl⟩⟩
  · rcases List.mem_append.mp hm with hm | hm
    · exact hw.2 id m hm
    · exact hsend id m (List.mem_singleton.mp hm).symm
  · show (c.pending ++ [f]).count .writeComplete = _
    rw [List.count_append, List.count_singleton, if_neg (by simpa using hf)]
    rfl

/-- Something else is taken from the queue. -/
theorem pop {f : Functor} {rest : List Functor} (hpending : c.pending = f :: rest)
    (hf : f ≠ .writeComplete) : Untouched c { c with pending := rest } := by
  refine ⟨rfl, fun hw => ⟨hw.1, fun id m hm => ?_⟩, ?_, rfl, fun _ => ⟨rfl, rfl⟩⟩
  · refine hw.2 id m ?_
    rw [hpending]
    exact List.mem_cons_of_mem f hm
  · show rest.count .writeComplete = c.pending.count .writeComplete
    rw [hpending, List.count_cons_of_ne hf]

end Untouched

namespace Conn

/-- The state in which the connection goes down. -/
theorem untouched_down {c c' : Conn} (hcallback : c'.writeCompleteCallback = c.writeCompleteCallback)
    (hpending : c'.pending = c.pending) (hsending : c'.sending = c.sending)
    (houtput : c'.outputBuffer = c.outputBuffer)
    (hdown : c'.state = .kDisconnecting ∨ c'.state = .kDisconnected) : Untouched c c' :=
  .of_eq hcallback hpending hsending houtput fun hup => absurd hup (not_up hdown)

theorem untouched_shutdownInLoop (c : Conn) : Untouched c c.shutdownInLoop := by
  rcases shutdownInLoop_cases c with ⟨-, heq⟩ | ⟨-, heq⟩
  · rw [heq]
    exact .of_eq rfl rfl rfl rfl fun _ => ⟨rfl, rfl⟩
  · rw [heq]
    exact .of_eq rfl rfl rfl rfl fun _ => ⟨rfl, rfl⟩

theorem untouched_shutdown (c : Conn) : Untouched c c.shutdown := by
  unfold shutdown
  split
  · have h : Untouched c ((c.setState .kDisconnecting).observe .shutdownCalled) :=
      untouched_down rfl rfl rfl rfl (.inl rfl)
    exact h.trans (untouched_shutdownInLoop _)
  · exact .refl c

theorem untouched_handleClose (c : Conn) : Post c.handleClose (Untouched c) := by
  unfold handleClose
  exact .check_bind fun _ => .ok (untouched_down rfl rfl rfl rfl (.inr rfl))

theorem untouched_handleRead (c : Conn) (r : ReadResult) : Post (c.handleRead r) (Untouched c) := by
  cases r with
  | bytes => exact .ok (.of_eq rfl rfl rfl rfl fun _ => ⟨rfl, rfl⟩)
  | eof => exact untouched_handleClose c
  | fails e => exact .ok (.refl c)

theorem untouched_forceClose (c : Conn) : Untouched c c.forceClose := by
  rw [forceClose_eq]
  have h : Untouched c (c.setState .kDisconnecting) := untouched_down rfl rfl rfl rfl (.inl rfl)
  exact h.trans (.queue (by simp) (by simp))

theorem untouched_forceCloseWithDelay (c : Conn) : Untouched c c.forceCloseWithDelay := by
  unfold forceCloseWithDelay
  split
  · exact untouched_down rfl rfl rfl rfl (.inl rfl)
  · exact .refl c

theorem untouched_forceCloseInLoop (c : Conn) : Post c.forceCloseInLoop (Untouched c) := by
  unfold forceCloseInLoop
  split
  · exact untouched_handleClose c
  · exact .ok (.refl c)

theorem untouched_startReadInLoop (c : Conn) : Untouched c c.startReadInLoop := by
  unfold startReadInLoop
  split
  · exact .of_eq rfl rfl rfl rfl fun _ => ⟨rfl, Channel.isWriting_enableReading _⟩
  · exact .refl c

theorem untouched_stopReadInLoop (c : Conn) : Untouched c c.stopReadInLoop := by
  unfold stopReadInLoop
  split
  · exact .of_eq rfl rfl rfl rfl fun _ => ⟨rfl, Channel.isWriting_disableReading _⟩
  · exact .refl c

theorem untouched_threadShutdown (c : Conn) : Untouched c c.threadShutdown := by
  unfold threadShutdown
  split
  · exact untouched_down rfl rfl rfl rfl (.inl rfl)
  · exact .refl c

/-! ## Operations that pass the token on -/

/-- 1 while output is buffered. -/
def holding (c : Conn) : Nat := if 0 < c.buffered then 1 else 0

theorem notices_noticeWriteComplete {c : Conn} (hset : c.writeCompleteCallback = true) :
    c.noticeWriteComplete.notices = c.notices + 1 := by
  rw [noticeWriteComplete, if_pos hset]
  show (c.pending ++ [Functor.writeComplete]).count Functor.writeComplete = _
  rw [List.count_append, List.count_singleton_self]
  rfl

theorem noticeWriteComplete_callback (c : Conn) :
    c.noticeWriteComplete.writeCompleteCallback = c.writeCompleteCallback := by
  unfold noticeWriteComplete
  split
  · rfl
  · rfl

theorem noticeHighWater_token (c : Conn) (more : Nat) :
    (c.noticeHighWater more).notices = c.notices ∧
      (c.noticeHighWater more).writeCompleteCallback = c.writeCompleteCallback := by
  unfold noticeHighWater
  dsimp only
  split
  · refine ⟨?_, rfl⟩
    exact (Untouched.queue (c := c) (f := .highWaterMark (c.outputBuffer.readableBytes + more))
      (by simp) (by simp)).notices
  · exact ⟨rfl, rfl⟩

theorem bufferRest_token (c : Conn) (rest : List Byte) :
    (c.bufferRest rest).notices = c.notices ∧
      (c.bufferRest rest).writeCompleteCallback = c.writeCompleteCallback := by
  have h := noticeHighWater_token c rest.length
  unfold bufferRest
  dsimp only
  split
  · exact h
  · exact h

/-- The direct write ends in a callback, or leaves something to buffer. -/
def Answers (data : List Byte) : WriteResult → Prop
  | .accepts _ => True
  | .fails errno => errno ≠ .EPIPE ∧ errno ≠ .ECONNRESET ∧ data ≠ []

instance (data : List Byte) : ∀ wr, Decidable (Answers data wr)
  | .accepts _ => inferInstanceAs (Decidable True)
  | .fails errno =>
      inferInstanceAs (Decidable (errno ≠ .EPIPE ∧ errno ≠ .ECONNRESET ∧ data ≠ []))

/-- What becomes of the token when the output path has run. -/
structure PassedOn (c c' : Conn) (spent : Nat) : Prop where
  callback : c'.writeCompleteCallback = true
  token : c'.notices + c'.holding = c.notices + spent
  writing : c'.channel.isWriting = true ↔ 0 < c'.buffered

/-- The direct write of a connection whose output is empty. -/
theorem tryWrite_token {c : Conn} (hset : c.writeCompleteCallback = true)
    (hidle : c.channel.isWriting = false ∧ c.outputBuffer.readableBytes = 0) (data : List Byte)
    (wr : WriteResult) :
    (c.tryWrite data wr).conn.writeCompleteCallback = true ∧
      ((c.tryWrite data wr).faultError = false ∧ 0 < (c.tryWrite data wr).remaining →
        (c.tryWrite data wr).conn.notices = c.notices ∧ Answers data wr) ∧
      (¬ ((c.tryWrite data wr).faultError = false ∧ 0 < (c.tryWrite data wr).remaining) →
        (c.tryWrite data wr).conn.notices = c.notices + if Answers data wr then 1 else 0) := by
  unfold tryWrite
  rw [if_pos hidle]
  cases wr with
  | accepts limit =>
      dsimp only
      split
      · rename_i hall
        refine ⟨(noticeWriteComplete_callback _).trans hset, ?_, fun _ => ?_⟩
        · rintro ⟨-, hleft⟩
          omega
        · rw [if_pos (show Answers data (.accepts limit) from trivial)]
          exact notices_noticeWriteComplete hset
      · rename_i hleft
        refine ⟨hset, fun _ => ⟨rfl, trivial⟩, fun hno => ?_⟩
        exact absurd ⟨rfl, Nat.pos_of_ne_zero hleft⟩ hno
  | fails errno =>
      have hnonempty : 0 < data.length ↔ data ≠ [] := List.length_pos_iff
      refine ⟨hset, ?_, fun hno => ?_⟩
      · rintro ⟨hfault, hpos⟩
        have hfault := of_decide_eq_false hfault
        refine ⟨rfl, ?_, ?_, hnonempty.mp hpos⟩
        · rintro rfl
          exact hfault ⟨by simp, .inl rfl⟩
        · rintro rfl
          exact hfault ⟨by simp, .inr rfl⟩
      · have hlost : ¬ Answers data (.fails errno) := by
          rintro ⟨hpipe, hreset, hdata⟩
          refine hno ⟨decide_eq_false ?_, hnonempty.mpr hdata⟩
          rintro ⟨-, herr⟩
          rcases herr with herr | herr
          · exact hpipe herr
          · exact hreset herr
        rw [if_neg hlost]
        rfl

/-- A message that is sent while the output is empty passes the token on, unless its write
is not answered. -/
theorem sendInLoop_passes {c : Conn} (hset : c.writeCompleteCallback = true)
    (hup : c.state ≠ .kDisconnected) (hoff : c.channel.isWriting = false) (hidle : c.buffered = 0)
    (data : List Byte) (wr : WriteResult) :
    Post (c.sendInLoop data wr) fun c' => c'.buffered ≤ data.length ∧
      PassedOn c c' (if Answers data wr then 1 else 0) := by
  unfold sendInLoop
  rw [if_neg hup]
  refine .check_bind fun hremaining => ?_
  obtain ⟨hset', hrest, hdone⟩ :=
    tryWrite_token (c := c.observe (.passed data)) hset ⟨hoff, hidle⟩ data wr
  obtain ⟨-, -, hchannel, houtput⟩ := tryWrite_frame (c.observe (.passed data)) data wr
  obtain ⟨hleft, -⟩ := tryWrite_remaining (c.observe (.passed data)) data wr
  generalize (c.observe (.passed data)).tryWrite data wr = w at *
  have hempty : w.conn.buffered = 0 := by
    unfold buffered
    rw [houtput]
    exact hidle
  have hnotices : (c.observe (.passed data)).notices = c.notices := rfl
  split
  · rename_i hrem
    obtain ⟨hsame, hanswers⟩ := hrest hrem
    have hlen : ((data.drop w.nwrote).take w.remaining).length = w.remaining := by
      rw [List.length_take, List.length_drop]
      omega
    have hsome : 0 < ((data.drop w.nwrote).take w.remaining).length := by
      rw [hlen]
      exact hrem.2
    obtain ⟨-, -, hon, hpos⟩ := bufferRest_frame w.conn hsome
    obtain ⟨-, -, hread⟩ := bufferRest_stream w.conn ((data.drop w.nwrote).take w.remaining)
    obtain ⟨hkeep, hcallback⟩ := bufferRest_token w.conn ((data.drop w.nwrote).take w.remaining)
    have hheld : (w.conn.bufferRest ((data.drop w.nwrote).take w.remaining)).buffered =
        w.remaining := by
      have hlength := congrArg List.length hread
      rw [List.length_append, hlen, ← Buffer.Valid.readableBytes_eq,
        ← Buffer.Valid.readableBytes_eq] at hlength
      have hempty' : w.conn.outputBuffer.readableBytes = 0 := hempty
      rw [hempty', Nat.zero_add] at hlength
      exact hlength
    refine .ok ⟨by rw [hheld]; exact hremaining, hcallback.trans hset', ?_, iff_of_true hon hpos⟩
    have hholding : (w.conn.bufferRest ((data.drop w.nwrote).take w.remaining)).holding = 1 :=
      if_pos hpos
    rw [hkeep, hsame, hholding, if_pos hanswers, hnotices]
  · rename_i hrem
    have hholding : w.conn.holding = 0 := if_neg (by rw [hempty]; exact Nat.lt_irrefl 0)
    have hoff' : w.conn.channel.isWriting = false := by
      rw [hchannel]
      exact hoff
    refine .ok ⟨by rw [hempty]; exact Nat.zero_le _, hset', ?_, ?_⟩
    · rw [hholding, Nat.add_zero, hdone hrem, hnotices]
    · rw [hempty, hoff']
      simp

theorem outputDrained_token {c : Conn} (hset : c.writeCompleteCallback = true) :
    c.outputDrained.writeCompleteCallback = true ∧ c.outputDrained.notices = c.notices + 1 ∧
      c.outputDrained.channel.isWriting = false ∧
      c.outputDrained.outputBuffer = c.outputBuffer := by
  have hnoticed : ∀ c' : Conn, c' = (c.setChannel c.channel.disableWriting).noticeWriteComplete →
      c'.writeCompleteCallback = true ∧ c'.notices = c.notices + 1 ∧
        c'.channel.isWriting = false ∧ c'.outputBuffer = c.outputBuffer := by
    rintro c' rfl
    refine ⟨(noticeWriteComplete_callback _).trans hset, notices_noticeWriteComplete hset, ?_,
      noticeWriteComplete_outputBuffer _⟩
    rw [noticeWriteComplete_channel]
    exact Channel.isWriting_disableWriting _
  have h := hnoticed _ rfl
  unfold outputDrained
  dsimp only
  split
  · rcases shutdownInLoop_cases (c.setChannel c.channel.disableWriting).noticeWriteComplete
      with ⟨-, heq⟩ | ⟨-, heq⟩
    · rw [heq]
      exact h
    · rw [heq]
      exact h
  · exact h

/-- An output that has run empty leaves a callback. -/
theorem outputDrained_passes {c c₁ : Conn} (hset : c₁.writeCompleteCallback = true)
    (hnotices : c₁.notices = c.notices) (hempty : c₁.buffered = 0) :
    PassedOn c c₁.outputDrained 1 := by
  obtain ⟨hset', hnotices', hoff, houtput⟩ := outputDrained_token hset
  have hnone : c₁.outputDrained.buffered = 0 := by
    unfold buffered
    rw [houtput]
    exact hempty
  have hholding : c₁.outputDrained.holding = 0 := if_neg (by rw [hnone]; exact Nat.lt_irrefl 0)
  refine ⟨hset', ?_, ?_⟩
  · rw [hholding, hnotices', hnotices]
  · rw [hoff, hnone]
    simp

/-- `handleWrite` shortens the output, and turns it into a callback. -/
theorem handleWrite_passes {c : Conn} (hset : c.writeCompleteCallback = true) (wr : WriteResult) :
    (c.handleWrite wr).writeCompleteCallback = true ∧ (c.handleWrite wr).buffered ≤ c.buffered ∧
      ((c.channel.isWriting = true ↔ 0 < c.buffered) →
        PassedOn c (c.handleWrite wr) c.holding) := by
  unfold handleWrite
  split
  · rename_i hon
    dsimp only
    split
    · have hempty : ((c.observe (.write (wr.taken c.outputBuffer.readable))).setOutput
          c.outputBuffer.retrieveAll).buffered = 0 := by
        simp [buffered, setOutput]
      split
      · obtain ⟨hset', -, -, houtput⟩ := outputDrained_token
          (c := (c.observe (.write (wr.taken c.outputBuffer.readable))).setOutput
            c.outputBuffer.retrieveAll) hset
        refine ⟨hset', ?_, fun hwriting => ?_⟩
        · refine (Eq.trans ?_ hempty).trans_le (Nat.zero_le _)
          exact congrArg Buffer.Valid.readableBytes houtput
        · rw [show c.holding = 1 from if_pos (hwriting.mp hon)]
          exact outputDrained_passes hset rfl hempty
      · rename_i hleft
        exact absurd hempty hleft
    · exact ⟨hset, le_rfl, fun hwriting => ⟨hset, rfl, hwriting⟩⟩
  · exact ⟨hset, le_rfl, fun hwriting => ⟨hset, rfl, hwriting⟩⟩

end Conn

theorem Moved.noSendWaiting {c c' : Conn} (h : Moved c c') (hw : NoSendWaiting c) :
    NoSendWaiting c' := by
  refine ⟨h.sending.trans hw.1, fun id m hm => ?_⟩
  obtain ⟨q, hq, hnotice⟩ := h.pending
  rw [hq] at hm
  rcases List.mem_append.mp hm with hm | hm
  · exact hw.2 id m hm
  · exact absurd (hnotice _ hm) (by simp [Functor.isNotice])

/-! ## Steps -/

/-- There is one token at most, and the output buffer holds one message at most. -/
structure PacedInv (most : Nat) (s : Paced) : Prop where
  callback : s.conn.writeCompleteCallback = true
  waiting : NoSendWaiting s.conn
  most : s.conn.buffered ≤ most
  fresh : s.conn.state = .kConnecting → s.tokens = 0
  up : s.conn.Up → s.tokens ≤ 1 ∧ (s.conn.channel.isWriting = true ↔ 0 < s.conn.buffered)

/-- As long as the connection is up, the user may send, or it will be called back, or there
is output that the channel waits to write. -/
def Flowing (s : Paced) : Prop := s.conn.state = .kConnected → s.tokens = 1

instance (s : Paced) : Decidable (Flowing s) := inferInstanceAs (Decidable (_ → _))

/-- What is sent is answered. -/
def Answered (s : Paced) : Act → Prop
  | .send message wr => s.conn.state = .kConnected → Conn.Answers message wr
  | _ => True

instance (s : Paced) : ∀ a, Decidable (Answered s a)
  | .send message wr =>
      inferInstanceAs (Decidable (s.conn.state = .kConnected → Conn.Answers message wr))
  | .connectEstablished | .poll _ | .next _ _ | .handleWrite _ | .shutdown | .forceClose
  | .forceCloseWithDelay | .startRead | .stopRead | .runFunctor _ | .timer | .sendInLoop _ _
  | .threadSend _ | .threadSendPush _ | .threadShutdown | .threadShutdownPush
  | .threadStartRead | .threadStopRead => inferInstanceAs (Decidable True)

section Steps

variable {most : Nat} {s : Paced} {c c' : Conn}

/-- What every step does: where the token was not lost before, it is lost exactly by what is
not answered. -/
def StepPaced (most : Nat) (s : Paced) (a : Act) : Prop :=
  Post (s.exec a) fun s' => PacedInv most s' ∧ (Flowing s → (Flowing s' ↔ Answered s a))

/-- The step neither calls the user back nor sends. -/
theorem exec_of_plain {a : Act} (hback : callsBack s.conn a = false) (hsends : a.sends = false)
    {P : Paced → Prop} (h : Post (Connection.exec s.conn a) fun c' => P ⟨c', s.turn⟩) :
    Post (s.exec a) P := by
  refine h.bind fun c' hc' => .ok ?_
  rw [hback, hsends, Bool.not_false, Bool.and_true, Bool.false_or]
  exact hc'

/-- The token stays where it is. -/
theorem PacedInv.untouched (h : PacedInv most s) (hq : Untouched s.conn c') :
    PacedInv most ⟨c', s.turn⟩ ∧ (Flowing s → Flowing ⟨c', s.turn⟩) := by
  have hbuffered : c'.buffered = s.conn.buffered := by
    unfold Conn.buffered
    rw [hq.output]
  have htokens : Paced.tokens ⟨c', s.turn⟩ = s.tokens := by
    unfold Paced.tokens
    rw [hq.notices, hbuffered]
  refine ⟨⟨hq.callback.trans h.callback, hq.waiting h.waiting, hbuffered.trans_le h.most, ?_, ?_⟩,
    ?_⟩
  · intro hfresh
    obtain ⟨hstate, -⟩ := hq.up (.inl hfresh)
    rw [htokens]
    exact h.fresh (hstate.symm.trans hfresh)
  · intro hup
    obtain ⟨hstate, hwriting⟩ := hq.up hup
    have hup' : s.conn.Up := by
      unfold Conn.Up at hup ⊢
      rwa [hstate] at hup
    show Paced.tokens _ ≤ 1 ∧ (c'.channel.isWriting = true ↔ 0 < c'.buffered)
    rw [htokens, hwriting, hbuffered]
    exact h.up hup'
  · intro hflow hconnected
    obtain ⟨hstate, -⟩ := hq.up (.inr hconnected)
    rw [htokens]
    exact hflow (hstate.symm.trans hconnected)

/-- The tokens, as the operations of the connection count them. -/
theorem tokens_eq (s : Paced) : s.tokens = s.turn.toNat + (s.conn.notices + s.conn.holding) :=
  Nat.add_assoc _ _ _

/-- The write event, whether it comes from a dispatch or directly. -/
theorem PacedInv.handleWrite (h : PacedInv most s) (wr : WriteResult) :
    PacedInv most ⟨s.conn.handleWrite wr, s.turn⟩ ∧
      (Flowing s → Flowing ⟨s.conn.handleWrite wr, s.turn⟩) := by
  have hmoved := Conn.moved_handleWrite s.conn wr
  obtain ⟨hset, hless, hpasses⟩ := Conn.handleWrite_passes h.callback wr
  have hup' : (s.conn.handleWrite wr).Up → s.conn.Up := by
    unfold Conn.Up
    rw [hmoved.state]
    exact id
  have htokens : s.conn.Up → Paced.tokens ⟨s.conn.handleWrite wr, s.turn⟩ = s.tokens := by
    intro hup
    rw [tokens_eq, tokens_eq]
    show s.turn.toNat + ((s.conn.handleWrite wr).notices + (s.conn.handleWrite wr).holding) = _
    rw [(hpasses (h.up hup).2).token]
  refine ⟨⟨hset, hmoved.noSendWaiting h.waiting, hless.trans h.most, ?_, ?_⟩, ?_⟩
  · intro hfresh
    rw [htokens (hup' (.inl hfresh))]
    exact h.fresh (hmoved.state.symm.trans hfresh)
  · intro hup
    rw [htokens (hup' hup)]
    exact ⟨(h.up (hup' hup)).1, (hpasses (h.up (hup' hup)).2).writing⟩
  · intro hflow hconnected
    rw [htokens (hup' (.inr hconnected))]
    exact hflow (hmoved.state.symm.trans hconnected)

/-- Of the rest of a dispatch. -/
theorem PacedInv.runTodo (h : PacedInv most s) (r : ReadResult) (wr : WriteResult) (t : Todo) :
    Post (s.conn.runTodo r wr t) fun c' =>
      PacedInv most ⟨c', s.turn⟩ ∧ (Flowing s → Flowing ⟨c', s.turn⟩) := by
  cases t with
  | closeCallback => exact .ok (h.untouched (.of_eq rfl rfl rfl rfl fun _ => ⟨rfl, rfl⟩))
  | callback cb =>
      cases cb with
      | close => exact (Conn.untouched_handleClose s.conn).mono fun c' hq => h.untouched hq
      | error => exact .ok (h.untouched (.refl _))
      | read => exact (Conn.untouched_handleRead s.conn r).mono fun c' hq => h.untouched hq
      | write => exact .ok (h.handleWrite wr)

/-- The callback of a completed write gives the token to the user. -/
theorem PacedInv.callBack (h : PacedInv most s) {rest : List Functor}
    (hpending : s.conn.pending = .writeComplete :: rest) :
    PacedInv most ⟨{ s.conn with pending := rest }, true⟩ ∧
      (Flowing s → Flowing ⟨{ s.conn with pending := rest }, true⟩) := by
  have hnotices : s.conn.notices = Conn.notices { s.conn with pending := rest } + 1 := by
    unfold Conn.notices
    rw [hpending, List.count_cons_self]
  have htokens : s.conn.Up →
      Paced.tokens ⟨{ s.conn with pending := rest }, true⟩ = s.tokens := by
    intro hup
    have hone := (h.up hup).1
    rw [tokens_eq, hnotices] at hone
    have hturn : s.turn.toNat = 0 := by omega
    rw [tokens_eq, tokens_eq s, hturn, hnotices]
    show 1 + (Conn.notices { s.conn with pending := rest } + s.conn.holding) = _
    omega
  refine ⟨⟨h.callback, ⟨h.waiting.1, fun id m hm => h.waiting.2 id m ?_⟩, h.most, ?_, ?_⟩, ?_⟩
  · rw [hpending]
    exact List.mem_cons_of_mem _ hm
  · intro hfresh
    rw [htokens (.inl hfresh)]
    exact h.fresh hfresh
  · intro hup
    rw [htokens hup]
    exact h.up hup
  · intro hflow hconnected
    rw [htokens (.inr hconnected)]
    exact hflow hconnected

/-- The connection is up, and the user has the token. -/
theorem PacedInv.established (h : PacedInv most s) (hstate : s.conn.state = .kConnecting) :
    Post s.conn.connectEstablished fun c' =>
      PacedInv most ⟨c', true⟩ ∧ Flowing ⟨c', true⟩ := by
  unfold Conn.connectEstablished
  refine .check_bind fun _ => .ok ?_
  have hzero := h.fresh hstate
  have htokens : Paced.tokens ⟨((s.conn.setState .kConnected).setChannel
      s.conn.channel.tie.enableReading).observe .connectionUp, true⟩ = 1 := by
    rw [tokens_eq] at hzero ⊢
    show 1 + (s.conn.notices + s.conn.holding) = 1
    omega
  refine ⟨⟨h.callback, h.waiting, h.most, fun hfresh => StateE.noConfusion hfresh,
    fun _ => ⟨htokens.le, ?_⟩⟩, fun _ => htokens⟩
  have hwriting : s.conn.channel.tie.enableReading.isWriting = s.conn.channel.isWriting :=
    Channel.isWriting_enableReading _
  show s.conn.channel.tie.enableReading.isWriting = true ↔ _
  rw [hwriting]
  exact (h.up (.inl hstate)).2

/-- The user gives the token away. -/
theorem PacedInv.send (h : PacedInv most s) (hturn : s.turn = true) {message : List Byte}
    (hlength : message.length ≤ most) (wr : WriteResult) :
    Post (s.conn.send message wr) fun c' => PacedInv most ⟨c', false⟩ ∧
      (Flowing ⟨c', false⟩ ↔ Answered s (.send message wr)) := by
  unfold Conn.send
  split
  · rename_i hconnected
    obtain ⟨hone, hwriting⟩ := h.up (.inr hconnected)
    rw [tokens_eq, hturn] at hone
    have hnotices : s.conn.notices = 0 := by
      have : 1 + (s.conn.notices + s.conn.holding) ≤ 1 := hone
      omega
    have hempty : s.conn.buffered = 0 := by
      by_contra hpos
      have hholding : s.conn.holding = 1 := if_pos (Nat.pos_of_ne_zero hpos)
      have : 1 + (s.conn.notices + s.conn.holding) ≤ 1 := hone
      omega
    have hoff : s.conn.channel.isWriting = false := by
      rw [hempty] at hwriting
      simpa using hwriting
    have hpasses := Conn.sendInLoop_passes h.callback (by rw [hconnected]; simp) hoff hempty
      message wr
    intro c' hc'
    obtain ⟨hshort, hpassed⟩ := hpasses c' hc'
    have hmoved := Conn.moved_sendInLoop c' hc'
    have htokens : Paced.tokens ⟨c', false⟩ = if Conn.Answers message wr then 1 else 0 := by
      rw [tokens_eq]
      show 0 + (c'.notices + c'.holding) = _
      rw [hpassed.token, hnotices, Nat.zero_add, Nat.zero_add]
    refine ⟨⟨hpassed.callback, hmoved.noSendWaiting h.waiting, hshort.trans hlength, ?_, ?_⟩, ?_⟩
    · intro hfresh
      exact absurd (hmoved.state.symm.trans hfresh) (by rw [hconnected]; simp)
    · intro _
      refine ⟨?_, hpassed.writing⟩
      rw [htokens]
      split
      · exact le_rfl
      · exact Nat.zero_le _
    · unfold Flowing Answered
      rw [htokens]
      constructor
      · intro hflow _
        by_contra hno
        rw [if_neg hno] at hflow
        exact absurd (hflow (hmoved.state.trans hconnected)) (by simp)
      · intro hanswered _
        exact if_pos (hanswered hconnected)
  · rename_i hdown
    refine .ok ⟨⟨h.callback, h.waiting, h.most, fun hfresh => ?_, fun hup => ?_⟩,
      iff_of_true (fun hconnected => absurd hconnected hdown) fun hconnected =>
        absurd hconnected hdown⟩
    · have hzero := h.fresh hfresh
      rw [tokens_eq, hturn] at hzero
      exact absurd hzero (by simp)
    · obtain ⟨hone, hwriting⟩ := h.up hup
      refine ⟨?_, hwriting⟩
      rw [tokens_eq] at hone ⊢
      show 0 + (s.conn.notices + s.conn.holding) ≤ 1
      omega

/-- A functor that is neither data nor a write-complete callback. -/
theorem untouched_runFunctor (c : Conn) (wr : WriteResult) {f : Functor} (hf : f ≠ .writeComplete)
    (hsend : ∀ id m, f ≠ .sendInLoop id m) : Post (c.runFunctor wr f) (Untouched c) := by
  cases f with
  | sendInLoop id message => exact absurd rfl (hsend id message)
  | shutdownInLoop => exact .ok (Conn.untouched_shutdownInLoop c)
  | forceCloseInLoop => exact Conn.untouched_forceCloseInLoop c
  | startReadInLoop => exact .ok (Conn.untouched_startReadInLoop c)
  | stopReadInLoop => exact .ok (Conn.untouched_stopReadInLoop c)
  | writeComplete => exact absurd rfl hf
  | highWaterMark len => exact .ok (.refl c)

theorem PacedInv.runFunctor (h : PacedInv most s) (wr : WriteResult) :
    Post (s.exec (.runFunctor wr)) fun s' => PacedInv most s' ∧ (Flowing s → Flowing s') := by
  cases hpending : s.conn.pending with
  | nil =>
      have hback : callsBack s.conn (.runFunctor wr) = false := by simp [callsBack, hpending]
      refine exec_of_plain hback rfl ?_
      simp only [Connection.exec, hpending]
      exact .ok (h.untouched (.refl _))
  | cons f rest =>
      by_cases hf : f = .writeComplete
      · subst hf
        have hback : callsBack s.conn (.runFunctor wr) = true := by simp [callsBack, hpending]
        unfold Paced.exec
        rw [hback]
        simp only [Connection.exec, hpending]
        exact .ok (h.callBack hpending)
      · have hsend : ∀ id m, f ≠ .sendInLoop id m := by
          rintro id m rfl
          refine h.waiting.2 id m ?_
          rw [hpending]
          exact List.mem_cons_self
        have hback : callsBack s.conn (.runFunctor wr) = false := by
          simp [callsBack, hpending, hf]
        refine exec_of_plain hback rfl ?_
        simp only [Connection.exec, hpending]
        have hpop : Untouched s.conn { s.conn with pending := rest } := .pop hpending hf
        exact (untouched_runFunctor _ wr hf hsend).mono fun c' hq => h.untouched (hpop.trans hq)

theorem step_paced (h : PacedInv most s) {a : Act} (hen : s.Enabled most a) :
    StepPaced most s a := by
  obtain ⟨hen, hwaits⟩ := hen
  -- all but a `send` is answered, and keeps the token
  have hkeeps : Answered s a → Post (s.exec a) (fun s' =>
      PacedInv most s' ∧ (Flowing s → Flowing s')) → StepPaced most s a := by
    intro hanswered hpost
    exact hpost.mono fun s' hs' => ⟨hs'.1, fun hflow => iff_of_true (hs'.2 hflow) hanswered⟩
  have hquiet : Answered s a → callsBack s.conn a = false → a.sends = false →
      Post (Connection.exec s.conn a) (Untouched s.conn) → StepPaced most s a := by
    intro hanswered hback hsends hpost
    exact hkeeps hanswered (exec_of_plain hback hsends (hpost.mono fun c' hq => h.untouched hq))
  cases a with
  | connectEstablished =>
      refine hkeeps trivial ?_
      refine (h.established hen).bind fun c' hc' => .ok ⟨hc'.1, fun _ => hc'.2⟩
  | poll revents =>
      exact hquiet trivial rfl rfl (.ok (.of_eq rfl rfl rfl rfl fun _ => ⟨rfl, rfl⟩))
  | next r wr =>
      refine hkeeps trivial (exec_of_plain rfl rfl ?_)
      simp only [Connection.exec]
      cases htodo : s.conn.todo with
      | nil => exact .ok (h.untouched (.refl _))
      | cons t rest =>
          have hpop : Untouched s.conn { s.conn with todo := rest } :=
            .of_eq rfl rfl rfl rfl fun _ => ⟨rfl, rfl⟩
          obtain ⟨hinv, hflow⟩ := h.untouched hpop
          refine (hinv.runTodo r wr t).mono fun c' hc' => ⟨hc'.1, fun hf => hc'.2 (hflow hf)⟩
  | sendInLoop data wr => exact absurd hwaits id
  | handleWrite wr =>
      exact hkeeps trivial (exec_of_plain rfl rfl (.ok (h.handleWrite wr)))
  | send message wr =>
      refine (h.send hwaits.1 hwaits.2 wr).bind fun c' hc' => .ok ?_
      have hturn : (callsBack s.conn (.send message wr) ||
          (s.turn && !(Act.send message wr).sends)) = false := by
        simp [callsBack, Act.sends]
      rw [hturn]
      exact ⟨hc'.1, fun _ => hc'.2⟩
  | shutdown => exact hquiet trivial rfl rfl (.ok (Conn.untouched_shutdown _))
  | forceClose => exact hquiet trivial rfl rfl (.ok (Conn.untouched_forceClose _))
  | forceCloseWithDelay => exact hquiet trivial rfl rfl (.ok (Conn.untouched_forceCloseWithDelay _))
  | startRead => exact hquiet trivial rfl rfl (.ok (Conn.untouched_startReadInLoop _))
  | stopRead => exact hquiet trivial rfl rfl (.ok (Conn.untouched_stopReadInLoop _))
  | runFunctor wr => exact hkeeps trivial (h.runFunctor wr)
  | timer =>
      have hpop : Untouched s.conn { s.conn with timers := s.conn.timers - 1 } :=
        .of_eq rfl rfl rfl rfl fun _ => ⟨rfl, rfl⟩
      exact hquiet trivial rfl rfl (.ok (hpop.trans (Conn.untouched_forceClose _)))
  | threadSend message => exact absurd hwaits id
  | threadSendPush k =>
      have hlt : k < s.conn.sending.length := hen
      rw [h.waiting.1] at hlt
      exact absurd hlt (Nat.not_lt_zero k)
  | threadShutdown => exact hquiet trivial rfl rfl (.ok (Conn.untouched_threadShutdown _))
  | threadShutdownPush =>
      have hpop : Untouched s.conn { s.conn with stopping := s.conn.stopping - 1 } :=
        .of_eq rfl rfl rfl rfl fun _ => ⟨rfl, rfl⟩
      exact hquiet trivial rfl rfl (.ok (hpop.trans (.queue (by simp) (by simp))))
  | threadStartRead => exact hquiet trivial rfl rfl (.ok (.queue (by simp) (by simp)))
  | threadStopRead => exact hquiet trivial rfl rfl (.ok (.queue (by simp) (by simp)))

theorem new_paced (sockfd : Int) (highWater : Bool) (mark most : Nat) :
    PacedInv most (.new sockfd highWater mark) := by
  have hempty : (Paced.new sockfd highWater mark).conn.buffered = 0 := by
    show (Buffer.Valid.fresh Buffer.kInitialSize).readableBytes = 0
    simp
  have hnone : (Paced.new sockfd highWater mark).tokens = 0 := by
    unfold Paced.tokens
    rw [hempty]
    rfl
  refine ⟨rfl, ⟨rfl, fun id m hm => absurd hm (by simp [Paced.new, Conn.new])⟩, ?_, fun _ => hnone,
    fun _ => ⟨hnone.trans_le (Nat.zero_le _), ?_⟩⟩
  · rw [hempty]
    exact Nat.zero_le _
  · rw [hempty]
    exact iff_of_false Bool.noConfusion (Nat.lt_irrefl 0)

theorem send_returns (s : Paced) (message : List Byte) (wr : WriteResult) :
    ∃ s', s.exec (.send message wr) = .ok s' := by
  have hsend : ∃ c', s.conn.send message wr = .ok c' := by
    unfold Conn.send
    split
    · obtain ⟨c', hc', -⟩ := Conn.sendInLoop_lands s.conn message wr
      exact ⟨c', hc'⟩
    · exact ⟨s.conn, rfl⟩
  obtain ⟨c', hc'⟩ := hsend
  unfold Paced.exec
  rw [show Connection.exec s.conn (.send message wr) = .ok c' from hc']
  exact ⟨_, rfl⟩

/-- When the user may send, nothing is buffered. -/
theorem PacedInv.empty (h : PacedInv most s) (hup : s.conn.Up) (hturn : s.turn = true) :
    s.conn.outputBuffer.readable = [] := by
  obtain ⟨hone, -⟩ := h.up hup
  rw [tokens_eq, hturn] at hone
  have hnone : ¬ 0 < s.conn.buffered := by
    intro hpos
    have hholding : s.conn.holding = 1 := if_pos hpos
    rw [hholding] at hone
    have : 1 + (s.conn.notices + 1) ≤ 1 := hone
    omega
  rw [← List.length_eq_zero_iff, ← Buffer.Valid.readableBytes_eq]
  exact Nat.eq_zero_of_not_pos hnone

end Steps

/-! ## Runs -/

section Runs

/-- **The write-complete callback paces the user.** In every run of a user who waits for it,
with messages of at most `most` bytes:

* the output buffer never holds more than `most` bytes, and while the connection is up there
  is at most one of the right to send, a queued callback, and output that the channel waits to
  write;
* there is always one, so that the user does not wait for good, if and only if every message
  is answered;
* when the user may send, the socket has taken all that was sent before, if no write resets
  the connection or drains the buffer in part. -/
theorem write_complete_paces_iff (most : Nat) (sockfd : Int) (highWater : Bool) (mark : Nat)
    (acts : List Act) (hlegal : (pacedSys most).Legal (.new sockfd highWater mark) acts) :
    Post ((pacedSys most).runFrom (.new sockfd highWater mark) acts) (fun s =>
      s.conn.buffered ≤ most ∧ (s.conn.state = .kConnected →
        s.tokens ≤ 1 ∧ (s.conn.channel.isWriting = true ↔ 0 < s.conn.buffered))) ∧
    ((∀ pre, pre <+: acts →
        Post ((pacedSys most).runFrom (.new sockfd highWater mark) pre) Flowing) ↔
      (pacedSys most).Meets Answered (.new sockfd highWater mark) acts) ∧
    ((pacedSys most).Meets (fun s a => NoReset s.conn a ∧ WholeDrain s.conn a)
        (.new sockfd highWater mark) acts →
      Post ((pacedSys most).runFrom (.new sockfd highWater mark) acts) fun s =>
        s.conn.state = .kConnected → s.turn = true →
          accepted s.conn.trace = passed s.conn.trace) := by
  have hinv : ∀ s a, PacedInv most s → s.Enabled most a →
      Post ((pacedSys most).exec s a) (PacedInv most) :=
    fun s a h hen => (step_paced h hen).mono fun _ hs' => hs'.1
  have hnew := new_paced sockfd highWater mark most
  refine ⟨?_, ?_, fun hwhole => ?_⟩
  · have hrun := Sys.invariant_post (S := pacedSys most) hinv hnew hlegal
    exact hrun.mono fun s h => ⟨h.most, fun hconnected => h.up (.inr hconnected)⟩
  · refine Sys.always_iff_meets_of_invariant (S := pacedSys most) hinv ?_ ?_ hnew
      (fun hconnected => absurd hconnected (by simp [Paced.new, Conn.new])) hlegal
    · intro s a h hflow hen
      exact (step_paced h hen).mono fun s' hs' => hs'.2 hflow
    · intro s a e _ _ herr
      cases a with
      | send message wr =>
          obtain ⟨s', hs'⟩ := send_returns s message wr
          exact absurd (herr.symm.trans hs') (by simp)
      | _ => trivial
  · have hrun := Sys.invariant_post (S := pacedSys most)
      (I := fun s => PacedInv most s ∧ Stream s.conn) (fun s a h ha => ?_) ⟨hnew, ?_⟩
      (Sys.meets_and.mpr ⟨hlegal, hwhole⟩)
    · refine hrun.mono fun s h hconnected hturn => ?_
      have hstream : accepted s.conn.trace ++ s.conn.outputBuffer.readable = passed s.conn.trace :=
        h.2
      rwa [h.1.empty (.inr hconnected) hturn, List.append_nil] at hstream
    · obtain ⟨hen, hno, hdrain⟩ := ha
      intro s' hs'
      refine ⟨hinv s a h.1 hen s' hs', ?_⟩
      obtain ⟨c', hc', heq⟩ := bind_eq_ok hs'
      obtain rfl := Except.ok.inj heq
      exact (exec_stream_iff s.conn a h.2 hno c' hc').mpr hdrain
    · show [] ++ (Buffer.Valid.fresh Buffer.kInitialSize).readable = []
      simp

/-- The first message is taken at once, the second in two writes, and an empty one that cannot
be written at all is never answered. -/
theorem write_complete_paces_iff_three :
    Lands ((pacedSys 4).runFrom (.new 5 false 64)
      [.connectEstablished, .send [1, 2] (.accepts 9), .runFunctor (.accepts 0),
        .send [3, 4, 5] (.accepts 1), .handleWrite (.accepts 2), .runFunctor (.accepts 0)])
      (fun s => s.turn = true ∧ s.tokens = 1 ∧ accepted s.conn.trace = passed s.conn.trace) ∧
    ¬ ∀ pre, pre <+: [.connectEstablished, .send [] (.fails .EWOULDBLOCK)] →
      Post ((pacedSys 4).runFrom (.new 5 false 64) pre) Flowing := by
  constructor
  · have hspec := (write_complete_paces_iff 4 5 false 64
      [.connectEstablished, .send [1, 2] (.accepts 9), .runFunctor (.accepts 0),
        .send [3, 4, 5] (.accepts 1), .handleWrite (.accepts 2), .runFunctor (.accepts 0)]
      (by decide +kernel)).2
    have hrun : Lands ((pacedSys 4).runFrom (.new 5 false 64)
        [.connectEstablished, .send [1, 2] (.accepts 9), .runFunctor (.accepts 0),
          .send [3, 4, 5] (.accepts 1), .handleWrite (.accepts 2), .runFunctor (.accepts 0)])
        fun s => s.conn.state = .kConnected ∧ s.turn = true := by decide +kernel
    obtain ⟨s, hs, hconnected, hturn⟩ := hrun
    have hflow := hspec.1.mpr (by decide +kernel) _ List.prefix_rfl s hs
    exact ⟨s, hs, hturn, hflow hconnected, hspec.2 (by decide +kernel) s hs hconnected hturn⟩
  · intro hall
    exact absurd ((write_complete_paces_iff 4 5 false 64 _ (by decide +kernel)).2.1.mp hall)
      (by decide +kernel)

end Runs

end Muduo.Connection
