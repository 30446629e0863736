import Muduo.Connection.System

/-!
# The output of a connection as a byte stream

What a connection is asked to send and what its socket takes are two byte
strings; between them lies the output buffer. `Stream` says that nothing is
lost, duplicated or reordered on the way. Every operation keeps it except one:
`handleWrite` empties the buffer after any successful write, so a write that
takes some of the offered bytes and not all of them loses the rest.
`output_lossless_iff` is the exact statement.
-/

namespace Muduo.Connection

open Lib

/-- All bytes the socket has taken, in order. -/
def accepted : List Obs → List Byte
  | [] => []
  | .write taken :: t => accepted t ++ taken
  | _ :: t => accepted t

/-- All bytes given to `sendInLoop` while the connection was not down. -/
def passed : List Obs → List Byte
  | [] => []
  | .passed data :: t => passed t ++ data
  | _ :: t => passed t

/-- The socket's history followed by the buffered output is what was sent. -/
def Stream (c : Conn) : Prop :=
  accepted c.trace ++ c.outputBuffer.readable = passed c.trace

instance (c : Conn) : Decidable (Stream c) := inferInstanceAs (Decidable (_ = _))

/-- The write result an operation carries. -/
def Act.write? : Act → Option WriteResult
  | .next _ wr | .sendInLoop _ wr | .handleWrite wr | .send _ wr | .runFunctor wr => some wr
  | _ => none

/-- No write fails with `EPIPE` or `ECONNRESET`. -/
def NoReset (_ : Conn) (a : Act) : Prop :=
  a.write? ≠ some (.fails .EPIPE) ∧ a.write? ≠ some (.fails .ECONNRESET)

instance (c : Conn) (a : Act) : Decidable (NoReset c a) := inferInstanceAs (Decidable (_ ∧ _))

/-- The result of the write with which an operation drains the output buffer,
if it does. -/
def drain? (c : Conn) : Act → Option WriteResult
  | .handleWrite wr => if c.channel.isWriting = true then some wr else none
  | .next _ wr =>
      if c.todo.head? = some (.callback .write) ∧ c.channel.isWriting = true then some wr
      else none
  | _ => none

/-- A draining write takes nothing or everything. -/
def WholeDrain (c : Conn) (a : Act) : Prop :=
  match drain? c a with
  | some (.accepts limit) => limit = 0 ∨ c.outputBuffer.readable.length ≤ limit
  | _ => True

instance decidableWholeDrain (c : Conn) (a : Act) : Decidable (WholeDrain c a) :=
  match h : drain? c a with
  | some (.accepts limit) =>
      decidable_of_iff (limit = 0 ∨ c.outputBuffer.readable.length ≤ limit)
        (by simp [WholeDrain, h])
  | some (.fails _) => .isTrue (by simp [WholeDrain, h])
  | none => .isTrue (by simp [WholeDrain, h])

/-- The three strings of `Stream` are the same in both states. -/
structure SameStream (c c' : Conn) : Prop where
  accepted : accepted c'.trace = accepted c.trace
  passed : passed c'.trace = passed c.trace
  readable : c'.outputBuffer.readable = c.outputBuffer.readable

namespace SameStream

theorem refl (c : Conn) : SameStream c c := ⟨rfl, rfl, rfl⟩

theorem trans {c₁ c₂ c₃ : Conn} (h : SameStream c₁ c₂) (h' : SameStream c₂ c₃) :
    SameStream c₁ c₃ :=
  ⟨h'.accepted.trans h.accepted, h'.passed.trans h.passed, h'.readable.trans h.readable⟩

theorem stream_iff {c c' : Conn} (h : SameStream c c') : Stream c' ↔ Stream c := by
  unfold Stream
  rw [h.accepted, h.passed, h.readable]

end SameStream

/-! ## Operations that do not touch the stream -/

namespace Conn

theorem same_noticeWriteComplete (c : Conn) : SameStream c c.noticeWriteComplete := by
  unfold noticeWriteComplete
  split
  · exact ⟨rfl, rfl, rfl⟩
  · exact .refl c

theorem same_noticeHighWater (c : Conn) (more : Nat) :
    SameStream c (c.noticeHighWater more) := by
  unfold noticeHighWater
  dsimp only
  split
  · exact ⟨rfl, rfl, rfl⟩
  · exact .refl c

theorem same_shutdownInLoop (c : Conn) : SameStream c c.shutdownInLoop := by
  unfold shutdownInLoop
  dsimp only
  split
  · exact ⟨rfl, rfl, rfl⟩
  · exact ⟨rfl, rfl, rfl⟩

theorem same_shutdown (c : Conn) : SameStream c c.shutdown := by
  unfold shutdown
  split
  · have h : SameStream c ((c.setState .kDisconnecting).observe .shutdownCalled) :=
      ⟨rfl, rfl, rfl⟩
    exact h.trans (same_shutdownInLoop _)
  · exact .refl c

theorem same_outputDrained (c : Conn) : SameStream c c.outputDrained := by
  have h₁ : SameStream c (c.setChannel c.channel.disableWriting) := ⟨rfl, rfl, rfl⟩
  have h₂ := h₁.trans (same_noticeWriteComplete _)
  unfold outputDrained
  dsimp only
  split
  · exact h₂.trans (same_shutdownInLoop _)
  · exact h₂

theorem same_handleClose {c : Conn} : Post c.handleClose (SameStream c) := by
  unfold handleClose
  exact .check_bind fun _ => .ok ⟨rfl, rfl, rfl⟩

theorem same_handleRead {c : Conn} (r : ReadResult) : Post (c.handleRead r) (SameStream c) := by
  cases r with
  | bytes => exact .ok ⟨rfl, rfl, rfl⟩
  | eof => exact same_handleClose
  | fails e => exact .ok (.refl c)

theorem same_forceClose (c : Conn) : SameStream c c.forceClose := by
  rw [forceClose_eq]
  exact ⟨rfl, rfl, rfl⟩

theorem same_forceCloseWithDelay (c : Conn) : SameStream c c.forceCloseWithDelay := by
  unfold forceCloseWithDelay
  split <;> exact ⟨rfl, rfl, rfl⟩

theorem same_forceCloseInLoop {c : Conn} : Post c.forceCloseInLoop (SameStream c) := by
  unfold forceCloseInLoop
  split
  · exact same_handleClose
  · exact .ok (.refl c)

theorem same_startReadInLoop (c : Conn) : SameStream c c.startReadInLoop := by
  unfold startReadInLoop
  split <;> exact ⟨rfl, rfl, rfl⟩

theorem same_stopReadInLoop (c : Conn) : SameStream c c.stopReadInLoop := by
  unfold stopReadInLoop
  split <;> exact ⟨rfl, rfl, rfl⟩

theorem same_connectEstablished {c : Conn} : Post c.connectEstablished (SameStream c) := by
  unfold connectEstablished
  exact .check_bind fun _ => .ok ⟨rfl, rfl, rfl⟩

theorem same_threadSend (c : Conn) (message : List Byte) : SameStream c (c.threadSend message) := by
  unfold threadSend
  split <;> exact ⟨rfl, rfl, rfl⟩

theorem same_threadSendPush (c : Conn) (k : Nat) : SameStream c (c.threadSendPush k) := by
  unfold threadSendPush
  split <;> exact ⟨rfl, rfl, rfl⟩

theorem same_threadShutdown (c : Conn) : SameStream c c.threadShutdown := by
  unfold threadShutdown
  split <;> exact ⟨rfl, rfl, rfl⟩

/-! ## Operations that move bytes -/

/-- After the direct write the data is split: the first `nwrote` bytes are in
the socket, unless the connection is broken. -/
theorem tryWrite_stream (c : Conn) (data : List Byte) (wr : WriteResult) :
    accepted (c.tryWrite data wr).conn.trace =
        accepted c.trace ++ data.take (c.tryWrite data wr).nwrote ∧
      passed (c.tryWrite data wr).conn.trace = passed c.trace ∧
      (c.tryWrite data wr).conn.outputBuffer.readable = c.outputBuffer.readable ∧
      ((c.tryWrite data wr).nwrote ≠ 0 → c.outputBuffer.readable = []) ∧
      ((c.tryWrite data wr).faultError = true →
        wr = .fails .EPIPE ∨ wr = .fails .ECONNRESET) := by
  unfold tryWrite
  split
  · rename_i hidle
    have hempty : c.outputBuffer.readable = [] := by
      simpa using hidle.2
    cases wr with
    | accepts limit =>
        dsimp only
        have hsame : SameStream (c.observe (.write ((WriteResult.accepts limit).taken data)))
            (if data.length - min limit data.length = 0 then
              (c.observe (.write ((WriteResult.accepts limit).taken data))).noticeWriteComplete
            else c.observe (.write ((WriteResult.accepts limit).taken data))) := by
          split
          · exact same_noticeWriteComplete _
          · exact .refl _
        refine ⟨?_, hsame.passed, hsame.readable, fun _ => hempty, by simp⟩
        rw [hsame.accepted]
        show accepted c.trace ++ data.take limit = _
        rw [List.take_eq_take_min]
    | fails errno =>
        refine ⟨rfl, rfl, rfl, fun h => absurd rfl h, fun h => ?_⟩
        have herr := of_decide_eq_true h
        rcases herr.2 with rfl | rfl
        · exact .inl rfl
        · exact .inr rfl
  · exact ⟨by simp, rfl, rfl, fun h => absurd rfl h, by simp⟩

theorem bufferRest_stream (c : Conn) (rest : List Byte) :
    accepted (c.bufferRest rest).trace = accepted c.trace ∧
      passed (c.bufferRest rest).trace = passed c.trace ∧
      (c.bufferRest rest).outputBuffer.readable = c.outputBuffer.readable ++ rest := by
  have h := same_noticeHighWater c rest.length
  have hout : ((c.noticeHighWater rest.length).setOutput
      ((c.noticeHighWater rest.length).outputBuffer.append rest)).outputBuffer.readable =
        c.outputBuffer.readable ++ rest := by
    rw [← h.readable]
    exact Buffer.Valid.readable_append _ _
  unfold bufferRest
  dsimp only
  split
  · exact ⟨h.accepted, h.passed, hout⟩
  · exact ⟨h.accepted, h.passed, hout⟩

/-- `sendInLoop` splits its data between the socket and the buffer, in order. -/
theorem sendInLoop_stream {c : Conn} (h : Stream c) {data : List Byte} {wr : WriteResult}
    (hpipe : wr ≠ .fails .EPIPE) (hreset : wr ≠ .fails .ECONNRESET) :
    Post (c.sendInLoop data wr) Stream := by
  unfold sendInLoop
  split
  · exact .ok h
  · refine .check_bind fun _ => ?_
    obtain ⟨hacc, hpassed, hread, hempty, hfault⟩ :=
      tryWrite_stream (c.observe (.passed data)) data wr
    obtain ⟨hrem, hle⟩ := tryWrite_remaining (c.observe (.passed data)) data wr
    generalize (c.observe (.passed data)).tryWrite data wr = w at *
    have hnofault : w.faultError = false := by
      by_contra hf
      rcases hfault (by simpa using hf) with hw | hw
      · exact hpipe hw
      · exact hreset hw
    have hold : accepted c.trace ++ c.outputBuffer.readable = passed c.trace := h
    have hpassed' : passed w.conn.trace = passed c.trace ++ data := hpassed
    -- a direct write only happens with an empty buffer, so it cannot overtake
    have hsplit : accepted c.trace ++ data.take w.nwrote ++ c.outputBuffer.readable =
        passed c.trace ++ data.take w.nwrote := by
      by_cases hn : w.nwrote = 0
      · rw [hn, List.take_zero, List.append_nil, List.append_nil, hold]
      · have he : c.outputBuffer.readable = [] := hempty hn
        rw [← hold, he, List.append_nil, List.append_nil]
    split
    · obtain ⟨hacc', hpass', hread'⟩ :=
        bufferRest_stream w.conn ((data.drop w.nwrote).take w.remaining)
      refine .ok ?_
      have hrest : (data.drop w.nwrote).take w.remaining = data.drop w.nwrote := by
        apply List.take_of_length_le
        rw [List.length_drop]
        omega
      show accepted _ ++ _ = passed _
      rw [hacc', hpass', hread', hacc, hpassed', hread, hrest]
      show accepted c.trace ++ data.take w.nwrote ++
        (c.outputBuffer.readable ++ data.drop w.nwrote) = _
      rw [← List.append_assoc, hsplit, List.append_assoc, List.take_append_drop]
    · rename_i hdone
      refine .ok ?_
      have hall : data.take w.nwrote = data := by
        apply List.take_of_length_le
        by_contra hlt
        exact hdone ⟨hnofault, by omega⟩
      show accepted _ ++ _ = passed _
      rw [hacc, hpassed', hread]
      show accepted c.trace ++ data.take w.nwrote ++ c.outputBuffer.readable = _
      rw [hsplit, hall]

/-- `handleWrite` keeps the stream exactly when its write takes nothing or
everything. -/
theorem handleWrite_stream {c : Conn} (h : Stream c) (hw : c.channel.isWriting = true)
    (wr : WriteResult) :
    Stream (c.handleWrite wr) ↔
      match wr with
      | .accepts limit => limit = 0 ∨ c.outputBuffer.readable.length ≤ limit
      | .fails _ => True := by
  have hold : accepted c.trace ++ c.outputBuffer.readable = passed c.trace := h
  unfold handleWrite
  rw [if_pos hw]
  dsimp only
  have hempty : ((c.observe (.write (wr.taken c.outputBuffer.readable))).setOutput
      (c.observe (.write (wr.taken c.outputBuffer.readable))).outputBuffer.retrieveAll).outputBuffer.readableBytes
        = 0 := by
    simp [setOutput]
  rw [if_pos hempty]
  cases wr with
  | fails errno =>
      rw [if_neg (by simp [WriteResult.count])]
      refine iff_of_true ?_ trivial
      show accepted c.trace ++ [] ++ c.outputBuffer.readable = passed c.trace
      rw [List.append_nil, hold]
  | accepts limit =>
      by_cases hpos : 0 < (WriteResult.accepts limit).count c.outputBuffer.readable.length
      · -- the buffer is emptied, so the socket must have taken all of it
        rw [if_pos hpos, (same_outputDrained _).stream_iff]
        have hpos' : 0 < min limit c.outputBuffer.readable.length := by
          simpa [WriteResult.count] using hpos
        show accepted c.trace ++ c.outputBuffer.readable.take limit ++
            c.outputBuffer.retrieveAll.readable = passed c.trace ↔ _
        rw [Buffer.Valid.readable_retrieveAll, List.append_nil, ← hold,
          List.append_right_inj, List.take_eq_self_iff]
        omega
      · -- nothing was taken, and the buffer is left alone
        rw [if_neg hpos]
        have hzero : limit = 0 ∨ c.outputBuffer.readable = [] := by
          have : ¬ 0 < min limit c.outputBuffer.readable.length := by
            simpa [WriteResult.count] using hpos
          rcases Nat.eq_zero_or_pos limit with hl | hl
          · exact .inl hl
          · exact .inr (List.length_eq_zero_iff.mp (by omega))
        refine iff_of_true ?_ ?_
        · show accepted c.trace ++ c.outputBuffer.readable.take limit ++
            c.outputBuffer.readable = passed c.trace
          have hnone : c.outputBuffer.readable.take limit = [] := by
            rcases hzero with hl | hl
            · rw [hl, List.take_zero]
            · rw [hl, List.take_nil]
          rw [hnone, List.append_nil, hold]
        · rcases hzero with hl | hl
          · exact .inl hl
          · exact .inr (by simp [hl])

end Conn

/-! ## Steps and runs -/

private theorem wholeDrain_of_none {c : Conn} {a : Act} (h : drain? c a = none) :
    WholeDrain c a := by
  unfold WholeDrain
  rw [h]
  trivial

private theorem keeps_of_same {c : Conn} (h : Stream c) {a : Act} (hd : drain? c a = none)
    {x : Except Assert Conn} (hx : Post x (SameStream c)) :
    Post x fun c' => (Stream c' ↔ WholeDrain c a) :=
  hx.mono fun _ hs => iff_of_true (hs.stream_iff.mpr h) (wholeDrain_of_none hd)

private theorem keeps_of_stream {c : Conn} {a : Act} (hd : drain? c a = none)
    {x : Except Assert Conn} (hx : Post x Stream) :
    Post x fun c' => (Stream c' ↔ WholeDrain c a) :=
  hx.mono fun _ hs => iff_of_true hs (wholeDrain_of_none hd)

/-- The write event, whether it comes from a dispatch or directly. -/
private theorem handleWrite_step {c c₀ : Conn} (hsame : SameStream c₀ c)
    (hch : c.channel = c₀.channel) (h : Stream c₀) (wr : WriteResult) {a : Act}
    (hd : drain? c₀ a = if c₀.channel.isWriting = true then some wr else none) :
    Stream (c.handleWrite wr) ↔ WholeDrain c₀ a := by
  have hc : Stream c := hsame.stream_iff.mpr h
  by_cases hw : c₀.channel.isWriting = true
  · rw [Conn.handleWrite_stream hc (by rw [hch]; exact hw), hsame.readable]
    unfold WholeDrain
    rw [hd, if_pos hw]
    cases wr <;> rfl
  · have hoff : c.channel.isWriting = false := by rw [hch]; simpa using hw
    rw [Conn.handleWrite_of_not_writing hoff]
    exact iff_of_true hc (wholeDrain_of_none (by rw [hd, if_neg hw]))

/-- One operation keeps the stream exactly when it does not drain in part. -/
theorem exec_stream_iff (c : Conn) (a : Act) (h : Stream c) (hno : NoReset c a) :
    Post (exec c a) fun c' => (Stream c' ↔ WholeDrain c a) := by
  have hwr : ∀ wr, a.write? = some wr → wr ≠ .fails .EPIPE ∧ wr ≠ .fails .ECONNRESET := by
    intro wr hwr
    rw [NoReset, hwr] at hno
    exact ⟨fun e => hno.1 (by rw [e]), fun e => hno.2 (by rw [e])⟩
  cases a with
  | connectEstablished => exact keeps_of_same h rfl Conn.same_connectEstablished
  | poll revents => exact keeps_of_same h rfl (.ok ⟨rfl, rfl, rfl⟩)
  | next r wr =>
      simp only [exec]
      cases htodo : c.todo with
      | nil => exact keeps_of_same h (by simp [drain?, htodo]) (.ok (.refl c))
      | cons t rest =>
          dsimp only
          have hsame : SameStream c { c with todo := rest } := ⟨rfl, rfl, rfl⟩
          cases t with
          | closeCallback =>
              exact keeps_of_same h (by simp [drain?, htodo]) (.ok ⟨rfl, rfl, rfl⟩)
          | callback cb =>
              cases cb with
              | close =>
                  exact keeps_of_same h (by simp [drain?, htodo])
                    (Conn.same_handleClose.mono fun _ hs => hsame.trans hs)
              | error => exact keeps_of_same h (by simp [drain?, htodo]) (.ok hsame)
              | read =>
                  exact keeps_of_same h (by simp [drain?, htodo])
                    ((Conn.same_handleRead r).mono fun _ hs => hsame.trans hs)
              | write =>
                  exact .ok (handleWrite_step hsame rfl h wr (by simp [drain?, htodo]))
  | sendInLoop data wr =>
      obtain ⟨hp, hr⟩ := hwr wr rfl
      exact keeps_of_stream rfl (Conn.sendInLoop_stream h hp hr)
  | handleWrite wr => exact .ok (handleWrite_step (.refl c) rfl h wr rfl)
  | send message wr =>
      obtain ⟨hp, hr⟩ := hwr wr rfl
      simp only [exec, Conn.send]
      split
      · exact keeps_of_stream rfl (Conn.sendInLoop_stream h hp hr)
      · exact keeps_of_stream rfl (.ok h)
  | shutdown => exact keeps_of_same h rfl (.ok (Conn.same_shutdown c))
  | forceClose => exact keeps_of_same h rfl (.ok (Conn.same_forceClose c))
  | forceCloseWithDelay => exact keeps_of_same h rfl (.ok (Conn.same_forceCloseWithDelay c))
  | startRead => exact keeps_of_same h rfl (.ok (Conn.same_startReadInLoop c))
  | stopRead => exact keeps_of_same h rfl (.ok (Conn.same_stopReadInLoop c))
  | runFunctor wr =>
      obtain ⟨hp, hr⟩ := hwr wr rfl
      simp only [exec]
      cases hpend : c.pending with
      | nil => exact keeps_of_same h rfl (.ok (.refl c))
      | cons f rest =>
          dsimp only
          have hsame : SameStream c { c with pending := rest } := ⟨rfl, rfl, rfl⟩
          cases f with
          | sendInLoop id message =>
              have hs : Stream ({ c with pending := rest }.observe (.sendExecuted id)) := h
              exact keeps_of_stream rfl (Conn.sendInLoop_stream hs hp hr)
          | shutdownInLoop =>
              exact keeps_of_same h rfl (.ok (hsame.trans (Conn.same_shutdownInLoop _)))
          | forceCloseInLoop =>
              exact keeps_of_same h rfl
                (Conn.same_forceCloseInLoop.mono fun _ hs => hsame.trans hs)
          | startReadInLoop =>
              exact keeps_of_same h rfl (.ok (hsame.trans (Conn.same_startReadInLoop _)))
          | stopReadInLoop =>
              exact keeps_of_same h rfl (.ok (hsame.trans (Conn.same_stopReadInLoop _)))
          | writeComplete => exact keeps_of_same h rfl (.ok hsame)
          | highWaterMark len => exact keeps_of_same h rfl (.ok hsame)
  | timer =>
      have hsame : SameStream c { c with timers := c.timers - 1 } := ⟨rfl, rfl, rfl⟩
      exact keeps_of_same h rfl (.ok (hsame.trans (Conn.same_forceClose _)))
  | threadSend message => exact keeps_of_same h rfl (.ok (Conn.same_threadSend c message))
  | threadSendPush k => exact keeps_of_same h rfl (.ok (Conn.same_threadSendPush c k))
  | threadShutdown => exact keeps_of_same h rfl (.ok (Conn.same_threadShutdown c))
  | threadShutdownPush => exact keeps_of_same h rfl (.ok ⟨rfl, rfl, rfl⟩)
  | threadStartRead => exact keeps_of_same h rfl (.ok ⟨rfl, rfl, rfl⟩)
  | threadStopRead => exact keeps_of_same h rfl (.ok ⟨rfl, rfl, rfl⟩)

/-- A draining step is never stopped by an assertion. -/
theorem wholeDrain_of_error {c : Conn} {a : Act} {e : Assert} (h : exec c a = .error e) :
    WholeDrain c a := by
  cases a with
  | handleWrite wr => exact absurd h (by simp [exec])
  | next r wr =>
      refine wholeDrain_of_none (if_neg ?_)
      rintro ⟨hhead, -⟩
      cases htodo : c.todo with
      | nil => rw [htodo] at hhead; exact absurd hhead (by simp)
      | cons t rest =>
          rw [htodo] at hhead
          obtain rfl : t = .callback .write := by simpa using hhead
          simp [exec, htodo, Conn.runTodo] at h
  | _ => exact wholeDrain_of_none rfl

/-- **Lossless output, exactly.** In a run of a connection in which no write
fails with `EPIPE` or `ECONNRESET`, the bytes the socket has taken followed by
the buffered output equal what was passed to `sendInLoop` at every point of the
run if and only if every draining write took nothing or everything. -/
theorem output_lossless_iff (sockfd : Int) (writeComplete highWater : Bool) (mark : Nat)
    (acts : List Act)
    (hlegal : connSys.Legal (Conn.new sockfd writeComplete highWater mark) acts)
    (hno : connSys.Meets NoReset (Conn.new sockfd writeComplete highWater mark) acts) :
    (∀ p, p <+: acts →
      Post (connSys.runFrom (Conn.new sockfd writeComplete highWater mark) p) Stream) ↔
    connSys.Meets WholeDrain (Conn.new sockfd writeComplete highWater mark) acts := by
  have hinit : Stream (Conn.new sockfd writeComplete highWater mark) := by
    show [] ++ (Buffer.Valid.fresh Buffer.kInitialSize).readable = []
    rw [Buffer.Valid.readable_fresh, List.append_nil]
  -- exact at each step, hence exact over the run
  refine Sys.always_iff_meets (S := connSys) ?_ ?_ hinit (Sys.meets_and.mpr ⟨hlegal, hno⟩)
  · intro c a h hok
    exact exec_stream_iff c a h hok.2
  · intro c a e _ _ herr
    exact wholeDrain_of_error herr

/-- Three bytes are buffered because the socket is full; a write event then
takes one of them, and the other two are gone. -/
theorem short_drain_loses_bytes :
    connSys.Legal (Conn.new 5 false false 64)
        [.sendInLoop [1, 2, 3] (.fails .EWOULDBLOCK), .handleWrite (.accepts 1)] ∧
      connSys.Meets NoReset (Conn.new 5 false false 64)
        [.sendInLoop [1, 2, 3] (.fails .EWOULDBLOCK), .handleWrite (.accepts 1)] ∧
      ¬ Post (connSys.runFrom (Conn.new 5 false false 64)
        [.sendInLoop [1, 2, 3] (.fails .EWOULDBLOCK), .handleWrite (.accepts 1)]) Stream := by
  decide +kernel

/-- A run that is drained in two whole writes, the first of them refused. -/
theorem output_lossless_iff_refused_then_whole :
    connSys.Meets WholeDrain (Conn.new 5 true true 2)
        [.connectEstablished, .send [1, 2, 3] (.accepts 1), .sendInLoop [4] (.accepts 9),
          .handleWrite (.fails .EWOULDBLOCK), .handleWrite (.accepts 7)] ∧
      ∀ p, p <+: [.connectEstablished, .send [1, 2, 3] (.accepts 1), .sendInLoop [4] (.accepts 9),
          .handleWrite (.fails .EWOULDBLOCK), .handleWrite (.accepts 7)] →
        Post (connSys.runFrom (Conn.new 5 true true 2) p) Stream := by
  have hwhole : connSys.Meets WholeDrain (Conn.new 5 true true 2)
      [.connectEstablished, .send [1, 2, 3] (.accepts 1), .sendInLoop [4] (.accepts 9),
        .handleWrite (.fails .EWOULDBLOCK), .handleWrite (.accepts 7)] := by
    decide +kernel
  refine ⟨hwhole, (output_lossless_iff 5 true true 2 _ ?_ ?_).mpr hwhole⟩
  · decide +kernel
  · decide +kernel

end Muduo.Connection
