import Muduo.Connection.System

/-!
# The high-water mark

The high-water-mark callback is queued by the append that carries the output
buffer across the mark, and by nothing else; only `handleWrite` brings the buffer
below the mark again. So the callbacks queued and the falls below the mark
alternate (`Crosses`), along every run of everything that can reach a connection.
-/

namespace Muduo.Connection

open Lib

/-- The lengths that the high-water-mark callbacks were queued with, in order. -/
def highWaters : List Obs → List Nat
  | [] => []
  | .highWater len :: t => highWaters t ++ [len]
  | _ :: t => highWaters t

/-- `M_outputBuffer.readableBytes()`. -/
def Conn.buffered (c : Conn) : Nat := c.outputBuffer.readableBytes

/-- How often along a run the buffered length falls from at least `mark` to below
it. -/
def falls (mark : Nat) : Conn → List Act → Nat
  | _, [] => 0
  | c, a :: as =>
      match exec c a with
      | .ok c' => (if mark ≤ c.buffered ∧ c'.buffered < mark then 1 else 0) + falls mark c' as
      | .error _ => 0

/-- The callbacks queued between two states are those of the append that crossed
the mark, if there was one, and carry the length after it. -/
structure Crosses (c c' : Conn) : Prop where
  mark : c'.highWaterMark = c.highWaterMark
  callback : c'.highWaterMarkCallback = c.highWaterMarkCallback
  queued : c.highWaterMarkCallback = true → highWaters c'.trace = highWaters c.trace ++
    if c.buffered < c.highWaterMark ∧ c.highWaterMark ≤ c'.buffered then [c'.buffered] else []

/-- The output buffer and what is queued for the mark are left alone. -/
structure Level (c c' : Conn) : Prop where
  mark : c'.highWaterMark = c.highWaterMark
  callback : c'.highWaterMarkCallback = c.highWaterMarkCallback
  output : c'.outputBuffer = c.outputBuffer
  queued : highWaters c'.trace = highWaters c.trace

namespace Level

theorem refl (c : Conn) : Level c c := ⟨rfl, rfl, rfl, rfl⟩

theorem trans {c₁ c₂ c₃ : Conn} (h : Level c₁ c₂) (h' : Level c₂ c₃) : Level c₁ c₃ :=
  ⟨h'.mark.trans h.mark, h'.callback.trans h.callback, h'.output.trans h.output,
    h'.queued.trans h.queued⟩

theorem buffered {c c' : Conn} (h : Level c c') : c'.buffered = c.buffered := by
  unfold Conn.buffered
  rw [h.output]

theorem crosses {c c' : Conn} (h : Level c c') : Crosses c c' := by
  refine ⟨h.mark, h.callback, fun _ => ?_⟩
  have hno : ¬ (c.buffered < c.highWaterMark ∧ c.highWaterMark ≤ c'.buffered) := by
    rw [h.buffered]
    omega
  rw [if_neg hno, List.append_nil, h.queued]

end Level

/-- What happens before and after the crossing does not count. -/
theorem Crosses.between {c₁ c₂ c₃ c₄ : Conn} (h₁ : Level c₁ c₂) (h : Crosses c₂ c₃)
    (h₂ : Level c₃ c₄) : Crosses c₁ c₄ := by
  refine ⟨h₂.mark.trans (h.mark.trans h₁.mark), h₂.callback.trans (h.callback.trans h₁.callback),
    fun hset => ?_⟩
  rw [h₂.queued, h.queued (by rw [h₁.callback]; exact hset), h₁.queued, h₁.mark, h₁.buffered,
    h₂.buffered]

namespace Conn

/-! ## Operations that leave the buffer alone -/

theorem level_noticeWriteComplete (c : Conn) : Level c c.noticeWriteComplete := by
  unfold noticeWriteComplete
  split
  · exact ⟨rfl, rfl, rfl, rfl⟩
  · exact .refl c

theorem level_shutdownInLoop (c : Conn) : Level c c.shutdownInLoop := by
  unfold shutdownInLoop
  dsimp only
  split
  · exact ⟨rfl, rfl, rfl, rfl⟩
  · exact ⟨rfl, rfl, rfl, rfl⟩

theorem level_outputDrained (c : Conn) : Level c c.outputDrained := by
  have h₁ : Level c (c.setChannel c.channel.disableWriting) := ⟨rfl, rfl, rfl, rfl⟩
  have h₂ := h₁.trans (level_noticeWriteComplete _)
  unfold outputDrained
  dsimp only
  split
  · exact h₂.trans (level_shutdownInLoop _)
  · exact h₂

theorem level_tryWrite (c : Conn) (data : List Byte) (wr : WriteResult) :
    Level c (c.tryWrite data wr).conn := by
  have h₁ : Level c (c.observe (.write (wr.taken data))) := ⟨rfl, rfl, rfl, rfl⟩
  unfold tryWrite
  split
  · cases wr with
    | accepts limit =>
        dsimp only
        split
        · exact h₁.trans (level_noticeWriteComplete _)
        · exact h₁
    | fails errno => exact h₁
  · exact .refl c

theorem level_shutdown (c : Conn) : Level c c.shutdown := by
  unfold shutdown
  split
  · have h : Level c ((c.setState .kDisconnecting).observe .shutdownCalled) :=
      ⟨rfl, rfl, rfl, rfl⟩
    exact h.trans (level_shutdownInLoop _)
  · exact .refl c

theorem level_handleClose {c : Conn} : Post c.handleClose (Level c) := by
  unfold handleClose
  exact .check_bind fun _ => .ok ⟨rfl, rfl, rfl, rfl⟩

theorem level_handleRead {c : Conn} (r : ReadResult) : Post (c.handleRead r) (Level c) := by
  cases r with
  | bytes => exact .ok ⟨rfl, rfl, rfl, rfl⟩
  | eof => exact level_handleClose
  | fails e => exact .ok (.refl c)

theorem level_forceClose (c : Conn) : Level c c.forceClose := by
  rw [forceClose_eq]
  exact ⟨rfl, rfl, rfl, rfl⟩

theorem level_forceCloseWithDelay (c : Conn) : Level c c.forceCloseWithDelay := by
  unfold forceCloseWithDelay
  split <;> exact ⟨rfl, rfl, rfl, rfl⟩

theorem level_forceCloseInLoop {c : Conn} : Post c.forceCloseInLoop (Level c) := by
  unfold forceCloseInLoop
  split
  · exact level_handleClose
  · exact .ok (.refl c)

theorem level_startReadInLoop (c : Conn) : Level c c.startReadInLoop := by
  unfold startReadInLoop
  split <;> exact ⟨rfl, rfl, rfl, rfl⟩

theorem level_stopReadInLoop (c : Conn) : Level c c.stopReadInLoop := by
  unfold stopReadInLoop
  split <;> exact ⟨rfl, rfl, rfl, rfl⟩

theorem level_connectEstablished {c : Conn} : Post c.connectEstablished (Level c) := by
  unfold connectEstablished
  exact .check_bind fun _ => .ok ⟨rfl, rfl, rfl, rfl⟩

theorem level_threadSend (c : Conn) (message : List Byte) : Level c (c.threadSend message) := by
  unfold threadSend
  split <;> exact ⟨rfl, rfl, rfl, rfl⟩

theorem level_threadSendPush (c : Conn) (k : Nat) : Level c (c.threadSendPush k) := by
  unfold threadSendPush
  split <;> exact ⟨rfl, rfl, rfl, rfl⟩

theorem level_threadShutdown (c : Conn) : Level c c.threadShutdown := by
  unfold threadShutdown
  split <;> exact ⟨rfl, rfl, rfl, rfl⟩

/-! ## Operations that fill and empty the buffer -/

/-- The append that `sendInLoop` ends with: the test before it compares the
length it will have with the mark. -/
theorem crosses_bufferRest (c : Conn) (rest : List Byte) : Crosses c (c.bufferRest rest) := by
  let c₁ := c.noticeHighWater rest.length
  let c₂ := c₁.setOutput (c₁.outputBuffer.append rest)
  have houtput : c₁.outputBuffer = c.outputBuffer := by
    show (c.noticeHighWater rest.length).outputBuffer = c.outputBuffer
    unfold noticeHighWater
    dsimp only
    split
    · rfl
    · rfl
  have hlength : c₂.buffered = c.buffered + rest.length := by
    show (c₁.outputBuffer.append rest).readableBytes = c.outputBuffer.readableBytes + rest.length
    simp [houtput]
  have hcrosses : Crosses c c₂ := by
    refine ⟨?_, ?_, fun hset => ?_⟩
    · show (c.noticeHighWater rest.length).highWaterMark = c.highWaterMark
      unfold noticeHighWater
      dsimp only
      split <;> rfl
    · show (c.noticeHighWater rest.length).highWaterMarkCallback = c.highWaterMarkCallback
      unfold noticeHighWater
      dsimp only
      split <;> rfl
    · rw [hlength]
      show highWaters (c.noticeHighWater rest.length).trace = _
      unfold noticeHighWater
      by_cases hcross : c.buffered < c.highWaterMark ∧ c.highWaterMark ≤ c.buffered + rest.length
      · rw [if_pos hcross, if_pos ⟨hcross.2, hcross.1, hset⟩]
        rfl
      · rw [if_neg hcross, List.append_nil, if_neg]
        exact fun hall => hcross ⟨hall.2.1, hall.1⟩
  have hlevel : Level c₂ (c.bufferRest rest) := by
    show Level c₂ (if c₂.channel.isWriting = false then c₂.setChannel c₂.channel.enableWriting
      else c₂)
    split
    · exact ⟨rfl, rfl, rfl, rfl⟩
    · exact .refl _
  exact .between (.refl c) hcrosses hlevel

theorem crosses_sendInLoop {c : Conn} {data : List Byte} {wr : WriteResult} :
    Post (c.sendInLoop data wr) (Crosses c) := by
  unfold sendInLoop
  split
  · exact .ok (Level.refl c).crosses
  · refine .check_bind fun _ => ?_
    have h₁ : Level c (c.observe (.passed data)) := ⟨rfl, rfl, rfl, rfl⟩
    have hw := h₁.trans (level_tryWrite _ data wr)
    split
    · exact .ok (.between hw (crosses_bufferRest _ _) (.refl _))
    · exact .ok hw.crosses

/-- `handleWrite` only ever shortens the buffer. -/
theorem crosses_handleWrite (c : Conn) (wr : WriteResult) : Crosses c (c.handleWrite wr) := by
  let c₁ := c.observe (.write (wr.taken c.outputBuffer.readable))
  have hlevel : Level c c₁ := ⟨rfl, rfl, rfl, rfl⟩
  have hdrop : Crosses c₁ (c₁.setOutput c₁.outputBuffer.retrieveAll) := by
    refine ⟨rfl, rfl, fun _ => ?_⟩
    have hempty : (c₁.setOutput c₁.outputBuffer.retrieveAll).buffered = 0 := by
      show c₁.outputBuffer.retrieveAll.readableBytes = 0
      simp
    rw [if_neg (by omega), List.append_nil]
    rfl
  unfold handleWrite
  split
  · dsimp only
    split
    · split
      · exact .between hlevel hdrop (level_outputDrained _)
      · exact .between hlevel hdrop (.refl _)
    · exact hlevel.crosses
  · exact (Level.refl c).crosses

theorem crosses_runTodo {c : Conn} (r : ReadResult) (wr : WriteResult) (t : Todo) :
    Post (c.runTodo r wr t) (Crosses c) := by
  cases t with
  | closeCallback => exact .ok (Level.crosses ⟨rfl, rfl, rfl, rfl⟩)
  | callback cb =>
      cases cb with
      | close => exact level_handleClose.mono fun _ h => h.crosses
      | error => exact .ok (Level.refl c).crosses
      | read => exact (level_handleRead r).mono fun _ h => h.crosses
      | write => exact .ok (crosses_handleWrite c wr)

theorem crosses_runFunctor {c : Conn} (wr : WriteResult) (f : Functor) :
    Post (c.runFunctor wr f) (Crosses c) := by
  cases f with
  | sendInLoop id message =>
      have h : Level c (c.observe (.sendExecuted id)) := ⟨rfl, rfl, rfl, rfl⟩
      exact crosses_sendInLoop.mono fun _ h' => .between h h' (.refl _)
  | shutdownInLoop => exact .ok (level_shutdownInLoop c).crosses
  | forceCloseInLoop => exact level_forceCloseInLoop.mono fun _ h => h.crosses
  | startReadInLoop => exact .ok (level_startReadInLoop c).crosses
  | stopReadInLoop => exact .ok (level_stopReadInLoop c).crosses
  | writeComplete => exact .ok (Level.refl c).crosses
  | highWaterMark len => exact .ok (Level.refl c).crosses

end Conn

theorem exec_crosses (c : Conn) (a : Act) : Post (exec c a) (Crosses c) := by
  cases a with
  | connectEstablished => exact Conn.level_connectEstablished.mono fun _ h => h.crosses
  | poll revents => exact .ok (Level.crosses ⟨rfl, rfl, rfl, rfl⟩)
  | next r wr =>
      simp only [exec]
      split
      · rename_i t rest htodo
        have h : Level c { c with todo := rest } := ⟨rfl, rfl, rfl, rfl⟩
        exact (Conn.crosses_runTodo r wr t).mono fun _ h' => .between h h' (.refl _)
      · exact .ok (Level.refl c).crosses
  | sendInLoop data wr => exact Conn.crosses_sendInLoop
  | handleWrite wr => exact .ok (Conn.crosses_handleWrite c wr)
  | send message wr =>
      simp only [exec, Conn.send]
      split
      · exact Conn.crosses_sendInLoop
      · exact .ok (Level.refl c).crosses
  | shutdown => exact .ok (Conn.level_shutdown c).crosses
  | forceClose => exact .ok (Conn.level_forceClose c).crosses
  | forceCloseWithDelay => exact .ok (Conn.level_forceCloseWithDelay c).crosses
  | startRead => exact .ok (Conn.level_startReadInLoop c).crosses
  | stopRead => exact .ok (Conn.level_stopReadInLoop c).crosses
  | runFunctor wr =>
      simp only [exec]
      split
      · rename_i f rest hpending
        have h : Level c { c with pending := rest } := ⟨rfl, rfl, rfl, rfl⟩
        exact (Conn.crosses_runFunctor wr f).mono fun _ h' => .between h h' (.refl _)
      · exact .ok (Level.refl c).crosses
  | timer =>
      have h : Level c { c with timers := c.timers - 1 } := ⟨rfl, rfl, rfl, rfl⟩
      exact .ok (h.trans (Conn.level_forceClose _)).crosses
  | threadSend message => exact .ok (Conn.level_threadSend c message).crosses
  | threadSendPush k => exact .ok (Conn.level_threadSendPush c k).crosses
  | threadShutdown => exact .ok (Conn.level_threadShutdown c).crosses
  | threadShutdownPush => exact .ok (Level.crosses ⟨rfl, rfl, rfl, rfl⟩)
  | threadStartRead => exact .ok (Level.crosses ⟨rfl, rfl, rfl, rfl⟩)
  | threadStopRead => exact .ok (Level.crosses ⟨rfl, rfl, rfl, rfl⟩)

/-! ## Runs -/

/-- 1 while the buffer is at the mark or above it. -/
def Conn.above (c : Conn) : Nat := if c.highWaterMark ≤ c.buffered then 1 else 0

/-- Callbacks queued and falls balance against where a run starts and ends. -/
theorem run_balance {c : Conn} (hset : c.highWaterMarkCallback = true) (acts : List Act) :
    Post (connSys.runFrom c acts) fun c' => c'.highWaterMark = c.highWaterMark ∧
      (highWaters c'.trace).length + c.above =
        (highWaters c.trace).length + falls c.highWaterMark c acts + c'.above := by
  induction acts generalizing c with
  | nil => exact .ok ⟨rfl, rfl⟩
  | cons a as ih =>
      rw [Sys.runFrom_cons]
      intro c'' hrun
      obtain ⟨c', hexec, hrun'⟩ := bind_eq_ok hrun
      have hstep : Crosses c c' := exec_crosses c a c' hexec
      obtain ⟨hmark, hrest⟩ := ih (by rw [hstep.callback]; exact hset) c'' hrun'
      have hfalls : falls c.highWaterMark c (a :: as) =
          (if c.highWaterMark ≤ c.buffered ∧ c'.buffered < c.highWaterMark then 1 else 0) +
            falls c.highWaterMark c' as := by
        rw [falls, show exec c a = .ok c' from hexec]
      have hqueued := congrArg List.length (hstep.queued hset)
      rw [List.length_append] at hqueued
      rw [hstep.mark] at hrest hmark
      refine ⟨hmark, ?_⟩
      rw [hfalls]
      -- one step goes up, goes down, or stays on its side of the mark
      unfold Conn.above at hrest ⊢
      rw [hstep.mark] at hrest
      rcases Nat.lt_or_ge c.buffered c.highWaterMark with hold | hold
      · rcases Nat.lt_or_ge c'.buffered c.highWaterMark with hnew | hnew
        · rw [if_neg (by omega), List.length_nil] at hqueued
          rw [if_neg (by omega)] at hrest
          rw [if_neg (by omega), if_neg (by omega)]
          omega
        · rw [if_pos ⟨hold, hnew⟩, List.length_singleton] at hqueued
          rw [if_pos hnew] at hrest
          rw [if_neg (by omega), if_neg (by omega)]
          omega
      · rw [if_neg (by omega), List.length_nil] at hqueued
        rcases Nat.lt_or_ge c'.buffered c.highWaterMark with hnew | hnew
        · rw [if_neg (by omega)] at hrest
          rw [if_pos hold, if_pos ⟨hold, hnew⟩]
          omega
        · rw [if_pos hnew] at hrest
          rw [if_pos hold, if_neg (by omega)]
          omega

end Muduo.Connection
