import Muduo.Buffer.Queue
import Muduo.Buffer.ReadFd
import Muduo.Connection.Interest
import Muduo.Connection.Stream

/-!
# Two connections and the streams between them

A `Link` is the two ends of a TCP connection, each a `TcpConnection` with its input buffer.
What one end has written is the stream the other end reads: `readv` hands over bytes that
were written and have not been read yet, in order, and 0 only when there are none left and
the writing side is closed. The user takes bytes from the input buffer by the retrieving
calls of `Buffer`.

The input side loses nothing, whatever the runs of the two connections are:
`input_lossless`.
-/

namespace Muduo.Buffer

/-- The call removes bytes from the front, or none. -/
def Call.takes : Call → Bool
  | .append _ | .unwrite _ | .prepend _ => false
  | _ => true

/-- The number of bytes it removes. -/
def Call.taken (q : List Byte) : Call → Nat
  | .retrieve len | .retrieveAsString len => len
  | .retrieveUntil off => off.toNat
  | .retrieveAll => q.length
  | _ => 0

theorem Call.onQueue_of_takes {c : Call} (h : c.takes = true) (q : List Byte) :
    c.onQueue q = q.drop (c.taken q) := by
  cases c with
  | append data | unwrite len | prepend data => exact absurd h (by simp [takes])
  | retrieve len | retrieveUntil off | retrieveAsString len => rfl
  | retrieveAll => exact (List.drop_length).symm
  | ensureWritableBytes len | shrink reserve => exact (List.drop_zero).symm

end Muduo.Buffer

namespace Muduo.Connection

open Lib Buffer

inductive Fault
  | conn (e : Assert)
  | buffer (e : Buffer.Assert)
  deriving DecidableEq, Repr

/-- One end of the stream. -/
structure Endpoint where
  conn : Conn
  /-- `M_inputBuffer`. -/
  inputBuffer : Buffer
  /-- The bytes that the user has taken from the input buffer; no function reads it. -/
  retrieved : List Byte
  /-- How many bytes `readv` has returned; no function of the program reads it. -/
  received : Nat

/-- What a connection is made with. -/
structure Config where
  sockfd : Int
  writeCompleteCallback : Bool
  highWaterMarkCallback : Bool
  highWaterMark : Nat

/-- A connection that has been established. -/
def Config.conn (cfg : Config) : Conn :=
  let c := Conn.new cfg.sockfd cfg.writeCompleteCallback cfg.highWaterMarkCallback cfg.highWaterMark
  ((c.setState .kConnected).setChannel c.channel.tie.enableReading).observe .connectionUp

def Endpoint.new (cfg : Config) : Endpoint where
  conn := cfg.conn
  inputBuffer := (Buffer.Valid.fresh kInitialSize).raw
  retrieved := []
  received := 0

/-- The array on the stack of `readFd`, before it is written. -/
abbrev ExtraBuf := { extrabuf : List Byte // extrabuf.length = extrabufSize }

inductive EndAct
  /-- Anything that happens to the connection, but the read callback. -/
  | conn (a : Act)
  /-- The read callback runs. -/
  | read (extrabuf : ExtraBuf) (r : Readv)
  /-- The user calls its input buffer. -/
  | call (c : Buffer.Call)
  deriving DecidableEq, Repr

/-- The branch of `handleRead` that the return value of `readFd` selects. -/
def ReadFd.result (out : ReadFd) : ReadResult :=
  if 0 < out.n then .bytes else if out.n = 0 then .eof else .fails out.savedErrno

namespace Endpoint

/-- The next callback of the dispatch is the read callback. -/
def Reads (e : Endpoint) : Prop := e.conn.todo.head? = some (.callback .read)

instance (e : Endpoint) : Decidable e.Reads := inferInstanceAs (Decidable (_ = _))

/-- `handleRead`: `readFd`, and what `handleRead` does with its result. -/
def read (e : Endpoint) (extrabuf : ExtraBuf) (r : Readv) : Except Fault Endpoint := do
  let out ← (e.inputBuffer.readFd extrabuf.val (.other 0) r).mapError .buffer
  -- the read callback makes no write: the second result is not looked at
  let conn ← (Connection.exec e.conn (.next (ReadFd.result out) (.accepts 0))).mapError .conn
  return { e with
    conn := conn, inputBuffer := out.buffer, received := e.received + out.n.toNat }

def call (e : Endpoint) (c : Buffer.Call) : Except Fault Endpoint := do
  let inputBuffer ← (c.exec e.inputBuffer).mapError .buffer
  return { e with
    inputBuffer := inputBuffer
    retrieved := e.retrieved ++ e.inputBuffer.readable.take (c.taken e.inputBuffer.readable) }

def exec (e : Endpoint) : EndAct → Except Fault Endpoint
  | .conn a => do
      let conn ← (Connection.exec e.conn a).mapError .conn
      return { e with conn := conn }
  | .read extrabuf r => e.read extrabuf r
  | .call c => e.call c

end Endpoint

/-- The two ends. -/
structure Link where
  left : Endpoint
  right : Endpoint

inductive Side
  | left
  | right
  deriving DecidableEq, Repr

def Side.peer : Side → Side
  | .left => .right
  | .right => .left

namespace Link

def new (left right : Config) : Link := ⟨.new left, .new right⟩

def get (l : Link) : Side → Endpoint
  | .left => l.left
  | .right => l.right

def set (l : Link) (e : Endpoint) : Side → Link
  | .left => { l with left := e }
  | .right => { l with right := e }

/-- The bytes on their way to `s`: its peer has written them, and `s` has not read them. -/
def inFlight (l : Link) (s : Side) : List Byte :=
  (accepted (l.get s.peer).conn.trace).drop (l.get s).received

/-- The writing side that `s` reads from is closed: by `shutdownWrite`, or with the socket,
which is closed once the connection is down. -/
def Ended (l : Link) (s : Side) : Prop :=
  (∃ o ∈ (l.get s.peer).conn.trace, (o matches .shutdownWrite _) = true) ∨
    (l.get s.peer).conn.state = .kDisconnected

instance (l : Link) (s : Side) : Decidable (l.Ended s) := inferInstanceAs (Decidable (_ ∨ _))

/-- What the kernel may answer to a `readv` of `s`. -/
def Delivers (l : Link) (s : Side) : Readv → Prop
  | .fails _ => True
  | .receives data => data <+: l.inFlight s ∧ (data = [] → l.inFlight s = [] ∧ l.Ended s)

instance (l : Link) (s : Side) : ∀ r, Decidable (l.Delivers s r)
  | .fails _ => inferInstanceAs (Decidable True)
  | .receives _ => inferInstanceAs (Decidable (_ ∧ _))

end Link

structure LinkAct where
  side : Side
  act : EndAct
  deriving DecidableEq, Repr

namespace Link

/-- A step of one end. The user keeps the preconditions of the buffer, and does not write
into it. -/
def Enabled (l : Link) : LinkAct → Prop
  | ⟨s, .conn a⟩ => Connection.Enabled (l.get s).conn a ∧
      ((a matches .next _ _) = true → ¬ (l.get s).Reads)
  | ⟨s, .read _ r⟩ => (l.get s).Reads ∧
      r.Permitted (iovLens (l.get s).inputBuffer.writableBytes) ∧ l.Delivers s r
  | ⟨s, .call c⟩ => c.takes = true ∧ c.Pre (l.get s).inputBuffer

def exec (l : Link) (a : LinkAct) : Except Fault Link := do
  let e ← (l.get a.side).exec a.act
  return l.set e a.side

end Link

def linkSys : Sys Link LinkAct Fault := ⟨Link.Enabled, Link.exec⟩

instance (l : Link) : ∀ a, Decidable (linkSys.enabled l a)
  | ⟨s, .conn a⟩ => inferInstanceAs (Decidable (Connection.Enabled (l.get s).conn a ∧
      ((a matches .next _ _) = true → ¬ (l.get s).Reads)))
  | ⟨s, .read _ r⟩ => inferInstanceAs (Decidable ((l.get s).Reads ∧
      r.Permitted (iovLens (l.get s).inputBuffer.writableBytes) ∧ l.Delivers s r))
  | ⟨s, .call c⟩ => inferInstanceAs (Decidable (c.takes = true ∧ c.Pre (l.get s).inputBuffer))

/-! ## What a step adds to the trace -/

theorem accepted_append (t u : List Obs) : accepted (t ++ u) = accepted u ++ accepted t := by
  induction t with
  | nil => exact (List.append_nil _).symm
  | cons o t ih =>
      cases o with
      | write taken =>
          show accepted (t ++ u) ++ taken = accepted u ++ (accepted t ++ taken)
          rw [ih, List.append_assoc]
      | _ => exact ih

/-- The trace has grown; and if the stream was whole before and after, then a `shutdownWrite`
with nothing buffered came when the socket had taken all that had been passed. -/
def Adds (c c' : Conn) : Prop :=
  ∃ t, c'.trace = t ++ c.trace ∧ (Stream c → Stream c' → ∀ u n v, t = u ++ .shutdownWrite n :: v →
    n = 0 → accepted (v ++ c.trace) = passed (v ++ c.trace))

namespace Adds

variable {c c' : Conn}

theorem of_not_fin {t : List Obs} (ht : c'.trace = t ++ c.trace)
    (hno : ∀ n, .shutdownWrite n ∉ t) : Adds c c' := by
  refine ⟨t, ht, fun _ _ u n v hsplit _ => absurd ?_ (hno n)⟩
  rw [hsplit]
  exact List.mem_append_right u List.mem_cons_self

theorem of_trace_eq (h : c'.trace = c.trace) : Adds c c' :=
  of_not_fin (t := []) h (by simp)

theorem observed {o : Obs} (h : c'.trace = o :: c.trace) (ho : o.isFin = false) : Adds c c' := by
  refine of_not_fin (t := [o]) h fun n hn => ?_
  rw [← List.mem_singleton.mp hn] at ho
  exact absurd ho (by simp [Obs.isFin])

/-- The steps before may add observations of other kinds. -/
theorem after {c₁ : Conn} {d : List Obs} (hd : c₁.trace = d ++ c.trace)
    (hno : ∀ n, .shutdownWrite n ∉ d) (hs : Stream c → Stream c' → Stream c₁) (h : Adds c₁ c') :
    Adds c c' := by
  obtain ⟨t, ht, hfin⟩ := h
  refine ⟨t ++ d, by rw [ht, hd, List.append_assoc], fun hc hc' u n v hsplit hn => ?_⟩
  rcases List.append_eq_append_iff.mp hsplit with ⟨w, -, hw⟩ | ⟨w, hw, hv⟩
  · -- the observation would be one of `d`
    refine absurd ?_ (hno n)
    rw [hw]
    exact List.mem_append_right w List.mem_cons_self
  · cases w with
    | nil =>
        refine absurd ?_ (hno n)
        rw [← List.nil_append d, ← hv]
        exact List.mem_cons_self
    | cons o w =>
        obtain ⟨rfl, rfl⟩ := List.cons.inj hv
        have := hfin (hs hc hc') hc' u n w hw hn
        rwa [hd, ← List.append_assoc] at this

theorem after_same {c₁ : Conn} (hd : c₁.trace = c.trace) (hs : SameStream c c₁) (h : Adds c₁ c') :
    Adds c c' :=
  after (d := []) hd (by simp) (fun hc _ => hs.stream_iff.mpr hc) h

end Adds

namespace Conn

theorem adds_shutdownInLoop (c : Conn) : Adds c c.shutdownInLoop := by
  rcases shutdownInLoop_cases c with ⟨-, heq⟩ | ⟨-, heq⟩
  · rw [heq]
    exact .of_not_fin (t := [.shutdownInLoop]) rfl (by simp)
  · rw [heq]
    refine ⟨[.shutdownWrite c.outputBuffer.readableBytes, .shutdownInLoop], rfl, ?_⟩
    intro hc _ u n v hsplit hn
    rcases List.cons_eq_append_iff.mp hsplit with ⟨rfl, hv⟩ | ⟨w, rfl, hw⟩
    · obtain ⟨hn', rfl⟩ := List.cons.inj hv
      injection hn' with hn'
      have hempty : c.outputBuffer.readable = [] := by
        rw [← List.length_eq_zero_iff, ← Buffer.Valid.readableBytes_eq, ← hn', hn]
      have hstream : accepted c.trace ++ c.outputBuffer.readable = passed c.trace := hc
      rwa [hempty, List.append_nil] at hstream
    · rcases List.cons_eq_append_iff.mp hw with ⟨rfl, hv⟩ | ⟨w', -, hw'⟩
      · exact absurd (List.cons.inj hv).1 (by simp)
      · exact absurd hw' (by simp)

theorem adds_shutdown (c : Conn) : Adds c c.shutdown := by
  unfold shutdown
  split
  · have htrace : ((c.setState .kDisconnecting).observe .shutdownCalled).trace =
        [.shutdownCalled] ++ c.trace := rfl
    exact .after htrace (by simp) (fun hc _ => hc) (adds_shutdownInLoop _)
  · exact .of_trace_eq rfl

theorem adds_sendInLoop (c : Conn) (data : List Byte) (wr : WriteResult) :
    Post (c.sendInLoop data wr) (Adds c) := by
  by_cases hd : c.state = .kDisconnected
  · rw [sendInLoop_of_disconnected hd]
    exact .ok (.of_trace_eq rfl)
  · intro c' hc'
    obtain ⟨t, ht, -⟩ := (moved_sendInLoop c' hc').trace
    obtain ⟨hs, -⟩ := sendInLoop_frame hd c' hc'
    have hfilter : t.filter Obs.isFin = [] := by
      have hfin := hs.trace
      rw [finTrace, finTrace, ht, List.filter_append] at hfin
      exact List.append_left_eq_self.mp hfin
    refine .of_not_fin ht fun n hn => ?_
    exact absurd (List.filter_eq_nil_iff.mp hfilter _ hn) (by simp [Obs.isFin])

theorem adds_outputDrained (c : Conn) : Adds c c.outputDrained := by
  have hchannel : SameStream c (c.setChannel c.channel.disableWriting) := ⟨rfl, rfl, rfl⟩
  have hsame := hchannel.trans (same_noticeWriteComplete (c.setChannel c.channel.disableWriting))
  have htrace : (c.setChannel c.channel.disableWriting).noticeWriteComplete.trace = c.trace :=
    noticeWriteComplete_trace _
  unfold outputDrained
  dsimp only
  split
  · exact (adds_shutdownInLoop _).after_same htrace hsame
  · exact .of_trace_eq htrace

theorem adds_handleWrite (c : Conn) (wr : WriteResult) : Adds c (c.handleWrite wr) := by
  have hwrite : ∀ n, Obs.shutdownWrite n ∉ [Obs.write (wr.taken c.outputBuffer.readable)] := by simp
  unfold handleWrite
  split
  · dsimp only
    split
    · split
      · exact (adds_outputDrained _).after (d := [.write (wr.taken c.outputBuffer.readable)]) rfl
          hwrite fun _ hc' => (same_outputDrained _).stream_iff.mp hc'
      · exact .of_not_fin (t := [.write (wr.taken c.outputBuffer.readable)]) rfl hwrite
    · exact .of_not_fin (t := [.write (wr.taken c.outputBuffer.readable)]) rfl hwrite
  · exact .of_trace_eq rfl

theorem adds_handleClose (c : Conn) : Post c.handleClose (Adds c) :=
  .check_bind fun _ => .ok (.observed (o := .connectionDown) rfl rfl)

theorem adds_handleRead (c : Conn) (r : ReadResult) : Post (c.handleRead r) (Adds c) := by
  cases r with
  | bytes => exact .ok (.observed (o := .message) rfl rfl)
  | eof => exact adds_handleClose c
  | fails e => exact .ok (.of_trace_eq rfl)

theorem adds_forceClose (c : Conn) : Adds c c.forceClose := by
  rw [forceClose_eq]
  exact .of_trace_eq rfl

theorem adds_runTodo (c : Conn) (r : ReadResult) (wr : WriteResult) (t : Todo) :
    Post (c.runTodo r wr t) (Adds c) := by
  cases t with
  | closeCallback => exact .ok (.observed (o := .closeCallback) rfl rfl)
  | callback cb =>
      cases cb with
      | close => exact adds_handleClose c
      | error => exact .ok (.of_trace_eq rfl)
      | read => exact adds_handleRead c r
      | write => exact .ok (adds_handleWrite c wr)

theorem adds_runFunctor (c : Conn) (wr : WriteResult) (f : Functor) :
    Post (c.runFunctor wr f) (Adds c) := by
  cases f with
  | sendInLoop id message =>
      have htrace : (c.observe (.sendExecuted id)).trace = [.sendExecuted id] ++ c.trace := rfl
      refine (adds_sendInLoop (c.observe (.sendExecuted id)) message wr).mono fun c' h => ?_
      exact .after htrace (by simp) (fun hc _ => hc) h
  | shutdownInLoop => exact .ok (adds_shutdownInLoop c)
  | forceCloseInLoop =>
      simp only [runFunctor, forceCloseInLoop]
      split
      · exact adds_handleClose c
      · exact .ok (.of_trace_eq rfl)
  | startReadInLoop =>
      refine .ok (.of_trace_eq ?_)
      unfold startReadInLoop
      split <;> rfl
  | stopReadInLoop =>
      refine .ok (.of_trace_eq ?_)
      unfold stopReadInLoop
      split <;> rfl
  | writeComplete | highWaterMark len => exact .ok (.of_trace_eq rfl)

end Conn

theorem exec_adds (c : Conn) (a : Act) : Post (exec c a) (Adds c) := by
  cases a with
  | connectEstablished => exact .check_bind fun _ => .ok (.observed (o := .connectionUp) rfl rfl)
  | poll revents => exact .ok (.of_trace_eq rfl)
  | next r wr =>
      simp only [exec]
      split
      next t rest htodo =>
        refine (Conn.adds_runTodo _ r wr t).mono fun c' h => ?_
        exact h.after_same rfl ⟨rfl, rfl, rfl⟩
      next => exact .ok (.of_trace_eq rfl)
  | sendInLoop data wr => exact Conn.adds_sendInLoop c data wr
  | handleWrite wr => exact .ok (Conn.adds_handleWrite c wr)
  | send message wr =>
      simp only [exec, Conn.send]
      split
      · exact Conn.adds_sendInLoop c message wr
      · exact .ok (.of_trace_eq rfl)
  | shutdown => exact .ok (Conn.adds_shutdown c)
  | forceClose => exact .ok (Conn.adds_forceClose c)
  | forceCloseWithDelay =>
      refine .ok (.of_trace_eq ?_)
      unfold Conn.forceCloseWithDelay
      split <;> rfl
  | startRead =>
      refine .ok (.of_trace_eq ?_)
      unfold Conn.startReadInLoop
      split <;> rfl
  | stopRead =>
      refine .ok (.of_trace_eq ?_)
      unfold Conn.stopReadInLoop
      split <;> rfl
  | runFunctor wr =>
      simp only [exec]
      split
      next f rest hpending =>
        refine (Conn.adds_runFunctor _ wr f).mono fun c' h => ?_
        exact h.after_same rfl ⟨rfl, rfl, rfl⟩
      next => exact .ok (.of_trace_eq rfl)
  | timer => exact .ok ((Conn.adds_forceClose _).after_same rfl ⟨rfl, rfl, rfl⟩)
  | threadSend message =>
      refine .ok (.of_trace_eq ?_)
      unfold Conn.threadSend
      split <;> rfl
  | threadSendPush k =>
      simp only [exec, Conn.threadSendPush]
      split
      · exact .ok (.observed rfl rfl)
      · exact .ok (.of_trace_eq rfl)
  | threadShutdown =>
      simp only [exec, Conn.threadShutdown]
      split
      · exact .ok (.observed (o := .shutdownCalled) rfl rfl)
      · exact .ok (.of_trace_eq rfl)
  | threadShutdownPush | threadStartRead | threadStopRead => exact .ok (.of_trace_eq rfl)

/-- What has been written stays written. -/
theorem Adds.accepted {c c' : Conn} (h : Adds c c') :
    accepted c.trace <+: Connection.accepted c'.trace := by
  obtain ⟨t, ht, -⟩ := h
  rw [ht, accepted_append]
  exact List.prefix_append _ _

/-! ## The input side -/

/-- What an end has done with the bytes that its peer has written. -/
structure Input (e : Endpoint) (written : List Byte) : Prop where
  wf : e.inputBuffer.Wf
  le : e.received ≤ written.length
  content : e.retrieved ++ e.inputBuffer.readable = written.take e.received

section Ends

variable {e : Endpoint} {written : List Byte}

theorem Input.grows (h : Input e written) {written' : List Byte} (hle : written <+: written') :
    Input e written' := by
  obtain ⟨more, rfl⟩ := hle
  refine ⟨h.wf, ?_, ?_⟩
  · rw [List.length_append]
    exact Nat.le_add_right_of_le h.le
  · rw [List.take_append_of_le_length h.le]
    exact h.content

/-- All that has been written, by where it is. -/
theorem Input.whole (h : Input e written) :
    e.retrieved ++ e.inputBuffer.readable ++ written.drop e.received = written := by
  rw [h.content]
  exact List.take_append_drop _ _

/-- `readv` hands over some of the bytes that have not been read. -/
theorem Input.receive (h : Input e written) {data : List Byte}
    (hdata : data <+: written.drop e.received) :
    e.received + data.length ≤ written.length ∧
      written.take (e.received + data.length) = e.retrieved ++ (e.inputBuffer.readable ++ data) := by
  have hlen := hdata.length_le
  rw [List.length_drop] at hlen
  have hle := h.le
  refine ⟨by omega, ?_⟩
  have hfirst : (written.drop e.received).take data.length = data :=
    (List.prefix_iff_eq_take.mp hdata).symm
  rw [List.take_add, hfirst, ← h.content, List.append_assoc]

theorem readFd_input (h : Input e written) (extrabuf : ExtraBuf) {r : Readv}
    (hr : r.Permitted (iovLens e.inputBuffer.writableBytes))
    (hdata : ∀ data, r = .receives data → data <+: written.drop e.received) :
    Lands (e.inputBuffer.readFd extrabuf.val (.other 0) r) fun out => out.buffer.Wf ∧
      e.received + out.n.toNat ≤ written.length ∧
      e.retrieved ++ out.buffer.readable = written.take (e.received + out.n.toNat) := by
  cases r with
  | fails errno => exact .ok ⟨h.wf, h.le, h.content⟩
  | receives data =>
      have hread : Lands (e.inputBuffer.readFd extrabuf.val (.other 0) (.receives data)) fun out =>
          out.n = data.length ∧ out.savedErrno = .other 0 ∧
            Grown e.inputBuffer out.buffer (e.inputBuffer.readable ++ data) := by
        rcases Nat.lt_or_ge e.inputBuffer.writableBytes data.length with hspills | hfits
        · exact readFd_spills h.wf.indexed hspills hr extrabuf.property _
        · exact readFd_fits h.wf.indexed hfits extrabuf.val _
      obtain ⟨hle, hcontent⟩ := h.receive (hdata data rfl)
      refine hread.mono ?_
      rintro out ⟨hn, -, hgrown⟩
      rw [hn, Int.toNat_natCast]
      refine ⟨(hgrown.keeps h.wf).wf, hle, ?_⟩
      rw [hgrown.content, hcontent]

/-- Only the assertions of the connection can fail. -/
def OfConn (f : Fault) : Prop := ∃ a, f = .conn a

/-- A step of an end, given what its peer has written: the input side is kept, and what the
end itself has written stays written. -/
theorem Endpoint.exec_input (h : Input e written) {a : EndAct}
    (hread : ∀ extrabuf r, a = .read extrabuf r →
      r.Permitted (iovLens e.inputBuffer.writableBytes) ∧
      ∀ data, r = .receives data → data <+: written.drop e.received)
    (hcall : ∀ c, a = .call c → c.takes = true ∧ c.Pre e.inputBuffer) :
    Ends (e.exec a) (fun e' => Input e' written ∧
      accepted e.conn.trace <+: accepted e'.conn.trace) OfConn := by
  cases a with
  | conn a =>
      refine ((exec_adds e.conn a).ends_mapError fun a => ⟨a, rfl⟩).bind fun conn hconn => ?_
      exact .ok ⟨⟨h.wf, h.le, h.content⟩, hconn.accepted⟩
  | read extrabuf r =>
      obtain ⟨hr, hdata⟩ := hread extrabuf r rfl
      refine ((readFd_input h extrabuf hr hdata).mapError Fault.buffer).ends.bind fun out hout => ?_
      obtain ⟨hwf, hle, hcontent⟩ := hout
      refine ((exec_adds e.conn _).ends_mapError fun a => ⟨a, rfl⟩).bind fun conn hconn => ?_
      exact .ok ⟨⟨hwf, hle, hcontent⟩, hconn.accepted⟩
  | call c =>
      obtain ⟨htakes, hpre⟩ := hcall c rfl
      refine ((Call.exec_spec h.wf c hpre).mapError Fault.buffer).ends.bind fun b hb => ?_
      obtain ⟨hwf, hcontent, -⟩ := hb
      refine .ok ⟨⟨hwf, h.le, ?_⟩, List.prefix_refl _⟩
      show e.retrieved ++ e.inputBuffer.readable.take _ ++ b.readable = _
      rw [hcontent, Call.onQueue_of_takes htakes, List.append_assoc, List.take_append_drop,
        h.content]

end Ends

section Runs

variable {l : Link}

@[simp] theorem Side.peer_peer (s : Side) : s.peer.peer = s := by
  cases s <;> rfl

theorem Side.eq_or_eq_peer (s t : Side) : t = s ∨ t = s.peer := by
  cases s <;> cases t <;> simp [Side.peer]

@[simp] theorem Link.get_set (l : Link) (e : Endpoint) (s : Side) : (l.set e s).get s = e := by
  cases s <;> rfl

@[simp] theorem Link.get_set_peer (l : Link) (e : Endpoint) (s : Side) :
    (l.set e s).get s.peer = l.get s.peer := by
  cases s <;> rfl

/-- Both ends are reading what the other has written. -/
def LinkInv (l : Link) : Prop :=
  ∀ s, Input (l.get s) (accepted (l.get s.peer).conn.trace)

theorem set_linkInv (h : LinkInv l) {s : Side} {e : Endpoint}
    (he : Input e (accepted (l.get s.peer).conn.trace))
    (hwritten : accepted (l.get s).conn.trace <+: accepted e.conn.trace) :
    LinkInv (l.set e s) := by
  intro t
  rcases s.eq_or_eq_peer t with rfl | rfl
  · rw [Link.get_set, Link.get_set_peer]
    exact he
  · rw [Link.get_set_peer, Side.peer_peer, Link.get_set]
    have hpeer := h s.peer
    rw [Side.peer_peer] at hpeer
    exact hpeer.grows hwritten

theorem exec_linkInv (h : LinkInv l) {a : LinkAct} (ha : l.Enabled a) :
    Ends (l.exec a) LinkInv OfConn := by
  obtain ⟨s, act⟩ := a
  refine (Endpoint.exec_input (h s) ?_ ?_).bind fun e he => .ok (set_linkInv h he.1 he.2)
  · rintro extrabuf r rfl
    obtain ⟨-, hr, hdelivers⟩ := ha
    refine ⟨hr, ?_⟩
    rintro data rfl
    exact hdelivers.1
  · rintro c rfl
    exact ha

theorem new_linkInv (left right : Config) : LinkInv (.new left right) := by
  have hnew : ∀ (cfg : Config) (written : List Byte), Input (.new cfg) written := by
    intro cfg written
    have hempty := Buffer.Valid.readable_fresh kInitialSize
    refine ⟨?_, Nat.zero_le _, ?_⟩
    · simp only [Endpoint.new]
      exact (Buffer.Valid.fresh kInitialSize).wf
    · simp only [Endpoint.new, List.nil_append, List.take_zero]
      exact hempty
  intro s
  cases s with
  | left => exact hnew left _
  | right => exact hnew right _

end Runs

/-- **Lossless input.** In every run of the two connections: no assertion of a buffer fails,
and on both sides the bytes that the user has taken, the input buffer and the bytes in
flight are, in this order, what the sockets of the other side have taken. -/
theorem input_lossless (left right : Config) (acts : List LinkAct)
    (hlegal : linkSys.Legal (.new left right) acts) :
    Ends (linkSys.runFrom (.new left right) acts) (fun l => ∀ s,
      (l.get s).retrieved ++ (l.get s).inputBuffer.readable ++ l.inFlight s =
        accepted (l.get s.peer).conn.trace) OfConn := by
  refine (Sys.invariant_ends (S := linkSys) (fun _ _ h ha => exec_linkInv h ha)
    (new_linkInv left right) hlegal).mono fun l h s => ?_
  exact (h s).whole

/-- Two bytes are read in two pieces; one of them is taken while the other is in flight, and
a third waits in the output buffer of the writer. -/
theorem input_lossless_pieces :
    Lands (linkSys.runFrom (.new ⟨5, false, false, 64⟩ ⟨6, false, false, 64⟩)
      [⟨.left, .conn (.send [1, 2, 3] (.accepts 2))⟩,
        ⟨.right, .conn (.poll { Events.kNoneEvent with pollin := true })⟩,
        ⟨.right, .read ⟨List.replicate extrabufSize 0, List.length_replicate⟩ (.receives [1])⟩,
        ⟨.right, .call (.retrieve 1)⟩]) fun l =>
      (l.get .right).retrieved = [1] ∧ l.inFlight .right = [2] ∧
        (l.get .right).retrieved ++ (l.get .right).inputBuffer.readable ++ l.inFlight .right =
          accepted (l.get .left).conn.trace := by
  have hrun : Lands (linkSys.runFrom (.new ⟨5, false, false, 64⟩ ⟨6, false, false, 64⟩)
      [⟨.left, .conn (.send [1, 2, 3] (.accepts 2))⟩,
        ⟨.right, .conn (.poll { Events.kNoneEvent with pollin := true })⟩,
        ⟨.right, .read ⟨List.replicate extrabufSize 0, List.length_replicate⟩ (.receives [1])⟩,
        ⟨.right, .call (.retrieve 1)⟩]) fun l =>
      (l.get .right).retrieved = [1] ∧ l.inFlight .right = [2] := by decide +kernel
  obtain ⟨l, hl, hretrieved, hflight⟩ := hrun
  exact ⟨l, hl, hretrieved, hflight,
    (input_lossless _ _ _ (by decide +kernel)).1 l hl .right⟩

end Muduo.Connection
