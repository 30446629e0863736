import Mathlib.Data.List.Perm.Basic
import Muduo.Connection.Stream

/-!
# Messages from other threads

`send` may be called in any thread. In another one than the loop's it looks at the state
there and then, and queues the message; the call has returned when the message is in the
queue. From then on the message is in the hands of the loop, behind those whose calls have
returned before.

`Sending` remembers the messages that were accepted, by the number of their call. Each is in
exactly one place: with the thread that calls, in the queue, or handed to `sendInLoop`
(`SendInv`). What the loop thread sends itself goes to `sendInLoop` at once, past those in
the queue.
-/

namespace Muduo.Connection

open Lib

/-- The calls that have returned, in order. -/
def returned : List Obs → List Nat
  | [] => []
  | .sendReturned id :: t => returned t ++ [id]
  | _ :: t => returned t

/-- The calls whose message has been handed to `sendInLoop`, in order. -/
def executed : List Obs → List Nat
  | [] => []
  | .sendExecuted id :: t => executed t ++ [id]
  | _ :: t => executed t

def Functor.send? : Functor → Option Nat
  | .sendInLoop id _ => some id
  | _ => none

/-- The calls whose message is in the queue, in order. -/
def queued (q : List Functor) : List Nat := q.filterMap Functor.send?

/-- The calls that have not returned. -/
def Conn.calling (c : Conn) : List Nat := c.sending.map Prod.fst

structure Sending where
  conn : Conn
  /-- The messages whose calls found the connection up. -/
  messages : List (List Byte)

/-- The message of a call that finds the connection up. -/
def checkedMessage (c : Conn) : Act → List (List Byte)
  | .threadSend message => if c.state = .kConnected then [message] else []
  | _ => []

namespace Sending

def new (sockfd : Int) (writeComplete highWater : Bool) (mark : Nat) : Sending :=
  ⟨Conn.new sockfd writeComplete highWater mark, []⟩

def exec (s : Sending) (a : Act) : Except Assert Sending := do
  let c ← Connection.exec s.conn a
  return ⟨c, s.messages ++ checkedMessage s.conn a⟩

end Sending

def sendingSys : Sys Sending Act Assert := ⟨fun s => Enabled s.conn, Sending.exec⟩

instance (s : Sending) (a : Act) : Decidable (sendingSys.enabled s a) :=
  decidableEnabled s.conn a

/-! ## Operations that move no message -/

/-- The messages of other threads are where they were. -/
structure SameSends (c c' : Conn) : Prop where
  returned : returned c'.trace = returned c.trace
  executed : executed c'.trace = executed c.trace
  queue : c'.pending.filter (·.send?.isSome) = c.pending.filter (·.send?.isSome)
  sending : c'.sending = c.sending
  sends : c'.sends = c.sends

theorem returned_append {t : List Obs} (h : ∀ o ∈ t, o.isOutput = true) (tr : List Obs) :
    returned (t ++ tr) = returned tr := by
  induction t with
  | nil => rfl
  | cons o t ih =>
      have ho := h o List.mem_cons_self
      have ih' := ih fun o' ho' => h o' (List.mem_cons_of_mem o ho')
      cases o with
      | sendReturned id => exact absurd ho (by simp [Obs.isOutput])
      | _ => exact ih'

theorem executed_append {t : List Obs} (h : ∀ o ∈ t, o.isOutput = true) (tr : List Obs) :
    executed (t ++ tr) = executed tr := by
  induction t with
  | nil => rfl
  | cons o t ih =>
      have ho := h o List.mem_cons_self
      have ih' := ih fun o' ho' => h o' (List.mem_cons_of_mem o ho')
      cases o with
      | sendExecuted id => exact absurd ho (by simp [Obs.isOutput])
      | _ => exact ih'

theorem queued_append (q q' : List Functor) : queued (q ++ q') = queued q ++ queued q' :=
  List.filterMap_append

theorem queued_send (id : Nat) (message : List Byte) (q : List Functor) :
    queued (.sendInLoop id message :: q) = id :: queued q := rfl

theorem queued_filter (q : List Functor) : queued (q.filter (·.send?.isSome)) = queued q := by
  induction q with
  | nil => rfl
  | cons f q ih =>
      cases f with
      | sendInLoop id message =>
          rw [List.filter_cons_of_pos rfl]
          exact congrArg (id :: ·) ih
      | _ =>
          rw [List.filter_cons_of_neg (by simp [Functor.send?])]
          exact ih

namespace SameSends

variable {c c' c₁ c₂ c₃ : Conn}

theorem refl (c : Conn) : SameSends c c := ⟨rfl, rfl, rfl, rfl, rfl⟩

theorem trans (h : SameSends c₁ c₂) (h' : SameSends c₂ c₃) : SameSends c₁ c₃ :=
  ⟨h'.returned.trans h.returned, h'.executed.trans h.executed, h'.queue.trans h.queue,
    h'.sending.trans h.sending, h'.sends.trans h.sends⟩

/-- Something else is queued. -/
theorem queueInLoop {f : Functor} (hf : f.send? = none) : SameSends c (c.queueInLoop f) := by
  refine ⟨rfl, rfl, ?_, rfl, rfl⟩
  show (c.pending ++ [f]).filter _ = _
  rw [List.filter_append, List.filter_cons_of_neg (by simp [hf]), List.filter_nil,
    List.append_nil]

/-- Something else is taken from the queue. -/
theorem pop {f : Functor} {rest : List Functor} (hpending : c.pending = f :: rest)
    (hf : f.send? = none) : SameSends c { c with pending := rest } := by
  refine ⟨rfl, rfl, ?_, rfl, rfl⟩
  show rest.filter _ = _
  rw [hpending, List.filter_cons_of_neg (by simp [hf])]

/-- The output path sends nothing of its own. -/
theorem of_moved (h : Moved c c') : SameSends c c' := by
  obtain ⟨t, ht, hout⟩ := h.trace
  obtain ⟨q, hq, hnotice⟩ := h.pending
  refine ⟨?_, ?_, ?_, h.sending, h.sends⟩
  · rw [ht, returned_append hout]
  · rw [ht, executed_append hout]
  · have hnone : q.filter (·.send?.isSome) = [] := by
      refine List.filter_eq_nil_iff.mpr fun f hf => ?_
      have hn := hnotice f hf
      cases f with
      | sendInLoop id message => exact absurd hn (by simp [Functor.isNotice])
      | _ => simp [Functor.send?]
    rw [hq, List.filter_append, hnone, List.append_nil]

end SameSends

namespace Conn

theorem sends_handleClose (c : Conn) : Post c.handleClose (SameSends c) := by
  unfold handleClose
  exact .check_bind fun _ => .ok ⟨rfl, rfl, rfl, rfl, rfl⟩

theorem sends_forceClose (c : Conn) : SameSends c c.forceClose := by
  rw [forceClose_eq]
  have h : SameSends c (c.setState .kDisconnecting) := ⟨rfl, rfl, rfl, rfl, rfl⟩
  exact h.trans (.queueInLoop rfl)

theorem sends_shutdown (c : Conn) : SameSends c c.shutdown := by
  unfold shutdown
  split
  · have h : SameSends c ((c.setState .kDisconnecting).observe .shutdownCalled) :=
      ⟨rfl, rfl, rfl, rfl, rfl⟩
    exact h.trans (.of_moved (moved_shutdownInLoop _))
  · exact .refl c

theorem sends_runTodo (c : Conn) (r : ReadResult) (wr : WriteResult) (t : Todo) :
    Post (c.runTodo r wr t) (SameSends c) := by
  cases t with
  | closeCallback => exact .ok ⟨rfl, rfl, rfl, rfl, rfl⟩
  | callback cb =>
      cases cb with
      | close => exact sends_handleClose c
      | error => exact .ok (.refl c)
      | write => exact .ok (.of_moved (moved_handleWrite c wr))
      | read =>
          cases r with
          | bytes => exact .ok ⟨rfl, rfl, rfl, rfl, rfl⟩
          | eof => exact sends_handleClose c
          | fails e => exact .ok (.refl c)

theorem sends_startReadInLoop (c : Conn) : SameSends c c.startReadInLoop := by
  unfold startReadInLoop
  split
  · exact ⟨rfl, rfl, rfl, rfl, rfl⟩
  · exact .refl c

theorem sends_stopReadInLoop (c : Conn) : SameSends c c.stopReadInLoop := by
  unfold stopReadInLoop
  split
  · exact ⟨rfl, rfl, rfl, rfl, rfl⟩
  · exact .refl c

/-- A functor that is not a message. -/
theorem sends_runFunctor (c : Conn) (wr : WriteResult) {f : Functor} (hf : f.send? = none) :
    Post (c.runFunctor wr f) (SameSends c) := by
  cases f with
  | sendInLoop id message => exact absurd hf (by simp [Functor.send?])
  | shutdownInLoop => exact .ok (.of_moved (moved_shutdownInLoop c))
  | forceCloseInLoop =>
      show Post c.forceCloseInLoop _
      unfold forceCloseInLoop
      split
      · exact sends_handleClose c
      · exact .ok (.refl c)
  | startReadInLoop => exact .ok (sends_startReadInLoop c)
  | stopReadInLoop => exact .ok (sends_stopReadInLoop c)
  | writeComplete => exact .ok (.refl c)
  | highWaterMark len => exact .ok (.refl c)

end Conn

/-- The operation moves a message of another thread. -/
def movesMessage (c : Conn) : Act → Bool
  | .threadSend _ | .threadSendPush _ => true
  | .runFunctor _ => (c.pending.head?.bind Functor.send?).isSome
  | _ => false

theorem exec_sameSends (c : Conn) {a : Act} (ha : movesMessage c a = false) :
    Post (exec c a) (SameSends c) := by
  cases a with
  | connectEstablished =>
      show Post c.connectEstablished _
      unfold Conn.connectEstablished
      exact .check_bind fun _ => .ok ⟨rfl, rfl, rfl, rfl, rfl⟩
  | poll revents => exact .ok ⟨rfl, rfl, rfl, rfl, rfl⟩
  | next r wr =>
      simp only [exec]
      split
      · rename_i t rest htodo
        have hpop : SameSends c { c with todo := rest } := ⟨rfl, rfl, rfl, rfl, rfl⟩
        exact (Conn.sends_runTodo _ r wr t).mono fun c' h => hpop.trans h
      · exact .ok (.refl c)
  | sendInLoop data wr => exact Conn.moved_sendInLoop.mono fun c' h => .of_moved h
  | handleWrite wr => exact .ok (.of_moved (Conn.moved_handleWrite c wr))
  | send message wr =>
      simp only [exec, Conn.send]
      split
      · exact Conn.moved_sendInLoop.mono fun c' h => .of_moved h
      · exact .ok (.refl c)
  | shutdown => exact .ok (Conn.sends_shutdown c)
  | forceClose => exact .ok (Conn.sends_forceClose c)
  | forceCloseWithDelay =>
      simp only [exec, Conn.forceCloseWithDelay]
      split
      · exact .ok ⟨rfl, rfl, rfl, rfl, rfl⟩
      · exact .ok (.refl c)
  | startRead => exact .ok (Conn.sends_startReadInLoop c)
  | stopRead => exact .ok (Conn.sends_stopReadInLoop c)
  | runFunctor wr =>
      simp only [exec]
      split
      · rename_i f rest hpending
        have hf : f.send? = none := by
          rw [movesMessage, hpending] at ha
          simpa using ha
        have hpop : SameSends c { c with pending := rest } := .pop hpending hf
        exact (Conn.sends_runFunctor _ wr hf).mono fun c' h => hpop.trans h
      · exact .ok (.refl c)
  | timer =>
      have hpop : SameSends c { c with timers := c.timers - 1 } := ⟨rfl, rfl, rfl, rfl, rfl⟩
      exact .ok (hpop.trans (Conn.sends_forceClose _))
  | threadSend message => exact absurd ha (by simp [movesMessage])
  | threadSendPush k => exact absurd ha (by simp [movesMessage])
  | threadShutdown =>
      simp only [exec, Conn.threadShutdown]
      split
      · exact .ok ⟨rfl, rfl, rfl, rfl, rfl⟩
      · exact .ok (.refl c)
  | threadShutdownPush =>
      have hpop : SameSends c { c with stopping := c.stopping - 1 } := ⟨rfl, rfl, rfl, rfl, rfl⟩
      exact .ok (hpop.trans (.queueInLoop rfl))
  | threadStartRead => exact .ok (.queueInLoop rfl)
  | threadStopRead => exact .ok (.queueInLoop rfl)

/-! ## Steps -/

/-- Where the messages are. -/
structure SendInv (s : Sending) : Prop where
  order : returned s.conn.trace = executed s.conn.trace ++ queued s.conn.pending
  count : s.conn.sends = s.messages.length
  each : (returned s.conn.trace ++ s.conn.calling).Perm (List.range s.messages.length)
  queue : ∀ id m, .sendInLoop id m ∈ s.conn.pending → s.messages[id]? = some m
  calls : ∀ x ∈ s.conn.sending, s.messages[x.1]? = some x.2

section Steps

variable {s : Sending} {c' : Conn}

theorem SendInv.same (h : SendInv s) (hs : SameSends s.conn c') : SendInv ⟨c', s.messages⟩ := by
  have hqueued : queued c'.pending = queued s.conn.pending := by
    rw [← queued_filter, hs.queue, queued_filter]
  refine ⟨?_, hs.sends.trans h.count, ?_, fun id m hm => h.queue id m ?_, ?_⟩
  · rw [hs.returned, hs.executed, hqueued]
    exact h.order
  · unfold Conn.calling
    rw [hs.returned, hs.sending]
    exact h.each
  · have hsend : Functor.sendInLoop id m ∈ c'.pending.filter (·.send?.isSome) :=
      List.mem_filter.mpr ⟨hm, rfl⟩
    rw [hs.queue] at hsend
    exact (List.mem_filter.mp hsend).1
  · rw [hs.sending]
    exact h.calls

/-- The messages accepted so far keep their numbers. -/
theorem getElem?_accepted {messages : List (List Byte)} {id : Nat} {m : List Byte}
    (h : messages[id]? = some m) (message : List Byte) : (messages ++ [message])[id]? = some m := by
  obtain ⟨hlt, -⟩ := List.getElem?_eq_some_iff.mp h
  rw [List.getElem?_append_left hlt]
  exact h

theorem SendInv.threadSend (h : SendInv s) (message : List Byte) :
    Post (s.exec (.threadSend message)) SendInv := by
  refine .ok ?_
  show SendInv ⟨s.conn.threadSend message,
    s.messages ++ checkedMessage s.conn (.threadSend message)⟩
  unfold Conn.threadSend checkedMessage
  by_cases hup : s.conn.state = .kConnected
  · dsimp only
    rw [if_pos hup, if_pos hup]
    refine ⟨h.order, ?_, ?_, fun id m hm => getElem?_accepted (h.queue id m hm) message, ?_⟩
    · rw [List.length_append, List.length_singleton, ← h.count]
    · have hcalling : Conn.calling { s.conn with
          sending := s.conn.sending ++ [(s.conn.sends, message)], sends := s.conn.sends + 1 } =
          s.conn.calling ++ [s.messages.length] := by
        rw [← h.count]
        exact List.map_append
      rw [hcalling, List.length_append, List.length_singleton, List.range_succ,
        ← List.append_assoc]
      exact h.each.append_right _
    · intro x hx
      rcases List.mem_append.mp hx with hx | hx
      · exact getElem?_accepted (h.calls x hx) message
      · obtain rfl := List.mem_singleton.mp hx
        show (s.messages ++ [message])[s.conn.sends]? = some message
        rw [h.count]
        exact List.getElem?_concat_length
  · dsimp only
    rw [if_neg hup, if_neg hup, List.append_nil]
    exact h

theorem SendInv.threadSendPush (h : SendInv s) {k : Nat} (hk : k < s.conn.sending.length) :
    Post (s.exec (.threadSendPush k)) SendInv := by
  refine .ok ?_
  show SendInv ⟨s.conn.threadSendPush k, s.messages ++ []⟩
  obtain ⟨id, message, hget⟩ : ∃ id message, s.conn.sending[k]? = some (id, message) :=
    ⟨_, _, List.getElem?_eq_getElem hk⟩
  have hmem : (id, message) ∈ s.conn.sending := List.mem_of_getElem? hget
  obtain ⟨hlt, hat⟩ := List.getElem?_eq_some_iff.mp hget
  rw [Conn.threadSendPush, hget, List.append_nil]
  refine ⟨?_, h.count, ?_, fun id' m hm => ?_, fun x hx => ?_⟩
  · show returned s.conn.trace ++ [id] = executed s.conn.trace ++ queued (s.conn.pending ++ [_])
    rw [h.order, queued_append, List.append_assoc]
    rfl
  · show (returned s.conn.trace ++ [id] ++ (s.conn.sending.eraseIdx k).map Prod.fst).Perm _
    have hcalling : (id :: (s.conn.sending.eraseIdx k).map Prod.fst).Perm s.conn.calling := by
      have hperm := (List.getElem_cons_eraseIdx_perm hk).map Prod.fst
      rw [hat] at hperm
      exact hperm
    rw [List.append_assoc]
    exact (hcalling.append_left _).trans h.each
  · rcases List.mem_append.mp hm with hm | hm
    · exact h.queue id' m hm
    · obtain ⟨rfl, rfl⟩ := Functor.sendInLoop.inj (List.mem_singleton.mp hm)
      exact h.calls _ hmem
  · exact h.calls x (List.mem_of_mem_eraseIdx hx)

/-- The oldest message in the queue is handed to `sendInLoop`. -/
theorem SendInv.runSend (h : SendInv s) {id : Nat} {message : List Byte} {rest : List Functor}
    (hpending : s.conn.pending = .sendInLoop id message :: rest) (wr : WriteResult) :
    Post (s.exec (.runFunctor wr)) SendInv := by
  have hpop : SendInv ⟨{ s.conn with pending := rest }.observe (.sendExecuted id), s.messages⟩ := by
    refine ⟨?_, h.count, h.each, fun id' m hm => h.queue id' m ?_, h.calls⟩
    · have horder := h.order
      rw [hpending, queued_send] at horder
      show returned s.conn.trace = executed s.conn.trace ++ [id] ++ queued rest
      rw [horder, List.append_assoc]
      rfl
    · rw [hpending]
      exact List.mem_cons_of_mem _ hm
  have hexec : Post (Connection.exec s.conn (.runFunctor wr))
      fun c' => SendInv ⟨c', s.messages⟩ := by
    simp only [Connection.exec, hpending]
    exact Conn.moved_sendInLoop.mono fun c' hm => hpop.same (.of_moved hm)
  refine hexec.bind fun c' hc' => .ok ?_
  show SendInv ⟨c', s.messages ++ []⟩
  rw [List.append_nil]
  exact hc'

theorem exec_sendInv (h : SendInv s) {a : Act} (hen : Enabled s.conn a) :
    Post (s.exec a) SendInv := by
  have hsame : movesMessage s.conn a = false → Post (s.exec a) SendInv := by
    intro ha
    have hnone : checkedMessage s.conn a = [] := by
      cases a with
      | threadSend message => exact absurd ha (by simp [movesMessage])
      | _ => rfl
    refine (exec_sameSends s.conn ha).bind fun c' hs => .ok ?_
    rw [hnone, List.append_nil]
    exact h.same hs
  cases a with
  | threadSend message => exact h.threadSend message
  | threadSendPush k => exact h.threadSendPush hen
  | runFunctor wr =>
      cases hpending : s.conn.pending with
      | nil => exact hsame (by simp [movesMessage, hpending])
      | cons f rest =>
          cases f with
          | sendInLoop id message => exact h.runSend hpending wr
          | _ => exact hsame (by simp [movesMessage, hpending, Functor.send?])
  | _ => exact hsame rfl

end Steps

/-! ## Runs -/

namespace Conn

theorem passed_sendInLoop {c : Conn} (hup : c.state ≠ .kDisconnected) (data : List Byte)
    (wr : WriteResult) :
    Post (c.sendInLoop data wr) fun c' => passed c'.trace = passed c.trace ++ data := by
  unfold sendInLoop
  rw [if_neg hup]
  refine .check_bind fun _ => ?_
  obtain ⟨-, hpassed, -⟩ := tryWrite_stream (c.observe (.passed data)) data wr
  split
  · exact .ok ((bufferRest_stream _ _).2.1.trans hpassed)
  · exact .ok hpassed

end Conn

/-- The message that runs is handed on whole. -/
theorem runFunctor_hands {c : Conn} {id : Nat} {message : List Byte} {rest : List Functor}
    (hpending : c.pending = .sendInLoop id message :: rest) (hup : c.state ≠ .kDisconnected)
    (wr : WriteResult) : Lands (exec c (.runFunctor wr)) fun c' =>
      executed c'.trace = executed c.trace ++ [id] ∧
        passed c'.trace = passed c.trace ++ message := by
  simp only [exec, hpending]
  have hpassed := Conn.passed_sendInLoop
    (c := { c with pending := rest }.observe (.sendExecuted id)) hup message wr
  refine ((Conn.sendInLoop_lands _ message wr).and hpassed).mono fun c' hc' => ⟨?_, hc'.2⟩
  obtain ⟨t, ht, hout⟩ := hc'.1.trace
  rw [ht, executed_append hout]
  rfl

theorem new_sendInv (sockfd : Int) (writeComplete highWater : Bool) (mark : Nat) :
    SendInv (.new sockfd writeComplete highWater mark) :=
  ⟨rfl, rfl, .refl _, fun _ _ hm => absurd hm (by simp [Sending.new, Conn.new]),
    fun _ hx => absurd hx (by simp [Sending.new, Conn.new])⟩

/-- **Messages from other threads arrive once and in order.** In every run: each message
that was accepted is in exactly one place, with its caller, in the queue or handed to
`sendInLoop`; the messages were and will be handed to it in the order in which their calls
returned; and what the loop hands to it next, unless the connection is down, is the message
of that call, whole. -/
theorem messages_in_order (sockfd : Int) (writeComplete highWater : Bool) (mark : Nat)
    (acts : List Act) (hlegal : sendingSys.Legal (.new sockfd writeComplete highWater mark) acts) :
    Post (sendingSys.runFrom (.new sockfd writeComplete highWater mark) acts) fun s =>
      returned s.conn.trace = executed s.conn.trace ++ queued s.conn.pending ∧
      (executed s.conn.trace ++ queued s.conn.pending ++ s.conn.calling).Perm
        (List.range s.messages.length) ∧
      ∀ id message rest, s.conn.pending = .sendInLoop id message :: rest →
        s.messages[id]? = some message ∧
        (s.conn.state ≠ .kDisconnected → ∀ wr, Lands (exec s.conn (.runFunctor wr)) fun c' =>
          executed c'.trace = executed s.conn.trace ++ [id] ∧
          passed c'.trace = passed s.conn.trace ++ message) := by
  have hrun := Sys.invariant_post (S := sendingSys) (fun s a h hen => exec_sendInv h hen)
    (new_sendInv sockfd writeComplete highWater mark) hlegal
  refine hrun.mono fun s h => ⟨h.order, ?_, fun id message rest hpending => ⟨?_, ?_⟩⟩
  · rw [← h.order]
    exact h.each
  · refine h.queue id message ?_
    rw [hpending]
    exact List.mem_cons_self
  · intro hup wr
    exact runFunctor_hands hpending hup wr

/-- Two threads send. The second call to look at the state is the first to return, and the
loop sends past both. -/
theorem messages_in_order_two :
    Lands (sendingSys.runFrom (.new 5 false false 64)
      [.connectEstablished, .threadSend [1], .threadSend [2], .threadSendPush 1,
        .send [3] (.accepts 9), .threadSendPush 0, .runFunctor (.accepts 9)]) fun s =>
      passed s.conn.trace = [3, 2] ∧ returned s.conn.trace = [1, 0] ∧
        executed s.conn.trace ++ queued s.conn.pending = [1, 0] ∧
        Lands (exec s.conn (.runFunctor (.accepts 9))) fun c' =>
          executed c'.trace = [1, 0] ∧ passed c'.trace = [3, 2, 1] := by
  have hspec := messages_in_order 5 false false 64
    [.connectEstablished, .threadSend [1], .threadSend [2], .threadSendPush 1,
      .send [3] (.accepts 9), .threadSendPush 0, .runFunctor (.accepts 9)] (by decide +kernel)
  have hrun : Lands (sendingSys.runFrom (.new 5 false false 64)
      [.connectEstablished, .threadSend [1], .threadSend [2], .threadSendPush 1,
        .send [3] (.accepts 9), .threadSendPush 0, .runFunctor (.accepts 9)]) fun s =>
      passed s.conn.trace = [3, 2] ∧ returned s.conn.trace = [1, 0] ∧
        executed s.conn.trace = [1] ∧ s.conn.state = .kConnected ∧
        s.conn.pending = [.sendInLoop 0 [1]] := by decide +kernel
  obtain ⟨s, hs, hpassed, hreturned, hexecuted, hup, hpending⟩ := hrun
  obtain ⟨horder, -, hnext⟩ := hspec s hs
  refine ⟨s, hs, hpassed, hreturned, horder.symm.trans hreturned, ?_⟩
  have hlast := (hnext 0 [1] [] hpending).2 (by rw [hup]; simp) (.accepts 9)
  rwa [hexecuted, hpassed] at hlast

end Muduo.Connection
