import Muduo.Server.Table
import Muduo.Connection.Close

/-!
# Destroying a server

The close callback of every connection and the functors it queues are bound to the
server by address. `~TcpServer` takes none of them back: it gives `connectDestroyed`
to every connection and ends, and what is already queued, or in progress, or still
installed in a connection of another loop finds the server gone.

A member function that is entered after the destructor is the fault `destroyed`. No
run reaches it when, as the destructor completes, everything bound to the server has
come to rest (`Settled`), and no connection that has closed, or has been destroyed,
closes again later.
-/

namespace Muduo.Server

open Lib

/-! ## Where a close begins -/

/-- The step of a connection enters `handleClose`. -/
def entersClose (c : Connection.Conn) : Connection.Act → Bool
  | .next r _ =>
      match c.todo with
      | .callback .close :: _ => true
      | .callback .read :: _ => r = .eof
      | _ => false
  | .runFunctor _ => c.pending.head? = some .forceCloseInLoop &&
      (c.state = .kConnected || c.state = .kDisconnecting)
  | _ => false

section Closing

variable {c : Connection.Conn}

open Connection Connection.Conn

/-- The close callback is due after `handleClose` only. -/
theorem exec_todo (c : Conn) (a : Connection.Act) :
    Post (Connection.exec c a) fun c' =>
      .closeCallback ∈ c'.todo → .closeCallback ∈ c.todo ∨ entersClose c a = true := by
  have hsame : ∀ {x : Except Assert Conn}, Post x (fun c' => c'.todo = c.todo) →
      Post x fun c' => .closeCallback ∈ c'.todo → .closeCallback ∈ c.todo ∨ entersClose c a = true :=
    fun hx => hx.mono fun c' htodo hmem => .inl (htodo ▸ hmem)
  cases a with
  | connectEstablished => exact hsame (.check_bind fun _ => .ok rfl)
  | poll revents => exact .ok fun hmem => absurd hmem (closeCallback_not_mem_map _)
  | next r wr =>
      simp only [Connection.exec]
      cases htodo : c.todo with
      | nil => exact .ok fun hmem => .inl (htodo ▸ hmem)
      | cons t rest =>
          have hrest : ∀ {x : Except Assert Conn}, Post x (fun c' => c'.todo = rest) →
              Post x fun c' => .closeCallback ∈ c'.todo →
                .closeCallback ∈ t :: rest ∨ entersClose c (.next r wr) = true :=
            fun hx => hx.mono fun c' htodo hmem => .inl (List.mem_cons_of_mem t (htodo ▸ hmem))
          cases t with
          | closeCallback => exact hrest (.ok rfl)
          | callback cb =>
              cases cb with
              | close => exact fun c' _ _ => .inr (by simp [entersClose, htodo])
              | error => exact hrest (.ok rfl)
              | read =>
                  cases r with
                  | bytes => exact hrest (.ok rfl)
                  | eof => exact fun c' _ _ => .inr (by simp [entersClose, htodo])
                  | fails e => exact hrest (.ok rfl)
              | write => exact hrest (.ok (steady_handleWrite _ wr).todo)
  | sendInLoop data wr => exact hsame ((steady_sendInLoop c data wr).post.mono fun _ h => h.todo)
  | handleWrite wr => exact hsame (.ok (steady_handleWrite c wr).todo)
  | send message wr =>
      simp only [Connection.exec, Conn.send]
      split
      · exact hsame ((steady_sendInLoop c message wr).post.mono fun _ h => h.todo)
      · exact hsame (.ok rfl)
  | shutdown => exact hsame (.ok (steady_shutdown c).todo)
  | forceClose =>
      refine hsame (.ok ?_)
      rw [forceClose_eq]
      rfl
  | forceCloseWithDelay => exact hsame (.ok (steady_forceCloseWithDelay c).todo)
  | startRead =>
      refine hsame (.ok ?_)
      unfold startReadInLoop
      split <;> rfl
  | stopRead => exact hsame (.ok (steady_stopReadInLoop c).todo)
  | runFunctor wr =>
      simp only [Connection.exec]
      cases hpend : c.pending with
      | nil => exact hsame (.ok rfl)
      | cons f rest =>
          cases f with
          | sendInLoop id message =>
              exact hsame ((steady_sendInLoop _ message wr).post.mono fun _ h => h.todo)
          | shutdownInLoop => exact hsame (.ok (steady_shutdownInLoop _).todo)
          | forceCloseInLoop =>
              show Post (Conn.forceCloseInLoop { c with pending := rest }) _
              unfold Conn.forceCloseInLoop
              split
              · rename_i hup
                have hstate : c.state = .kConnected ∨ c.state = .kDisconnecting := hup
                exact fun c' _ _ => .inr (by simp [entersClose, hpend, hstate])
              · exact hsame (.ok rfl)
          | startReadInLoop =>
              refine hsame (.ok ?_)
              unfold startReadInLoop
              split <;> rfl
          | stopReadInLoop => exact hsame (.ok (steady_stopReadInLoop _).todo)
          | writeComplete => exact hsame (.ok rfl)
          | highWaterMark len => exact hsame (.ok rfl)
  | timer =>
      refine hsame (.ok ?_)
      rw [forceClose_eq]
      rfl
  | threadSend message => exact hsame (.ok (steady_threadSend c message).todo)
  | threadSendPush k => exact hsame (.ok (steady_threadSendPush c k).todo)
  | threadShutdown => exact hsame (.ok (steady_threadShutdown c).todo)
  | threadShutdownPush => exact hsame (.ok rfl)
  | threadStartRead => exact hsame (.ok rfl)
  | threadStopRead => exact hsame (.ok rfl)

end Closing

/-! ## At rest -/

/-- The connection is not inside `handleClose` with its close callback still to come,
and it has closed or has been destroyed. -/
def Settled (p : Peer) : Prop :=
  .closeCallback ∉ p.conn.todo ∧ (0 < p.closed ∨ p.destroyed = true)

instance (p : Peer) : Decidable (Settled p) :=
  inferInstanceAs (Decidable (.closeCallback ∉ p.conn.todo ∧ (0 < p.closed ∨ p.destroyed = true)))

/-- When the destructor completes, no `removeConnectionInLoop` is queued and the
connections of the loops that run on are settled. From then on no connection that has
closed, or has been destroyed, enters `handleClose`. -/
def Rests (w : World) : Act → Prop
  | .destroyEnd joins => (∀ f ∈ w.queue w.server.loop, f.task ≠ .removeConnectionInLoop) ∧
      ∀ p ∈ w.peers, p.loop = w.server.loop ∨ joins = false → Settled p
  | .conn i a => w.phase = .destroyed → ∀ p ∈ w.peers[i]?, entersClose p.conn a = true →
      p.closed = 0 ∧ p.destroyed = false
  | .newConnection _ _ | .runFunctor _ | .destroyBegin => True

instance decidableRests (w : World) : ∀ a, Decidable (Rests w a)
  | .destroyEnd joins => inferInstanceAs (Decidable
      ((∀ f ∈ w.queue w.server.loop, f.task ≠ .removeConnectionInLoop) ∧
        ∀ p ∈ w.peers, p.loop = w.server.loop ∨ joins = false → Settled p))
  | .conn i a => inferInstanceAs (Decidable (w.phase = .destroyed →
      ∀ p ∈ w.peers[i]?, entersClose p.conn a = true → p.closed = 0 ∧ p.destroyed = false))
  | .newConnection _ _ | .runFunctor _ | .destroyBegin => inferInstanceAs (Decidable True)

structure EndInv (w : World) : Prop where
  /-- `removeConnectionInLoop` is queued on the server's loop only. -/
  home : ∀ l f, f ∈ w.queue l → f.task = .removeConnectionInLoop → l = w.server.loop
  queue : w.phase = .destroyed → ∀ f ∈ w.queue w.server.loop, f.task ≠ .removeConnectionInLoop
  peers : w.phase = .destroyed → ∀ p ∈ w.peers, w.runs p.loop → Settled p

namespace EndInv

variable {w : World} {i : Nat} {p : Peer}

theorem give (h : EndInv w) (l : Loop) (f : Functor) : EndInv (w.give l f) :=
  ⟨h.home, h.queue, h.peers⟩

theorem push (h : EndInv w) {l : Loop} {f : Functor}
    (hf : f.task = .removeConnectionInLoop → l = w.server.loop ∧ w.phase ≠ .destroyed) :
    EndInv (w.push l f) := by
  have hmem : ∀ {l' g}, g ∈ Function.update w.queue l (w.queue l ++ [f]) l' →
      g ∈ w.queue l' ∨ (l' = l ∧ g = f) := by
    intro l' g hg
    by_cases hl : l' = l
    · subst hl
      rw [Function.update_self] at hg
      rcases List.mem_append.mp hg with hg | hg
      · exact .inl hg
      · exact .inr ⟨rfl, List.mem_singleton.mp hg⟩
    · rw [Function.update_of_ne hl] at hg
      exact .inl hg
  refine ⟨fun l' g hg ht => ?_, fun hphase g hg ht => ?_, h.peers⟩
  · rcases hmem hg with hg | ⟨rfl, rfl⟩
    · exact h.home l' g hg ht
    · exact (hf ht).1
  · rcases hmem hg with hg | ⟨-, rfl⟩
    · exact h.queue hphase g hg ht
    · exact (hf ht).2 hphase

theorem pop (h : EndInv w) {l : Loop} {f : Functor} {rest : List Functor}
    (hqueue : w.queue l = f :: rest) :
    EndInv { w with queue := Function.update w.queue l rest } := by
  have hmem : ∀ {l' g}, g ∈ Function.update w.queue l rest l' → g ∈ w.queue l' := by
    intro l' g hg
    by_cases hl : l' = l
    · subst hl
      rw [Function.update_self] at hg
      rw [hqueue]
      exact List.mem_cons_of_mem f hg
    · rwa [Function.update_of_ne hl] at hg
  exact ⟨fun l' g hg => h.home l' g (hmem hg), fun hphase g hg => h.queue hphase g (hmem hg), h.peers⟩

/-- A connection changes, and what was settled stays so. -/
theorem set (h : EndInv w) (hp : w.peers[i]? = some p) {p' : Peer} (hloop : p'.loop = p.loop)
    (hsettled : w.phase = .destroyed → w.runs p.loop → Settled p → Settled p') :
    EndInv { w with peers := w.peers.set i p' } := by
  refine ⟨h.home, h.queue, fun hphase q hq hruns => ?_⟩
  rcases List.mem_or_eq_of_mem_set hq with hq | rfl
  · exact h.peers hphase q hq hruns
  · rw [hloop] at hruns
    exact hsettled hphase hruns (h.peers hphase p (List.mem_of_getElem? hp) hruns)

/-- Before the end of the destructor, only the queues matter. -/
theorem of_not_destroyed (hphase : w.phase ≠ .destroyed)
    (hhome : ∀ l f, f ∈ w.queue l → f.task = .removeConnectionInLoop → l = w.server.loop) :
    EndInv w :=
  ⟨hhome, fun h => absurd h hphase, fun h => absurd h hphase⟩

end EndInv

/-! ## Steps -/

section Steps

variable {d : Destroy} {w : World} {i : Nat} {p : Peer}

/-- The fault is not that of a member function that finds the server gone. -/
def NotDestroyed (e : Fault) : Prop := e ≠ .destroyed

theorem connection_notDestroyed (a : Connection.Assert) : NotDestroyed (.connection a) := by
  simp [NotDestroyed]

/-- A function of connection `i` runs in it. -/
theorem onPeer_end (h : EndInv w) {x : Connection.Conn → Except Connection.Assert Connection.Conn}
    {g : Peer → Connection.Conn → Peer} (hloop : ∀ p c, (g p c).loop = p.loop)
    (hx : ∀ p c, x p.conn = .ok c → Settled p → Settled (g p c)) :
    Ends (w.onPeer i fun p => do let c ← (x p.conn).mapError .connection; return g p c)
      EndInv NotDestroyed := by
  unfold World.onPeer
  cases hp : w.peers[i]? with
  | none => exact .ok h
  | some p =>
      simp only [bind_assoc, pure_bind]
      refine ends_call connection_notDestroyed fun c hc => .ok ?_
      exact h.set hp (hloop p c) fun _ _ => hx p c hc

/-- `connectEstablished` leaves alone what the connection has to do. -/
theorem connectEstablished_end (h : EndInv w) (i : Nat) :
    Ends (w.connectEstablished i) EndInv NotDestroyed := by
  refine onPeer_end (x := Connection.Conn.connectEstablished)
    (g := fun p c => { p with conn := c, established := true }) h (fun _ _ => rfl) fun p c hc hs => ?_
  obtain ⟨-, -, hc⟩ := bind_eq_ok hc
  obtain rfl := Except.ok.inj hc
  exact hs

/-- `connectDestroyed` does not call `handleClose`. -/
def Quiet (d : Destroy) : Prop :=
  ∀ c c', d c = .ok c' → .closeCallback ∈ c'.todo → .closeCallback ∈ c.todo

theorem connectDestroyed_end (hd : Quiet d) (h : EndInv w) (i : Nat) :
    Ends (w.connectDestroyed d i) EndInv NotDestroyed := by
  refine onPeer_end (x := d) (g := fun p c => { p with conn := c, destroyed := true }) h
    (fun _ _ => rfl) fun p c hc hs => ?_
  exact ⟨fun hmem => hs.1 (hd p.conn c hc hmem), .inr rfl⟩

theorem removeConnectionInLoop_end (h : EndInv w) (halive : w.phase ≠ .destroyed) (i : Nat) :
    Ends (w.removeConnectionInLoop i) EndInv NotDestroyed := by
  unfold World.removeConnectionInLoop
  cases hp : w.peers[i]? with
  | none => exact .ok h
  | some p =>
      refine .check_bind (fun hnot => absurd halive hnot) fun _ => ?_
      refine .check_bind (fun _ => by simp [NotDestroyed]) fun _ => .ok ?_
      refine .push (.give (.of_not_destroyed ?_ ?_) _ _) fun ht => absurd ht (by simp)
      · exact halive
      · exact h.home

theorem runTask_end (hd : Quiet d) (h : EndInv w) (i : Nat) {t : Task}
    (ht : t = .removeConnectionInLoop → w.phase ≠ .destroyed) :
    Ends (w.runTask d i t) EndInv NotDestroyed := by
  cases t with
  | connectEstablished => exact connectEstablished_end h i
  | removeConnectionInLoop => exact removeConnectionInLoop_end h (ht rfl) i
  | connectDestroyed => exact connectDestroyed_end hd h i

theorem runInLoop_end (hd : Quiet d) (h : EndInv w) {thread l : Loop} {f : Functor}
    (hf : f.task = .removeConnectionInLoop → l = w.server.loop ∧ w.phase ≠ .destroyed) :
    Ends (w.runInLoop d thread l f) EndInv NotDestroyed := by
  unfold World.runInLoop
  split
  · exact runTask_end hd (h.give l f) f.conn fun ht => (hf ht).2
  · exact .ok ((h.give l f).push hf)

theorem destroyAll_end (hd : Quiet d) (es : List (List Char × Nat)) {w : World} (h : EndInv w) :
    Ends (w.destroyAll d es) EndInv NotDestroyed := by
  induction es generalizing w with
  | nil => exact .ok h
  | cons e es ih =>
      refine Ends.bind (P := EndInv) ?_ fun w' hw' => ih hw'
      unfold World.destroyOne
      split
      · exact runInLoop_end hd h fun ht => absurd ht (by simp)
      · exact .ok h

/-- A connection that has to invoke its close callback is not settled. -/
theorem Settled.not_invokes (h : Settled p) (a : Connection.Act) : invokesClose p.conn a = false := by
  cases a with
  | next r wr =>
      refine decide_eq_false fun hhead => h.1 ?_
      exact List.mem_of_mem_head? hhead
  | _ => rfl

theorem invokesClose_inLoop {c : Connection.Conn} {a : Connection.Act}
    (h : invokesClose c a = true) : inLoop a = true := by
  cases a with
  | next r wr => rfl
  | _ => exact absurd h (by simp [invokesClose])

theorem connStep_end (hd : Quiet d) (h : EndInv w) {a : Connection.Act}
    (hen : enabled w (.conn i a)) (hrests : Rests w (.conn i a)) :
    Ends (w.connStep d i a) EndInv NotDestroyed := by
  obtain ⟨p, hp, hloop, -, -⟩ := hen
  have hp : w.peers[i]? = some p := hp
  simp only [World.connStep, hp]
  refine ends_call connection_notDestroyed fun c hc => ?_
  split
  · rename_i hclose
    have halive : w.phase ≠ .destroyed := by
      intro hphase
      have hs := h.peers hphase p (List.mem_of_getElem? hp) (hloop (invokesClose_inLoop hclose))
      rw [hs.not_invokes a] at hclose
      exact absurd hclose (by simp)
    unfold World.removeConnection
    dsimp only
    rw [check_of _ halive, ok_bind]
    refine runInLoop_end hd ?_ fun _ => ⟨rfl, halive⟩
    exact h.set hp rfl fun hphase => absurd hphase halive
  · refine .ok (h.set hp rfl fun hphase _ hs => ⟨fun hmem => ?_, hs.2⟩)
    rcases exec_todo p.conn a c hc hmem with hold | henters
    · exact hs.1 hold
    · obtain ⟨hclosed, hdestroyed⟩ := hrests hphase p hp henters
      rcases hs.2 with hpos | htrue
      · omega
      · rw [hdestroyed] at htrue
        exact absurd htrue (by simp)

theorem exec_end (hd : Quiet d) (h : EndInv w) (a : Act) (hen : enabled w a) (hrests : Rests w a) :
    Ends (exec d w a) EndInv NotDestroyed := by
  cases a with
  | newConnection ioLoop sockfd =>
      have hphase : w.phase = .alive := hen
      have halive : w.phase ≠ .destroyed := by
        rw [hphase]
        simp
      refine .check_bind (fun hnot => absurd halive hnot) fun _ => ?_
      refine runInLoop_end hd ?_ fun ht => absurd ht (by simp)
      exact .of_not_destroyed halive h.home
  | runFunctor l =>
      simp only [exec, World.runFunctor]
      cases hqueue : w.queue l with
      | nil => exact .ok h
      | cons f rest =>
          refine runTask_end hd (h.pop hqueue) f.conn fun ht hphase => ?_
          -- such a functor is on the server's loop, and none is left there
          have hmem : f ∈ w.queue l := by
            rw [hqueue]
            exact List.mem_cons_self
          have hl := h.home l f hmem ht
          subst hl
          exact h.queue hphase f hmem ht
  | conn i a => exact connStep_end hd h hen hrests
  | destroyBegin =>
      refine (destroyAll_end hd _ h).bind fun w' hw' => .ok (.of_not_destroyed ?_ ?_)
      · simp
      · exact hw'.home
  | destroyEnd joins =>
      refine .ok ⟨h.home, fun _ => hrests.1, fun _ p hp hruns => hrests.2 p hp ?_⟩
      by_cases hl : p.loop = w.server.loop
      · exact .inl hl
      · refine .inr ?_
        simpa [World.runs, World.destroyEnd, hl] using hruns

/-- **No member function runs on a destroyed server.** In every run in which everything
that is bound to the server has come to rest when its destructor completes. -/
theorem server_calls_end (hd : Quiet d) (loop : Loop) (ipPort name : List Char)
    (writeComplete : Bool) (acts : List Act)
    (h : (serverSys d).Legal (World.new loop ipPort name writeComplete) acts)
    (hrests : (serverSys d).Meets Rests (World.new loop ipPort name writeComplete) acts) :
    (serverSys d).runFrom (World.new loop ipPort name writeComplete) acts ≠ .error .destroyed := by
  have hnew : EndInv (World.new loop ipPort name writeComplete) :=
    .of_not_destroyed (by simp [World.new]) fun l f hf => absurd hf (by simp [World.new])
  have hrun := Sys.invariant_ends (S := serverSys d) (Q := NotDestroyed)
    (fun w a h hok => exec_end hd h a hok.1 hok.2) hnew (Sys.meets_and.mpr ⟨h, hrests⟩)
  intro herror
  exact hrun.2 _ herror rfl

end Steps

/-- A connection of another loop closes and is removed, and one of the server's loop is
open when the destructor runs and destroys it. `connectDestroyed` takes a connection
that is up down, and removes its channel. -/
theorem server_calls_end_two_loops :
    (serverSys fun c => .ok ((if c.state = .kConnected then c.setState .kDisconnected else c).setChannel
        c.channel.disableAll.remove)).runFrom (World.new 0 ['h', ':', '1'] ['S'] false)
      [.newConnection 1 5, .newConnection 0 6, .runFunctor 1,
        .conn 0 (.poll { Events.kNoneEvent with pollhup := true }), .conn 0 (.next .eof (.accepts 0)),
        .conn 0 (.next .eof (.accepts 0)), .runFunctor 0, .destroyBegin, .runFunctor 1,
        .destroyEnd true, .conn 1 (.threadSend [1])] ≠ .error .destroyed := by
  refine server_calls_end (fun c c' hc hmem => ?_) 0 ['h', ':', '1'] ['S'] false _ (by decide +kernel)
    (by decide +kernel)
  obtain rfl := Except.ok.inj hc
  split at hmem
  · exact hmem
  · exact hmem

/-- A connection of another loop closes, and the server is destroyed before its loop
has run `removeConnectionInLoop`; a connection of another loop closes after the server
was destroyed and before its own loop has run `connectDestroyed`; and the callback that
tells the user of a close destroys the server. -/
theorem destroyed_server_called :
    [[.newConnection 1 5, .runFunctor 1,
        .conn 0 (.poll { Events.kNoneEvent with pollhup := true }), .conn 0 (.next .eof (.accepts 0)),
        .conn 0 (.next .eof (.accepts 0)), .destroyBegin, .destroyEnd true, .runFunctor 0],
      [.newConnection 1 5, .runFunctor 1, .destroyBegin, .destroyEnd false,
        .conn 0 (.poll { Events.kNoneEvent with pollhup := true }), .conn 0 (.next .eof (.accepts 0)),
        .conn 0 (.next .eof (.accepts 0))],
      [.newConnection 0 5, .conn 0 (.poll { Events.kNoneEvent with pollhup := true }),
        .conn 0 (.next .eof (.accepts 0)), .destroyBegin, .destroyEnd true,
        .conn 0 (.next .eof (.accepts 0))]].Forall fun acts =>
      (serverSys fun c => .ok (c.setChannel c.channel.remove)).Legal (World.new 0 [] [] false) acts ∧
      (serverSys fun c => .ok (c.setChannel c.channel.remove)).runFrom (World.new 0 [] [] false) acts =
        .error .destroyed :=
  ⟨⟨by decide +kernel, rfl⟩, ⟨by decide +kernel, rfl⟩, ⟨by decide +kernel, rfl⟩⟩

end Muduo.Server
