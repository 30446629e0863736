import Muduo.Connection.Link

/-!
# What is sent is received

The output path of one end, the bytes in flight and the input path of the other end make one
stream: the bytes the user has taken, the input buffer, the bytes in flight and the output
buffer are, in this order, what was given to `sendInLoop`. Its one leak is that of the
output buffer (`WholeDrain`).

A reader that finds nothing more in flight after a `shutdownWrite` has everything that was
sent before.
-/

namespace Muduo.Connection

open Lib Buffer

/-- A condition on the steps of the connections. -/
def OnConn (ok : Conn → Act → Prop) (l : Link) : LinkAct → Prop
  | ⟨s, .conn a⟩ => ok (l.get s).conn a
  | _ => True

instance (ok : Conn → Act → Prop) [∀ c a, Decidable (ok c a)] (l : Link) :
    ∀ a, Decidable (OnConn ok l a)
  | ⟨s, .conn a⟩ => inferInstanceAs (Decidable (ok (l.get s).conn a))
  | ⟨_, .read _ _⟩ | ⟨_, .call _⟩ => inferInstanceAs (Decidable True)

/-- All that has been given to the `sendInLoop` of its peer, by where it is. -/
def Transfer (l : Link) (s : Side) : Prop :=
  (l.get s).retrieved ++ (l.get s).inputBuffer.readable ++ l.inFlight s ++
    (l.get s.peer).conn.outputBuffer.readable = passed (l.get s.peer).conn.trace

instance (l : Link) (s : Side) : Decidable (Transfer l s) := inferInstanceAs (Decidable (_ = _))

/-- Both output paths are whole. -/
def Streams (l : Link) : Prop := ∀ s, Stream (l.get s).conn

section Steps

variable {e e' : Endpoint} {l : Link}

/-- What a step of an end does to its connection. -/
theorem Endpoint.exec_cases {a : EndAct} (h : e.exec a = .ok e') :
    (∃ act, a = .conn act ∧ Connection.exec e.conn act = .ok e'.conn) ∨
      (∃ extrabuf r result, a = .read extrabuf r ∧
        Connection.exec e.conn (.next result (.accepts 0)) = .ok e'.conn) ∨
      (∃ c, a = .call c ∧ e'.conn = e.conn) := by
  cases a with
  | conn act =>
      obtain ⟨conn, hexec, he'⟩ := bind_eq_ok h
      obtain rfl := Except.ok.inj he'
      exact .inl ⟨act, rfl, mapError_eq_ok hexec⟩
  | read extrabuf r =>
      obtain ⟨out, -, he'⟩ := bind_eq_ok h
      obtain ⟨conn, hexec, he'⟩ := bind_eq_ok he'
      obtain rfl := Except.ok.inj he'
      exact .inr (.inl ⟨extrabuf, r, _, rfl, mapError_eq_ok hexec⟩)
  | call c =>
      obtain ⟨b, -, he'⟩ := bind_eq_ok h
      obtain rfl := Except.ok.inj he'
      exact .inr (.inr ⟨c, rfl, rfl⟩)

theorem noReset_read (c : Conn) (result : ReadResult) : NoReset c (.next result (.accepts 0)) :=
  ⟨by simp [Act.write?], by simp [Act.write?]⟩

/-- The read callback drains nothing. -/
theorem wholeDrain_read (h : e.Reads) (result : ReadResult) (wr : WriteResult) :
    WholeDrain e.conn (.next result wr) := by
  have hdrain : drain? e.conn (.next result wr) = none := by
    refine if_neg fun hwrite => ?_
    rw [show e.conn.todo.head? = some (.callback .read) from h] at hwrite
    exact absurd hwrite.1 (by simp)
  unfold WholeDrain
  rw [hdrain]
  trivial

theorem LinkInv.transfer_iff (h : LinkInv l) : (∀ s, Transfer l s) ↔ Streams l := by
  have hiff : ∀ s, Transfer l s ↔ Stream (l.get s.peer).conn := by
    intro s
    unfold Transfer Link.inFlight
    rw [(h s).whole]
    rfl
  constructor
  · intro htransfer s
    have := (hiff s.peer).mp (htransfer s.peer)
    rwa [Side.peer_peer] at this
  · exact fun hstreams s => (hiff s).mpr (hstreams s.peer)

/-- A property of both connections, after a step of one of them. -/
theorem forall_set_iff {P : Conn → Prop} (h : ∀ s, P (l.get s).conn) (s : Side) (e : Endpoint) :
    (∀ t, P ((l.set e s).get t).conn) ↔ P e.conn := by
  constructor
  · intro hset
    have := hset s
    rwa [Link.get_set] at this
  · intro he t
    rcases s.eq_or_eq_peer t with rfl | rfl
    · rw [Link.get_set]
      exact he
    · rw [Link.get_set_peer]
      exact h s.peer

theorem exec_streams (h : Streams l) {a : LinkAct} (ha : l.Enabled a) (hno : OnConn NoReset l a) :
    Post (l.exec a) fun l' => (Streams l' ↔ OnConn WholeDrain l a) := by
  intro l' hl'
  obtain ⟨s, act⟩ := a
  obtain ⟨e, he, hl'⟩ := bind_eq_ok hl'
  obtain rfl := Except.ok.inj hl'
  refine (forall_set_iff h s e).trans ?_
  rcases Endpoint.exec_cases he with ⟨act, rfl, hexec⟩ | ⟨extrabuf, r, result, rfl, hexec⟩ |
    ⟨c, rfl, hconn⟩
  · exact exec_stream_iff _ act (h s) hno _ hexec
  · have hiff := exec_stream_iff _ _ (h s) (noReset_read _ result) _ hexec
    exact iff_of_true (hiff.mpr (wholeDrain_read ha.1 result _)) trivial
  · rw [hconn]
    exact iff_of_true (h s) trivial

theorem wholeDrain_of_exec_error {a : LinkAct} {f : Fault} (h : l.exec a = .error f) :
    OnConn WholeDrain l a := by
  obtain ⟨s, act⟩ := a
  cases act with
  | conn act =>
      rcases bind_eq_error h with herr | ⟨e, -, herr⟩
      · rcases bind_eq_error herr with herr | ⟨c, -, herr⟩
        · show WholeDrain (l.get s).conn act
          cases hexec : Connection.exec (l.get s).conn act with
          | ok c => exact absurd herr (by simp [hexec, Except.mapError])
          | error e => exact wholeDrain_of_error hexec
        · exact absurd herr (by simp [pure, Except.pure])
      · exact absurd herr (by simp [pure, Except.pure])
  | read extrabuf r => trivial
  | call c => trivial

end Steps

theorem new_streams (left right : Config) : Streams (.new left right) := by
  have hnew : ∀ cfg : Config, Stream cfg.conn := by
    intro cfg
    show [] ++ (Buffer.Valid.fresh kInitialSize).readable = []
    rw [Buffer.Valid.readable_fresh, List.append_nil]
  intro s
  cases s with
  | left => exact hnew left
  | right => exact hnew right

/-- **Lossless transfer, exactly.** In a run of the two connections in which no write fails
with `EPIPE` or `ECONNRESET`: at every point, in both directions, the bytes that the user has
taken, the input buffer, the bytes in flight and the output buffer are what was given to
`sendInLoop`, if and only if every draining write took nothing or everything. -/
theorem transfer_lossless_iff (left right : Config) (acts : List LinkAct)
    (hlegal : linkSys.Legal (.new left right) acts)
    (hno : linkSys.Meets (OnConn NoReset) (.new left right) acts) :
    (∀ p, p <+: acts →
      Post (linkSys.runFrom (.new left right) p) fun l => ∀ s, Transfer l s) ↔
    linkSys.Meets (OnConn WholeDrain) (.new left right) acts := by
  have hinv := new_linkInv left right
  refine Sys.always_iff_meets_of_invariant (S := linkSys) (I := LinkInv) ?_ ?_ ?_ hinv
    (hinv.transfer_iff.mpr (new_streams left right)) (Sys.meets_and.mpr ⟨hlegal, hno⟩)
  · intro l a h hok
    exact (exec_linkInv h hok.1).1
  · intro l a h htransfer hok l' hl'
    have h' : LinkInv l' := (exec_linkInv h hok.1).1 l' hl'
    exact h'.transfer_iff.trans (exec_streams (h.transfer_iff.mp htransfer) hok.1 hok.2 l' hl')
  · intro l a f _ _ herr
    exact wholeDrain_of_exec_error herr

/-- The user reads while one byte is in flight and another waits for a write event. -/
theorem transfer_lossless_iff_buffered :
    Lands (linkSys.runFrom (.new ⟨5, false, false, 64⟩ ⟨6, false, false, 64⟩)
      [⟨.left, .conn (.send [1, 2, 3] (.accepts 2))⟩,
        ⟨.right, .conn (.poll { Events.kNoneEvent with pollin := true })⟩,
        ⟨.right, .read ⟨List.replicate extrabufSize 0, List.length_replicate⟩ (.receives [1])⟩,
        ⟨.left, .conn (.handleWrite (.accepts 9))⟩]) fun l => ∀ s, Transfer l s := by
  have hspec := (transfer_lossless_iff ⟨5, false, false, 64⟩ ⟨6, false, false, 64⟩
    [⟨.left, .conn (.send [1, 2, 3] (.accepts 2))⟩,
      ⟨.right, .conn (.poll { Events.kNoneEvent with pollin := true })⟩,
      ⟨.right, .read ⟨List.replicate extrabufSize 0, List.length_replicate⟩ (.receives [1])⟩,
      ⟨.left, .conn (.handleWrite (.accepts 9))⟩] (by decide +kernel) (by decide +kernel)).mpr
    (by decide +kernel) _ (List.prefix_refl _)
  have hreturns : Lands (linkSys.runFrom (.new ⟨5, false, false, 64⟩ ⟨6, false, false, 64⟩)
      [⟨.left, .conn (.send [1, 2, 3] (.accepts 2))⟩,
        ⟨.right, .conn (.poll { Events.kNoneEvent with pollin := true })⟩,
        ⟨.right, .read ⟨List.replicate extrabufSize 0, List.length_replicate⟩ (.receives [1])⟩,
        ⟨.left, .conn (.handleWrite (.accepts 9))⟩]) fun _ => True := by decide +kernel
  obtain ⟨l, hl, -⟩ := hreturns
  exact ⟨l, hl, hspec l hl⟩

/-! ## Graceful shutdown -/

/-- Where the write side was shut down, everything passed before had been written. -/
structure Closing (c : Conn) : Prop where
  stream : Stream c
  interest : InterestInv c
  whole : ∀ t n t', c.trace = t ++ .shutdownWrite n :: t' → accepted t' = passed t'

theorem exec_closing {c : Conn} (h : Closing c) {a : Act} (hen : Enabled c a) (hno : NoReset c a)
    (hwhole : WholeDrain c a) (hrest : Restful c a) : Post (exec c a) Closing := by
  intro c' hc'
  have hstream := (exec_stream_iff c a h.stream hno c' hc').mpr hwhole
  have hinterest := exec_interest h.interest a hen hrest c' hc'
  obtain ⟨t, ht, hadds⟩ := exec_adds c a c' hc'
  refine ⟨hstream, hinterest, fun u n v hsplit => ?_⟩
  have hempty : n = 0 := by
    refine hinterest.empty n ((mem_finTrace rfl).mpr ?_)
    rw [hsplit]
    exact List.mem_append_right u List.mem_cons_self
  rw [ht] at hsplit
  rcases List.append_eq_append_iff.mp hsplit with ⟨w, -, hw⟩ | ⟨w, hw, hv⟩
  · exact h.whole w n v hw
  · cases w with
    | nil => exact h.whole [] n v hv.symm
    | cons o w =>
        obtain ⟨rfl, rfl⟩ := List.cons.inj hv
        exact hadds h.stream hstream u n w hw hempty

theorem Config.closing (cfg : Config) : Closing cfg.conn := by
  refine ⟨?_, established_interest _ rfl, fun t n t' hsplit => ?_⟩
  · show [] ++ (Buffer.Valid.fresh kInitialSize).readable = []
    rw [Buffer.Valid.readable_fresh, List.append_nil]
  · have hmem : Obs.shutdownWrite n ∈ cfg.conn.trace := by
      rw [hsplit]
      exact List.mem_append_right t List.mem_cons_self
    exact absurd (List.mem_singleton.mp hmem) (by simp)

/-- No write fails with a reset, the drains are whole, and the connection is left alone once it
is down. -/
def Quiet (c : Conn) (a : Act) : Prop := NoReset c a ∧ WholeDrain c a ∧ Restful c a

instance (c : Conn) (a : Act) : Decidable (Quiet c a) := inferInstanceAs (Decidable (_ ∧ _))

theorem exec_closings {l : Link} (h : ∀ s, Closing (l.get s).conn) {a : LinkAct}
    (ha : l.Enabled a) (hquiet : OnConn Quiet l a) :
    Post (l.exec a) fun l' => ∀ s, Closing (l'.get s).conn := by
  intro l' hl'
  obtain ⟨s, act⟩ := a
  obtain ⟨e, he, hl'⟩ := bind_eq_ok hl'
  obtain rfl := Except.ok.inj hl'
  refine (forall_set_iff h s e).mpr ?_
  rcases Endpoint.exec_cases he with ⟨act, rfl, hexec⟩ | ⟨extrabuf, r, result, rfl, hexec⟩ |
    ⟨c, rfl, hconn⟩
  · obtain ⟨hno, hwhole, hrest⟩ := hquiet
    exact exec_closing (h s) ha.1 hno hwhole hrest _ hexec
  · have hreads : (l.get s).Reads := ha.1
    have hen : Enabled (l.get s).conn (.next result (.accepts 0)) := by
      intro hnone
      rw [Endpoint.Reads, hnone] at hreads
      exact absurd hreads (by simp)
    exact exec_closing (h s) hen (noReset_read _ _) (wholeDrain_read hreads _ _)
      (fun _ => ⟨rfl, fun hruns => absurd hruns (by simp [runsShutdown])⟩) _ hexec
  · rw [hconn]
    exact h s

/-- **Graceful shutdown delivers.** In every run of the two connections whose steps are quiet:
where the peer has called `shutdownWrite` and nothing is in flight any more, which is where
`readv` may return 0, everything that was given to the peer's `sendInLoop` before that call
has been received. -/
theorem shutdown_delivers (left right : Config) (acts : List LinkAct)
    (hlegal : linkSys.Legal (.new left right) acts)
    (hquiet : linkSys.Meets (OnConn Quiet) (.new left right) acts) :
    Post (linkSys.runFrom (.new left right) acts) fun l => ∀ s t n t',
      (l.get s.peer).conn.trace = t ++ .shutdownWrite n :: t' → l.inFlight s = [] →
        passed t' <+: (l.get s).retrieved ++ (l.get s).inputBuffer.readable := by
  have hnew : ∀ s, Closing ((Link.new left right).get s).conn := by
    intro s
    cases s with
    | left => exact left.closing
    | right => exact right.closing
  have hinv : Post (linkSys.runFrom (.new left right) acts) fun l =>
      LinkInv l ∧ ∀ s, Closing (l.get s).conn := by
    refine Sys.invariant_post (S := linkSys) ?_ ⟨new_linkInv left right, hnew⟩
      (Sys.meets_and.mpr ⟨hlegal, hquiet⟩)
    rintro l a ⟨h, hclosing⟩ ⟨ha, hq⟩ l' hl'
    exact ⟨(exec_linkInv h ha).1 l' hl', exec_closings hclosing ha hq l' hl'⟩
  refine hinv.mono ?_
  rintro l ⟨h, hclosing⟩ s t n t' hsplit hflight
  have hread := (h s).whole
  rw [show (accepted (l.get s.peer).conn.trace).drop (l.get s).received = [] from hflight,
    List.append_nil] at hread
  rw [hread, ← (hclosing s.peer).whole t n t' hsplit, hsplit, accepted_append]
  exact List.prefix_append _ _

/-- A shutdown that waits for the output; the peer reads what was sent and takes a part of
it. -/
theorem shutdown_delivers_drained :
    Lands (linkSys.runFrom (.new ⟨5, false, false, 64⟩ ⟨6, false, false, 64⟩)
      [⟨.left, .conn (.send [1, 2, 3] (.accepts 2))⟩, ⟨.left, .conn .shutdown⟩,
        ⟨.left, .conn (.handleWrite (.accepts 9))⟩,
        ⟨.right, .conn (.poll { Events.kNoneEvent with pollin := true })⟩,
        ⟨.right, .read ⟨List.replicate extrabufSize 0, List.length_replicate⟩
          (.receives [1, 2, 3])⟩,
        ⟨.right, .call (.retrieve 1)⟩]) fun l =>
      [1, 2, 3] <+: (l.get .right).retrieved ++ (l.get .right).inputBuffer.readable := by
  have hspec := shutdown_delivers ⟨5, false, false, 64⟩ ⟨6, false, false, 64⟩
    [⟨.left, .conn (.send [1, 2, 3] (.accepts 2))⟩, ⟨.left, .conn .shutdown⟩,
      ⟨.left, .conn (.handleWrite (.accepts 9))⟩,
      ⟨.right, .conn (.poll { Events.kNoneEvent with pollin := true })⟩,
      ⟨.right, .read ⟨List.replicate extrabufSize 0, List.length_replicate⟩
        (.receives [1, 2, 3])⟩,
      ⟨.right, .call (.retrieve 1)⟩] (by decide +kernel) (by decide +kernel)
  have hrun : Lands (linkSys.runFrom (.new ⟨5, false, false, 64⟩ ⟨6, false, false, 64⟩)
      [⟨.left, .conn (.send [1, 2, 3] (.accepts 2))⟩, ⟨.left, .conn .shutdown⟩,
        ⟨.left, .conn (.handleWrite (.accepts 9))⟩,
        ⟨.right, .conn (.poll { Events.kNoneEvent with pollin := true })⟩,
        ⟨.right, .read ⟨List.replicate extrabufSize 0, List.length_replicate⟩
          (.receives [1, 2, 3])⟩,
        ⟨.right, .call (.retrieve 1)⟩]) fun l =>
      (l.get .left).conn.trace = [] ++ .shutdownWrite 0 :: (l.get .left).conn.trace.tail ∧
        passed (l.get .left).conn.trace.tail = [1, 2, 3] ∧ l.inFlight .right = [] := by
    decide +kernel
  obtain ⟨l, hl, hsplit, hpassed, hflight⟩ := hrun
  refine ⟨l, hl, ?_⟩
  rw [← hpassed]
  exact hspec l hl .right [] 0 _ hsplit hflight

end Muduo.Connection
