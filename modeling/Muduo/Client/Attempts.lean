import Mathlib.Data.List.TakeWhile
import Muduo.Client.Sockets

/-!
# One attempt at a time

A connector keeps one attempt in flight as long as one thing at most can start
the next one: a `startInLoop` on its way to the queue or in it, a retry timer,
or the attempt in flight itself (`tokens`). `stop` takes none of these away: it
cancels no timer, it leaves a connected connector connected, and `stopInLoop`
runs later than a `start` made in the loop thread. So a `start` that follows a
`stop` can find the connector in any state, and the assertions fail.

They hold in every run in which `start` is called only when nothing is left of
an earlier attempt, and in which the channel of an attempt that is over has
been reset before the next one begins (`Calm`).
-/

namespace Muduo.Client

open Lib

/-- What can still start an attempt, or is one. -/
def tokens (c : Connector) : Nat :=
  c.starting + c.pending.count .startInLoop + c.timers +
    if c.state = .kConnecting then 1 else 0

/-- `start` finds nothing of an earlier attempt, and no attempt begins before
the channel of the last one has been reset. -/
def Calm (c : Connector) : Act → Prop
  | .start _ => c.state = .kDisconnected ∧ tokens c = 0 ∧ .resetChannel ∉ c.pending
  | .threadStart => c.state = .kDisconnected ∧ tokens c = 0
  | .timer _ => .resetChannel ∉ c.pending
  | .restart _ => False
  | _ => True

instance decidableCalm (c : Connector) : ∀ a, Decidable (Calm c a)
  | .start _ => inferInstanceAs
      (Decidable (c.state = .kDisconnected ∧ tokens c = 0 ∧ .resetChannel ∉ c.pending))
  | .threadStart => inferInstanceAs (Decidable (c.state = .kDisconnected ∧ tokens c = 0))
  | .timer _ => inferInstanceAs (Decidable (Functor.resetChannel ∉ c.pending))
  | .restart _ => inferInstanceAs (Decidable False)
  | .stop | .threadStartPush | .threadStop | .threadStopPush | .runFunctor _ | .poll _
  | .next _ _ => inferInstanceAs (Decidable True)

/-- The queue from the first `startInLoop` on. -/
def after (q : List Functor) : List Functor := q.dropWhile (· ≠ .startInLoop)

theorem after_cons (f : Functor) (q : List Functor) :
    after (f :: q) = if f = .startInLoop then f :: q else after q := by
  by_cases hf : f = .startInLoop
  · simp [after, hf]
  · simp [after, hf]

theorem after_of_count {q : List Functor} (h : q.count .startInLoop = 0) : after q = [] := by
  refine List.dropWhile_eq_nil_iff.mpr fun f hf => decide_eq_true ?_
  rintro rfl
  exact List.count_eq_zero.mp h hf

theorem mem_after_append {r f : Functor} {q : List Functor} (h : r ∈ after (q ++ [f])) :
    r ∈ after q ∨ r = f := by
  induction q with
  | nil =>
      rw [List.nil_append, after_cons] at h
      split at h
      · exact .inr (List.mem_singleton.mp h)
      · exact absurd h (by simp [after])
  | cons g q ih =>
      rw [List.cons_append, after_cons] at h
      rw [after_cons]
      split
      · rename_i hg
        rw [if_pos hg] at h
        rcases List.mem_cons.mp h with h | h
        · exact .inl (h ▸ List.mem_cons_self)
        · rcases List.mem_append.mp h with h | h
          · exact .inl (List.mem_cons_of_mem g h)
          · exact .inr (List.mem_singleton.mp h)
      · rename_i hg
        rw [if_neg hg] at h
        exact ih h

structure Tokens (c : Connector) : Prop where
  one : tokens c ≤ 1
  settled : c.state = .kConnected → tokens c = 0
  /-- A queued `startInLoop` runs after the reset of the last channel. -/
  order : .resetChannel ∉ after c.pending
  write : .write ∈ c.todo → c.state ≠ .kConnected
  /-- The write callback is the last of a dispatch. -/
  last : .write ∉ c.todo.dropLast

/-! ## Where a step finds the connector -/

theorem tokens_eq {c c' : Connector} (h₁ : c'.starting = c.starting)
    (h₂ : c'.pending.count .startInLoop = c.pending.count .startInLoop)
    (h₃ : c'.timers = c.timers) (h₄ : c'.state = .kConnecting ↔ c.state = .kConnecting) :
    tokens c' = tokens c := by
  simp only [tokens, h₁, h₂, h₃, h₄]

/-- Something that can start an attempt is there, so no attempt is in flight. -/
theorem Tokens.disconnected {c : Connector} (h : Tokens c)
    (hpos : 0 < c.starting + c.pending.count .startInLoop + c.timers) :
    c.state = .kDisconnected := by
  have hone := h.one
  unfold tokens at hone
  cases hst : c.state with
  | kDisconnected => rfl
  | kConnecting =>
      rw [if_pos hst] at hone
      omega
  | kConnected =>
      have hzero := h.settled hst
      unfold tokens at hzero
      omega

/-- The last thing that could start an attempt has been used up for this one. -/
theorem Tokens.started {c c' : Connector} (hzero : tokens c = 0)
    (hd : c.state = .kDisconnected) (hlast : .write ∉ c.todo.dropLast)
    (hs : c' = c ∨ Tried c c' ∨ Began c c') : Tokens c' := by
  unfold tokens at hzero
  have hnone : after c.pending = [] := after_of_count (by omega)
  rcases hs with rfl | ht | hb
  · refine ⟨?_, fun hc => ?_, by rw [hnone]; simp, fun _ => by rw [hd]; simp, hlast⟩
    · unfold tokens
      omega
    · rw [hd] at hc
      exact absurd hc (by simp)
  · refine ⟨?_, fun hc => ?_, by rw [ht.pending, hnone]; simp, fun _ => by rw [ht.state]; simp,
      by rw [ht.todo]; exact hlast⟩
    · have := ht.timers
      rw [tokens, ht.starting, ht.pending, if_neg (by rw [ht.state]; simp)]
      omega
    · rw [ht.state] at hc
      exact absurd hc (by simp)
  · refine ⟨?_, fun hc => ?_, by rw [hb.pending, hnone]; simp, fun _ => by rw [hb.state]; simp,
      by rw [hb.todo]; exact hlast⟩
    · rw [tokens, hb.starting, hb.pending, hb.timers, if_pos hb.state]
      omega
    · rw [hb.state] at hc
      exact absurd hc (by simp)

/-- The end of an attempt leaves at most a retry timer. -/
theorem Tokens.left {c c' : Connector} {sockfd : Nat} (h : Tokens c)
    (hc : c.state = .kConnecting) (hl : Left sockfd c c')
    (hwrite : .write ∈ c'.todo → c'.state ≠ .kConnected) : Tokens c' := by
  have hone := h.one
  rw [tokens, if_pos hc] at hone
  have hcount : c'.pending.count .startInLoop = 0 := by
    rw [hl.pending, List.count_append]
    have : [Functor.resetChannel].count .startInLoop = 0 := rfl
    omega
  have hns : c'.state ≠ .kConnecting := by
    rcases hl.state with hst | ⟨hst, -⟩ <;> rw [hst] <;> simp
  refine ⟨?_, fun hst => ?_, by rw [after_of_count hcount]; simp, hwrite,
    by rw [hl.todo]; exact h.last⟩
  · have := hl.timers
    rw [tokens, hl.starting, hcount, if_neg hns]
    omega
  · rw [tokens, hl.starting, hcount, if_neg hns]
    rcases hl.state with hd | ⟨-, ht⟩
    · rw [hd] at hst
      exact absurd hst (by simp)
    · omega

/-- A step that changes nothing but the flag and the order of other calls. -/
theorem Tokens.frame {c c' : Connector} (h : Tokens c) (htok : tokens c' = tokens c)
    (hst : c'.state = c.state) (horder : .resetChannel ∉ after c'.pending)
    (htodo : c'.todo = c.todo) : Tokens c' where
  one := by rw [htok]; exact h.one
  settled := by rw [htok, hst]; exact h.settled
  order := horder
  write := by rw [htodo, hst]; exact h.write
  last := by rw [htodo]; exact h.last

theorem handleEvent_write_last (revents : Events) :
    .write ∉ (Connector.handleEvent revents).dropLast := by
  -- the write callback, when it is there at all, comes after one error callback at most
  have hshape : ∃ l, .write ∉ l ∧ (Connector.handleEvent revents = l ∨
      Connector.handleEvent revents = l ++ [.write]) := by
    refine ⟨if revents.pollerr || revents.pollnval then [.error] else [], ?_, ?_⟩
    · split <;> simp
    · unfold Connector.handleEvent Channel.handleEventWithGuard
      cases revents.pollout <;> cases revents.pollerr <;> cases revents.pollnval <;>
        split <;> split <;> simp
  obtain ⟨l, hl, heq | heq⟩ := hshape
  · rw [heq]
    exact fun hmem => hl (List.mem_of_mem_dropLast hmem)
  · rw [heq, List.dropLast_concat]
    exact hl

/-- The rest of a dispatch after its first callback. -/
theorem Tokens.pop {c : Connector} (h : Tokens c) {cb : Callback} {rest : List Callback}
    (htodo : c.todo = cb :: rest) : Tokens { c with todo := rest } := by
  refine ⟨h.one, h.settled, h.order, fun hmem => h.write ?_, fun hmem => h.last ?_⟩
  · rw [htodo]
    exact List.mem_cons_of_mem cb hmem
  · rw [htodo]
    cases rest with
    | nil => exact absurd hmem (by simp)
    | cons cb' rest => exact List.mem_cons_of_mem cb hmem

/-! ## Steps -/

/-- A functor other than `startInLoop` is queued. -/
theorem Tokens.queued {c c' : Connector} (h : Tokens c) {f : Functor} (hf : f = .stopInLoop)
    (hpe : c'.pending = c.pending ++ [f]) (hstart : c'.starting = c.starting)
    (hti : c'.timers = c.timers) (hst : c'.state = c.state) (htodo : c'.todo = c.todo) :
    Tokens c' := by
  subst hf
  refine h.frame (tokens_eq hstart ?_ hti (by rw [hst])) hst (fun hmem => ?_) htodo
  · rw [hpe, List.count_append]
    rfl
  · rw [hpe] at hmem
    rcases mem_after_append hmem with hmem | hmem
    · exact h.order hmem
    · exact absurd hmem (by simp)

/-- A thread queues the `startInLoop` it is about to queue. -/
theorem threadStartPush_tokens {c : Connector} (h : Tokens c) (hpos : 0 < c.starting) :
    Tokens ({ c with starting := c.starting - 1 }.queueInLoop .startInLoop) := by
  have hcount : (c.pending ++ [Functor.startInLoop]).count Functor.startInLoop =
      c.pending.count .startInLoop + 1 := by
    rw [List.count_append]
    rfl
  have htok : tokens ({ c with starting := c.starting - 1 }.queueInLoop .startInLoop) =
      tokens c := by
    unfold tokens Connector.queueInLoop
    dsimp only
    rw [hcount]
    omega
  refine h.frame htok rfl (fun hmem => ?_) rfl
  rcases mem_after_append hmem with hmem | hmem
  · exact h.order hmem
  · exact absurd hmem (by simp)

theorem runFunctor_tokens {c : Connector} (ha : Accounted c) (h : Tokens c)
    (savedErrno : Option Errno) (htodo : c.todo = []) :
    Lands (exec c (.runFunctor savedErrno)) Tokens := by
  simp only [exec]
  cases hpend : c.pending with
  | nil => exact .ok h
  | cons f rest =>
      dsimp only
      have horder := h.order
      rw [hpend, after_cons] at horder
      cases f with
      | startInLoop =>
          -- the queue holds no other, and no reset comes after it
          have hd : c.state = .kDisconnected := by
            refine h.disconnected ?_
            rw [hpend, List.count_cons_self]
            omega
          have hzero : tokens { c with pending := rest } = 0 := by
            have hone := h.one
            rw [tokens, hpend, List.count_cons_self] at hone
            unfold tokens
            dsimp only
            omega
          have hno : .resetChannel ∉ c.pending := by
            rw [hpend]
            exact horder
          have hnone : c.channel = none := ha.no_channel (by rw [hd]; simp) hno
          refine (startInLoop_lands (c := { c with pending := rest }) hd hnone savedErrno).mono ?_
          exact fun _ hs => Tokens.started hzero hd h.last hs
      | stopInLoop =>
          -- the loop is between dispatches, so no write callback is due
          have hpop : Tokens { c with pending := rest } :=
            h.frame (tokens_eq rfl (by rw [hpend]; rfl) rfl Iff.rfl) rfl horder rfl
          have ha' : Accounted { c with pending := rest } :=
            ha.frame Iff.rfl rfl rfl rfl rfl (by rw [hpend]; rfl)
          refine (Connector.stopInLoop_spec ha').mono fun c' hs => ?_
          rcases hs with rfl | ⟨hc, sockfd, hs, hl⟩
          · exact hpop
          · refine hpop.left hc hl fun hmem => ?_
            rw [hl.todo] at hmem
            exact absurd (htodo ▸ hmem : Callback.write ∈ []) (by simp)
      | resetChannel =>
          exact .ok (h.frame (tokens_eq rfl (by rw [hpend]; rfl) rfl Iff.rfl) rfl horder rfl)

/-- An error ends the attempt in flight as a failed one. -/
theorem handleError_disconnects {c : Connector} (h : Accounted c)
    (hc : c.state = .kConnecting) : Post c.handleError fun c' => c'.state = .kDisconnected := by
  obtain ⟨sockfd, hs⟩ := h.connecting hc
  unfold Connector.handleError
  rw [if_pos hc, Connector.removeAndResetChannel_of hs, ok_bind]
  exact .ok (Connector.retry_state _ sockfd)

theorem next_tokens {c : Connector} (ha : Accounted c) (h : Tokens c) (err selfConnect : Bool) :
    Lands (exec c (.next err selfConnect)) Tokens := by
  simp only [exec]
  cases htodo : c.todo with
  | nil => exact .ok h
  | cons cb rest =>
      dsimp only
      have hpop : Tokens { c with todo := rest } := h.pop htodo
      have ha' : Accounted { c with todo := rest } := ha.frame Iff.rfl rfl rfl rfl rfl rfl
      cases cb with
      | close => exact .ok hpop
      | read => exact .ok hpop
      | error =>
          obtain ⟨c', heq, hs⟩ := Connector.handleError_spec ha'
          refine ⟨c', heq, ?_⟩
          rcases hs with rfl | ⟨hc, sockfd, hs, hl⟩
          · exact hpop
          · refine hpop.left hc hl fun _ => ?_
            rw [handleError_disconnects ha' hc c' heq]
            simp
      | write =>
          -- nothing of the dispatch is left after it
          have hnil : rest = [] := by
            have hlast := h.last
            rw [htodo] at hlast
            cases rest with
            | nil => rfl
            | cons cb' rest => exact absurd List.mem_cons_self hlast
          show Lands (Connector.handleWrite _ err selfConnect) Tokens
          by_cases hc : c.state = .kConnecting
          · refine (Connector.handleWrite_connecting ha' hc err selfConnect).mono ?_
            rintro c' ⟨sockfd, hs, hl⟩
            refine hpop.left hc hl fun hmem => ?_
            rw [hl.todo] at hmem
            exact absurd (hnil ▸ hmem : Callback.write ∈ []) (by simp)
          · have hd : c.state = .kDisconnected := by
              have hnot := h.write (by rw [htodo]; exact List.mem_cons_self)
              cases hst : c.state with
              | kDisconnected => rfl
              | kConnecting => exact absurd hst hc
              | kConnected => exact absurd hst hnot
            unfold Connector.handleWrite
            rw [if_neg hc]
            exact .check_bind hd (.ok hpop)

theorem exec_tokens {c : Connector} (ha : Accounted c) (h : Tokens c) (a : Act)
    (hen : Enabled c a) (hcalm : Calm c a) : Lands (exec c a) Tokens := by
  cases a with
  | start savedErrno =>
      obtain ⟨hd, hzero, hno⟩ := hcalm
      have hnone : c.channel = none := ha.no_channel (by rw [hd]; simp) hno
      refine (startInLoop_lands (c := { c with connect := true }) hd hnone savedErrno).mono ?_
      exact fun _ hs => Tokens.started (c := { c with connect := true }) hzero hd h.last hs
  | stop => exact .ok (h.queued rfl rfl rfl rfl rfl rfl)
  | restart savedErrno => exact absurd hcalm id
  | threadStart =>
      -- the call itself is now the only thing that can start an attempt
      obtain ⟨hd, hzero⟩ := hcalm
      refine .ok ⟨?_, fun hst => ?_, h.order, h.write, h.last⟩
      · unfold tokens at hzero ⊢
        dsimp only
        omega
      · exact absurd (hd.symm.trans hst) (by simp)
  | threadStartPush => exact .ok (threadStartPush_tokens h hen)
  | threadStop => exact .ok (h.frame rfl rfl h.order rfl)
  | threadStopPush => exact .ok (h.queued rfl rfl rfl rfl rfl rfl)
  | runFunctor savedErrno => exact runFunctor_tokens ha h savedErrno hen.1
  | timer savedErrno =>
      -- the timer was the one token, and firing uses it up
      have hpos : 0 < c.timers := hen
      have hd : c.state = .kDisconnected := h.disconnected (by omega)
      have hnone : c.channel = none := ha.no_channel (by rw [hd]; simp) hcalm
      have hzero : tokens { c with timers := c.timers - 1 } = 0 := by
        have hone := h.one
        unfold tokens at hone ⊢
        dsimp only
        omega
      refine (startInLoop_lands (c := { c with timers := c.timers - 1 }) hd hnone savedErrno).mono
        ?_
      exact fun _ hs => Tokens.started hzero hd h.last hs
  | poll revents =>
      obtain ⟨-, ch, hch, hadded, -⟩ := hen
      -- a registered channel is the channel of the attempt in flight
      have hc : c.state = .kConnecting := by
        by_contra hc
        rw [ha.idle hc ch hch] at hadded
        exact absurd hadded (by simp)
      refine .ok ⟨h.one, h.settled, h.order, fun _ => ?_, handleEvent_write_last revents⟩
      show c.state ≠ .kConnected
      rw [hc]
      simp
  | next err selfConnect => exact next_tokens ha h err selfConnect

theorem new_tokens : Tokens Connector.new :=
  ⟨Nat.zero_le 1, fun _ => rfl, by decide, by decide, by decide⟩

/-! ## Runs -/

/-- The socket of an attempt: created, and neither closed nor handed on. -/
def InFlight (c : Connector) (sockfd : Nat) : Prop :=
  sockfd < c.sockets ∧ sockfd ∉ c.closed ∧ sockfd ∉ c.passed

/-- A socket in flight is the socket of the channel. -/
theorem Accounted.inFlight {c : Connector} (h : Accounted c) {sockfd : Nat}
    (hf : InFlight c sockfd) : sockfd ∈ live c := by
  have hmem := h.all.mem_iff.mpr (List.mem_range.mpr hf.1)
  rcases List.mem_append.mp hmem with hmem | hmem
  · exact hmem
  · rcases List.mem_append.mp hmem with hmem | hmem
    · exact absurd hmem hf.2.1
    · exact absurd hmem hf.2.2

theorem Accounted.inFlight_unique {c : Connector} (h : Accounted c) {i j : Nat}
    (hi : InFlight c i) (hj : InFlight c j) : i = j := by
  have hi' := h.inFlight hi
  have hj' := h.inFlight hj
  by_cases hc : c.state = .kConnecting
  · obtain ⟨sockfd, hs⟩ := h.connecting hc
    rw [live_of_connecting hc hs, List.mem_singleton] at hi' hj'
    rw [hi', hj']
  · rw [live_of_not_connecting hc] at hi'
    exact absurd hi' (by simp)

/-- **One attempt at a time.** In every run in which `start` is called only when
nothing is left of an earlier attempt, and in which no attempt begins before the
last channel has been reset, no assertion fails, and at every point at most one
socket is in flight. -/
theorem attempts_one_at_a_time (acts : List Act) (h : connectorSys.Legal Connector.new acts)
    (hcalm : connectorSys.Meets Calm Connector.new acts) :
    Lands (connectorSys.runFrom Connector.new acts) fun c =>
      ∀ i j, InFlight c i → InFlight c j → i = j := by
  have hstep : ∀ c a, (Accounted c ∧ Tokens c) → connectorSys.enabled c a ∧ Calm c a →
      Lands (connectorSys.exec c a) fun c' => Accounted c' ∧ Tokens c' := by
    intro c a hc ha
    obtain ⟨c', heq, htok⟩ := exec_tokens hc.1 hc.2 a ha.1 ha.2
    exact ⟨c', heq, exec_accounted hc.1 a ha.1 c' heq, htok⟩
  have hrun := Sys.invariant_lands (S := connectorSys) hstep ⟨new_accounted, new_tokens⟩
    (Sys.meets_and.mpr ⟨h, hcalm⟩)
  exact hrun.mono fun c hc i j hi hj => hc.1.inFlight_unique hi hj

/-- A refused attempt and its retry, which a `stop` abandons; then a `start` in
another thread, while the abandoned channel waits for its reset, that succeeds. -/
theorem attempts_one_at_a_time_after_stop :
    Lands (connectorSys.runFrom Connector.new
      [.start (some .ECONNREFUSED), .timer (some .EINPROGRESS), .threadStop, .threadStopPush,
        .runFunctor none, .threadStart, .threadStartPush, .runFunctor none,
        .runFunctor (some .EINPROGRESS),
        .poll { Events.kNoneEvent with pollout := true }, .next false false]) fun c =>
      ∀ i j, InFlight c i → InFlight c j → i = j :=
  attempts_one_at_a_time _ (by decide +kernel) (by decide +kernel)

/-- Each `start` is the first one, or follows a `stop` made since the last one
(`ready`); `restart` is not called. -/
def StartsAlternate : (ready : Bool) → List Act → Bool
  | _, [] => true
  | ready, .start _ :: as | ready, .threadStart :: as => ready && StartsAlternate false as
  | _, .stop :: as | _, .threadStop :: as => StartsAlternate true as
  | _, .restart _ :: _ => false
  | ready, _ :: as => StartsAlternate ready as

/-- The run is one the connector is offered, and it fails the assertion. -/
def Fails (acts : List Act) (e : Assert) : Prop :=
  connectorSys.Legal Connector.new acts ∧ StartsAlternate true acts = true ∧
    connectorSys.runFrom Connector.new acts = .error e

/-- A `start` after a `stop` fails the assertions: inline before the queued
`stopInLoop`; inline after it, before the channel has been reset; once the
connection has been made; and by the timer that the `stop` did not cancel. -/
theorem start_after_stop_asserts :
    Fails [.start (some .EINPROGRESS), .stop, .start (some .EINPROGRESS)] .startInLoopState ∧
    Fails [.start (some .EINPROGRESS), .stop, .runFunctor none, .start (some .EINPROGRESS)]
      .connectingChannel ∧
    Fails [.start (some .EINPROGRESS), .poll { Events.kNoneEvent with pollout := true },
      .next false false, .runFunctor none, .stop, .runFunctor none, .start none]
      .startInLoopState ∧
    Fails [.start (some .ECONNREFUSED), .stop, .runFunctor none, .start (some .EINPROGRESS),
      .timer none] .startInLoopState :=
  ⟨⟨by decide +kernel, rfl, rfl⟩, ⟨by decide +kernel, rfl, rfl⟩, ⟨by decide +kernel, rfl, rfl⟩,
    ⟨by decide +kernel, rfl, rfl⟩⟩

end Muduo.Client
