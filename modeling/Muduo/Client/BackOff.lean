import Muduo.Client.Stop

/-!
# The delays of a connector

`retry` waits before the next attempt: `M_retryDelayMs`, which it then doubles, up to a
largest delay. Only `restart` sets it back; a `start`, after a `stop` or not, goes on where
the delays have got to.
-/

namespace Muduo.Client

open Lib Connector

/-- The delay before attempt `n + 1` to connect again. -/
def backOff (n : Nat) : Nat := min (kInitRetryDelayMs * 2 ^ n) kMaxRetryDelayMs

theorem backOff_succ (n : Nat) : backOff (n + 1) = min (backOff n * 2) kMaxRetryDelayMs := by
  unfold backOff kInitRetryDelayMs kMaxRetryDelayMs
  rw [Nat.pow_succ]
  omega

/-- A connector, and the delays it has passed to `runAfter` since it was made, or since
`restart` was called. -/
structure Retrying where
  run : Interleaved
  delays : List Nat

namespace Retrying

def new : Retrying := ⟨.new, []⟩

/-- The delays, with the one that the step passes to `runAfter`. -/
def delaysAfter (r : Retrying) : Step → List Nat
  | .act a => if a.restarts = true then [] else r.delays
  | .proceed =>
      if r.run.decided = some .runAfter then r.delays ++ [r.run.conn.retryDelayMs] else r.delays

def exec (r : Retrying) (a : Step) : Except Assert Retrying := do
  let s ← r.run.exec a
  return ⟨s, r.delaysAfter a⟩

end Retrying

def retryingSys : Sys Retrying Step Assert := ⟨fun r a => r.run.Enabled a, Retrying.exec⟩

instance (r : Retrying) (a : Step) : Decidable (retryingSys.enabled r a) :=
  r.run.decidableEnabled a

/-! ## What a function does to the delay -/

section Delay

variable (s : Interleaved) (c : Connector)

theorem retry_delay (sockfd : Nat) : (s.retry c sockfd).conn.retryDelayMs = c.retryDelayMs := by
  unfold Interleaved.retry
  dsimp only
  split
  · rfl
  · rfl

theorem startInLoop_delay (savedErrno : Option Errno) :
    Post (s.startInLoop c savedErrno) fun s' => s'.conn.retryDelayMs = c.retryDelayMs := by
  refine .check_bind fun _ => .ok ?_
  split
  · rfl
  · rfl

theorem removeAndResetChannel_delay :
    Post c.removeAndResetChannel fun r => r.1.retryDelayMs = c.retryDelayMs := by
  unfold Connector.removeAndResetChannel
  split
  · exact fun r hr => absurd hr (by simp)
  · exact .ok rfl

theorem doConnect_delay (savedErrno : Option Errno) :
    Post (s.doConnect c savedErrno) fun s' => s'.conn.retryDelayMs = c.retryDelayMs := by
  unfold Interleaved.doConnect
  dsimp only
  split
  · refine Post.bind (P := fun c' => c'.retryDelayMs = c.retryDelayMs) ?_ fun c' hc' => .ok hc'
    unfold Connector.connecting
    exact .check_bind fun _ => .ok rfl
  · exact .ok (retry_delay s _ _)
  · exact .ok rfl

theorem stopInLoop_delay :
    Post (s.stopInLoop c) fun s' => s'.conn.retryDelayMs = c.retryDelayMs := by
  unfold Interleaved.stopInLoop
  split
  · refine (removeAndResetChannel_delay _).bind fun r hr => .ok ?_
    exact (retry_delay s r.1 r.2).trans hr
  · exact .ok rfl

theorem handleError_delay :
    Post (s.handleError c) fun s' => s'.conn.retryDelayMs = c.retryDelayMs := by
  unfold Interleaved.handleError
  split
  · refine (removeAndResetChannel_delay _).bind fun r hr => .ok ?_
    exact (retry_delay s r.1 r.2).trans hr
  · exact .ok rfl

theorem handleWrite_delay (err selfConnect : Bool) :
    Post (s.handleWrite c err selfConnect) fun s' => s'.conn.retryDelayMs = c.retryDelayMs := by
  unfold Interleaved.handleWrite
  split
  · refine (removeAndResetChannel_delay _).bind fun r hr => ?_
    dsimp only
    split
    · exact .ok ((retry_delay s r.1 r.2).trans hr)
    · split
      · exact .ok ((retry_delay s r.1 r.2).trans hr)
      · split
        · exact .ok hr
        · exact .ok hr
  · exact .check_bind fun _ => .ok rfl

/-- Of the operations only `restart` sets the delay. -/
theorem begin_delay (a : Act) : Post (s.begin a) fun s' => s'.conn.retryDelayMs =
    if a.restarts = true then kInitRetryDelayMs else s.conn.retryDelayMs := by
  cases a with
  | start savedErrno | restart savedErrno => exact .ok rfl
  | stop | threadStart | threadStartPush | threadStop | threadStopPush | poll revents =>
      exact .ok rfl
  | timer savedErrno => exact startInLoop_delay s _ savedErrno
  | runFunctor savedErrno =>
      simp only [Interleaved.begin]
      cases hpending : s.conn.pending with
      | nil => exact .ok rfl
      | cons f rest =>
          cases f with
          | startInLoop => exact startInLoop_delay s _ savedErrno
          | stopInLoop => exact stopInLoop_delay s _
          | resetChannel => exact .ok rfl
  | next err selfConnect =>
      simp only [Interleaved.begin]
      cases htodo : s.conn.todo with
      | nil => exact .ok rfl
      | cons cb rest =>
          cases cb with
          | error => exact handleError_delay s _
          | write => exact handleWrite_delay s _ err selfConnect
          | close | read => exact .ok rfl

/-- And behind the tests only `runAfter`. -/
theorem proceed_delay : Post s.proceed fun s' => s'.conn.retryDelayMs =
    if s.decided = some .runAfter then min (s.conn.retryDelayMs * 2) kMaxRetryDelayMs
    else s.conn.retryDelayMs := by
  unfold Interleaved.proceed
  split
  · rename_i hnone
    rw [hnone]
    exact .ok rfl
  · rename_i savedErrno hstart
    rw [hstart]
    exact startInLoop_delay s s.conn savedErrno
  · rename_i savedErrno hconnect
    rw [hconnect]
    exact doConnect_delay s s.conn savedErrno
  · rename_i hafter
    rw [hafter]
    exact .ok rfl
  · rename_i sockfd hpassed
    rw [hpassed]
    exact .ok rfl

end Delay

/-! ## The delays of a run -/

/-- The delays so far, and the next one. -/
structure BackOffInv (r : Retrying) : Prop where
  next : r.run.conn.retryDelayMs = backOff r.delays.length
  delays : r.delays = (List.range r.delays.length).map backOff

theorem BackOffInv.appended {r : Retrying} (h : BackOffInv r) :
    r.delays ++ [r.run.conn.retryDelayMs] =
      (List.range (r.delays.length + 1)).map backOff := by
  rw [List.range_succ, List.map_append, ← h.delays, h.next]
  rfl

theorem exec_backOff {r : Retrying} (h : BackOffInv r) (a : Step) :
    Post (r.exec a) BackOffInv := by
  cases a with
  | act a =>
      refine (begin_delay r.run a).bind fun s hs => .ok ?_
      by_cases hrestart : a.restarts = true
      · rw [if_pos hrestart] at hs
        have hnone : r.delaysAfter (.act a) = [] := if_pos hrestart
        refine ⟨?_, ?_⟩
        · rw [hs, hnone]
          rfl
        · rw [hnone]
          rfl
      · rw [if_neg hrestart] at hs
        have hsame : r.delaysAfter (.act a) = r.delays := if_neg hrestart
        refine ⟨?_, ?_⟩
        · rw [hs, hsame, h.next]
        · rw [hsame]
          exact h.delays
  | proceed =>
      refine (proceed_delay r.run).bind fun s hs => .ok ?_
      by_cases hafter : r.run.decided = some .runAfter
      · rw [if_pos hafter] at hs
        have hlonger : r.delaysAfter .proceed = r.delays ++ [r.run.conn.retryDelayMs] :=
          if_pos hafter
        have hlength : (r.delaysAfter .proceed).length = r.delays.length + 1 := by
          rw [hlonger, List.length_append, List.length_singleton]
        refine ⟨?_, ?_⟩
        · show s.conn.retryDelayMs = _
          rw [hs, hlength, backOff_succ, h.next]
        · show r.delaysAfter .proceed = _
          rw [hlength, hlonger, h.appended]
      · rw [if_neg hafter] at hs
        have hsame : r.delaysAfter .proceed = r.delays := if_neg hafter
        refine ⟨?_, ?_⟩
        · rw [hs, hsame, h.next]
        · rw [hsame]
          exact h.delays

/-- **Retries back off.** In every run, whatever other threads do in between, the delays
before the attempts since the connector was made, or since the last `restart`, are 500,
1000, 2000 and so on milliseconds, doubled each time, up to 30 seconds: neither `stop` nor
`start` sets them back. -/
theorem retries_back_off (acts : List Step) (hlegal : retryingSys.Legal .new acts) :
    Post (retryingSys.runFrom .new acts) fun r =>
      r.delays = (List.range r.delays.length).map backOff :=
  (Sys.invariant_post (S := retryingSys) (I := BackOffInv)
    (fun _ a h _ => exec_backOff h a) ⟨rfl, rfl⟩ hlegal).mono fun _ h => h.delays

/-- Refused twice, stopped, and started again by another thread: the third delay is the
fourfold one. -/
theorem retries_back_off_after_stop :
    Lands (retryingSys.runFrom .new
      [.act (.start (some .ECONNREFUSED)), .proceed, .proceed, .proceed,
        .act (.timer (some .ECONNREFUSED)), .proceed, .proceed, .act .threadStop,
        .act .threadStopPush, .act (.runFunctor none), .act .threadStart, .act .threadStartPush,
        .act (.runFunctor (some .ECONNREFUSED)), .proceed, .proceed]) fun r =>
      r.delays.length = 3 ∧ r.delays = (List.range r.delays.length).map backOff := by
  have hrun : Lands (retryingSys.runFrom .new
      [.act (.start (some .ECONNREFUSED)), .proceed, .proceed, .proceed,
        .act (.timer (some .ECONNREFUSED)), .proceed, .proceed, .act .threadStop,
        .act .threadStopPush, .act (.runFunctor none), .act .threadStart, .act .threadStartPush,
        .act (.runFunctor (some .ECONNREFUSED)), .proceed, .proceed]) fun r =>
      r.delays.length = 3 := by decide
  exact hrun.and (retries_back_off _ (by decide))

end Muduo.Client
