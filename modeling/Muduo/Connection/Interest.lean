import Muduo.Connection.Close

/-!
# Write interest and the end of the output

While a connection is up, its channel asks for write events exactly when there
is output to write, and it asks for read events exactly when `M_reading` says
so. The write side is shut down only after the last byte, and a shutdown that
was asked for is not forgotten: either output is still pending, and the drain
in `handleWrite` will finish the job, or it has been done.

`InterestInv` is that invariant. Two operations on a connection that is already
down break it, because they do not look at the state again (`Restful`):
`forceClose`, which turns the state back to `kDisconnecting`, and a queued
`shutdownInLoop`, which takes the missing write interest for an empty buffer.
-/

namespace Muduo.Connection

open Lib

/-- The observations that concern the end of the output. -/
def Obs.isFin : Obs → Bool
  | .shutdownInLoop | .shutdownWrite _ => true
  | _ => false

/-- What happened so far towards shutting down the write side. -/
def finTrace (c : Conn) : List Obs := c.trace.filter Obs.isFin

theorem mem_finTrace {c : Conn} {o : Obs} (ho : o.isFin = true) :
    o ∈ finTrace c ↔ o ∈ c.trace := by
  simp [finTrace, ho]

/-- `shutdown` has been called, whatever became of its `shutdownInLoop`. -/
def ShutdownAsked (c : Conn) : Prop :=
  .shutdownInLoop ∈ finTrace c ∨ .shutdownInLoop ∈ c.pending ∨ 0 < c.stopping

/-- `M_socket->shutdownWrite()` has been called. -/
def FinSent (c : Conn) : Prop := ∃ n, Obs.shutdownWrite n ∈ finTrace c

/-- The operation runs a queued `shutdownInLoop`. -/
def runsShutdown (c : Conn) : Act → Bool
  | .runFunctor _ => c.pending.head? = some .shutdownInLoop
  | _ => false

/-- Once the connection is down, it is not forced to close again, and a queued
`shutdownInLoop` finds no output left over. -/
def Restful (c : Conn) (a : Act) : Prop :=
  c.state = .kDisconnected →
    forcesClose a = false ∧
      (runsShutdown c a = true → c.outputBuffer.readableBytes = 0)

instance (c : Conn) (a : Act) : Decidable (Restful c a) :=
  inferInstanceAs (Decidable (_ → _))

/-- The interests of an established connection follow its buffer and
`M_reading`, and the write side was only shut down with an empty buffer. -/
structure Interests (c : Conn) : Prop where
  established : c.state ≠ .kConnecting
  writing : c.state ≠ .kDisconnected →
    (c.channel.isWriting = true ↔ 0 < c.outputBuffer.readableBytes)
  reading : c.state ≠ .kDisconnected → c.reading = c.channel.isReading
  down : c.state = .kDisconnected → c.channel.isWriting = false
  empty : ∀ n, .shutdownWrite n ∈ finTrace c → n = 0
  asked : ShutdownAsked c → c.state ≠ .kConnected

/-- Moreover, a shutdown whose `shutdownInLoop` has run is not forgotten. -/
structure InterestInv (c : Conn) : Prop extends Interests c where
  kept : .shutdownInLoop ∈ finTrace c → c.state = .kDisconnecting →
    c.channel.isWriting = true ∨ FinSent c

/-! ## Operations that neither ask for a shutdown nor perform one -/

/-- `c'` is as close to the end of its output as `c`. -/
structure SameFin (c c' : Conn) : Prop where
  trace : finTrace c' = finTrace c
  pending : .shutdownInLoop ∈ c'.pending → .shutdownInLoop ∈ c.pending
  stopping : c'.stopping = c.stopping

namespace SameFin

theorem refl (c : Conn) : SameFin c c := ⟨rfl, id, rfl⟩

theorem trans {c₁ c₂ c₃ : Conn} (h : SameFin c₁ c₂) (h' : SameFin c₂ c₃) : SameFin c₁ c₃ :=
  ⟨h'.trace.trans h.trace, fun hp => h.pending (h'.pending hp), h'.stopping.trans h.stopping⟩

/-- Queueing anything but a `shutdownInLoop`. -/
theorem queue {c : Conn} {f : Functor} (hf : f ≠ .shutdownInLoop) :
    SameFin c (c.queueInLoop f) := by
  refine ⟨rfl, fun hp => ?_, rfl⟩
  rcases List.mem_append.mp hp with hp | hp
  · exact hp
  · exact absurd (List.mem_singleton.mp hp).symm hf

theorem asked {c c' : Conn} (h : SameFin c c') (ha : ShutdownAsked c') : ShutdownAsked c := by
  rcases ha with ha | ha | ha
  · exact .inl (h.trace ▸ ha)
  · exact .inr (.inl (h.pending ha))
  · exact .inr (.inr (h.stopping ▸ ha))

end SameFin

theorem FinSent.of_trace {c c' : Conn} (h : finTrace c' = finTrace c) (hs : FinSent c) :
    FinSent c' := by
  obtain ⟨n, hn⟩ := hs
  exact ⟨n, h ▸ hn⟩

namespace InterestInv

/-- An operation in a state it does not change: only the interests need a
look. -/
theorem of_same {c c' : Conn} (h : InterestInv c) (hs : SameFin c c')
    (hst : c'.state = c.state)
    (hw : c.state ≠ .kDisconnected →
      (c'.channel.isWriting = true ↔ 0 < c'.outputBuffer.readableBytes))
    (hr : c.state ≠ .kDisconnected → c'.reading = c'.channel.isReading)
    (hon : c.channel.isWriting = true → c'.channel.isWriting = true)
    (hoff : c.state = .kDisconnected → c'.channel.isWriting = false) : InterestInv c' where
  established := hst ▸ h.established
  writing := fun hn => hw (hst ▸ hn)
  reading := fun hn => hr (hst ▸ hn)
  down := fun hd => hoff (hst ▸ hd)
  empty := fun n hn => h.empty n (hs.trace ▸ hn)
  asked := fun ha => hst ▸ h.asked (hs.asked ha)
  kept := by
    intro hmem hd
    rcases h.kept (hs.trace ▸ hmem) (hst ▸ hd) with hwr | hsent
    · exact .inl (hon hwr)
    · exact .inr (hsent.of_trace hs.trace)

/-- Nothing but the lists of the loop changed. -/
theorem of_frame {c c' : Conn} (h : InterestInv c) (hs : SameFin c c')
    (hst : c'.state = c.state) (hch : c'.channel = c.channel)
    (hout : c'.outputBuffer = c.outputBuffer) (hrd : c'.reading = c.reading) :
    InterestInv c' := by
  refine h.of_same hs hst ?_ ?_ ?_ ?_
  · rw [hch, hout]
    exact h.writing
  · rw [hch, hrd]
    exact h.reading
  · rw [hch]
    exact id
  · rw [hch]
    exact h.down

/-- Turning to `kDisconnecting` from a connection that is up. -/
theorem disconnecting {c c' : Conn} (h : InterestInv c) (htr : finTrace c' = finTrace c)
    (hup : c.state ≠ .kDisconnected) (hst : c'.state = .kDisconnecting)
    (hch : c'.channel = c.channel) (hout : c'.outputBuffer = c.outputBuffer)
    (hrd : c'.reading = c.reading) : InterestInv c' where
  established := by rw [hst]; simp
  writing := fun _ => by rw [hch, hout]; exact h.writing hup
  reading := fun _ => by rw [hch, hrd]; exact h.reading hup
  down := fun hd => by rw [hst] at hd; exact absurd hd (by simp)
  empty := fun n hn => h.empty n (htr ▸ hn)
  asked := fun _ => by rw [hst]; simp
  kept := by
    intro hmem _
    -- a shutdown was asked for before, so the state already was `kDisconnecting`
    have hmem' : .shutdownInLoop ∈ finTrace c := htr ▸ hmem
    have hnc := h.asked (.inl hmem')
    have hd : c.state = .kDisconnecting := by
      cases hc : c.state with
      | kDisconnected => exact absurd hc hup
      | kConnecting => exact absurd hc h.established
      | kConnected => exact absurd hc hnc
      | kDisconnecting => rfl
    rw [hch]
    rcases h.kept hmem' hd with hwr | hsent
    · exact .inl hwr
    · exact .inr (hsent.of_trace htr)

end InterestInv

namespace Conn

theorem sameFin_noticeWriteComplete (c : Conn) : SameFin c c.noticeWriteComplete := by
  unfold noticeWriteComplete
  split
  · exact .queue (by simp)
  · exact .refl c

theorem sameFin_noticeHighWater (c : Conn) (more : Nat) :
    SameFin c (c.noticeHighWater more) := by
  unfold noticeHighWater
  dsimp only
  split
  · have h : SameFin c (c.queueInLoop (.highWaterMark (c.outputBuffer.readableBytes + more))) :=
      .queue (by simp)
    exact ⟨h.trace, h.pending, h.stopping⟩
  · exact .refl c

@[simp] theorem noticeWriteComplete_channel (c : Conn) :
    c.noticeWriteComplete.channel = c.channel := by
  unfold noticeWriteComplete
  split <;> rfl

@[simp] theorem noticeWriteComplete_outputBuffer (c : Conn) :
    c.noticeWriteComplete.outputBuffer = c.outputBuffer := by
  unfold noticeWriteComplete
  split <;> rfl

@[simp] theorem noticeWriteComplete_trace (c : Conn) :
    c.noticeWriteComplete.trace = c.trace := by
  unfold noticeWriteComplete
  split <;> rfl

/-- The newest observation is not about the end of the output. -/
def TopNotFin (c : Conn) : Prop := ∃ o t, c.trace = o :: t ∧ o.isFin = false

/-- The direct write changes neither the buffer nor the interests. -/
theorem tryWrite_frame (c : Conn) (data : List Byte) (wr : WriteResult) :
    SameFin c (c.tryWrite data wr).conn ∧
      (c.TopNotFin → (c.tryWrite data wr).conn.TopNotFin) ∧
      (c.tryWrite data wr).conn.channel = c.channel ∧
      (c.tryWrite data wr).conn.outputBuffer = c.outputBuffer := by
  have hobs : SameFin c (c.observe (.write (wr.taken data))) := ⟨rfl, id, rfl⟩
  unfold tryWrite
  split
  · cases wr with
    | accepts limit =>
        dsimp only
        split
        · refine ⟨hobs.trans (sameFin_noticeWriteComplete _), fun _ => ?_,
            noticeWriteComplete_channel _, noticeWriteComplete_outputBuffer _⟩
          exact ⟨_, _, noticeWriteComplete_trace _, rfl⟩
        · exact ⟨hobs, fun _ => ⟨_, _, rfl, rfl⟩, rfl, rfl⟩
    | fails errno => exact ⟨hobs, fun _ => ⟨_, _, rfl, rfl⟩, rfl, rfl⟩
  · exact ⟨.refl c, fun h => h, rfl, rfl⟩

theorem noticeHighWater_top {c : Conn} (h : c.TopNotFin) (more : Nat) :
    (c.noticeHighWater more).TopNotFin := by
  unfold noticeHighWater
  dsimp only
  split
  · exact ⟨_, _, rfl, rfl⟩
  · exact h

/-- Buffering some bytes turns the write interest on. -/
theorem bufferRest_frame (c : Conn) {rest : List Byte} (hne : 0 < rest.length) :
    SameFin c (c.bufferRest rest) ∧ (c.TopNotFin → (c.bufferRest rest).TopNotFin) ∧
      (c.bufferRest rest).channel.isWriting = true ∧
      0 < (c.bufferRest rest).outputBuffer.readableBytes := by
  have hs := sameFin_noticeHighWater c rest.length
  have htop : c.TopNotFin → (c.noticeHighWater rest.length).TopNotFin :=
    fun h => noticeHighWater_top h rest.length
  have hpos : 0 < ((c.noticeHighWater rest.length).outputBuffer.append rest).readableBytes := by
    simp only [Buffer.Valid.readableBytes_eq, Buffer.Valid.readable_append, List.length_append]
    omega
  unfold bufferRest
  dsimp only
  split
  · exact ⟨⟨hs.trace, hs.pending, hs.stopping⟩, htop, Channel.isWriting_enableWriting _, hpos⟩
  · rename_i hon
    exact ⟨⟨hs.trace, hs.pending, hs.stopping⟩, htop, by simpa using hon, hpos⟩

/-- What `sendInLoop` does on a connection that is not down: it ends with a
write or with buffered output and write interest, and it never touches the end
of the output. -/
theorem sendInLoop_frame {c : Conn} (hup : c.state ≠ .kDisconnected) {data : List Byte}
    {wr : WriteResult} : Post (c.sendInLoop data wr) fun c' =>
      SameFin c c' ∧ c'.TopNotFin ∧
        (c'.channel = c.channel ∧ c'.outputBuffer = c.outputBuffer ∨
          c'.channel.isWriting = true ∧ 0 < c'.outputBuffer.readableBytes) := by
  unfold sendInLoop
  rw [if_neg hup]
  refine .check_bind fun _ => ?_
  obtain ⟨hs, htop, hch, hout⟩ := tryWrite_frame (c.observe (.passed data)) data wr
  obtain ⟨hleft, -⟩ := tryWrite_remaining (c.observe (.passed data)) data wr
  generalize (c.observe (.passed data)).tryWrite data wr = w at *
  have hs' : SameFin c w.conn := ⟨hs.trace, hs.pending, hs.stopping⟩
  have htop' := htop ⟨.passed data, c.trace, rfl, rfl⟩
  split
  · rename_i hrem
    have hrest : 0 < ((data.drop w.nwrote).take w.remaining).length := by
      rw [List.length_take, List.length_drop]
      omega
    obtain ⟨hs₂, htop₂, hon, hpos⟩ := bufferRest_frame w.conn hrest
    exact .ok ⟨hs'.trans hs₂, htop₂ htop', .inr ⟨hon, hpos⟩⟩
  · exact .ok ⟨hs', htop', .inl ⟨hch, hout⟩⟩

theorem sendInLoop_interest {c : Conn} (h : InterestInv c) {data : List Byte}
    {wr : WriteResult} : Post (c.sendInLoop data wr) InterestInv := by
  by_cases hup : c.state = .kDisconnected
  · rw [sendInLoop_of_disconnected hup]
    exact .ok h
  · intro c' hc'
    have hm : Moved c c' := moved_sendInLoop c' hc'
    obtain ⟨hs, -, ⟨hch, hout⟩ | ⟨hon, hpos⟩⟩ := sendInLoop_frame hup c' hc'
    · exact h.of_frame hs hm.state hch hout hm.reading
    · refine h.of_same hs hm.state (fun _ => iff_of_true hon hpos) ?_ (fun _ => hon) ?_
      · intro hn
        rw [hm.reading, hm.isReading]
        exact h.reading hn
      · exact fun hd => absurd hd hup

/-! ## Shutting down -/

/-- `shutdownInLoop` either leaves the job to the drain, or does it. -/
theorem shutdownInLoop_cases (c : Conn) :
    (c.channel.isWriting = true ∧ c.shutdownInLoop = c.observe .shutdownInLoop) ∨
      (c.channel.isWriting = false ∧ c.shutdownInLoop =
        (c.observe .shutdownInLoop).observe (.shutdownWrite c.outputBuffer.readableBytes)) := by
  cases hw : c.channel.isWriting with
  | true => exact .inl ⟨rfl, if_neg (by show ¬ c.channel.isWriting = false; rw [hw]; simp)⟩
  | false => exact .inr ⟨rfl, if_pos hw⟩

/-- Running `shutdownInLoop` after the state change, on a connection whose
output is empty if it does not write. -/
theorem shutdownInLoop_interest {c : Conn} (h : Interests c) (hst : c.state ≠ .kConnected)
    (hempty : c.channel.isWriting = false → c.outputBuffer.readableBytes = 0) :
    InterestInv c.shutdownInLoop := by
  have hasked : ∀ c' : Conn, c'.state = c.state → ShutdownAsked c' → c'.state ≠ .kConnected :=
    fun c' hc _ => hc ▸ hst
  rcases shutdownInLoop_cases c with ⟨hw, heq⟩ | ⟨hw, heq⟩
  · rw [heq]
    refine ⟨⟨h.established, h.writing, h.reading, h.down, ?_, hasked _ rfl⟩,
      fun _ _ => .inl hw⟩
    intro n hn
    rcases List.mem_cons.mp hn with hn | hn
    · exact absurd hn (by simp)
    · exact h.empty n hn
  · rw [heq]
    refine ⟨⟨h.established, h.writing, h.reading, h.down, ?_, hasked _ rfl⟩,
      fun _ _ => .inr ?_⟩
    · intro n hn
      rcases List.mem_cons.mp hn with hn | hn
      · injection hn with hn
        rw [hn]
        exact hempty hw
      · rcases List.mem_cons.mp hn with hn | hn
        · exact absurd hn (by simp)
        · exact h.empty n hn
    · exact ⟨_, List.mem_cons_self⟩

/-- While the connection is up, no write interest means no output. -/
theorem empty_of_not_writing {c : Conn} (h : Interests c) (hup : c.state ≠ .kDisconnected)
    (hw : c.channel.isWriting = false) : c.outputBuffer.readableBytes = 0 := by
  have hiff := h.writing hup
  rw [hw] at hiff
  by_contra hne
  exact absurd (hiff.mpr (Nat.pos_of_ne_zero hne)) (by simp)

theorem shutdown_interest {c : Conn} (h : InterestInv c) : InterestInv c.shutdown := by
  unfold shutdown
  split
  · rename_i hc
    have hup : c.state ≠ .kDisconnected := by rw [hc]; simp
    have h' : InterestInv ((c.setState .kDisconnecting).observe .shutdownCalled) :=
      h.disconnecting rfl hup rfl rfl rfl rfl
    exact shutdownInLoop_interest h'.toInterests (by simp [observe, setState])
      (empty_of_not_writing h'.toInterests (by simp [observe, setState]))
  · exact h

/-- The drain: the buffer is empty, so the interest goes, and a shutdown that
waited for this is performed. -/
theorem outputDrained_interest {c c₁ : Conn} (h : InterestInv c)
    (hup : c.state ≠ .kDisconnected) (hs : SameFin c c₁) (hst : c₁.state = c.state)
    (hr : c₁.reading = c.reading) (hch : c₁.channel = c.channel)
    (hempty : c₁.outputBuffer.readableBytes = 0) : InterestInv c₁.outputDrained := by
  have hmoved := (Moved.setChannel (Channel.isReading_disableWriting c₁.channel)).trans
    (moved_noticeWriteComplete (c₁.setChannel c₁.channel.disableWriting))
  have hs₁ : SameFin c (c₁.setChannel c₁.channel.disableWriting) :=
    ⟨hs.trace, hs.pending, hs.stopping⟩
  have hs₂ := hs₁.trans (sameFin_noticeWriteComplete _)
  have hoff : (c₁.setChannel c₁.channel.disableWriting).noticeWriteComplete.channel.isWriting =
      false := by
    rw [noticeWriteComplete_channel]
    exact Channel.isWriting_disableWriting _
  have hnil : (c₁.setChannel c₁.channel.disableWriting).noticeWriteComplete.outputBuffer.readableBytes
      = 0 := by
    rw [noticeWriteComplete_outputBuffer]
    exact hempty
  unfold outputDrained
  dsimp only
  generalize (c₁.setChannel c₁.channel.disableWriting).noticeWriteComplete = c₂ at *
  have hst₂ : c₂.state = c.state := hmoved.state.trans hst
  have hcore : Interests c₂ := by
    refine ⟨hst₂ ▸ h.established, fun _ => ?_, fun _ => ?_, fun _ => hoff,
      fun n hn => h.empty n (hs₂.trace ▸ hn), fun ha => hst₂ ▸ h.asked (hs₂.asked ha)⟩
    · rw [hoff, hnil]
      simp
    · rw [hmoved.reading, hmoved.isReading, hr, hch]
      exact h.reading hup
  split
  · rename_i hd
    exact shutdownInLoop_interest hcore (by rw [hd]; simp) fun _ => hnil
  · rename_i hd
    exact ⟨hcore, fun _ hd' => absurd hd' hd⟩

theorem handleWrite_interest {c : Conn} (h : InterestInv c) (wr : WriteResult) :
    InterestInv (c.handleWrite wr) := by
  unfold handleWrite
  split
  · rename_i hw
    -- only a connection that is up has write interest
    have hup : c.state ≠ .kDisconnected := by
      intro hd
      rw [h.down hd] at hw
      exact absurd hw (by simp)
    dsimp only
    split
    · have hempty : c.outputBuffer.retrieveAll.readableBytes = 0 := by simp
      split
      · exact outputDrained_interest h hup ⟨rfl, id, rfl⟩ rfl rfl rfl hempty
      · rename_i hne
        exact absurd hempty hne
    · exact h.of_frame ⟨rfl, id, rfl⟩ rfl rfl rfl rfl
  · exact h

/-! ## Closing and reading -/

theorem handleClose_interest {c : Conn} (h : InterestInv c) : Post c.handleClose InterestInv := by
  unfold handleClose
  refine .check_bind fun _ => .ok ⟨⟨by simp [observe, setChannel, setState],
    fun hn => absurd rfl hn, fun hn => absurd rfl hn, fun _ => rfl, h.empty, ?_⟩, ?_⟩
  · exact fun _ => by simp [observe, setChannel, setState]
  · intro _ hd
    exact absurd hd (by simp [observe, setChannel, setState])

theorem handleRead_interest {c : Conn} (h : InterestInv c) (r : ReadResult) :
    Post (c.handleRead r) InterestInv := by
  cases r with
  | bytes => exact .ok (h.of_frame ⟨rfl, id, rfl⟩ rfl rfl rfl rfl)
  | eof => exact handleClose_interest h
  | fails e => exact .ok h

theorem forceClose_interest {c : Conn} (h : InterestInv c) (hup : c.state ≠ .kDisconnected) :
    InterestInv c.forceClose := by
  rw [forceClose_eq]
  exact h.disconnecting rfl hup rfl rfl rfl rfl

theorem forceCloseWithDelay_interest {c : Conn} (h : InterestInv c) :
    InterestInv c.forceCloseWithDelay := by
  unfold forceCloseWithDelay
  split
  · rename_i hup
    refine h.disconnecting rfl (fun hd => ?_) rfl rfl rfl rfl
    rw [hd] at hup
    exact absurd hup (by simp)
  · exact h

theorem startReadInLoop_interest {c : Conn} (h : InterestInv c) :
    InterestInv c.startReadInLoop := by
  unfold startReadInLoop
  split
  · refine h.of_same ⟨rfl, id, rfl⟩ rfl ?_ ?_ ?_ ?_
    · simpa using h.writing
    · simp
    · simp
    · simpa using h.down
  · exact h

theorem stopReadInLoop_interest {c : Conn} (h : InterestInv c) :
    InterestInv c.stopReadInLoop := by
  unfold stopReadInLoop
  split
  · refine h.of_same ⟨rfl, id, rfl⟩ rfl ?_ ?_ ?_ ?_
    · simpa using h.writing
    · simp
    · simp
    · simpa using h.down
  · exact h

theorem threadShutdown_interest {c : Conn} (h : InterestInv c) : InterestInv c.threadShutdown := by
  unfold threadShutdown
  split
  · rename_i hc
    exact h.disconnecting rfl (by rw [hc]; simp) rfl rfl rfl rfl
  · exact h

end Conn

/-! ## Steps and runs -/

theorem runFunctor_interest {c : Conn} (h : InterestInv c) {wr : WriteResult}
    (hok : Restful c (.runFunctor wr)) : Post (exec c (.runFunctor wr)) InterestInv := by
  simp only [exec]
  cases hpend : c.pending with
  | nil => exact .ok h
  | cons f rest =>
      dsimp only
      have hpop : InterestInv { c with pending := rest } := by
        refine h.of_frame ⟨rfl, fun hp => ?_, rfl⟩ rfl rfl rfl rfl
        rw [hpend]
        exact List.mem_cons_of_mem _ hp
      cases f with
      | sendInLoop id message =>
          have hobs : InterestInv ({ c with pending := rest }.observe (.sendExecuted id)) :=
            hpop.of_frame ⟨rfl, fun hp => hp, rfl⟩ rfl rfl rfl rfl
          exact Conn.sendInLoop_interest hobs
      | shutdownInLoop =>
          have hnc : c.state ≠ .kConnected :=
            h.asked (.inr (.inl (by rw [hpend]; exact List.mem_cons_self)))
          refine .ok (Conn.shutdownInLoop_interest hpop.toInterests hnc fun hw => ?_)
          -- after the close the missing interest says nothing about the buffer
          by_cases hd : c.state = .kDisconnected
          · exact (hok hd).2 (by simp [runsShutdown, hpend])
          · exact Conn.empty_of_not_writing hpop.toInterests hd hw
      | forceCloseInLoop =>
          show Post (Conn.forceCloseInLoop _) InterestInv
          unfold Conn.forceCloseInLoop
          split
          · exact Conn.handleClose_interest hpop
          · exact .ok hpop
      | startReadInLoop => exact .ok (Conn.startReadInLoop_interest hpop)
      | stopReadInLoop => exact .ok (Conn.stopReadInLoop_interest hpop)
      | writeComplete => exact .ok hpop
      | highWaterMark len => exact .ok hpop

theorem next_interest {c : Conn} (h : InterestInv c) (r : ReadResult) (wr : WriteResult) :
    Post (exec c (.next r wr)) InterestInv := by
  simp only [exec]
  cases htodo : c.todo with
  | nil => exact .ok h
  | cons t rest =>
      dsimp only
      have hpop : InterestInv { c with todo := rest } :=
        h.of_frame ⟨rfl, id, rfl⟩ rfl rfl rfl rfl
      cases t with
      | closeCallback => exact .ok (hpop.of_frame ⟨rfl, id, rfl⟩ rfl rfl rfl rfl)
      | callback cb =>
          cases cb with
          | close => exact Conn.handleClose_interest hpop
          | error => exact .ok hpop
          | read => exact Conn.handleRead_interest hpop r
          | write => exact .ok (Conn.handleWrite_interest hpop wr)

/-- One step keeps the invariant, unless it disturbs a connection that is
down. -/
theorem exec_interest {c : Conn} (h : InterestInv c) (a : Act) (hen : Enabled c a)
    (hok : Restful c a) : Post (exec c a) InterestInv := by
  have hup : forcesClose a = true → c.state ≠ .kDisconnected := by
    intro hf hd
    rw [(hok hd).1] at hf
    exact absurd hf (by simp)
  cases a with
  | connectEstablished => exact absurd hen h.established
  | poll revents => exact .ok (h.of_frame ⟨rfl, id, rfl⟩ rfl rfl rfl rfl)
  | next r wr => exact next_interest h r wr
  | sendInLoop data wr => exact Conn.sendInLoop_interest h
  | handleWrite wr => exact .ok (Conn.handleWrite_interest h wr)
  | send message wr =>
      simp only [exec, Conn.send]
      split
      · exact Conn.sendInLoop_interest h
      · exact .ok h
  | shutdown => exact .ok (Conn.shutdown_interest h)
  | forceClose => exact .ok (Conn.forceClose_interest h (hup rfl))
  | forceCloseWithDelay => exact .ok (Conn.forceCloseWithDelay_interest h)
  | startRead => exact .ok (Conn.startReadInLoop_interest h)
  | stopRead => exact .ok (Conn.stopReadInLoop_interest h)
  | runFunctor wr => exact runFunctor_interest h hok
  | timer =>
      have hpop : InterestInv { c with timers := c.timers - 1 } :=
        h.of_frame ⟨rfl, id, rfl⟩ rfl rfl rfl rfl
      exact .ok (Conn.forceClose_interest hpop (hup rfl))
  | threadSend message =>
      simp only [exec, Conn.threadSend]
      split
      · exact .ok (h.of_frame ⟨rfl, id, rfl⟩ rfl rfl rfl rfl)
      · exact .ok h
  | threadSendPush k =>
      simp only [exec, Conn.threadSendPush]
      split
      · rename_i id message _
        have hs : SameFin { c with sending := c.sending.eraseIdx k }
            ({ c with sending := c.sending.eraseIdx k }.queueInLoop (.sendInLoop id message)) :=
          .queue (by simp)
        exact .ok (h.of_frame ⟨hs.trace, hs.pending, hs.stopping⟩ rfl rfl rfl rfl)
      · exact .ok h
  | threadShutdown => exact .ok (Conn.threadShutdown_interest h)
  | threadShutdownPush =>
      have hnc : c.state ≠ .kConnected := h.asked (.inr (.inr hen))
      exact .ok ⟨⟨h.established, h.writing, h.reading, h.down, h.empty, fun _ => hnc⟩, h.kept⟩
  | threadStartRead => exact .ok (h.of_frame (.queue (by simp)) rfl rfl rfl rfl)
  | threadStopRead => exact .ok (h.of_frame (.queue (by simp)) rfl rfl rfl rfl)

section Runs

variable {sockfd : Int} {writeComplete highWater : Bool} {mark : Nat}

theorem established_interest :
    Post (exec (Conn.new sockfd writeComplete highWater mark) .connectEstablished)
      InterestInv := by
  refine .check_bind fun _ => .ok ⟨⟨?_, fun _ => ?_, fun _ => ?_, ?_, ?_, ?_⟩, ?_⟩
  · simp [Conn.observe, Conn.setChannel, Conn.setState]
  · simp [Conn.observe, Conn.setChannel, Conn.setState, Conn.new]
  · simp [Conn.observe, Conn.setChannel, Conn.setState, Conn.new]
  · intro hd
    exact absurd hd (by simp [Conn.observe, Conn.setChannel, Conn.setState])
  · intro n hn
    simp [finTrace, Conn.observe, Conn.setChannel, Conn.setState, Conn.new, Obs.isFin] at hn
  · intro ha
    simp [ShutdownAsked, finTrace, Conn.observe, Conn.setChannel, Conn.setState, Conn.new,
      Obs.isFin] at ha
  · intro _ hd
    exact absurd hd (by simp [Conn.observe, Conn.setChannel, Conn.setState])

/-- **Write interest and graceful shutdown.** In every state reached after
`connectEstablished` by a run that does not disturb the connection once it is
down: while the connection is up, it asks for write events exactly when it has
output, and for read events exactly when it is reading; the write side was
only shut down with an empty buffer; and after a `shutdownInLoop` has run, a
connection that is still disconnecting has write interest or has shut down. -/
theorem interest_and_shutdown (acts : List Act)
    (hlegal : connSys.Legal (Conn.new sockfd writeComplete highWater mark)
      (.connectEstablished :: acts))
    (hrest : connSys.Meets Restful (Conn.new sockfd writeComplete highWater mark)
      (.connectEstablished :: acts)) :
    Post (connSys.runFrom (Conn.new sockfd writeComplete highWater mark)
      (.connectEstablished :: acts)) fun c =>
        (c.state = .kConnected ∨ c.state = .kDisconnecting →
          (c.channel.isWriting = true ↔ 0 < c.outputBuffer.readableBytes) ∧
            c.reading = c.channel.isReading) ∧
        (∀ n, .shutdownWrite n ∈ c.trace → n = 0) ∧
        (.shutdownInLoop ∈ c.trace → c.state = .kDisconnecting →
          c.channel.isWriting = true ∨ ∃ n, .shutdownWrite n ∈ c.trace) := by
  have hmeets := Sys.meets_and.mpr ⟨hlegal, hrest⟩
  obtain ⟨-, hafter⟩ := Sys.meets_cons.mp hmeets
  have hinv : Post (connSys.runFrom (Conn.new sockfd writeComplete highWater mark)
      (.connectEstablished :: acts)) InterestInv := by
    rw [Sys.runFrom_cons]
    intro c hc
    obtain ⟨c₀, hexec, hrun⟩ := bind_eq_ok hc
    refine Sys.invariant_post (S := connSys) ?_ (established_interest c₀ hexec)
      (hafter c₀ hexec) c hrun
    intro c a h hok
    exact exec_interest h a hok.1 hok.2
  refine hinv.mono fun c h => ⟨fun hup => ?_, fun n hn => ?_, fun hmem hd => ?_⟩
  · have hne : c.state ≠ .kDisconnected := by
      rcases hup with hup | hup <;> rw [hup] <;> simp
    exact ⟨h.writing hne, h.reading hne⟩
  · exact h.empty n ((mem_finTrace rfl).mpr hn)
  · rcases h.kept ((mem_finTrace rfl).mpr hmem) hd with hw | ⟨n, hn⟩
    · exact .inl hw
    · exact .inr ⟨n, (mem_finTrace rfl).mp hn⟩

end Runs

/-- A shutdown that waits for output, and the drain that performs it. -/
theorem interest_and_shutdown_drained :
    Post (connSys.runFrom (Conn.new 5 true true 2)
      [.connectEstablished, .send [1, 2, 3] (.accepts 1), .shutdown, .stopRead,
        .handleWrite (.fails .EWOULDBLOCK), .handleWrite (.accepts 2), .threadStartRead])
      fun c =>
        (c.state = .kConnected ∨ c.state = .kDisconnecting →
          (c.channel.isWriting = true ↔ 0 < c.outputBuffer.readableBytes) ∧
            c.reading = c.channel.isReading) ∧
        (∀ n, .shutdownWrite n ∈ c.trace → n = 0) ∧
        (.shutdownInLoop ∈ c.trace → c.state = .kDisconnecting →
          c.channel.isWriting = true ∨ ∃ n, .shutdownWrite n ∈ c.trace) :=
  interest_and_shutdown _ (by decide +kernel) (by decide +kernel)

/-- The peer closes while two bytes are buffered. A `forceClose` on the closed
connection makes it `kDisconnecting` again, with output and without interest;
a `shutdownInLoop` queued before the close shuts down the write side with the
two bytes unsent. -/
theorem closed_connection_disturbed :
    (connSys.Legal (Conn.new 5 false false 64)
        [.connectEstablished, .send [1, 2] (.fails .EWOULDBLOCK),
          .poll { Events.kNoneEvent with pollin := true }, .next .eof (.accepts 0),
          .next .eof (.accepts 0), .forceClose] ∧
      Lands (connSys.runFrom (Conn.new 5 false false 64)
        [.connectEstablished, .send [1, 2] (.fails .EWOULDBLOCK),
          .poll { Events.kNoneEvent with pollin := true }, .next .eof (.accepts 0),
          .next .eof (.accepts 0), .forceClose])
        fun c => c.state = .kDisconnecting ∧ c.channel.isWriting = false ∧
          0 < c.outputBuffer.readableBytes) ∧
    (connSys.Legal (Conn.new 5 false false 64)
        [.connectEstablished, .send [1, 2] (.fails .EWOULDBLOCK), .threadShutdown,
          .threadShutdownPush, .poll { Events.kNoneEvent with pollin := true },
          .next .eof (.accepts 0), .next .eof (.accepts 0), .runFunctor (.accepts 0)] ∧
      Lands (connSys.runFrom (Conn.new 5 false false 64)
        [.connectEstablished, .send [1, 2] (.fails .EWOULDBLOCK), .threadShutdown,
          .threadShutdownPush, .poll { Events.kNoneEvent with pollin := true },
          .next .eof (.accepts 0), .next .eof (.accepts 0), .runFunctor (.accepts 0)])
        fun c => .shutdownWrite 2 ∈ c.trace) := by
  decide +kernel

end Muduo.Connection
