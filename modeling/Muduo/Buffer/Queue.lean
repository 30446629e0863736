import Muduo.Buffer.Wf
import Muduo.Lib.System

/-!
# A buffer is a byte queue

The abstract machine behind `Buffer` is a list of bytes that grows and shrinks
at both ends; where the bytes sit in memory, how large the vector is and when
it is compacted are invisible there. This module runs any number of buffers
side by side (they meet in `swap`) and shows that every sequence of calls made
under the callers' obligations refines the abstract machine on the same calls.
-/

namespace Muduo.Buffer

open Lib

/-- The calls on one buffer. The pointer given to `retrieveUntil` is named by
its distance from `peek()`. -/
inductive Call
  | append (data : List Byte)
  | retrieve (len : Nat)
  | retrieveUntil (off : Int)
  | retrieveAll
  | retrieveAsString (len : Nat)
  | unwrite (len : Nat)
  | prepend (data : List Byte)
  | ensureWritableBytes (len : Nat)
  | shrink (reserve : Nat)
  deriving DecidableEq, Repr

/-- What the caller owes: the condition of the leading assertions, and an
`int`-sized content when `shrink` goes through `toStringPiece`. -/
def Call.Pre (b : Buffer) : Call → Prop
  | .append _ => True
  | .retrieve len => len ≤ b.readableBytes
  | .retrieveUntil off => 0 ≤ off ∧ off ≤ b.readableBytes
  | .retrieveAll => True
  | .retrieveAsString len => len ≤ b.readableBytes
  | .unwrite len => len ≤ b.readableBytes
  | .prepend data => data.length ≤ b.prependableBytes
  | .ensureWritableBytes _ => True
  | .shrink _ => b.readableBytes < 2 ^ 31

instance Call.decidablePre (b : Buffer) : ∀ c : Call, Decidable (c.Pre b)
  | .append _ | .retrieveAll | .ensureWritableBytes _ => inferInstanceAs (Decidable True)
  | .retrieve len | .retrieveAsString len | .unwrite len =>
      inferInstanceAs (Decidable (len ≤ b.readableBytes))
  | .retrieveUntil off => inferInstanceAs (Decidable (0 ≤ off ∧ off ≤ (b.readableBytes : Int)))
  | .prepend data => inferInstanceAs (Decidable (data.length ≤ b.prependableBytes))
  | .shrink _ => inferInstanceAs (Decidable (b.readableBytes < 2 ^ 31))

/-- The call on the buffer itself; the string `retrieveAsString` returns is
left to its own specification. -/
def Call.exec (b : Buffer) : Call → Except Assert Buffer
  | .append data => b.append data
  | .retrieve len => b.retrieve len
  | .retrieveUntil off => b.retrieveUntil (b.readerIndex + off)
  | .retrieveAll => .ok b.retrieveAll
  | .retrieveAsString len => do
      let r ← b.retrieveAsString len
      return r.2
  | .unwrite len => b.unwrite len
  | .prepend data => b.prepend data
  | .ensureWritableBytes len => b.ensureWritableBytes len
  | .shrink reserve => b.shrink reserve

/-- The same call on an abstract queue of bytes. -/
def Call.onQueue (q : List Byte) : Call → List Byte
  | .append data => q ++ data
  | .retrieve len => q.drop len
  | .retrieveUntil off => q.drop off.toNat
  | .retrieveAll => []
  | .retrieveAsString len => q.drop len
  | .unwrite len => q.take (q.length - len)
  | .prepend data => data ++ q
  | .ensureWritableBytes _ => q
  | .shrink _ => q

/-- Only `prepend` may use up the cheap prepend room. -/
def Call.isPrepend : Call → Bool
  | .prepend _ => true
  | _ => false

/-- One call refines its abstract counterpart, and no assertion in its body
fails. -/
theorem Call.exec_spec {b : Buffer} (h : b.Wf) (c : Call) (hpre : c.Pre b) :
    Lands (c.exec b) fun b' =>
      b'.Wf ∧ b'.readable = c.onQueue b.readable ∧
        (c.isPrepend = false → kCheapPrepend ≤ b.prependableBytes →
          kCheapPrepend ≤ b'.prependableBytes) := by
  have keeps : ∀ {x : Except Assert Buffer} {content : List Byte},
      Lands x (fun b' => Keeps b b' content) →
      Lands x fun b' => b'.Wf ∧ b'.readable = content ∧
        (c.isPrepend = false → kCheapPrepend ≤ b.prependableBytes →
          kCheapPrepend ≤ b'.prependableBytes) :=
    fun hx => hx.mono fun _ hk => ⟨hk.wf, hk.content, fun _ hc => hk.cheap hc⟩
  cases c with
  | append data => exact keeps (append_spec h data)
  | retrieve len => exact keeps (retrieve_spec h hpre)
  | retrieveUntil off => exact keeps (retrieveUntil_spec h hpre.1 hpre.2)
  | retrieveAll => exact keeps (.ok (retrieveAll_spec h))
  | retrieveAsString len =>
      refine keeps ((retrieveAsString_spec h hpre).bind fun r hr => ?_)
      exact .ok hr.2
  | unwrite len =>
      have hs := unwrite_spec h hpre
      rw [← h.length_readable] at hs
      exact keeps hs
  | prepend data =>
      refine (prepend_spec h hpre).mono fun b' hb' => ⟨hb'.1, hb'.2.1, ?_⟩
      intro hno
      exact absurd hno (by simp [Call.isPrepend])
  | ensureWritableBytes len =>
      exact keeps ((ensureWritableBytes_spec h len).mono fun _ hb' => hb'.1)
  | shrink reserve => exact keeps (shrink_spec hpre reserve)

/-! ## Many buffers -/

/-- The operations of a program that uses buffers. -/
inductive Op
  | construct (initialSize : Nat)
  | call (i : Nat) (c : Call)
  | swap (i j : Nat)
  deriving DecidableEq, Repr

/-- The buffers an operation names exist, and the caller's obligation holds. -/
def opEnabled (bufs : List Buffer) : Op → Prop
  | .construct _ => True
  | .call i c =>
      match bufs[i]? with
      | some b => c.Pre b
      | none => False
  | .swap i j => i < bufs.length ∧ j < bufs.length

instance decidableOpEnabled (bufs : List Buffer) : ∀ op, Decidable (opEnabled bufs op)
  | .construct _ => inferInstanceAs (Decidable True)
  | .swap i j => inferInstanceAs (Decidable (i < bufs.length ∧ j < bufs.length))
  | .call i c =>
      match h : bufs[i]? with
      | some b => decidable_of_iff (c.Pre b) (by simp [opEnabled, h])
      | none => .isFalse (by simp [opEnabled, h])

def opExec (bufs : List Buffer) : Op → Except Assert (List Buffer)
  | .construct initialSize => do
      let b ← new initialSize
      return bufs ++ [b]
  | .call i c =>
      match bufs[i]? with
      | some b => do
          let b' ← c.exec b
          return bufs.set i b'
      | none => .ok bufs
  | .swap i j =>
      match bufs[i]?, bufs[j]? with
      | some b, some rhs => .ok ((bufs.set i (b.swap rhs).1).set j (b.swap rhs).2)
      | _, _ => .ok bufs

/-- The buffers of a program, as a system. -/
def bufferSys : Sys (List Buffer) Op Assert := ⟨opEnabled, opExec⟩

instance (bufs : List Buffer) (op : Op) : Decidable (bufferSys.enabled bufs op) :=
  decidableOpEnabled bufs op

/-- The abstract machine: a list of byte queues. -/
def queueStep (qs : List (List Byte)) : Op → List (List Byte)
  | .construct _ => qs ++ [[]]
  | .call i c => qs.modify i c.onQueue
  | .swap i j =>
      match qs[i]?, qs[j]? with
      | some q, some q' => (qs.set i q').set j q
      | _, _ => qs

def Op.isPrepend : Op → Bool
  | .call _ c => c.isPrepend
  | _ => false

/-- The refinement relation: buffers are well-formed and hold the queues; with
`cheap`, each also keeps the cheap prepend room. -/
structure Refines (cheap : Prop) (bufs : List Buffer) (qs : List (List Byte)) : Prop where
  wf : ∀ b ∈ bufs, b.Wf
  content : bufs.map readable = qs
  room : cheap → ∀ b ∈ bufs, kCheapPrepend ≤ b.prependableBytes

private theorem forall_mem_set {P : Buffer → Prop} {bufs : List Buffer} {i : Nat} {b' : Buffer}
    (h : ∀ b ∈ bufs, P b) (hb' : P b') : ∀ b ∈ bufs.set i b', P b := by
  intro b hb
  rcases List.mem_or_eq_of_mem_set hb with hold | rfl
  · exact h b hold
  · exact hb'

/-- One operation on the buffers refines one step of the abstract machine. -/
theorem opExec_refines {cheap : Prop} {bufs : List Buffer} {qs : List (List Byte)} (op : Op)
    (h : Refines cheap bufs qs) (hen : opEnabled bufs op)
    (hno : cheap → op.isPrepend = false) :
    Lands (opExec bufs op) fun bufs' => Refines cheap bufs' (queueStep qs op) := by
  cases op with
  | construct initialSize =>
      refine (new_spec initialSize).bind fun b hb => ?_
      obtain ⟨hwf, hcontent, hroom⟩ := hb
      refine .ok ⟨?_, ?_, ?_⟩
      · intro x hx
        rcases List.mem_append.mp hx with hx | hx
        · exact h.wf x hx
        · exact List.mem_singleton.mp hx ▸ hwf
      · rw [List.map_append, h.content, List.map_singleton, hcontent]
        rfl
      · intro hcheap x hx
        rcases List.mem_append.mp hx with hx | hx
        · exact h.room hcheap x hx
        · exact List.mem_singleton.mp hx ▸ Nat.le_of_eq hroom.symm
  | call i c =>
      cases hi : bufs[i]? with
      | none => simp [opEnabled, hi] at hen
      | some b =>
          have hmem : b ∈ bufs := List.mem_of_getElem? hi
          have hpre : c.Pre b := by simpa [opEnabled, hi] using hen
          simp only [opExec, hi]
          refine (Call.exec_spec (h.wf b hmem) c hpre).bind fun b' hb' => ?_
          obtain ⟨hwf, hcontent, hroom⟩ := hb'
          refine .ok ⟨forall_mem_set h.wf hwf, ?_, ?_⟩
          · rw [List.map_set, h.content, hcontent, queueStep]
            have hq : qs[i]? = some b.readable := by
              rw [← h.content, List.getElem?_map, hi]
              rfl
            rw [List.modify_eq_set, hq]
            rfl
          · intro hcheap
            exact forall_mem_set (h.room hcheap) (hroom (hno hcheap) (h.room hcheap b hmem))
  | swap i j =>
      obtain ⟨hi, hj⟩ := hen
      have hbi : bufs[i]? = some bufs[i] := List.getElem?_eq_getElem hi
      have hbj : bufs[j]? = some bufs[j] := List.getElem?_eq_getElem hj
      have hmi : bufs[i] ∈ bufs := List.getElem_mem hi
      have hmj : bufs[j] ∈ bufs := List.getElem_mem hj
      simp only [opExec, hbi, hbj]
      refine .ok ⟨?_, ?_, ?_⟩
      · exact forall_mem_set (forall_mem_set h.wf (h.wf _ hmj)) (h.wf _ hmi)
      · have hqi : qs[i]? = some (bufs[i]).readable := by
          rw [← h.content, List.getElem?_map, hbi]
          rfl
        have hqj : qs[j]? = some (bufs[j]).readable := by
          rw [← h.content, List.getElem?_map, hbj]
          rfl
        simp only [queueStep, hqi, hqj]
        rw [List.map_set, List.map_set, h.content]
        rfl
      · intro hcheap
        exact forall_mem_set (forall_mem_set (h.room hcheap) (h.room hcheap _ hmj))
          (h.room hcheap _ hmi)

/-- The run lemma behind both halves of the refinement. -/
theorem run_refines {cheap : Prop} {ops : List Op} (h : bufferSys.Legal [] ops)
    (hno : cheap → ∀ op ∈ ops, op.isPrepend = false) :
    Lands (bufferSys.runFrom [] ops) fun bufs =>
      Refines cheap bufs (ops.foldl queueStep []) := by
  have hok : bufferSys.Meets
      (fun bufs op => opEnabled bufs op ∧ (cheap → op.isPrepend = false)) [] ops := by
    refine Sys.meets_and.mpr ⟨h, Sys.meets_of_forall (fun op hop hcheap => hno hcheap op hop) []⟩
  refine Sys.simulation_lands (S := bufferSys) ?_ ⟨by simp, rfl, by simp⟩ hok
  intro bufs qs op hr hstep
  exact opExec_refines op hr hstep.1 hstep.2

/-- **A buffer is a byte queue.** Along every sequence of calls made under
their leading assertions no internal assertion fails, the index invariant
holds, the readable bytes are what the same calls make of an abstract list,
and without `prepend` the cheap prepend room is never lost. -/
theorem buffer_refines_queue (ops : List Op) (h : bufferSys.Legal [] ops) :
    Lands (bufferSys.runFrom [] ops) fun bufs =>
      (∀ b ∈ bufs, b.readerIndex ≤ b.writerIndex ∧ b.writerIndex ≤ b.buffer.length ∧
        kCheapPrepend ≤ b.buffer.length) ∧
      bufs.map readable = ops.foldl queueStep [] ∧
      ((∀ op ∈ ops, op.isPrepend = false) →
        ∀ b ∈ bufs, kCheapPrepend ≤ b.prependableBytes) := by
  obtain ⟨bufs, hrun, hr⟩ := run_refines h
    fun hno : ∀ op ∈ ops, op.isPrepend = false => hno
  refine ⟨bufs, hrun, ?_, hr.content, hr.room⟩
  intro b hb
  have hwf := hr.wf b hb
  exact ⟨hwf.reader_le, hwf.writer_le, hwf.cheap_le⟩

/-- Two buffers: one is compacted in place after a partial read, the other
pushes its reader index below 8; then they are swapped. -/
theorem buffer_refines_queue_two :
    Lands (bufferSys.runFrom [] [.construct 6, .call 0 (.append [1, 2, 3, 4, 5]),
        .call 0 (.retrieve 3), .call 0 (.append [6, 7, 8]), .construct 2,
        .call 1 (.append [9]), .call 1 (.prepend [10, 11]), .call 1 (.unwrite 1),
        .swap 0 1]) fun bufs => bufs.map readable = [[10, 11], [4, 5, 6, 7, 8]] := by
  refine (buffer_refines_queue _ (by decide)).mono fun bufs hb => ?_
  rw [hb.2.1]
  decide

end Muduo.Buffer
