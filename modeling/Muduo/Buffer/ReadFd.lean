import Muduo.Buffer.Wf
import Muduo.Net.Sockets

/-!
# Reading from a descriptor (`Buffer.cpp`)

`readFd` offers the kernel two ranges: the writable bytes of the buffer, and an
array on the stack for what does not fit. What was received is appended, however
it was split between the two.
-/

namespace Muduo.Buffer

open Lib

/-- What `::readv` can do: fail, or receive bytes. -/
inductive Readv
  | fails (errno : Errno)
  | receives (data : List Byte)
  deriving DecidableEq, Repr

/-- The return value of `readv`. -/
def Readv.count : Readv → Int
  | .fails _ => -1
  | .receives data => data.length

/-- `sizeof(extrabuf)`. -/
def extrabufSize : Nat := 65536

/-- The lengths of the ranges that are passed to `readv`: `vec[0]`, and `vec[1]`
when the writable bytes are fewer than those of `extrabuf`. -/
def iovLens (writable : Nat) : List Nat :=
  let iovcnt := if writable < extrabufSize then 2 else 1
  [writable, extrabufSize].take iovcnt

/-- The part of the data that each range receives: a range is filled before the
next one is used. -/
def scatter : List Nat → List Byte → List (List Byte)
  | [], _ => []
  | len :: lens, data => data.take len :: scatter lens (data.drop len)

/-- `readv` receives no more than the ranges can hold. -/
def Readv.Permitted (lens : List Nat) : Readv → Prop
  | .fails _ => True
  | .receives data => data.length ≤ lens.sum

instance (lens : List Nat) : ∀ r : Readv, Decidable (r.Permitted lens)
  | .fails _ => inferInstanceAs (Decidable True)
  | .receives data => inferInstanceAs (Decidable (data.length ≤ lens.sum))

/-- The return value of `readFd`, `*savedErrno`, and the buffer after the call. -/
structure ReadFd where
  n : Int
  savedErrno : Errno
  buffer : Buffer

/-- `readFd(fd, savedErrno)`; `extrabuf` is the array before it is written. -/
def readFd (b : Buffer) (extrabuf : List Byte) (savedErrno : Errno) :
    Readv → Except Assert ReadFd
  | .fails errno => .ok { n := -1, savedErrno := errno, buffer := b }
  | .receives data => do
      let writable := b.writableBytes
      let parts := scatter (iovLens writable) data
      let b := { b with buffer := Vec.copyTo b.buffer b.writerIndex (parts.getD 0 []) }
      let extrabuf := Vec.copyTo extrabuf 0 (parts.getD 1 [])
      let n := data.length
      if n ≤ writable then
        return { n, savedErrno, buffer := { b with writerIndex := b.writerIndex + n } }
      else
        let b := { b with writerIndex := b.buffer.length }
        let b ← b.append (extrabuf.take (n - writable))
        return { n, savedErrno, buffer := b }

section Spec

variable {b : Buffer} {data : List Byte}

/-- The bytes that `readv` wrote into the vector, once the writer index counts
them. -/
theorem written_grown (h : b.Indexed) (hroom : data.length ≤ b.writableBytes) :
    Grown b { b with
      buffer := Vec.copyTo b.buffer b.writerIndex data
      writerIndex := b.writerIndex + data.length } (b.readable ++ data) := by
  obtain ⟨b', hb', hgrown⟩ := hasWritten_copyTo_grown h hroom
  unfold hasWritten at hb'
  obtain ⟨u, -, hb'⟩ := bind_eq_ok hb'
  obtain rfl := Except.ok.inj hb'
  exact hgrown

/-- The data fits into the writable bytes. -/
theorem readFd_fits (h : b.Indexed) (hfits : data.length ≤ b.writableBytes)
    (extrabuf : List Byte) (savedErrno : Errno) :
    Lands (b.readFd extrabuf savedErrno (.receives data)) fun r =>
      r.n = data.length ∧ r.savedErrno = savedErrno ∧ Grown b r.buffer (b.readable ++ data) := by
  have hpart : (scatter (iovLens b.writableBytes) data).getD 0 [] = data := by
    by_cases hsmall : b.writableBytes < extrabufSize
    · simp [iovLens, hsmall, scatter, List.take_of_length_le hfits]
    · simp [iovLens, hsmall, scatter, List.take_of_length_le hfits]
  simp only [readFd, hpart, if_pos hfits]
  exact .ok ⟨rfl, rfl, written_grown h hfits⟩

/-- The data spills into `extrabuf`: the vector is full, and `append` makes room
for the rest. -/
theorem readFd_spills (h : b.Indexed) (hspills : b.writableBytes < data.length)
    (hpermitted : data.length ≤ (iovLens b.writableBytes).sum) {extrabuf : List Byte}
    (hextra : extrabuf.length = extrabufSize) (savedErrno : Errno) :
    Lands (b.readFd extrabuf savedErrno (.receives data)) fun r =>
      r.n = data.length ∧ r.savedErrno = savedErrno ∧ Grown b r.buffer (b.readable ++ data) := by
  have hw := h.writer_le
  -- with one range, no more than the writable bytes are received
  have hsmall : b.writableBytes < extrabufSize := by
    by_contra hlarge
    simp only [iovLens, hlarge, if_false, List.take_succ_cons, List.take_zero, List.sum_cons,
      List.sum_nil] at hpermitted
    omega
  have hrest : data.length - b.writableBytes ≤ extrabufSize := by
    simp only [iovLens, hsmall, if_true, List.take_succ_cons, List.take_zero, List.sum_cons,
      List.sum_nil] at hpermitted
    omega
  have hfirst : (scatter (iovLens b.writableBytes) data).getD 0 [] =
      data.take b.writableBytes := by
    simp [iovLens, hsmall, scatter]
  have hsecond : (scatter (iovLens b.writableBytes) data).getD 1 [] =
      data.drop b.writableBytes := by
    simp [iovLens, hsmall, scatter, List.take_of_length_le, hrest]
  have htake : (data.take b.writableBytes).length = b.writableBytes := by
    rw [List.length_take]
    omega
  have hroom : (data.take b.writableBytes).length ≤ b.writableBytes := by omega
  have hfull := written_grown h hroom
  have hend : b.writerIndex + (data.take b.writableBytes).length =
      (Vec.copyTo b.buffer b.writerIndex (data.take b.writableBytes)).length := by
    rw [Vec.length_copyTo, htake]
    unfold writableBytes
    omega
  have hextrabuf : (Vec.copyTo extrabuf 0 (data.drop b.writableBytes)).take
      (data.length - b.writableBytes) = data.drop b.writableBytes := by
    have hfits : 0 + (data.drop b.writableBytes).length ≤ extrabuf.length := by
      rw [List.length_drop]
      omega
    have hslice := Vec.slice_copyTo hfits
    rwa [List.length_drop] at hslice
  simp only [readFd, hfirst, hsecond, if_neg (Nat.not_le_of_lt hspills), hextrabuf]
  rw [hend] at hfull
  refine (append_grown hfull.indexed _).bind fun b' hb' => .ok ⟨rfl, rfl, ?_⟩
  rw [hfull.content, List.append_assoc, List.take_append_drop] at hb'
  exact hfull.trans hb'

end Spec

/-- **`readFd` appends what was received.** For every buffer with its indices in
order and every result of `readv`: after a failure the buffer is as it was and
the error number is saved; otherwise the readable bytes are the old ones followed
by those received, the indices are in order, and the vector has not become
smaller. The return value is that of `readv`. -/
theorem readFd_appends (b : Buffer) (h : b.Indexed) (extrabuf : List Byte)
    (hextra : extrabuf.length = extrabufSize) (savedErrno : Errno) (r : Readv)
    (hr : r.Permitted (iovLens b.writableBytes)) :
    Lands (b.readFd extrabuf savedErrno r) fun out => out.n = r.count ∧
      match r with
      | .fails errno => out.buffer = b ∧ out.savedErrno = errno
      | .receives data => out.buffer.readable = b.readable ++ data ∧ out.buffer.Indexed ∧
          b.buffer.length ≤ out.buffer.buffer.length := by
  cases r with
  | fails errno => exact .ok ⟨rfl, rfl, rfl⟩
  | receives data =>
      have hread : Lands (b.readFd extrabuf savedErrno (.receives data)) fun out =>
          out.n = data.length ∧ out.savedErrno = savedErrno ∧
            Grown b out.buffer (b.readable ++ data) := by
        rcases Nat.lt_or_ge b.writableBytes data.length with hspills | hfits
        · exact readFd_spills h hspills hr hextra savedErrno
        · exact readFd_fits h hfits extrabuf savedErrno
      refine hread.mono ?_
      rintro out ⟨hn, -, hgrown⟩
      exact ⟨hn, hgrown.content, hgrown.indexed, hgrown.grows⟩

/-- Two bytes are writable and three are received: the third goes through
`extrabuf`, and the readable bytes move down to make room for it. -/
theorem readFd_appends_spilled :
    Lands (Buffer.readFd ⟨List.replicate 14 7, 10, 12⟩ (List.replicate extrabufSize 0) .EINTR
      (.receives [1, 2, 3])) fun out =>
      out.n = 3 ∧ out.buffer.readable = [7, 7, 1, 2, 3] := by
  refine (readFd_appends ⟨List.replicate 14 7, 10, 12⟩ ⟨by decide, by decide⟩ _
    List.length_replicate .EINTR (.receives [1, 2, 3]) (by decide)).mono ?_
  rintro out ⟨hn, hreadable, -⟩
  exact ⟨hn, hreadable⟩

end Muduo.Buffer
