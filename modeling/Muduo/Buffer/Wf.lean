import Muduo.Buffer.Model

/-!
# The index invariant of a buffer

`Wf` is the picture at the top of `Buffer.Model`, and `readable` the bytes
between the two indices. One specification per operation: from a well-formed
buffer, under the operation's leading assertion, every further assertion of
its body holds, the result is well-formed, and its readable bytes are the old
ones with the operation applied. `Keeps` is the shape they share.

`Buffer.Valid` packs a buffer with its invariant for the clients that hold one
as a member.
-/

namespace Muduo

open Lib

namespace Buffer

/-- The index invariant. -/
structure Wf (b : Buffer) : Prop where
  reader_le : b.readerIndex ≤ b.writerIndex
  writer_le : b.writerIndex ≤ b.buffer.length
  cheap_le : kCheapPrepend ≤ b.buffer.length

instance (b : Buffer) : Decidable b.Wf :=
  decidable_of_iff (b.readerIndex ≤ b.writerIndex ∧ b.writerIndex ≤ b.buffer.length ∧
      kCheapPrepend ≤ b.buffer.length)
    ⟨fun ⟨h₁, h₂, h₃⟩ => ⟨h₁, h₂, h₃⟩, fun ⟨h₁, h₂, h₃⟩ => ⟨h₁, h₂, h₃⟩⟩

/-- The order of the indices alone, which is what the operations that only add
bytes need. -/
structure Indexed (b : Buffer) : Prop where
  reader_le : b.readerIndex ≤ b.writerIndex
  writer_le : b.writerIndex ≤ b.buffer.length

theorem Wf.indexed {b : Buffer} (h : b.Wf) : b.Indexed := ⟨h.reader_le, h.writer_le⟩

/-- The readable bytes, `[peek(), beginWrite())`. -/
def readable (b : Buffer) : List Byte :=
  Vec.slice b.buffer b.readerIndex b.readableBytes

theorem Indexed.length_readable {b : Buffer} (h : b.Indexed) :
    b.readable.length = b.readableBytes := by
  apply Vec.length_slice
  have := h.reader_le
  have := h.writer_le
  unfold readableBytes
  omega

theorem Wf.length_readable {b : Buffer} (h : b.Wf) : b.readable.length = b.readableBytes :=
  h.indexed.length_readable

/-- `b'` is well-formed, holds `content`, and still has the cheap prepend room
if `b` had it. -/
structure Keeps (b b' : Buffer) (content : List Byte) : Prop where
  wf : b'.Wf
  content : b'.readable = content
  cheap : kCheapPrepend ≤ b.prependableBytes → kCheapPrepend ≤ b'.prependableBytes

/-! ## Construction and removal -/

theorem new_spec (initialSize : Nat) :
    Lands (new initialSize) fun b =>
      b.Wf ∧ b.readable = [] ∧ b.prependableBytes = kCheapPrepend := by
  unfold new
  refine .check_bind (by simp [readableBytes]) ?_
  refine .check_bind (by simp [writableBytes]) ?_
  refine .check_bind rfl ?_
  refine .ok ⟨⟨Nat.le_refl _, by simp, by simp⟩, ?_, rfl⟩
  simp [readable, readableBytes]

theorem retrieveAll_spec {b : Buffer} (h : b.Wf) : Keeps b b.retrieveAll [] := by
  refine ⟨⟨Nat.le_refl _, h.cheap_le, h.cheap_le⟩, ?_, fun _ => Nat.le_refl _⟩
  simp [readable, retrieveAll, readableBytes]

theorem retrieve_spec {b : Buffer} (h : b.Wf) {len : Nat} (hlen : len ≤ b.readableBytes) :
    Lands (b.retrieve len) fun b' => Keeps b b' (b.readable.drop len) := by
  unfold retrieve
  refine .check_bind hlen ?_
  have hr := h.reader_le
  by_cases hlt : len < b.readableBytes
  · rw [if_pos hlt]
    refine .ok ⟨⟨?_, h.writer_le, h.cheap_le⟩, ?_, ?_⟩
    · show b.readerIndex + len ≤ b.writerIndex
      unfold readableBytes at hlt
      omega
    · rw [readable, readable, Vec.drop_slice]
      show Vec.slice b.buffer (b.readerIndex + len) (b.writerIndex - (b.readerIndex + len)) = _
      congr 1
      unfold readableBytes
      omega
    · intro hc
      exact Nat.le_trans hc (Nat.le_add_right _ _)
  · -- everything is taken: the code resets the indices instead of advancing
    rw [if_neg hlt]
    have hall : b.readable.drop len = [] := by
      rw [List.drop_eq_nil_iff, h.length_readable]
      omega
    rw [hall]
    exact .ok (retrieveAll_spec h)

/-- The pointer is `off` past `peek()`; the two leading assertions say that it
lies in the readable range. -/
theorem retrieveUntil_spec {b : Buffer} (h : b.Wf) {off : Int} (h0 : 0 ≤ off)
    (hoff : off ≤ b.readableBytes) :
    Lands (b.retrieveUntil (b.readerIndex + off)) fun b' =>
      Keeps b b' (b.readable.drop off.toNat) := by
  have hr := h.reader_le
  unfold readableBytes at hoff
  unfold retrieveUntil
  refine .check_bind (by omega) ?_
  refine .check_bind (by omega) ?_
  rw [show (b.readerIndex : Int) + off - b.readerIndex = off by omega]
  exact retrieve_spec h (by unfold readableBytes; omega)

theorem retrieveAsString_spec {b : Buffer} (h : b.Wf) {len : Nat}
    (hlen : len ≤ b.readableBytes) :
    Lands (b.retrieveAsString len) fun r =>
      r.1 = b.readable.take len ∧ Keeps b r.2 (b.readable.drop len) := by
  unfold retrieveAsString
  refine .check_bind hlen ?_
  refine (retrieve_spec h hlen).bind fun b' hb' => .ok ⟨?_, hb'⟩
  rw [readable, Vec.take_slice, Nat.min_eq_left hlen]

theorem unwrite_spec {b : Buffer} (h : b.Wf) {len : Nat} (hlen : len ≤ b.readableBytes) :
    Lands (b.unwrite len) fun b' =>
      Keeps b b' (b.readable.take (b.readableBytes - len)) := by
  unfold unwrite
  refine .check_bind hlen ?_
  have hr := h.reader_le
  have hw := h.writer_le
  unfold readableBytes at hlen
  refine .ok ⟨⟨?_, ?_, h.cheap_le⟩, ?_, fun hc => hc⟩
  · show b.readerIndex ≤ b.writerIndex - len
    omega
  · show b.writerIndex - len ≤ b.buffer.length
    omega
  · rw [readable, readable, Vec.take_slice]
    show Vec.slice b.buffer b.readerIndex (b.writerIndex - len - b.readerIndex) = _
    congr 1
    unfold readableBytes
    omega

/-! ## Making room -/

/-- The in-place branch is only reached with the reader index beyond
`kCheapPrepend`: the caller's test and `makeSpace`'s own combine to it, also
after a `prepend` has moved the reader index below 8. -/
theorem reader_gt_of_room {b : Buffer} {len : Nat} (hcaller : b.writableBytes < len)
    (hroom : ¬ b.writableBytes + b.prependableBytes < len + kCheapPrepend) :
    kCheapPrepend < b.readerIndex := by
  unfold prependableBytes at hroom
  omega

/-- What making room and writing leave of a buffer: its indices are in order, it
holds `content`, the vector has not become smaller, and the cheap prepend room
is still there if it was. -/
structure Grown (b b' : Buffer) (content : List Byte) : Prop where
  indexed : b'.Indexed
  content : b'.readable = content
  grows : b.buffer.length ≤ b'.buffer.length
  cheap : kCheapPrepend ≤ b.prependableBytes → kCheapPrepend ≤ b'.prependableBytes

theorem Grown.refl {b : Buffer} (h : b.Indexed) : Grown b b b.readable :=
  ⟨h, rfl, Nat.le_refl _, fun hc => hc⟩

theorem Grown.trans {b₁ b₂ b₃ : Buffer} {c c' : List Byte} (h : Grown b₁ b₂ c)
    (h' : Grown b₂ b₃ c') : Grown b₁ b₃ c' :=
  ⟨h'.indexed, h'.content, Nat.le_trans h.grows h'.grows, fun hc => h'.cheap (h.cheap hc)⟩

theorem Grown.keeps {b b' : Buffer} {c : List Byte} (h : Grown b b' c) (hwf : b.Wf) :
    Keeps b b' c :=
  ⟨⟨h.indexed.reader_le, h.indexed.writer_le, Nat.le_trans hwf.cheap_le h.grows⟩, h.content,
    h.cheap⟩

theorem makeSpace_grown {b : Buffer} (h : b.Indexed) {len : Nat}
    (hcaller : b.writableBytes < len) :
    Lands (b.makeSpace len) fun b' => Grown b b' b.readable ∧ len ≤ b'.writableBytes := by
  have hr := h.reader_le
  have hw := h.writer_le
  unfold makeSpace
  by_cases hroom : b.writableBytes + b.prependableBytes < len + kCheapPrepend
  · -- not even both gaps together are enough: grow
    rw [if_pos hroom]
    unfold writableBytes at hcaller
    refine .ok ⟨⟨⟨hr, ?_⟩, ?_, ?_, fun hc => hc⟩, ?_⟩
    · simp
    · show Vec.slice (Vec.resize b.buffer (b.writerIndex + len) 0) b.readerIndex
          (b.writerIndex - b.readerIndex) = b.readable
      exact Vec.slice_resize 0 (by omega) (by omega)
    · simp only [Vec.length_resize]
      omega
    · simp [writableBytes]
  · -- move the readable bytes to the front; source and target may overlap
    rw [if_neg hroom]
    have hgt := reader_gt_of_room hcaller hroom
    refine .check_bind hgt ?_
    refine .check_bind (by simp [readableBytes]) ?_
    unfold writableBytes prependableBytes at hroom
    refine .ok ⟨⟨⟨?_, ?_⟩, ?_, ?_, fun _ => Nat.le_refl _⟩, ?_⟩
    · exact Nat.le_add_right _ _
    · show kCheapPrepend + b.readableBytes ≤ _
      rw [Vec.length_copyWithin]
      unfold readableBytes
      omega
    · show Vec.slice (Vec.copyWithin b.buffer b.readerIndex kCheapPrepend
          (b.writerIndex - b.readerIndex)) kCheapPrepend
          (kCheapPrepend + b.readableBytes - kCheapPrepend) = b.readable
      rw [Nat.add_sub_cancel_left]
      exact Vec.slice_copyWithin (Nat.le_of_lt hgt) (by omega)
    · exact Nat.le_of_eq (Vec.length_copyWithin ..).symm
    · show len ≤ (Vec.copyWithin b.buffer b.readerIndex kCheapPrepend
          (b.writerIndex - b.readerIndex)).length - (kCheapPrepend + b.readableBytes)
      rw [Vec.length_copyWithin]
      unfold readableBytes
      omega

theorem ensureWritableBytes_grown {b : Buffer} (h : b.Indexed) (len : Nat) :
    Lands (b.ensureWritableBytes len) fun b' =>
      Grown b b' b.readable ∧ len ≤ b'.writableBytes := by
  unfold ensureWritableBytes
  have hspace : Lands (if b.writableBytes < len then b.makeSpace len else .ok b) fun b' =>
      Grown b b' b.readable ∧ len ≤ b'.writableBytes := by
    by_cases hlt : b.writableBytes < len
    · rw [if_pos hlt]
      exact makeSpace_grown h hlt
    · rw [if_neg hlt]
      exact .ok ⟨.refl h, by omega⟩
  refine hspace.bind fun b' hb' => ?_
  refine .check_bind hb'.2 ?_
  exact .ok hb'

theorem ensureWritableBytes_spec {b : Buffer} (h : b.Wf) (len : Nat) :
    Lands (b.ensureWritableBytes len) fun b' =>
      Keeps b b' b.readable ∧ len ≤ b'.writableBytes :=
  (ensureWritableBytes_grown h.indexed len).mono fun _ hb' => ⟨hb'.1.keeps h, hb'.2⟩

/-! ## Adding bytes -/

/-- `std::copy` into the writable range followed by `hasWritten`. -/
theorem hasWritten_copyTo_grown {b : Buffer} (h : b.Indexed) {data : List Byte}
    (hroom : data.length ≤ b.writableBytes) :
    Lands (hasWritten { b with buffer := Vec.copyTo b.buffer b.writerIndex data } data.length)
      fun b' => Grown b b' (b.readable ++ data) := by
  have hr := h.reader_le
  have hw := h.writer_le
  unfold writableBytes at hroom
  unfold hasWritten
  refine .check_bind (by simpa [writableBytes] using hroom) ?_
  refine .ok ⟨⟨?_, ?_⟩, ?_, ?_, fun hc => hc⟩
  · show b.readerIndex ≤ b.writerIndex + data.length
    omega
  · show b.writerIndex + data.length ≤ (Vec.copyTo b.buffer b.writerIndex data).length
    rw [Vec.length_copyTo]
    omega
  · show Vec.slice (Vec.copyTo b.buffer b.writerIndex data) b.readerIndex
        (b.writerIndex + data.length - b.readerIndex) = _
    rw [show b.writerIndex + data.length - b.readerIndex = b.readableBytes + data.length by
      unfold readableBytes; omega]
    rw [Vec.slice_add, Vec.slice_copyTo_outside (.inl (by unfold readableBytes; omega))]
    rw [show b.readerIndex + b.readableBytes = b.writerIndex by unfold readableBytes; omega]
    rw [Vec.slice_copyTo (by omega)]
    rfl
  · exact Nat.le_of_eq (Vec.length_copyTo ..).symm

theorem append_grown {b : Buffer} (h : b.Indexed) (data : List Byte) :
    Lands (b.append data) fun b' => Grown b b' (b.readable ++ data) := by
  unfold append
  refine (ensureWritableBytes_grown h data.length).bind fun b₁ hb₁ => ?_
  refine (hasWritten_copyTo_grown hb₁.1.indexed hb₁.2).mono fun b₂ hb₂ => ?_
  rw [hb₁.1.content] at hb₂
  exact hb₁.1.trans hb₂

theorem append_spec {b : Buffer} (h : b.Wf) (data : List Byte) :
    Lands (b.append data) fun b' => Keeps b b' (b.readable ++ data) :=
  (append_grown h.indexed data).mono fun _ hb' => hb'.keeps h

theorem prepend_spec {b : Buffer} (h : b.Wf) {data : List Byte}
    (hlen : data.length ≤ b.prependableBytes) :
    Lands (b.prepend data) fun b' => b'.Wf ∧ b'.readable = data ++ b.readable ∧
      b'.readerIndex + data.length = b.readerIndex := by
  have hr := h.reader_le
  have hw := h.writer_le
  unfold prependableBytes at hlen
  unfold prepend
  refine .check_bind hlen ?_
  refine .ok ⟨⟨?_, ?_, ?_⟩, ?_, ?_⟩
  · show b.readerIndex - data.length ≤ b.writerIndex
    omega
  · simpa using hw
  · simpa using h.cheap_le
  · show Vec.slice (Vec.copyTo b.buffer (b.readerIndex - data.length) data)
        (b.readerIndex - data.length) (b.writerIndex - (b.readerIndex - data.length)) = _
    rw [show b.writerIndex - (b.readerIndex - data.length) = data.length + b.readableBytes by
      unfold readableBytes; omega]
    rw [Vec.slice_add, Vec.slice_copyTo (by omega)]
    rw [show b.readerIndex - data.length + data.length = b.readerIndex by omega]
    rw [Vec.slice_copyTo_outside (.inr (by omega))]
    rfl
  · show b.readerIndex - data.length + data.length = b.readerIndex
    omega

/-- Below `2^31` readable bytes the `int` length of `toStringPiece` is exact. -/
theorem toStringPiece_eq {b : Buffer} (hsmall : b.readableBytes < 2 ^ 31) :
    b.toStringPiece = b.readable := by
  have hcast : (castInt b.readableBytes).toNat = b.readableBytes := by
    unfold castInt
    rw [Int.bmod_eq_of_le (by omega) (by omega)]
    exact Int.toNat_natCast _
  rw [toStringPiece, hcast]
  rfl

theorem shrink_spec {b : Buffer} (hsmall : b.readableBytes < 2 ^ 31) (reserve : Nat) :
    Lands (b.shrink reserve) fun b' => Keeps b b' b.readable := by
  unfold shrink
  refine (new_spec kInitialSize).bind fun b₀ hb₀ => ?_
  obtain ⟨hwf₀, hcontent₀, hcheap₀⟩ := hb₀
  refine (ensureWritableBytes_spec hwf₀ _).bind fun b₁ hb₁ => ?_
  refine (append_spec hb₁.1.wf _).bind fun b₂ hb₂ => ?_
  refine .ok ⟨hb₂.wf, ?_, fun _ => ?_⟩
  · show b₂.readable = b.readable
    rw [hb₂.content, hb₁.1.content, hcontent₀, toStringPiece_eq hsmall, List.nil_append]
  · exact hb₂.cheap (hb₁.1.cheap (Nat.le_of_eq hcheap₀.symm))

/-! ## Buffers that carry their invariant -/

/-- A buffer together with its invariant: the type of a member variable that
nothing but these operations touches. -/
structure Valid where
  raw : Buffer
  wf : raw.Wf

namespace Valid

/-- `Buffer(initialSize)`. -/
def fresh (initialSize : Nat) : Valid :=
  ⟨(new_spec initialSize).value, (new_spec initialSize).eq_value.2.1⟩

def append (b : Valid) (data : List Byte) : Valid :=
  ⟨(append_spec b.wf data).value, (append_spec b.wf data).eq_value.2.wf⟩

def retrieveAll (b : Valid) : Valid := ⟨b.raw.retrieveAll, (retrieveAll_spec b.wf).wf⟩

def readable (b : Valid) : List Byte := b.raw.readable

def readableBytes (b : Valid) : Nat := b.raw.readableBytes

/-- The packed `append` is `Buffer::append`: it returns, whatever the data. -/
theorem append_raw (b : Valid) (data : List Byte) :
    b.raw.append data = .ok (b.append data).raw :=
  (append_spec b.wf data).eq_value.1

@[simp] theorem readable_fresh (initialSize : Nat) : (fresh initialSize).readable = [] :=
  (new_spec initialSize).eq_value.2.2.1

@[simp] theorem readable_append (b : Valid) (data : List Byte) :
    (b.append data).readable = b.readable ++ data :=
  (append_spec b.wf data).eq_value.2.content

@[simp] theorem readable_retrieveAll (b : Valid) : b.retrieveAll.readable = [] :=
  (retrieveAll_spec b.wf).content

@[simp] theorem readableBytes_eq (b : Valid) : b.readableBytes = b.readable.length :=
  b.wf.length_readable.symm

end Valid

end Buffer
end Muduo
