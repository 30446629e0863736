import Muduo.Buffer.Wf

/-!
# Making room with 64-bit sizes

`Buffer.Model` counts in natural numbers. Here `ensureWritableBytes` and
`makeSpace` are taken again with the arithmetic of `size_t`, which is modulo
`2^64`, and with a vector that refuses sizes above its `max_size()` and is then
left as it was. The two sums in `makeSpace` can wrap around. Where they do not,
the natural numbers tell the truth (`makeSpace64_eq`); where one of them does, the
call destroys the buffer or stops at an assertion.
-/

namespace Muduo.Buffer

open Lib

/-- How a call ends that passes its assertions. -/
inductive Completion
  | returned | threw
  deriving DecidableEq, Repr

/-- The value of a sum or a difference of type `size_t`. -/
def sizeT (n : Int) : Nat := (n % 2 ^ 64).toNat

def readableBytes64 (b : Buffer) : Nat := sizeT (b.writerIndex - b.readerIndex)

def writableBytes64 (b : Buffer) : Nat := sizeT (b.buffer.length - b.writerIndex)

/-- `buffer.resize(size)`. -/
def resize64 (maxSize : Nat) (b : Buffer) (size : Nat) : Completion × Buffer :=
  if maxSize < size then (.threw, b)
  else (.returned, { b with buffer := Vec.resize b.buffer size 0 })

def makeSpace64 (maxSize : Nat) (b : Buffer) (len : Nat) :
    Except Assert (Completion × Buffer) :=
  if sizeT (b.writableBytes64 + b.prependableBytes) < sizeT (len + kCheapPrepend) then
    .ok (resize64 maxSize b (sizeT (b.writerIndex + len)))
  else do
    check .makeSpaceReaderIndex (kCheapPrepend < b.readerIndex)
    let readable := b.readableBytes64
    let b' : Buffer :=
      { buffer := Vec.copyWithin b.buffer b.readerIndex kCheapPrepend
          (b.writerIndex - b.readerIndex)
        readerIndex := kCheapPrepend
        writerIndex := sizeT (kCheapPrepend + readable) }
    check .makeSpaceReadable (readable = b'.readableBytes64)
    return (.returned, b')

/-- An exception leaves `ensureWritableBytes` before its assertion. -/
def ensureWritableBytes64 (maxSize : Nat) (b : Buffer) (len : Nat) :
    Except Assert (Completion × Buffer) := do
  let (completion, b') ← (if b.writableBytes64 < len then makeSpace64 maxSize b len
    else .ok (.returned, b) : Except Assert (Completion × Buffer))
  match completion with
  | .threw => return (.threw, b')
  | .returned =>
      check .ensureWritableBytes (len ≤ b'.writableBytes64)
      return (.returned, b')

/-- `ensureWritableBytes(len)` throws and leaves the buffer as it was, or returns
with room for `len` bytes, the indices in order, the same readable bytes and a
vector that has not become smaller. -/
def MakesRoom (maxSize : Nat) (b : Buffer) (len : Nat) : Prop :=
  Lands (ensureWritableBytes64 maxSize b len) fun r =>
    match r.1 with
    | .threw => r.2 = b
    | .returned => len ≤ r.2.writableBytes64 ∧ r.2.readerIndex ≤ r.2.writerIndex ∧
        r.2.writerIndex ≤ r.2.buffer.length ∧ r.2.readable = b.readable ∧
        b.buffer.length ≤ r.2.buffer.length

/-- Neither sum of `makeSpace` wraps around. -/
def SumsFit (b : Buffer) (len : Nat) : Prop :=
  len + kCheapPrepend < 2 ^ 64 ∧ b.writerIndex + len < 2 ^ 64

section Arithmetic

variable {b : Buffer}

theorem writableBytes64_eq (h : b.Indexed) (hsize : b.buffer.length < 2 ^ 64) :
    b.writableBytes64 = b.writableBytes := by
  have := h.writer_le
  unfold writableBytes64 writableBytes sizeT
  omega

theorem readableBytes64_eq (h : b.Indexed) (hsize : b.buffer.length < 2 ^ 64) :
    b.readableBytes64 = b.readableBytes := by
  have := h.reader_le
  have := h.writer_le
  unfold readableBytes64 readableBytes sizeT
  omega

end Arithmetic

section Room

variable {maxSize : Nat} {b : Buffer} {len : Nat}

/-- What the in-place branch of `makeSpace` makes of a buffer. -/
def movedDown (b : Buffer) : Buffer where
  buffer := Vec.copyWithin b.buffer b.readerIndex kCheapPrepend (b.writerIndex - b.readerIndex)
  readerIndex := kCheapPrepend
  writerIndex := kCheapPrepend + b.readableBytes

/-- The in-place branch does not notice the width of `size_t`. -/
theorem moveDown64_eq (h : b.Indexed) (hsize : b.buffer.length < 2 ^ 63) :
    sizeT (kCheapPrepend + b.readableBytes64) = kCheapPrepend + b.readableBytes ∧
      (movedDown b).readableBytes64 = b.readableBytes := by
  have hr := h.reader_le
  have hw := h.writer_le
  rw [readableBytes64_eq h (by omega)]
  unfold readableBytes64 movedDown readableBytes sizeT kCheapPrepend
  constructor
  · omega
  · dsimp only
    omega

/-- The test of `makeSpace`, when its left side is exact. -/
theorem sizeT_room (h : b.Indexed) (hsize : b.buffer.length < 2 ^ 64) :
    sizeT (b.writableBytes64 + b.prependableBytes) = b.writableBytes + b.prependableBytes := by
  have hr := h.reader_le
  have hw := h.writer_le
  rw [writableBytes64_eq h hsize]
  unfold writableBytes prependableBytes sizeT
  omega

/-- Where the sums do not wrap around, `makeSpace` throws, or does what it does
with natural numbers. -/
theorem makeSpace64_eq (h : b.Indexed) (hsize : b.buffer.length < 2 ^ 63) (hfit : SumsFit b len) :
    makeSpace64 maxSize b len =
      if b.writableBytes + b.prependableBytes < len + kCheapPrepend ∧
          maxSize < b.writerIndex + len then .ok (.threw, b)
      else b.makeSpace len >>= fun b' => .ok (.returned, b') := by
  obtain ⟨hlen, hwriter⟩ := hfit
  have hcheap : sizeT ((len : Int) + kCheapPrepend) = len + kCheapPrepend := by
    unfold sizeT
    omega
  have hsum : sizeT ((b.writerIndex : Int) + len) = b.writerIndex + len := by
    unfold sizeT
    omega
  unfold makeSpace64 makeSpace
  rw [sizeT_room h (by omega), hcheap, hsum]
  by_cases hroom : b.writableBytes + b.prependableBytes < len + kCheapPrepend
  · rw [if_pos hroom, if_pos hroom]
    by_cases hmax : maxSize < b.writerIndex + len
    · rw [if_pos ⟨hroom, hmax⟩, resize64, if_pos hmax]
    · rw [if_neg (fun hboth => hmax hboth.2), resize64, if_neg hmax]
      rfl
  · obtain ⟨hindex, hread⟩ := moveDown64_eq h hsize
    rw [if_neg hroom, if_neg hroom, if_neg (fun hboth => hroom hboth.1)]
    dsimp only
    rw [hindex, readableBytes64_eq h (by omega)]
    by_cases hgt : kCheapPrepend < b.readerIndex
    · have hread' : b.readableBytes = (movedDown b).readableBytes64 := hread.symm
      have hread'' : b.readableBytes = (movedDown b).readableBytes := by
        simp [movedDown, readableBytes]
      rw [check_of _ hgt, ok_bind, ok_bind]
      show (check Assert.makeSpaceReadable (b.readableBytes = (movedDown b).readableBytes64) >>=
          fun _ => Except.ok (Completion.returned, movedDown b)) =
        (check Assert.makeSpaceReadable (b.readableBytes = (movedDown b).readableBytes) >>=
          fun _ => Except.ok (movedDown b)) >>= fun b' => Except.ok (Completion.returned, b')
      rw [check_of _ hread', check_of _ hread'']
      rfl
    · rw [check_of_not _ hgt]
      rfl

/-- Where a sum wraps around, the call shrinks the vector under the writer index
or stops at an assertion. -/
theorem not_makesRoom (hmax : maxSize < 2 ^ 63) (h : b.Wf) (hsize : b.buffer.length ≤ maxSize)
    (hlen : len < 2 ^ 64) (hroom : b.writableBytes < len) (hfit : ¬ SumsFit b len) :
    ¬ MakesRoom maxSize b len := by
  have hr := h.reader_le
  have hw := h.writer_le
  have hc := h.cheap_le
  rintro ⟨⟨completion, b'⟩, hexec, hpost⟩
  unfold ensureWritableBytes64 at hexec
  rw [writableBytes64_eq h.indexed (by omega), if_pos hroom] at hexec
  obtain ⟨⟨completion₁, b₁⟩, hspace, hrest⟩ := bind_eq_ok hexec
  unfold makeSpace64 at hspace
  rw [sizeT_room h.indexed (by omega)] at hspace
  unfold SumsFit at hfit
  by_cases htest : b.writableBytes + b.prependableBytes < sizeT ((len : Int) + kCheapPrepend)
  · -- the new size has wrapped around, and is below the writer index
    rw [if_pos htest] at hspace
    have hnew : sizeT ((b.writerIndex : Int) + len) < b.writerIndex := by
      unfold sizeT writableBytes prependableBytes kCheapPrepend at *
      omega
    rw [resize64, if_neg (by omega)] at hspace
    obtain ⟨rfl, rfl⟩ := Prod.mk.inj (Except.ok.inj hspace)
    obtain ⟨u, -, hb'⟩ := bind_eq_ok hrest
    obtain ⟨rfl, rfl⟩ := Prod.mk.inj (Except.ok.inj hb')
    have hwriter : b.writerIndex ≤ (Vec.resize b.buffer (sizeT (b.writerIndex + len)) 0).length :=
      hpost.2.2.1
    rw [Vec.length_resize] at hwriter
    omega
  · -- the branch that moves the bytes down cannot make as much room as was asked for
    rw [if_neg htest] at hspace
    have hlarge : 2 ^ 63 ≤ len := by
      unfold sizeT writableBytes prependableBytes kCheapPrepend at *
      omega
    obtain ⟨u, hu, hspace⟩ := bind_eq_ok hspace
    have hgt := check_eq_ok hu
    obtain ⟨u', -, hspace⟩ := bind_eq_ok hspace
    obtain ⟨rfl, rfl⟩ := Prod.mk.inj (Except.ok.inj hspace)
    obtain ⟨u'', hu'', -⟩ := bind_eq_ok hrest
    have hfinal := check_eq_ok hu''
    rw [(moveDown64_eq h.indexed (by omega)).1] at hfinal
    have hwritable : writableBytes64 (movedDown b) < 2 ^ 63 := by
      unfold writableBytes64 movedDown sizeT readableBytes kCheapPrepend at *
      simp only [Vec.length_copyWithin]
      omega
    exact absurd hfinal (Nat.not_le_of_lt (lt_of_lt_of_le hwritable hlarge))

/-- Where no sum wraps around, the call makes room or throws. -/
theorem makesRoom_of_fit (hmax : maxSize < 2 ^ 63) (h : b.Wf) (hsize : b.buffer.length ≤ maxSize)
    (hroom : b.writableBytes < len) (hfit : SumsFit b len) : MakesRoom maxSize b len := by
  have hw := h.writer_le
  unfold MakesRoom ensureWritableBytes64
  rw [writableBytes64_eq h.indexed (by omega), if_pos hroom,
    makeSpace64_eq h.indexed (by omega) hfit]
  by_cases hthrow : b.writableBytes + b.prependableBytes < len + kCheapPrepend ∧
      maxSize < b.writerIndex + len
  · rw [if_pos hthrow]
    exact .ok rfl
  · rw [if_neg hthrow]
    obtain ⟨b', hb', hgrown, hwritable⟩ := makeSpace_grown h.indexed hroom
    -- the vector is as long as it was, or was allowed to grow
    have hlength : b'.buffer.length < 2 ^ 64 := by
      unfold makeSpace at hb'
      split at hb'
      · obtain rfl := Except.ok.inj hb'
        simp only [Vec.length_resize]
        omega
      · obtain ⟨u, -, hb'⟩ := bind_eq_ok hb'
        obtain ⟨u', -, hb'⟩ := bind_eq_ok hb'
        obtain rfl := Except.ok.inj hb'
        simp only [Vec.length_copyWithin]
        omega
    have hwritable' : len ≤ b'.writableBytes64 := by
      rw [writableBytes64_eq hgrown.indexed hlength]
      exact hwritable
    rw [hb', ok_bind, ok_bind]
    refine .check_bind hwritable' (.ok ?_)
    exact ⟨hwritable', hgrown.indexed.reader_le, hgrown.indexed.writer_le, hgrown.content,
      hgrown.grows⟩

end Room

/-- **Making room, for every 64-bit length.** `ensureWritableBytes(len)` does what
it has to do if and only if there is room already, or neither `len +
kCheapPrepend` nor `M_writerIndex + len` wraps around. The `max_size()` of a vector
of bytes is below `2^63`: its sizes are differences of iterators. -/
theorem makes_room_iff (maxSize : Nat) (hmax : maxSize < 2 ^ 63) (b : Buffer) (h : b.Wf)
    (hsize : b.buffer.length ≤ maxSize) (len : Nat) (hlen : len < 2 ^ 64) :
    MakesRoom maxSize b len ↔ len ≤ b.writableBytes ∨ SumsFit b len := by
  rcases Nat.lt_or_ge b.writableBytes len with hroom | hroom
  · rw [or_iff_right (Nat.not_le_of_lt hroom)]
    constructor
    · intro hmakes
      by_contra hfit
      exact not_makesRoom hmax h hsize hlen hroom hfit hmakes
    · exact makesRoom_of_fit hmax h hsize hroom
  · have hwritable : b.writableBytes64 = b.writableBytes := writableBytes64_eq h.indexed (by omega)
    refine iff_of_true ?_ (.inl hroom)
    unfold MakesRoom ensureWritableBytes64
    rw [hwritable, if_neg (Nat.not_lt_of_le hroom), ok_bind]
    refine .check_bind (by rw [hwritable]; exact hroom) (.ok ?_)
    exact ⟨by rw [hwritable]; exact hroom, h.reader_le, h.writer_le, rfl, Nat.le_refl _⟩

/-- Four bytes more than are writable, with the largest vector that a pointer
difference can span. -/
theorem makes_room_iff_four : MakesRoom (2 ^ 63 - 1) ⟨List.replicate 16 7, 8, 16⟩ 4 :=
  (makes_room_iff (2 ^ 63 - 1) (by decide) _ (by decide) (by simp) 4 (by decide)).mpr
    (.inr ⟨by decide, by decide⟩)

/-- A decoded length of -9: the vector of 24 bytes is cut down to 11, while the
writer index stays at 20. -/
theorem negative_length_cuts_vector :
    ensureWritableBytes64 (2 ^ 63 - 1) ⟨List.replicate 24 7, 8, 20⟩ (2 ^ 64 - 9) =
      .ok (.returned, ⟨List.replicate 11 7, 8, 20⟩) ∧
    ¬ MakesRoom (2 ^ 63 - 1) ⟨List.replicate 24 7, 8, 20⟩ (2 ^ 64 - 9) := by
  have hrun : ensureWritableBytes64 (2 ^ 63 - 1) ⟨List.replicate 24 7, 8, 20⟩ (2 ^ 64 - 9) =
      .ok (.returned, ⟨List.replicate 11 7, 8, 20⟩) := by decide +kernel
  refine ⟨hrun, ?_⟩
  rintro ⟨r, hr, hpost⟩
  obtain rfl := Except.ok.inj (hrun.symm.trans hr)
  exact absurd hpost.2.2.1 (by decide)

end Muduo.Buffer
