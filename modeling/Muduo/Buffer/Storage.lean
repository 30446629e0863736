import Muduo.Buffer.Queue
import Muduo.Buffer.ReadFd

/-!
# The storage of a buffer

The vector behind a buffer is as large as it was made; the readable bytes take up a part
of it. Room for more bytes is made by enlarging the vector, or by moving the readable
bytes to the front, and only `shrink` and `swap` ever give storage back. This module says
how large the vector is after each member function, `readFd` with the part that goes
through its second range included, and from it what whole runs use.
-/

namespace Muduo.Buffer

open Lib

/-- What happens to one buffer: a call, a read from a descriptor, an exchange with another
buffer. -/
inductive StorageAct
  | call (c : Call)
  | readFd (extrabuf : List Byte) (savedErrno : Errno) (r : Readv)
  | swap (rhs : Buffer)

def StorageAct.exec (b : Buffer) : StorageAct → Except Assert Buffer
  | .call c => c.exec b
  | .readFd extrabuf savedErrno r => do
      let out ← b.readFd extrabuf savedErrno r
      return out.buffer
  | .swap rhs => .ok (b.swap rhs).1

/-- What the caller owes, and what `readv` may do. -/
def StorageAct.Pre (b : Buffer) : StorageAct → Prop
  | .call c => c.Pre b
  | .readFd extrabuf _ r =>
      extrabuf.length = extrabufSize ∧ r.Permitted (iovLens b.writableBytes)
  | .swap rhs => rhs.Wf

instance StorageAct.decidablePre (b : Buffer) : ∀ a : StorageAct, Decidable (a.Pre b)
  | .call c => inferInstanceAs (Decidable (c.Pre b))
  | .readFd _ _ _ => inferInstanceAs (Decidable (_ ∧ _))
  | .swap rhs => inferInstanceAs (Decidable rhs.Wf)

def storageSys : Sys Buffer StorageAct Assert := ⟨StorageAct.Pre, StorageAct.exec⟩

instance (b : Buffer) (a : StorageAct) : Decidable (storageSys.enabled b a) :=
  StorageAct.decidablePre b a

/-- `M_buffer.size()`. -/
def storage (b : Buffer) : Nat := b.buffer.length

/-! ## The size of the vector after one step -/

/-- The vector once there is room for `len` bytes: it is enlarged where both gaps together,
less the cheap prepend room, are not enough. -/
def storageFor (b : Buffer) (len : Nat) : Nat :=
  if b.writableBytes < len ∧ b.storage < kCheapPrepend + b.readableBytes + len then
    b.writerIndex + len
  else b.storage

/-- The size of the vector after a step. -/
def storageAfter (b : Buffer) : StorageAct → Nat
  | .call (.append data) => b.storageFor data.length
  | .call (.ensureWritableBytes len) => b.storageFor len
  | .call (.shrink reserve) => kCheapPrepend + max kInitialSize (b.readableBytes + reserve)
  | .call (.retrieve _) | .call (.retrieveUntil _) | .call .retrieveAll
  | .call (.retrieveAsString _) | .call (.unwrite _) | .call (.prepend _) => b.storage
  | .readFd _ _ (.receives data) => b.storageFor data.length
  | .readFd _ _ (.fails _) => b.storage
  | .swap rhs => rhs.storage

section Step

variable {b : Buffer}

theorem new_storage (initialSize : Nat) :
    Post (new initialSize) fun b => b.storage = kCheapPrepend + initialSize := by
  unfold new
  refine .check_bind fun _ => .check_bind fun _ => .check_bind fun _ => .ok ?_
  exact List.length_replicate

theorem storageFor_of_le {len : Nat} (h : len ≤ b.writableBytes) :
    b.storageFor len = b.storage := by
  unfold storageFor
  rw [if_neg]
  rintro ⟨hlt, -⟩
  omega

theorem makeSpace_storage (h : b.Indexed) {len : Nat} (hcaller : b.writableBytes < len) :
    Post (b.makeSpace len) fun b' => b'.storage = b.storageFor len := by
  have hreader := h.reader_le
  have hwriter := h.writer_le
  have hgaps : b.writableBytes + b.prependableBytes < len + kCheapPrepend ↔
      b.storage < kCheapPrepend + b.readableBytes + len := by
    unfold writableBytes prependableBytes readableBytes storage
    omega
  unfold makeSpace storageFor
  by_cases hroom : b.writableBytes + b.prependableBytes < len + kCheapPrepend
  · rw [if_pos hroom, if_pos ⟨hcaller, hgaps.mp hroom⟩]
    exact .ok (Vec.length_resize _ _ _)
  · rw [if_neg hroom, if_neg fun hgrows => hroom (hgaps.mpr hgrows.2)]
    refine .check_bind fun _ => ?_
    refine .check_bind fun _ => ?_
    exact .ok (Vec.length_copyWithin _ _ _ _)

theorem ensureWritableBytes_storage (h : b.Indexed) (len : Nat) :
    Post (b.ensureWritableBytes len) fun b' => b'.storage = b.storageFor len := by
  have hspace : Post (if b.writableBytes < len then b.makeSpace len else .ok b) fun b' =>
      b'.storage = b.storageFor len := by
    by_cases hlt : b.writableBytes < len
    · rw [if_pos hlt]
      exact makeSpace_storage h hlt
    · rw [if_neg hlt]
      exact .ok (storageFor_of_le (Nat.le_of_not_lt hlt)).symm
  unfold ensureWritableBytes
  exact hspace.bind fun b' hb' => .check_bind fun _ => .ok hb'

theorem append_storage (h : b.Indexed) (data : List Byte) :
    Post (b.append data) fun b' => b'.storage = b.storageFor data.length := by
  unfold append
  refine (ensureWritableBytes_storage h data.length).bind fun b' hb' => ?_
  unfold hasWritten
  refine .check_bind fun _ => .ok ?_
  exact (Vec.length_copyTo _ _ _).trans hb'

/-- The new vector has the default size, or one that fits the readable bytes and the
reserve. -/
theorem shrink_storage (hsmall : b.readableBytes < 2 ^ 31) (h : b.Indexed) (reserve : Nat) :
    Post (b.shrink reserve) fun b' =>
      b'.storage = kCheapPrepend + max kInitialSize (b.readableBytes + reserve) := by
  unfold shrink
  obtain ⟨b₀, hnew, hwf₀, hcontent₀, hcheap₀⟩ := new_spec kInitialSize
  have hsize₀ : b₀.storage = kCheapPrepend + kInitialSize := new_storage kInitialSize b₀ hnew
  have hread₀ : b₀.readableBytes = 0 := by
    rw [← hwf₀.length_readable, hcontent₀]
    rfl
  have hwriter₀ : b₀.writerIndex = kCheapPrepend := by
    have hreader := hwf₀.reader_le
    unfold readableBytes at hread₀
    unfold prependableBytes at hcheap₀
    omega
  have hwritable₀ : b₀.writableBytes = kInitialSize := by
    unfold storage at hsize₀
    unfold writableBytes
    omega
  rw [hnew, ok_bind]
  have hroom := (ensureWritableBytes_spec hwf₀ (b.readableBytes + reserve)).and
    (ensureWritableBytes_storage hwf₀.indexed (b.readableBytes + reserve))
  obtain ⟨b₁, hb₁, ⟨hkeeps, hfits⟩, hsize₁⟩ := hroom
  rw [hb₁, ok_bind]
  have hpiece : b.toStringPiece.length = b.readableBytes := by
    rw [toStringPiece_eq hsmall, h.length_readable]
  refine (append_storage hkeeps.wf.indexed b.toStringPiece).bind fun b₂ hb₂ => .ok ?_
  show b₂.storage = _
  rw [hb₂, storageFor_of_le (by omega), hsize₁]
  unfold storageFor
  rw [hwritable₀, hsize₀, hread₀, hwriter₀]
  split <;> omega

theorem retrieve_storage (len : Nat) :
    Post (b.retrieve len) fun b' => b'.storage = b.storage := by
  unfold retrieve
  refine .check_bind fun _ => ?_
  split
  · exact .ok rfl
  · exact .ok rfl

theorem exec_call_storage (h : b.Wf) {c : Call} (hpre : c.Pre b) :
    Post (c.exec b) fun b' => b'.storage = b.storageAfter (.call c) := by
  cases c with
  | append data => exact append_storage h.indexed data
  | retrieve len => exact retrieve_storage len
  | retrieveUntil off =>
      show Post (b.retrieveUntil _) _
      unfold retrieveUntil
      exact .check_bind fun _ => .check_bind fun _ => retrieve_storage _
  | retrieveAll => exact .ok rfl
  | retrieveAsString len =>
      show Post (b.retrieveAsString len >>= _) _
      unfold retrieveAsString
      refine Post.bind (.check_bind fun _ => (retrieve_storage len).bind fun b' hb' => .ok ?_)
        fun r hr => .ok hr
      exact hb'
  | unwrite len =>
      show Post (b.unwrite len) _
      unfold unwrite
      exact .check_bind fun _ => .ok rfl
  | prepend data =>
      show Post (b.prepend data) _
      unfold prepend
      exact .check_bind fun _ => .ok (Vec.length_copyTo _ _ _)
  | ensureWritableBytes len => exact ensureWritableBytes_storage h.indexed len
  | shrink reserve => exact shrink_storage hpre h.indexed reserve

/-- A vector that has been filled to its end needs the same room for the rest. -/
theorem storageFor_of_full (h : b.Indexed) {b' : Buffer} {len : Nat}
    (hspills : b.writableBytes < len) (hreader : b'.readerIndex = b.readerIndex)
    (hwriter : b'.writerIndex = b.storage) (hsize : b'.storage = b.storage) :
    b'.storageFor (len - b.writableBytes) = b.storageFor len := by
  have hle := h.reader_le
  have hle' := h.writer_le
  have hfull : b'.writableBytes = 0 := by
    unfold storage at hsize hwriter
    unfold writableBytes
    omega
  have hgrows : b'.storage < kCheapPrepend + b'.readableBytes + (len - b.writableBytes) ↔
      b.storage < kCheapPrepend + b.readableBytes + len := by
    unfold readableBytes
    rw [hreader, hwriter, hsize]
    unfold storage
    unfold writableBytes at hspills ⊢
    omega
  unfold storageFor
  by_cases hroom : b.storage < kCheapPrepend + b.readableBytes + len
  · rw [if_pos ⟨by omega, hgrows.mpr hroom⟩, if_pos ⟨hspills, hroom⟩, hwriter]
    unfold storage
    unfold writableBytes at hspills ⊢
    omega
  · rw [if_neg fun hgrow => hroom (hgrows.mp hgrow.2), if_neg fun hgrow => hroom hgrow.2, hsize]

/-- What goes through the second range is room that is made as for an `append`. -/
theorem readFd_storage (h : b.Indexed) {extrabuf data : List Byte}
    (hextra : extrabuf.length = extrabufSize) (savedErrno : Errno)
    (hpermitted : data.length ≤ (iovLens b.writableBytes).sum) :
    Post (b.readFd extrabuf savedErrno (.receives data)) fun out =>
      out.buffer.storage = b.storageFor data.length := by
  have hreader := h.reader_le
  have hwriter := h.writer_le
  unfold readFd
  dsimp only
  by_cases hfits : data.length ≤ b.writableBytes
  · rw [if_pos hfits]
    refine .ok ?_
    rw [storageFor_of_le hfits]
    exact Vec.length_copyTo _ _ _
  · rw [if_neg hfits]
    have hrest : data.length - b.writableBytes ≤ extrabufSize := by
      unfold iovLens at hpermitted
      split at hpermitted
      · simp only [List.take_succ_cons, List.take_zero, List.sum_cons, List.sum_nil] at hpermitted
        omega
      · simp only [List.take_succ_cons, List.take_zero, List.sum_cons, List.sum_nil] at hpermitted
        omega
    generalize hparts : scatter (iovLens b.writableBytes) data = parts
    have htake : ((Vec.copyTo extrabuf 0 (parts.getD 1 [])).take
        (data.length - b.writableBytes)).length = data.length - b.writableBytes := by
      rw [List.length_take, Vec.length_copyTo, hextra]
      omega
    have hlength : (Vec.copyTo b.buffer b.writerIndex (parts.getD 0 [])).length =
        b.buffer.length := Vec.length_copyTo _ _ _
    refine (append_storage ⟨?_, Nat.le_refl _⟩ _).bind fun b' hb' => .ok ?_
    · show b.readerIndex ≤ (Vec.copyTo b.buffer b.writerIndex (parts.getD 0 [])).length
      omega
    · rw [hb', htake]
      exact storageFor_of_full h (Nat.lt_of_not_le hfits) rfl hlength hlength

/-- **The step lemma**: the buffer stays well-formed, and its vector has the size that
`storageAfter` says. -/
theorem exec_storage (h : b.Wf) {a : StorageAct} (hpre : a.Pre b) :
    Lands (a.exec b) fun b' => b'.Wf ∧ b'.storage = b.storageAfter a := by
  cases a with
  | call c =>
      refine ((Call.exec_spec h c hpre).and (exec_call_storage h hpre)).mono fun b' hb' => ?_
      exact ⟨hb'.1.1, hb'.2⟩
  | swap rhs => exact .ok ⟨⟨hpre.reader_le, hpre.writer_le, hpre.cheap_le⟩, rfl⟩
  | readFd extrabuf savedErrno r =>
      obtain ⟨hextra, hpermitted⟩ := hpre
      cases r with
      | fails errno => exact .ok ⟨h, rfl⟩
      | receives data =>
          have hreads : Lands (b.readFd extrabuf savedErrno (.receives data)) fun out =>
              out.n = data.length ∧ out.savedErrno = savedErrno ∧
                Grown b out.buffer (b.readable ++ data) := by
            rcases Nat.lt_or_ge b.writableBytes data.length with hspills | hfits
            · exact readFd_spills h.indexed hspills hpermitted hextra savedErrno
            · exact readFd_fits h.indexed hfits extrabuf savedErrno
          refine (hreads.and (readFd_storage h.indexed hextra savedErrno hpermitted)).bind
            fun out hout => ?_
          obtain ⟨⟨-, -, hgrown⟩, hsize⟩ := hout
          exact .ok ⟨(hgrown.keeps h).wf, hsize⟩

end Step

/-! ## How large the vector becomes -/

/-- The bytes the buffer holds, or is asked to have room for, at once in a step. -/
def StorageAct.need (b : Buffer) : StorageAct → Nat
  | .call (.append data) => b.readableBytes + data.length
  | .call (.ensureWritableBytes len) => b.readableBytes + len
  | .call (.shrink reserve) => b.readableBytes + reserve
  | .call (.prepend data) => b.readableBytes + data.length
  | .call (.retrieve _) | .call (.retrieveUntil _) | .call .retrieveAll
  | .call (.retrieveAsString _) | .call (.unwrite _) => b.readableBytes
  | .readFd _ _ (.receives data) => b.readableBytes + data.length
  | .readFd _ _ (.fails _) => b.readableBytes
  | .swap rhs => rhs.readableBytes

/-- The size a vector has at most whose buffer never needs more than `most` bytes. -/
def storageBound (most : Nat) : Nat := max (kCheapPrepend + kInitialSize) (2 * most + 7)

/-- A step that needs no more, and brings in no larger vector. -/
def StorageAct.Within (most : Nat) (b : Buffer) (a : StorageAct) : Prop :=
  a.need b ≤ most ∧ match a with
    | .swap rhs => rhs.storage ≤ storageBound most
    | .call _ | .readFd _ _ _ => True

instance StorageAct.decidableWithin (most : Nat) (b : Buffer) :
    ∀ a : StorageAct, Decidable (a.Within most b)
  | .call _ | .readFd _ _ _ => inferInstanceAs (Decidable (_ ∧ True))
  | .swap rhs => inferInstanceAs (Decidable (_ ∧ rhs.storage ≤ storageBound most))

section Bound

variable {b : Buffer} {most : Nat}

/-- The vector is only enlarged where the gap in front of the readable bytes is small, so
that the gap is of the order of what was asked for. -/
theorem storageFor_le (h : b.Indexed) {len : Nat} (hneed : b.readableBytes + len ≤ most)
    (hsize : b.storage ≤ storageBound most) : b.storageFor len ≤ storageBound most := by
  have hreader := h.reader_le
  have hwriter := h.writer_le
  unfold storageFor
  split
  · rename_i hgrows
    obtain ⟨hcaller, hroom⟩ := hgrows
    have hwritten : b.writerIndex + len ≤ 2 * most + 7 := by
      unfold storage at hroom
      unfold readableBytes at hneed hroom
      unfold kCheapPrepend at hroom
      omega
    exact hwritten.trans (Nat.le_max_right _ _)
  · exact hsize

theorem storageAfter_le (h : b.Wf) {a : StorageAct} (hwithin : a.Within most b)
    (hsize : b.storage ≤ storageBound most) : b.storageAfter a ≤ storageBound most := by
  obtain ⟨hneed, hswap⟩ := hwithin
  cases a with
  | swap rhs => exact hswap
  | readFd extrabuf savedErrno r =>
      cases r with
      | fails errno => exact hsize
      | receives data => exact storageFor_le h.indexed hneed hsize
  | call c =>
      cases c with
      | append data => exact storageFor_le h.indexed hneed hsize
      | ensureWritableBytes len => exact storageFor_le h.indexed hneed hsize
      | shrink reserve =>
          have hneed' : b.readableBytes + reserve ≤ most := hneed
          show kCheapPrepend + max kInitialSize (b.readableBytes + reserve) ≤ _
          unfold storageBound kCheapPrepend
          omega
      | retrieve _ | retrieveUntil _ | retrieveAll | retrieveAsString _ | unwrite _
      | prepend _ => exact hsize

end Bound

/-! ## When the vector is left alone -/

/-- There is room for `len` bytes without a larger vector: behind the readable bytes, or
with the gap in front of them, less the cheap prepend room. -/
def Fits (b : Buffer) (len : Nat) : Prop :=
  len ≤ b.writableBytes ∨ kCheapPrepend + b.readableBytes + len ≤ b.storage

instance (b : Buffer) (len : Nat) : Decidable (b.Fits len) :=
  inferInstanceAs (Decidable (_ ∨ _))

/-- The step does with the vector there is. -/
def StorageAct.Keeps (b : Buffer) : StorageAct → Prop
  | .call (.append data) => b.Fits data.length
  | .call (.ensureWritableBytes len) => b.Fits len
  | .call (.shrink reserve) =>
      b.storage = kCheapPrepend + max kInitialSize (b.readableBytes + reserve)
  | .call (.retrieve _) | .call (.retrieveUntil _) | .call .retrieveAll
  | .call (.retrieveAsString _) | .call (.unwrite _) | .call (.prepend _) => True
  | .readFd _ _ (.receives data) => b.Fits data.length
  | .readFd _ _ (.fails _) => True
  | .swap rhs => b.storage = rhs.storage

instance StorageAct.decidableKeeps (b : Buffer) : ∀ a : StorageAct, Decidable (a.Keeps b)
  | .call (.append data) => inferInstanceAs (Decidable (b.Fits data.length))
  | .call (.ensureWritableBytes len) => inferInstanceAs (Decidable (b.Fits len))
  | .call (.shrink _) => inferInstanceAs (Decidable (_ = _))
  | .call (.retrieve _) | .call (.retrieveUntil _) | .call .retrieveAll
  | .call (.retrieveAsString _) | .call (.unwrite _) | .call (.prepend _)
  | .readFd _ _ (.fails _) => inferInstanceAs (Decidable True)
  | .readFd _ _ (.receives data) => inferInstanceAs (Decidable (b.Fits data.length))
  | .swap _ => inferInstanceAs (Decidable (_ = _))

section Keeps

variable {b : Buffer}

theorem storageFor_eq_iff (h : b.Indexed) (len : Nat) :
    b.storageFor len = b.storage ↔ b.Fits len := by
  have hwriter := h.writer_le
  unfold storageFor Fits
  split
  · rename_i hgrows
    obtain ⟨hcaller, hroom⟩ := hgrows
    unfold writableBytes storage at *
    constructor
    · intro heq
      omega
    · rintro (hfits | hfits)
      · omega
      · omega
  · rename_i hroom
    refine iff_of_true rfl ?_
    by_contra hfits
    rw [not_or] at hfits
    exact hroom ⟨Nat.lt_of_not_le hfits.1, Nat.lt_of_not_le hfits.2⟩

theorem storageAfter_eq_iff (h : b.Wf) (a : StorageAct) :
    b.storageAfter a = b.storage ↔ a.Keeps b := by
  cases a with
  | swap rhs => exact eq_comm
  | readFd extrabuf savedErrno r =>
      cases r with
      | fails errno => exact iff_of_true rfl trivial
      | receives data => exact storageFor_eq_iff h.indexed data.length
  | call c =>
      cases c with
      | append data => exact storageFor_eq_iff h.indexed data.length
      | ensureWritableBytes len => exact storageFor_eq_iff h.indexed len
      | shrink reserve => exact eq_comm
      | retrieve _ | retrieveUntil _ | retrieveAll | retrieveAsString _ | unwrite _
      | prepend _ => exact iff_of_true rfl trivial

/-- **When the vector is never resized.** A run leaves the vector at its size at every
point exactly if each step that adds bytes, or reserves room, finds it behind the readable
bytes or in both gaps together, the cheap prepend room spared: then the bytes move within
one vector, however many pass through it. -/
theorem storage_fixed_iff (b : Buffer) (h : b.Wf) (acts : List StorageAct)
    (hlegal : storageSys.Legal b acts) :
    (∀ p, p <+: acts → Post (storageSys.runFrom b p) fun b' => b'.storage = b.storage) ↔
      storageSys.Meets (fun b a => a.Keeps b) b acts := by
  refine Sys.always_iff_meets_of_invariant (S := storageSys) (I := Wf)
    (P := fun b' => b'.storage = b.storage) ?_ ?_ ?_ h rfl hlegal
  · intro b₁ a hwf hpre
    exact (exec_storage hwf hpre).post.mono fun b₂ hb₂ => hb₂.1
  · intro b₁ a hwf hsize hpre b₂ hexec
    rw [((exec_storage hwf hpre).post b₂ hexec).2, ← storageAfter_eq_iff hwf a, hsize]
  · intro b₁ a e hwf hpre herr
    obtain ⟨b₂, hexec, -⟩ := exec_storage hwf hpre
    rw [show a.exec b₁ = .error e from herr] at hexec
    exact absurd hexec (by simp)

/-- Twelve bytes of content at most pass through twenty bytes of storage, and the
thirteenth does not. -/
theorem storage_fixed_iff_twenty :
    Lands (storageSys.runFrom ⟨List.replicate 20 0, 8, 8⟩
      [.call (.append [1, 2, 3, 4, 5, 6, 7]), .call (.retrieve 5),
        .call (.append [8, 9, 10, 11, 12, 13, 14, 15, 16, 17]), .call (.retrieve 9)])
      (fun b' => b'.readable = [15, 16, 17] ∧ b'.storage = 20) ∧
    ¬ ∀ p, p <+: [.call (.append [1, 2, 3, 4, 5, 6, 7]), .call (.retrieve 5),
        .call (.append [8, 9, 10, 11, 12, 13, 14, 15, 16, 17, 18])] →
      Post (storageSys.runFrom ⟨List.replicate 20 0, 8, 8⟩ p) fun b' => b'.storage = 20 := by
  constructor
  · have hfixed := (storage_fixed_iff ⟨List.replicate 20 0, 8, 8⟩ (by decide)
      [.call (.append [1, 2, 3, 4, 5, 6, 7]), .call (.retrieve 5),
        .call (.append [8, 9, 10, 11, 12, 13, 14, 15, 16, 17]), .call (.retrieve 9)]
      (by decide +kernel)).mpr (by decide +kernel)
    have hruns : Lands (storageSys.runFrom ⟨List.replicate 20 0, 8, 8⟩
        [.call (.append [1, 2, 3, 4, 5, 6, 7]), .call (.retrieve 5),
          .call (.append [8, 9, 10, 11, 12, 13, 14, 15, 16, 17]), .call (.retrieve 9)])
        fun b' => b'.readable = [15, 16, 17] := by
      decide +kernel
    exact hruns.and (hfixed _ List.prefix_rfl)
  · intro hall
    exact absurd ((storage_fixed_iff ⟨List.replicate 20 0, 8, 8⟩ (by decide) _
      (by decide +kernel)).mp hall) (by decide +kernel)

end Keeps

end Muduo.Buffer
