import Muduo.Buffer.Wire

/-!
# What is written to a buffer is read back

Integers of 8, 16 and 32 bits that are appended come out again, in any
interleaving of writes and reads (`Wire` is a buffer with the list of what is in
it). Integers of 64 bits come out again if they fit into 32, because `peekInt64`
returns an `int32_t`. Integers that are prepended frame what was readable before,
except those of 16 bits, for which `prependInt16` writes four bytes.
-/

namespace Muduo.Buffer

open Lib

/-- The integer types of the functions considered together. -/
inductive Width
  | int8 | int16 | int32
  deriving DecidableEq, Repr

def Width.bits : Width → Nat
  | .int8 => 8
  | .int16 => 16
  | .int32 => 32

def Width.bytes : Width → Nat
  | .int8 => 1
  | .int16 => 2
  | .int32 => 4

def appendInt (b : Buffer) : (w : Width) → BitVec w.bits → Except Assert Buffer
  | .int8, x => b.appendInt8 x
  | .int16, x => b.appendInt16 x
  | .int32, x => b.appendInt32 x

def readInt (b : Buffer) : Width → Except Assert (BitVec 64 × Buffer)
  | .int8 => b.readInt8
  | .int16 => b.readInt16
  | .int32 => b.readInt32

def prependInt (b : Buffer) : (w : Width) → BitVec w.bits → Except Assert Buffer
  | .int8, x => b.prependInt8 x
  | .int16, x => b.prependInt16 x
  | .int32, x => b.prependInt32 x

theorem appendInt_eq (b : Buffer) (w : Width) (x : BitVec w.bits) :
    b.appendInt w x = b.append (bigEndian w.bytes x.toInt) := by
  cases w with
  | int8 => exact appendInt8_eq b x
  | int16 => exact appendInt16_eq b x
  | int32 => exact appendInt32_eq b x

/-- A read at the encoding of `x` returns `x` and takes the encoding away. -/
theorem readInt_spec {b : Buffer} (h : b.Wf) (w : Width) (x : BitVec w.bits) {rest : List Byte}
    (hb : b.readable = bigEndian w.bytes x.toInt ++ rest) :
    Lands (b.readInt w) fun r => r.1.toInt = x.toInt ∧ Keeps b r.2 rest := by
  cases w with
  | int8 =>
      refine (readWith_spec h (peekInt8_eq h x hb) hb (by simp [Width.bytes])).mono ?_
      rintro r ⟨hr, hkeeps⟩
      refine ⟨?_, hkeeps⟩
      rw [hr, BitVec.toInt_signExtend_of_le (by omega)]
      exact BitVec.toInt_signExtend_of_le (by decide)
  | int16 =>
      refine (readWith_spec h (peekInt16_eq h x hb) hb (by simp [Width.bytes])).mono ?_
      rintro r ⟨hr, hkeeps⟩
      exact ⟨by rw [hr]; exact BitVec.toInt_signExtend_of_le (by decide), hkeeps⟩
  | int32 =>
      refine (readWith_spec h (peekInt32_eq h x hb) hb (by simp [Width.bytes])).mono ?_
      rintro r ⟨hr, hkeeps⟩
      exact ⟨by rw [hr]; exact BitVec.toInt_signExtend_of_le (by decide), hkeeps⟩

/-! ## Appended integers -/

/-- What is in a buffer: bytes that were there before, or an integer. -/
inductive Item
  | raw (data : List Byte)
  | int (w : Width) (x : BitVec w.bits)

def Item.encode : Item → List Byte
  | .raw data => data
  | .int w x => bigEndian w.bytes x.toInt

structure Wire where
  buffer : Buffer
  /-- What has been appended and not been taken out yet. -/
  pending : List Item
  /-- What the reads have returned. -/
  returned : List (BitVec 64)

/-- A buffer in any state. -/
def Wire.start (b : Buffer) : Wire := ⟨b, [.raw b.readable], []⟩

inductive WireOp
  | appendInt (w : Width) (x : BitVec w.bits)
  | readInt (w : Width)
  | retrieve (len : Nat)

def Wire.exec (s : Wire) : WireOp → Except Assert Wire
  | .appendInt w x => do
      let b ← s.buffer.appendInt w x
      return { s with buffer := b, pending := s.pending ++ [.int w x] }
  | .readInt w => do
      let (result, b) ← s.buffer.readInt w
      return { buffer := b, pending := s.pending.tail, returned := s.returned ++ [result] }
  | .retrieve len => do
      let b ← s.buffer.retrieve len
      return { s with buffer := b, pending := s.pending.tail }

/-- Items are taken out in the order of the queue, integers by reads of their own
width. -/
def Wire.enabled (s : Wire) : WireOp → Bool
  | .appendInt _ _ => true
  | .readInt w =>
      match s.pending with
      | .int w' _ :: _ => w' = w
      | _ => false
  | .retrieve len =>
      match s.pending with
      | .raw data :: _ => data.length = len
      | _ => false

def wireSys : Sys Wire WireOp Assert := ⟨fun s op => s.enabled op = true, Wire.exec⟩

instance (s : Wire) (op : WireOp) : Decidable (wireSys.enabled s op) :=
  inferInstanceAs (Decidable (s.enabled op = true))

/-- What one operation has to do. An append adds the encoding of its argument. A
read returns the first integer of the queue and takes its encoding away, and
nothing else. -/
def Faithful (s : Wire) : WireOp → Prop
  | .appendInt w x => Lands (s.exec (.appendInt w x)) fun s' =>
      s'.buffer.readable = s.buffer.readable ++ bigEndian w.bytes x.toInt
  | .readInt w => ∃ x : BitVec w.bits, Lands (s.exec (.readInt w)) fun s' =>
      s.pending = .int w x :: s'.pending ∧
      (∃ result, s'.returned = s.returned ++ [result] ∧ result.toInt = x.toInt) ∧
      s.buffer.readable = bigEndian w.bytes x.toInt ++ s'.buffer.readable
  | .retrieve len => Lands (s.exec (.retrieve len)) fun s' =>
      s'.buffer.readable = s.buffer.readable.drop len

/-- The readable bytes are the encodings of what is in the buffer. -/
structure WireInv (s : Wire) : Prop where
  wf : s.buffer.Wf
  content : s.buffer.readable = s.pending.flatMap Item.encode

theorem appendInt_faithful {s : Wire} (h : WireInv s) (w : Width) (x : BitVec w.bits) :
    Lands (s.exec (.appendInt w x)) fun s' => WireInv s' ∧
      s'.buffer.readable = s.buffer.readable ++ bigEndian w.bytes x.toInt := by
  simp only [Wire.exec, appendInt_eq]
  refine (append_spec h.wf _).bind fun b hb => .ok ⟨⟨hb.wf, ?_⟩, hb.content⟩
  show b.readable = (s.pending ++ [Item.int w x]).flatMap Item.encode
  rw [hb.content, h.content, List.flatMap_append, List.flatMap_singleton]
  rfl

theorem readInt_faithful {s : Wire} (h : WireInv s) {w : Width} {x : BitVec w.bits}
    {items : List Item} (hpending : s.pending = .int w x :: items) :
    Lands (s.exec (.readInt w)) fun s' => WireInv s' ∧
      s.pending = .int w x :: s'.pending ∧
      (∃ result, s'.returned = s.returned ++ [result] ∧ result.toInt = x.toInt) ∧
      s.buffer.readable = bigEndian w.bytes x.toInt ++ s'.buffer.readable := by
  have hb : s.buffer.readable = bigEndian w.bytes x.toInt ++ items.flatMap Item.encode := by
    rw [h.content, hpending, List.flatMap_cons]
    rfl
  simp only [Wire.exec]
  refine (readInt_spec h.wf w x hb).bind fun r hr => ?_
  obtain ⟨result, b⟩ := r
  obtain ⟨hresult, hkeeps⟩ := hr
  refine .ok ⟨⟨hkeeps.wf, ?_⟩, ?_, ⟨result, rfl, hresult⟩, ?_⟩
  · show b.readable = s.pending.tail.flatMap Item.encode
    rw [hpending]
    exact hkeeps.content
  · show s.pending = .int w x :: s.pending.tail
    rw [hpending]
    rfl
  · show s.buffer.readable = _ ++ b.readable
    rw [hb, hkeeps.content]

theorem retrieve_faithful {s : Wire} (h : WireInv s) {data : List Byte} {items : List Item}
    (hpending : s.pending = .raw data :: items) :
    Lands (s.exec (.retrieve data.length)) fun s' => WireInv s' ∧
      s'.buffer.readable = s.buffer.readable.drop data.length := by
  have hb : s.buffer.readable = data ++ items.flatMap Item.encode := by
    rw [h.content, hpending, List.flatMap_cons]
    rfl
  have hlen : data.length ≤ s.buffer.readableBytes := by
    rw [← h.wf.length_readable, hb, List.length_append]
    omega
  simp only [Wire.exec]
  refine (retrieve_spec h.wf hlen).bind fun b hk => .ok ⟨⟨hk.wf, ?_⟩, hk.content⟩
  show b.readable = s.pending.tail.flatMap Item.encode
  rw [hk.content, hb, List.drop_left, hpending]
  rfl

theorem exec_faithful {s : Wire} (h : WireInv s) (op : WireOp) (hen : s.enabled op = true) :
    Faithful s op ∧ Post (s.exec op) WireInv := by
  cases op with
  | appendInt w x =>
      have hx := appendInt_faithful h w x
      exact ⟨hx.mono fun _ hs => hs.2, (hx.mono fun _ hs => hs.1).post⟩
  | readInt w =>
      simp only [Wire.enabled] at hen
      split at hen
      · rename_i w' x items hpending
        obtain rfl : w' = w := of_decide_eq_true hen
        have hx := readInt_faithful h hpending
        exact ⟨⟨x, hx.mono fun _ hs => hs.2⟩, (hx.mono fun _ hs => hs.1).post⟩
      · exact absurd hen (by simp)
  | retrieve len =>
      simp only [Wire.enabled] at hen
      split at hen
      · rename_i data items hpending
        obtain rfl : data.length = len := of_decide_eq_true hen
        have hx := retrieve_faithful h hpending
        exact ⟨hx.mono fun _ hs => hs.2, (hx.mono fun _ hs => hs.1).post⟩
      · exact absurd hen (by simp)

/-- **Integers of 8, 16 and 32 bits come back.** From any buffer, in any
interleaving of appends with reads of the matching widths in the order of the
queue, every operation does what it has to do. -/
theorem integers_round_trip (b : Buffer) (h : b.Wf) (ops : List WireOp)
    (hops : wireSys.Legal (Wire.start b) ops) : wireSys.Meets Faithful (Wire.start b) ops := by
  have hstart : WireInv (Wire.start b) := by
    refine ⟨h, ?_⟩
    simp [Wire.start, Item.encode]
  exact Sys.invariant_meets (S := wireSys) (fun s op hs hop => exec_faithful hs op hop) hstart hops

/-- Negative integers of all widths behind a byte that was there before. -/
theorem integers_round_trip_negative :
    Lands (wireSys.runFrom (Wire.start ⟨List.replicate 16 7, 8, 9⟩)
      [.appendInt .int16 (-2), .retrieve 1, .appendInt .int8 (-3), .readInt .int16,
        .appendInt .int32 (-400000), .readInt .int8]) fun s =>
      s.returned = [-2, -3] ∧ s.buffer.readable = [255, 249, 229, 128] ∧
      Faithful s (.readInt .int32) := by
  have hspec := integers_round_trip ⟨List.replicate 16 7, 8, 9⟩ (by decide)
    [.appendInt .int16 (-2), .retrieve 1, .appendInt .int8 (-3), .readInt .int16,
      .appendInt .int32 (-400000), .readInt .int8, .readInt .int32] (by decide +kernel)
  have hrun : Lands (wireSys.runFrom (Wire.start ⟨List.replicate 16 7, 8, 9⟩)
      [.appendInt .int16 (-2), .retrieve 1, .appendInt .int8 (-3), .readInt .int16,
        .appendInt .int32 (-400000), .readInt .int8]) fun s =>
      s.returned = [-2, -3] ∧ s.buffer.readable = [255, 249, 229, 128] := by decide +kernel
  obtain ⟨s, hs, hreturned, hreadable⟩ := hrun
  refine ⟨s, hs, hreturned, hreadable, ?_⟩
  have hlast := (Sys.meets_append (S := wireSys) (p := [.appendInt .int16 (-2), .retrieve 1,
    .appendInt .int8 (-3), .readInt .int16, .appendInt .int32 (-400000), .readInt .int8])
    (q := [.readInt .int32])).mp hspec
  exact (Sys.meets_cons.mp (hlast.2 s hs)).1

/-! ## Integers of 64 bits -/

/-- After `appendInt64(x)` the encoding of `x` has been added, and wherever that
encoding comes first in a buffer, `peekInt64` and `readInt64` return `x`, the
latter taking the eight bytes away. -/
def Survives (b : Buffer) (x : BitVec 64) : Prop :=
  Lands (b.appendInt64 x) fun b₁ =>
    b₁.Wf ∧ b₁.readable = b.readable ++ bigEndian 8 x.toInt ∧
    ∀ (b₂ : Buffer) rest, b₂.Wf → b₂.readable = bigEndian 8 x.toInt ++ rest →
      Lands b₂.peekInt64 (fun v => v.toInt = x.toInt) ∧
      Lands b₂.readInt64 fun r => r.1.toInt = x.toInt ∧ r.2.Wf ∧ r.2.readable = rest

/-- The `int32_t` that `peekInt64` returns has the value of `x` if and only if
that value is in the range of the type. -/
theorem toInt_setWidth_32_eq_iff (x : BitVec 64) :
    (x.setWidth 32).toInt = x.toInt ↔ -2 ^ 31 ≤ x.toInt ∧ x.toInt < 2 ^ 31 := by
  constructor
  · intro heq
    have hlo := BitVec.le_toInt (x.setWidth 32)
    have hhi := BitVec.toInt_lt (x := x.setWidth 32)
    rw [heq] at hlo hhi
    exact ⟨by simpa using hlo, by simpa using hhi⟩
  · rintro ⟨hlo, hhi⟩
    have hmod : x.toInt.bmod (2 ^ 32) = x.toInt := Int.bmod_eq_of_le (by omega) (by omega)
    rw [BitVec.toInt_setWidth, ← hmod, BitVec.toInt_eq_toNat_bmod x]
    exact (Int.bmod_bmod_of_dvd (Nat.pow_dvd_pow 2 (by omega))).symm

/-- `peekInt64` returns the low half of the integer, so only an integer that is
its own low half survives. -/
theorem Survives.toInt_eq {b : Buffer} (h : b.Wf) {x : BitVec 64} (hs : Survives b x) :
    (x.setWidth 32).toInt = x.toInt := by
  obtain ⟨b₁, -, hwf, hreadable, hback⟩ := hs
  have hlen : b.readableBytes ≤ b₁.readableBytes := by
    rw [← h.length_readable, ← hwf.length_readable, hreadable, List.length_append]
    omega
  obtain ⟨b₂, -, hkeeps⟩ := retrieve_spec hwf hlen
  have hfirst : b₂.readable = bigEndian 8 x.toInt ++ [] := by
    rw [hkeeps.content, hreadable, ← h.length_readable, List.drop_left, List.append_nil]
  obtain ⟨v, hv, heq⟩ := (hback b₂ [] hkeeps.wf hfirst).1
  rw [peekInt64_eq hkeeps.wf x hfirst] at hv
  rw [Except.ok.inj hv, heq]

/-- **Integers of 64 bits come back if they fit into 32**, and no others do. -/
theorem int64_survives_iff (b : Buffer) (h : b.Wf) (x : BitVec 64) :
    Survives b x ↔ -2 ^ 31 ≤ x.toInt ∧ x.toInt < 2 ^ 31 := by
  rw [← toInt_setWidth_32_eq_iff]
  constructor
  · exact Survives.toInt_eq h
  · intro heq
    have happend := append_spec h (bigEndian 8 x.toInt)
    rw [← appendInt64_eq] at happend
    refine happend.mono fun b₁ hb₁ => ⟨hb₁.wf, hb₁.content, fun b₂ rest hwf hfirst => ?_⟩
    have hpeek := peekInt64_eq hwf x hfirst
    refine ⟨⟨_, hpeek, heq⟩, ?_⟩
    refine (readWith_spec hwf hpeek hfirst (by simp)).mono ?_
    rintro r ⟨hr, hkeeps⟩
    refine ⟨?_, hkeeps.wf, hkeeps.content⟩
    rw [hr, BitVec.toInt_signExtend_of_le (by omega), heq]

/-- The smallest integer that survives. -/
theorem int64_survives_iff_least :
    Survives ⟨List.replicate 16 0, 8, 8⟩ (-2147483648) :=
  (int64_survives_iff _ (by decide) _).mpr (by decide)

/-- `2^32 + 1` comes back as 1. -/
theorem int64_truncated :
    Lands (Buffer.appendInt64 ⟨List.replicate 16 0, 8, 8⟩ 4294967297) (fun b =>
      b.readable = [0, 0, 0, 1, 0, 0, 0, 1] ∧ Lands b.peekInt64 (fun v => v.toInt = 1) ∧
      Lands b.readInt64 fun r => r.1.toInt = 1) ∧
    ¬ Survives ⟨List.replicate 16 0, 8, 8⟩ 4294967297 := by
  refine ⟨by decide +kernel, fun hs => ?_⟩
  exact absurd (hs.toInt_eq (by decide)) (by decide)

/-! ## Prepended integers -/

/-- One call of a `prependInt` function. -/
structure Header where
  width : Width
  value : BitVec width.bits

def Header.encode (hd : Header) : List Byte := bigEndian hd.width.bytes hd.value.toInt

/-- A buffer, and calls that put headers in front of its content. -/
def prependSys : Sys Buffer Header Assert :=
  ⟨fun _ _ => True, fun b hd => b.prependInt hd.width hd.value⟩

/-- Read integers of these widths, one after the other. -/
def readInts (b : Buffer) : List Width → Except Assert (List (BitVec 64) × Buffer)
  | [] => .ok ([], b)
  | w :: ws => do
      let (result, b) ← b.readInt w
      let (results, b) ← b.readInts ws
      return (result :: results, b)

/-- What one call has to do: the reader index goes down by the width of the
header, and its encoding stands in front of what was readable. -/
def Frames (b : Buffer) (hd : Header) : Prop :=
  Lands (b.prependInt hd.width hd.value) fun b' =>
    b'.readerIndex + hd.width.bytes = b.readerIndex ∧ b'.readable = hd.encode ++ b.readable

/-- Every call does what it has to do, and reading the headers back in reverse
order returns them and leaves what was readable before. -/
def Framed (b : Buffer) (headers : List Header) : Prop :=
  prependSys.Meets Frames b headers ∧
  Lands (prependSys.runFrom b headers) fun b' =>
    Lands (b'.readInts (headers.reverse.map Header.width)) fun r =>
      r.1.map BitVec.toInt = headers.reverse.map (fun hd => hd.value.toInt) ∧
      r.2.readable = b.readable

/-- The width that all headers take together. -/
def totalBytes (headers : List Header) : Nat := (headers.map fun hd => hd.width.bytes).sum

theorem length_encode (hd : Header) : hd.encode.length = hd.width.bytes := length_bigEndian _ _

theorem prependInt_spec {b : Buffer} (h : b.Wf) {hd : Header} (hw : hd.width ≠ .int16)
    (hfit : hd.width.bytes ≤ b.prependableBytes) :
    Lands (b.prependInt hd.width hd.value) fun b' => b'.Wf ∧
      b'.readerIndex + hd.width.bytes = b.readerIndex ∧ b'.readable = hd.encode ++ b.readable := by
  have heq : b.prependInt hd.width hd.value = b.prepend hd.encode := by
    obtain ⟨w, x⟩ := hd
    cases w with
    | int8 => exact prependInt8_eq b x
    | int16 => exact absurd rfl hw
    | int32 => exact prependInt32_eq b x
  rw [heq]
  refine (prepend_spec h (by rw [length_encode]; exact hfit)).mono ?_
  rintro b' ⟨hwf, hreadable, hreader⟩
  rw [length_encode] at hreader
  exact ⟨hwf, hreader, hreadable⟩

/-- `prependInt16` lowers the reader index by four, if it returns at all. -/
theorem not_frames_int16 (b : Buffer) (x : BitVec 16) : ¬ Frames b ⟨.int16, x⟩ := by
  rintro ⟨b', hb', hreader, -⟩
  have hreader : b'.readerIndex + 2 = b.readerIndex := hreader
  have hprepend : b.prepend ((objectBytes ((Sockets.hostToNetwork16 x).setWidth 32)).take 4) =
      .ok b' := hb'
  unfold prepend at hprepend
  obtain ⟨u, hu, hb'⟩ := bind_eq_ok hprepend
  have hlen := check_eq_ok hu
  obtain rfl := Except.ok.inj hb'
  simp only [List.length_take, length_objectBytes, prependableBytes] at hlen hreader
  omega

theorem readInts_spec {b : Buffer} (h : b.Wf) (headers : List Header) {rest : List Byte}
    (hb : b.readable = headers.flatMap Header.encode ++ rest) :
    Lands (b.readInts (headers.map Header.width)) fun r =>
      r.1.map BitVec.toInt = headers.map (fun hd => hd.value.toInt) ∧ r.2.readable = rest := by
  induction headers generalizing b with
  | nil => exact .ok ⟨rfl, hb⟩
  | cons hd headers ih =>
      rw [List.flatMap_cons, List.append_assoc] at hb
      simp only [List.map_cons, readInts]
      refine (readInt_spec h hd.width hd.value hb).bind fun r hr => ?_
      obtain ⟨result, b₁⟩ := r
      obtain ⟨hresult, hkeeps⟩ := hr
      refine (ih hkeeps.wf hkeeps.content).bind fun r hr => ?_
      refine .ok ⟨?_, hr.2⟩
      rw [List.map_cons, hresult, hr.1]

/-- The run of the calls, when none of them is a `prependInt16`. -/
theorem prepends_spec {b : Buffer} (h : b.Wf) (headers : List Header)
    (hw : ∀ hd ∈ headers, hd.width ≠ .int16) (hfit : totalBytes headers ≤ b.prependableBytes) :
    prependSys.Meets Frames b headers ∧
    Lands (prependSys.runFrom b headers) fun b' => b'.Wf ∧
      b'.readable = headers.reverse.flatMap Header.encode ++ b.readable := by
  induction headers generalizing b with
  | nil => exact ⟨trivial, .ok ⟨h, rfl⟩⟩
  | cons hd headers ih =>
      rw [totalBytes, List.map_cons, List.sum_cons] at hfit
      have hone := prependInt_spec h (hw hd List.mem_cons_self) (by omega)
      obtain ⟨b₁, hexec, hwf, hreader, hreadable⟩ := hone
      have hfit₁ : totalBytes headers ≤ b₁.prependableBytes := by
        unfold prependableBytes at hfit ⊢
        unfold totalBytes
        omega
      obtain ⟨hmeets, hrun⟩ := ih hwf (fun x hx => hw x (List.mem_cons_of_mem hd hx)) hfit₁
      constructor
      · refine Sys.meets_cons.mpr ⟨⟨b₁, hexec, hreader, hreadable⟩, fun b₂ hb₂ => ?_⟩
        obtain rfl := Except.ok.inj (hexec.symm.trans hb₂)
        exact hmeets
      · rw [Sys.runFrom_cons, show prependSys.exec b hd = .ok b₁ from hexec, ok_bind]
        refine hrun.mono fun b' hb' => ⟨hb'.1, ?_⟩
        rw [hb'.2, hreadable, List.reverse_cons, List.flatMap_append, List.flatMap_singleton,
          List.append_assoc]

theorem widths_of_meets {headers : List Header} {b : Buffer}
    (h : prependSys.Meets Frames b headers) : ∀ hd ∈ headers, hd.width ≠ .int16 := by
  induction headers generalizing b with
  | nil => simp
  | cons hd headers ih =>
      obtain ⟨hframes, hrest⟩ := Sys.meets_cons.mp h
      obtain ⟨b', hexec, -⟩ := id hframes
      intro x hx
      rcases List.mem_cons.mp hx with rfl | hx
      · obtain ⟨w, value⟩ := x
        rintro rfl
        exact not_frames_int16 b value hframes
      · exact ih (hrest b' hexec) x hx

/-- **Headers frame the payload, except those of 16 bits.** Calls whose widths fit
into the prependable bytes frame what was readable if and only if none of them is
a `prependInt16`. -/
theorem headers_frame_iff (b : Buffer) (h : b.Wf) (headers : List Header)
    (hfit : totalBytes headers ≤ b.prependableBytes) :
    Framed b headers ↔ ∀ hd ∈ headers, hd.width ≠ .int16 := by
  constructor
  · intro hframed
    exact widths_of_meets hframed.1
  · intro hw
    obtain ⟨hmeets, hrun⟩ := prepends_spec h headers hw hfit
    exact ⟨hmeets, hrun.mono fun b' hb' => readInts_spec hb'.1 headers.reverse hb'.2⟩

/-- A length and a tag in front of two bytes. -/
theorem headers_frame_iff_two :
    Framed ⟨List.replicate 16 7, 8, 10⟩ [⟨.int32, -2⟩, ⟨.int8, 5⟩] :=
  (headers_frame_iff _ (by decide) _ (by decide)).mpr (by decide)

/-- `prependInt16(1)` in front of two bytes: four bytes are prepended, and the
payload does not follow the header. -/
theorem header_of_16_bits_too_wide :
    Lands (Buffer.prependInt16 ⟨List.replicate 16 7, 8, 10⟩ 1) (fun b =>
      b.readable = [0, 1, 0, 0, 7, 7] ∧
      Lands b.readInt16 fun r => r.1.toInt = 1 ∧ r.2.readable = [0, 0, 7, 7]) ∧
    ¬ Framed ⟨List.replicate 16 7, 8, 10⟩ [⟨.int16, 1⟩] := by
  refine ⟨by decide +kernel, fun hframed => ?_⟩
  exact widths_of_meets hframed.1 _ List.mem_cons_self rfl

end Muduo.Buffer
