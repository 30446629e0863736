import Muduo.Buffer.Queue
import Muduo.Lib.Search

/-!
# The ends of lines in a buffer (`Buffer.h`)

`findCRLF` and `findEOL` look for the end of a line in the readable bytes, from `peek()` or
from a place that the caller kept from an earlier search. Pointers are given by their
distance from `begin()`. Since `append` may move the bytes, the caller can keep a distance
from `peek()` only.

A `'\n'` that was not there is among the bytes that have come since. A `"\r\n"` may have
begun with the last byte that was searched.
-/

namespace Muduo.Buffer

open Lib

/-- The assertions of the searches. -/
inductive SearchAssert
  | findCRLFPeek | findCRLFBeginWrite | findEOLPeek | findEOLBeginWrite
  deriving DecidableEq, Repr

def kCRLF : List Byte := [13, 10]

/-- `'\n'`. -/
def newline : Byte := 10

/-- `std::search(start, beginWrite(), kCRLF, kCRLF + 2)`, which is `beginWrite()` where
nothing is found. -/
def stdSearch (b : Buffer) (start : Nat) : Nat :=
  match search kCRLF (Vec.slice b.buffer start (b.writerIndex - start)) with
  | some i => start + i
  | none => b.writerIndex

/-- `memchr(start, '\n', n)`. -/
def memchr (b : Buffer) (start n : Nat) : Option Nat :=
  (search [newline] (Vec.slice b.buffer start n)).map (start + ·)

def findCRLF (b : Buffer) : Option Nat :=
  let crlf := b.stdSearch b.readerIndex
  if crlf = b.writerIndex then none else some crlf

/-- `findCRLF(start)`. -/
def findCRLFFrom (b : Buffer) (start : Int) : Except SearchAssert (Option Nat) := do
  check .findCRLFPeek ((b.readerIndex : Int) ≤ start)
  check .findCRLFBeginWrite (start ≤ (b.writerIndex : Int))
  let crlf := b.stdSearch start.toNat
  return if crlf = b.writerIndex then none else some crlf

def findEOL (b : Buffer) : Option Nat := b.memchr b.readerIndex b.readableBytes

/-- `findEOL(start)`. -/
def findEOLFrom (b : Buffer) (start : Int) : Except SearchAssert (Option Nat) := do
  check .findEOLPeek ((b.readerIndex : Int) ≤ start)
  check .findEOLBeginWrite (start ≤ (b.writerIndex : Int))
  return b.memchr start.toNat (b.writerIndex - start.toNat)

section Search

variable {b b' : Buffer} {k : Nat}

/-- The bytes from a place on. -/
theorem slice_from (b : Buffer) (k : Nat) :
    Vec.slice b.buffer (b.readerIndex + k) (b.writerIndex - (b.readerIndex + k)) =
      b.readable.drop k := by
  rw [readable, Vec.drop_slice]
  congr 1
  unfold readableBytes
  omega

theorem Wf.stdSearch_eq (h : b.Wf) (k : Nat) :
    (if b.stdSearch (b.readerIndex + k) = b.writerIndex then none
      else some (b.stdSearch (b.readerIndex + k))) =
      ((search kCRLF (b.readable.drop k)).map (k + ·)).map (b.readerIndex + ·) := by
  unfold stdSearch
  rw [slice_from]
  cases hs : search kCRLF (b.readable.drop k) with
  | none => exact if_pos rfl
  | some i =>
      -- two bytes are left where the pattern begins
      have hfits := search_fits (by simp [kCRLF]) hs
      have hlen : kCRLF.length = 2 := rfl
      have hreader := h.reader_le
      rw [List.length_drop, h.length_readable, hlen] at hfits
      unfold readableBytes at hfits
      dsimp only
      rw [if_neg (by omega), Nat.add_assoc]
      rfl

/-- The first `"\r\n"` among the readable bytes. -/
theorem Wf.findCRLF_eq (h : b.Wf) :
    b.findCRLF = (search kCRLF b.readable).map (b.readerIndex + ·) := by
  have heq := h.stdSearch_eq 0
  rw [Nat.add_zero, List.drop_zero] at heq
  unfold findCRLF
  dsimp only
  rw [heq]
  simp

theorem Wf.findCRLFFrom_eq (h : b.Wf) (hk : k ≤ b.readableBytes) :
    b.findCRLFFrom (b.readerIndex + k : Nat) =
      .ok (((search kCRLF (b.readable.drop k)).map (k + ·)).map (b.readerIndex + ·)) := by
  have hreader := h.reader_le
  unfold readableBytes at hk
  unfold findCRLFFrom
  rw [check_of _ (by omega), ok_bind, check_of _ (by omega), ok_bind, Int.toNat_natCast]
  exact congrArg Except.ok (h.stdSearch_eq k)

/-- The first `'\n'` among the readable bytes. -/
theorem findEOL_eq (b : Buffer) :
    b.findEOL = (search [newline] b.readable).map (b.readerIndex + ·) := rfl

theorem Wf.findEOLFrom_eq (h : b.Wf) (hk : k ≤ b.readableBytes) :
    b.findEOLFrom (b.readerIndex + k : Nat) =
      .ok (((search [newline] (b.readable.drop k)).map (k + ·)).map (b.readerIndex + ·)) := by
  have hreader := h.reader_le
  have hk' := hk
  unfold readableBytes at hk'
  unfold findEOLFrom memchr
  rw [check_of _ (by omega), ok_bind, check_of _ (by omega), ok_bind, Int.toNat_natCast,
    slice_from, Option.map_map]
  refine congrArg Except.ok (congrArg (Option.map · _) ?_)
  funext i
  exact Nat.add_assoc _ _ _

/-! ## Resuming a search -/

/-- The call takes nothing out and puts nothing in front. -/
def Call.adds : Call → Bool
  | .append _ | .ensureWritableBytes _ | .shrink _ => true
  | _ => false

/-- A buffer that is filled. -/
def fillSys : Sys Buffer Call Assert := ⟨fun b c => c.Pre b ∧ c.adds = true, Call.exec⟩

instance (b : Buffer) (c : Call) : Decidable (fillSys.enabled b c) :=
  inferInstanceAs (Decidable (c.Pre b ∧ c.adds = true))

theorem exec_fills (h : b.Wf) {c : Call} (hc : fillSys.enabled b c) :
    Lands (c.exec b) fun b' => b'.Wf ∧ b.readable <+: b'.readable := by
  refine (Call.exec_spec h c hc.1).mono fun b' hb' => ⟨hb'.1, ?_⟩
  rw [hb'.2.1]
  cases c with
  | append data => exact List.prefix_append _ _
  | ensureWritableBytes len => exact List.prefix_rfl
  | shrink reserve => exact List.prefix_rfl
  | retrieve len | retrieveUntil off | retrieveAll | retrieveAsString len | unwrite len
  | prepend data => exact absurd hc.2 (by simp [Call.adds])

theorem run_fills (h : b.Wf) {calls : List Call} (hlegal : fillSys.Legal b calls) :
    Lands (fillSys.runFrom b calls) fun b' => b'.Wf ∧ b.readable <+: b'.readable := by
  refine Sys.invariant_lands (S := fillSys) (I := fun b' => b'.Wf ∧ b.readable <+: b'.readable)
    ?_ ⟨h, List.prefix_rfl⟩ hlegal
  rintro b₁ c ⟨hwf, hpre⟩ hc
  exact (exec_fills hwf hc).mono fun b₂ hb₂ => ⟨hb₂.1, hpre.trans hb₂.2⟩

/-- The last byte that was there and the first one after it are a `"\r\n"`. -/
def Straddles (old new : List Byte) : Prop := old.getLast? = some 13 ∧ new.head? = some newline

instance (old new : List Byte) : Decidable (Straddles old new) :=
  inferInstanceAs (Decidable (_ ∧ _))

theorem straddles_iff (old new : List Byte) :
    Straddles old new ↔ ∃ i, i + 1 = old.length ∧ kCRLF <+: (old ++ new).drop i := by
  unfold Straddles
  rcases List.eq_nil_or_concat old with rfl | ⟨init, x, rfl⟩
  · refine iff_of_false (by simp) ?_
    rintro ⟨i, hi, -⟩
    exact absurd hi (by simp)
  · rw [List.concat_eq_append, List.getLast?_concat, Option.some.injEq]
    have hdrop : (init ++ [x] ++ new).drop init.length = x :: new := by
      rw [List.append_assoc, List.drop_left]
      rfl
    have hpre : kCRLF <+: x :: new ↔ x = 13 ∧ new.head? = some newline := by
      cases new with
      | nil => simp [kCRLF, List.cons_prefix_cons]
      | cons y new => simp [kCRLF, List.cons_prefix_cons, newline, eq_comm]
    constructor
    · intro h
      refine ⟨init.length, by simp, ?_⟩
      rw [hdrop]
      exact hpre.mpr h
    · rintro ⟨i, hi, hocc⟩
      rw [List.length_append, List.length_singleton] at hi
      obtain rfl : i = init.length := by omega
      rw [hdrop] at hocc
      exact hpre.mp hocc

/-- Where both searches begin at `peek()`, what they find is at the same place. -/
theorem found_eq_iff {n : Nat} {x y : Option Nat} :
    (Except.ok (x.map (n + ·)) : Except SearchAssert (Option Nat)) = .ok (y.map (n + ·)) ↔
      x = y := by
  rw [Except.ok.injEq]
  exact (Option.map_injective fun i j hij => Nat.add_left_cancel hij).eq_iff

/-- **A search for the end of a line may be resumed.** Take a buffer in which a search
found nothing, and anything that is added to it. A search that begins at any place among
the old bytes, or behind them, finds the `'\n'` that a search of all bytes finds. It finds
the `"\r\n"`, unless it begins behind the old bytes and the `'\r'` was the last of them. -/
theorem search_resumed (b : Buffer) (h : b.Wf) (calls : List Call)
    (hlegal : fillSys.Legal b calls) :
    Lands (fillSys.runFrom b calls) fun b' => ∀ k, k ≤ b.readableBytes →
      (b.findEOL = none → b'.findEOLFrom (b'.readerIndex + k : Nat) = .ok b'.findEOL) ∧
      (b.findCRLF = none →
        (b'.findCRLFFrom (b'.readerIndex + k : Nat) = .ok b'.findCRLF ↔
          ¬ (k = b.readableBytes ∧
            Straddles b.readable (b'.readable.drop b.readableBytes)))) := by
  refine (run_fills h hlegal).mono fun b' hb' k hk => ?_
  obtain ⟨hwf, new, hnew⟩ := hb'
  have hlen : b.readable.length = b.readableBytes := h.length_readable
  have hk' : k ≤ b'.readableBytes := by
    rw [← hwf.length_readable, ← hnew, List.length_append, hlen]
    exact hk.trans (Nat.le_add_right _ _)
  have hadded : b'.readable.drop b.readableBytes = new := by
    rw [← hnew, ← hlen, List.drop_left]
  constructor
  · intro hnone
    rw [findEOL_eq, Option.map_eq_none_iff] at hnone
    rw [hwf.findEOLFrom_eq hk', findEOL_eq, found_eq_iff, ← hnew,
      search_resumes_iff (by simp) hnone]
    -- one byte does not reach beyond the end
    intro i hi hreach
    rw [List.length_singleton] at hreach
    omega
  · intro hnone
    rw [h.findCRLF_eq, Option.map_eq_none_iff] at hnone
    rw [hwf.findCRLFFrom_eq hk', hwf.findCRLF_eq, found_eq_iff, hadded, straddles_iff, ← hnew,
      search_resumes_iff (by simp [kCRLF]) hnone]
    have htwo : kCRLF.length = 2 := rfl
    constructor
    · rintro hno ⟨hkeq, i, hi, hocc⟩
      exact hno i (by omega) (by omega) hocc
    · intro hno i hi hreach hocc
      exact hno ⟨by omega, i, by omega, hocc⟩

/-- A line that was read up to its `'\r'`, in two buffers: the second has one byte more. -/
theorem search_resumed_two :
    Lands (fillSys.runFrom ⟨[0, 0, 0, 0, 0, 0, 0, 0, 97, 98, 13], 8, 11⟩
      [.append [10, 99], .shrink 4]) (fun b' =>
        b'.findCRLFFrom (b'.readerIndex + 2 : Nat) = .ok b'.findCRLF ∧
        b'.findCRLFFrom (b'.readerIndex + 3 : Nat) ≠ .ok b'.findCRLF ∧
        b'.findEOLFrom (b'.readerIndex + 3 : Nat) = .ok b'.findEOL) ∧
    Lands (fillSys.runFrom ⟨[0, 0, 0, 0, 0, 0, 0, 0, 97, 98, 13, 13], 8, 12⟩
      [.append [13, 10]]) fun b' =>
        b'.findCRLFFrom (b'.readerIndex + 4 : Nat) = .ok b'.findCRLF := by
  constructor
  · have hspec := search_resumed ⟨[0, 0, 0, 0, 0, 0, 0, 0, 97, 98, 13], 8, 11⟩ (by decide)
      [.append [10, 99], .shrink 4] (by decide +kernel)
    have hnew : Lands (fillSys.runFrom ⟨[0, 0, 0, 0, 0, 0, 0, 0, 97, 98, 13], 8, 11⟩
        [.append [10, 99], .shrink 4]) fun b' => b'.readable.drop 3 = [10, 99] := by
      decide +kernel
    obtain ⟨b', hb', hadded⟩ := hnew
    have hb := hspec.post b' hb'
    refine ⟨b', hb', ((hb 2 (by decide)).2 (by decide)).mpr fun hst => absurd hst.1 (by decide),
      fun heq => ?_,
      (hb 3 (by decide)).1 (by decide)⟩
    refine ((hb 3 (by decide)).2 (by decide)).mp heq ⟨by decide, by decide, ?_⟩
    show (b'.readable.drop 3).head? = some newline
    rw [hadded]
    rfl
  · have hspec := search_resumed ⟨[0, 0, 0, 0, 0, 0, 0, 0, 97, 98, 13, 13], 8, 12⟩ (by decide)
      [.append [13, 10]] (by decide +kernel)
    have hnew : Lands (fillSys.runFrom ⟨[0, 0, 0, 0, 0, 0, 0, 0, 97, 98, 13, 13], 8, 12⟩
        [.append [13, 10]]) fun b' => b'.readable.drop 4 = [13, 10] := by decide +kernel
    obtain ⟨b', hb', hadded⟩ := hnew
    refine ⟨b', hb', ((hspec.post b' hb' 4 (by decide)).2 (by decide)).mpr ?_⟩
    rintro ⟨-, -, hhead⟩
    have hhead' : (b'.readable.drop 4).head? = some newline := hhead
    rw [hadded] at hhead'
    exact absurd hhead' (by decide)

end Search

end Muduo.Buffer
