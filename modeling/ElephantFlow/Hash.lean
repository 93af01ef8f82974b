/-
# Digests, checksums and the bounded byte writer

`hash.hpp` and `hash.cpp`.  A digest is fed by a run of writes, so it is a
function of the list of byte chunks those writes contribute; an encoder is the
same kind of run, handed to a `ByteWriter` that latches its first overflow.
-/
import ElephantFlow.ByteCodec
import ElephantFlow.Checked

namespace EFG

open ByteCodec

/-! ## The FNV-1a digest -/

def kFnvOffsetBasis : UInt64 := 0xCBF29CE484222325
def kFnvPrime : UInt64 := 0x00000100000001B3

/-- `Hasher::write_byte`. -/
def hasherWriteByte (state : UInt64) (b : UInt8) : UInt64 := (state ^^^ b.toUInt64) * kFnvPrime

/-- `Hasher::finish`: the splitmix-style finalizer. -/
def hasherFinish (state : UInt64) : UInt64 :=
  let z := (state ^^^ (state >>> 30)) * 0xBF58476D1CE4E5B9
  let z := (z ^^^ (z >>> 27)) * 0x94D049BB133111EB
  z ^^^ (z >>> 31)

/-- The digest of a run of writes into a default constructed `Hasher`. -/
@[irreducible] def hasherDigest (writes : List Bytes) : UInt64 :=
  hasherFinish (writes.flatten.foldl hasherWriteByte kFnvOffsetBasis)

/-! ## CRC-32C -/

def kCrc32cPolynomial : UInt32 := 0x82F63B78

/-- One bit of the table construction. -/
def crcBit (crc : UInt32) : UInt32 :=
  if crc &&& 1 ≠ 0 then (crc >>> 1) ^^^ kCrc32cPolynomial else crc >>> 1

/-- `kCrcTable.entries[index]`. -/
def crcTableEntry (index : UInt8) : UInt32 := crcBit^[8] index.toUInt32

/-- One byte of the table-driven loop. -/
def crcByte (crc : UInt32) (b : UInt8) : UInt32 :=
  crcTableEntry ((crc ^^^ b.toUInt32) &&& 0xFF).toUInt8 ^^^ (crc >>> 8)

/-- `crc32c`. -/
@[irreducible] def crc32c (bytes : Bytes) : UInt32 := bytes.foldl crcByte 0xFFFFFFFF ^^^ 0xFFFFFFFF

/-- `Crc32c`: the checksum of what was fed to it so far. -/
structure Crc32c where
  value : UInt32 := 0
  size : ℕ := 0

/-- `Crc32c::update`. -/
def Crc32c.update (c : Crc32c) (bytes : Bytes) : Crc32c where
  value := bytes.foldl crcByte (c.value ^^^ 0xFFFFFFFF) ^^^ 0xFFFFFFFF
  size := c.size + bytes.length

/-! ## The bounded writer -/

/-- `ByteWriter`. -/
structure ByteWriter where
  buffer : Bytes := []
  ceiling : ℕ
  overflowed : Bool := false
  deriving DecidableEq, Repr

namespace ByteWriter

/-- One write call: `reserve` followed by the append of the chunk. -/
def write (w : ByteWriter) (chunk : Bytes) : ByteWriter :=
  if w.overflowed then w
  else if chunk.length > w.ceiling ∨ w.buffer.length > w.ceiling - chunk.length then
    { w with overflowed := true }
  else { w with buffer := w.buffer ++ chunk }

/-- A run of writes. -/
def writeAll (w : ByteWriter) (chunks : List Bytes) : ByteWriter := chunks.foldl write w

variable {w : ByteWriter} {chunks : List Bytes}

theorem writeAll_within (h : w.buffer.length ≤ w.ceiling) (chunks : List Bytes) :
    (w.writeAll chunks).ceiling = w.ceiling ∧ (w.writeAll chunks).buffer.length ≤ w.ceiling := by
  induction chunks generalizing w with
  | nil => exact ⟨rfl, h⟩
  | cons c cs ih =>
    have hstep : (w.write c).ceiling = w.ceiling ∧ (w.write c).buffer.length ≤ w.ceiling := by
      unfold write
      split_ifs with hover hfull
      · exact ⟨rfl, h⟩
      · exact ⟨rfl, h⟩
      · refine ⟨rfl, ?_⟩
        simp only [List.length_append]
        omega
    have hrest := @ih (w.write c) (by rw [hstep.1]; exact hstep.2)
    rw [hstep.1] at hrest
    exact hrest

theorem writeAll_of_overflowed (h : w.overflowed = true) (chunks : List Bytes) :
    w.writeAll chunks = w := by
  induction chunks with
  | nil => rfl
  | cons c cs ih =>
    have hc : w.write c = w := by rw [write, if_pos h]
    rw [writeAll, List.foldl_cons, hc]
    exact ih

/-- A run that ends without overflow has written every chunk. -/
theorem writeAll_buffer (h : (w.writeAll chunks).overflowed = false) :
    (w.writeAll chunks).buffer = w.buffer ++ chunks.flatten := by
  induction chunks generalizing w with
  | nil => simp [writeAll]
  | cons c cs ih =>
    have hstep : w.writeAll (c :: cs) = (w.write c).writeAll cs := rfl
    rw [hstep] at h ⊢
    rw [ih h]
    have hno : (w.write c).overflowed = false := by
      by_contra hover
      rw [Bool.not_eq_false] at hover
      rw [writeAll_of_overflowed hover, hover] at h
      exact absurd h (by decide)
    have hbuf : (w.write c).buffer = w.buffer ++ c := by
      unfold write at hno ⊢
      split_ifs at hno ⊢ with h₁ h₂
      · rw [h₁] at hno
        exact absurd hno (by decide)
      · rfl
    rw [hbuf, List.flatten_cons, List.append_assoc]

theorem writeAll_overflowed_eq_false (h : w.overflowed = false)
    (hfit : w.buffer.length + chunks.flatten.length ≤ w.ceiling) :
    (w.writeAll chunks).overflowed = false := by
  induction chunks generalizing w with
  | nil => exact h
  | cons c cs ih =>
    rw [List.flatten_cons, List.length_append] at hfit
    have hw : w.write c = { w with buffer := w.buffer ++ c } := by
      rw [write, if_neg (by simp [h]), if_neg (by omega)]
    show ((w.write c).writeAll cs).overflowed = false
    rw [hw]
    apply ih
    · exact h
    · simp only [List.length_append]
      omega

end ByteWriter

end EFG
