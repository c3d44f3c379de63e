import Mathlib.Data.Nat.Digits.Defs
import Esdiag.CyclicCodes
import Esdiag.LossyText

/-!
Identifiers of local projects. The id of a state directory is the checksum of its
path: the loops over the bytes and their bits leave the remainder that the checksum
is defined by, so a shell that sends the path through `cksum` gets the same id.
-/
namespace Esdiag.ProjectIds

open Polynomial CyclicCodes LossyText

section Specification

/-- The generator of the code. -/
noncomputable def generator32 : (ZMod 2)[X] :=
  X ^ 32 + X ^ 26 + X ^ 23 + X ^ 22 + X ^ 16 + X ^ 12 + X ^ 11 + X ^ 10 + X ^ 8 + X ^ 7 + X ^ 5 +
    X ^ 4 + X ^ 2 + X + 1

/-- The octets of a message, and those of its length with the lowest one first. -/
def withLength (octets : List UInt8) : List UInt8 :=
  octets ++ (Nat.digits 256 octets.length).map UInt8.ofNat

/-- The bits of octets, each with its highest bit first. -/
def octetBits (octets : List UInt8) : List Bool := octets.flatMap fun octet => bits octet.toBitVec

/-- The checksum of the `cksum` utility: the complement of the remainder. -/
noncomputable def cksum (octets : List UInt8) : BitVec 32 :=
  ~~~ofPoly 32 ((X ^ 32 * ofBits (octetBits (withLength octets))) %ₘ generator32)

end Specification

/-- One turn of the inner loop. -/
def shiftChecksum (checksum : BitVec 32) : BitVec 32 :=
  if checksum &&& 0x80000000#32 ≠ 0#32 then (checksum <<< 1) ^^^ 0x04c11db7#32 else checksum <<< 1

def updateChecksum (checksum : BitVec 32) (byte : UInt8) : BitVec 32 :=
  shiftChecksum^[8] (checksum ^^^ byte.toBitVec.setWidth 32 <<< 24)

/-- The successors of a length, each without the low octet of the one before. -/
def lengths (length : ℕ) : List ℕ :=
  length :: if 0xff < length then lengths (length >>> 8) else []
termination_by length
decreasing_by
  rw [Nat.shiftRight_eq_div_pow]
  omega

def lengthBytes (bytes : List UInt8) : List UInt8 :=
  if bytes.isEmpty then [] else (lengths bytes.length).map UInt8.ofNat

def posixCksum (bytes : List UInt8) : BitVec 32 :=
  ~~~(bytes ++ lengthBytes bytes).foldl updateChecksum 0#32

/-- The id of a state directory, whose path may be any bytes. -/
def stableProjectId (path : List UInt8) : String :=
  toString (posixCksum (fromUtf8Lossy path).toUTF8.toList).toNat

theorem shiftChecksum_eq_shift : shiftChecksum = shift 0x04c11db7#32 := by
  funext checksum
  have hmask : 0x80000000#32 = BitVec.twoPow 32 31 := by decide
  have htop : BitVec.twoPow 32 31 ≠ 0#32 := by decide
  rw [shiftChecksum, shift, hmask, BitVec.and_twoPow, BitVec.msb_eq_getLsbD_last]
  cases checksum.getLsbD 31 with
  | false => simp
  | true => simp [htop]

theorem generator_eq : generator 0x04c11db7#32 = generator32 := by
  have hbits : bits 0x04c11db7#32 =
      [false, false, false, false, false, true, false, false,
        true, true, false, false, false, false, false, true,
        false, false, false, true, true, true, false, true,
        true, false, true, true, false, true, true, true] := by decide
  rw [generator, toPoly, hbits, generator32]
  simp [ofBits, bit]
  ring

theorem foldl_updateChecksum (bytes : List UInt8) :
    bytes.foldl updateChecksum 0#32 =
      ofPoly 32 ((X ^ 32 * ofBits (octetBits bytes)) %ₘ generator32) := by
  have hupdate : updateChecksum =
      fun checksum byte => feed 0x04c11db7#32 checksum byte.toBitVec := by
    funext checksum byte
    rw [updateChecksum, shiftChecksum_eq_shift]
    rfl
  have hfold : bytes.foldl updateChecksum 0#32 =
      (bytes.map UInt8.toBitVec).foldl (feed 0x04c11db7#32) 0#32 := by
    rw [hupdate, List.foldl_map]
  rw [hfold, foldl_feed_zero _ (by omega), List.flatMap_map, generator_eq]
  rfl

/-- The successors of a length are its octets. -/
theorem map_lengths {length : ℕ} (hpos : 0 < length) :
    (lengths length).map UInt8.ofNat = (Nat.digits 256 length).map UInt8.ofNat := by
  induction length using Nat.strong_induction_on with
  | _ length ih =>
    have hoctet : UInt8.ofNat (length % 256) = UInt8.ofNat length := by
      apply UInt8.toNat_inj.mp
      rw [UInt8.toNat_ofNat', UInt8.toNat_ofNat', Nat.mod_mod]
    rw [lengths, Nat.digits_def' (by omega) hpos, List.map_cons, List.map_cons, hoctet,
      Nat.shiftRight_eq_div_pow]
    congr 1
    by_cases hmore : 0xff < length
    · rw [if_pos hmore]
      exact ih (length / 256) (by omega) (by omega)
    · have hlast : length / 256 = 0 := by omega
      rw [if_neg hmore, hlast, Nat.digits_zero]

theorem append_lengthBytes (bytes : List UInt8) :
    bytes ++ lengthBytes bytes = withLength bytes := by
  cases bytes with
  | nil => simp [lengthBytes, withLength]
  | cons byte rest =>
    rw [lengthBytes, withLength, if_neg (by simp), map_lengths (by simp)]

/-- The loops compute the checksum, for bytes of any length. -/
theorem posixCksum_eq (bytes : List UInt8) : posixCksum bytes = cksum bytes := by
  rw [posixCksum, append_lengthBytes, foldl_updateChecksum, cksum]

/-- The id is the checksum of the path as a text, and of the path itself where it is one. -/
theorem stableProjectId_cksum :
    (∀ bytes : List UInt8, posixCksum bytes = cksum bytes) ∧
    (∀ path : List UInt8,
      stableProjectId path = toString (cksum (fromUtf8Lossy path).toUTF8.toList).toNat) ∧
    ∀ path : String,
      stableProjectId path.toUTF8.toList = toString (cksum path.toUTF8.toList).toNat := by
  refine ⟨posixCksum_eq, ?_, ?_⟩
  · intro path
    rw [stableProjectId, posixCksum_eq]
  · intro path
    rw [stableProjectId, fromUtf8Lossy_toUTF8, posixCksum_eq]

example : stableProjectId "/tmp/esdiag-local".toUTF8.toList = "4235528030" := by decide +kernel

/-- The byte `0xFF` alone is no text: the id is that of the character that replaces it. -/
theorem stableProjectId_replaced :
    stableProjectId [0xFF] ≠ toString (cksum [0xFF]).toNat := by
  rw [← posixCksum_eq]
  decide +kernel

end Esdiag.ProjectIds
