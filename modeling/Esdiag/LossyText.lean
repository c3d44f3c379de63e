import Esdiag.TextParts

/-!
Bytes read as UTF-8, where the longest start of a character that is broken off becomes
one replacement character. The bytes are read one at a time: a reader owes the ranges
of the bytes that the character it has begun still needs.
-/
namespace Esdiag.LossyText

open Texts

/-- The character U+FFFD. -/
def replacement : Char := Char.ofNat 0xFFFD

/-- The bytes after the first one of a character. -/
def anyTail : ℕ × ℕ := (0x80, 0xBF)

/-- What a byte begins: the ranges of the bytes that are to follow it, and the bits it gives. -/
def leading (byte : ℕ) : Option (List (ℕ × ℕ) × ℕ) :=
  if byte < 0x80 then some ([], byte)
  else if byte < 0xC2 then none
  else if byte ≤ 0xDF then some ([anyTail], byte % 0x20)
  else if byte = 0xE0 then some ([(0xA0, 0xBF), anyTail], 0)
  else if byte = 0xED then some ([(0x80, 0x9F), anyTail], 0x0D)
  else if byte ≤ 0xEF then some ([anyTail, anyTail], byte % 0x10)
  else if byte = 0xF0 then some ([(0x90, 0xBF), anyTail, anyTail], 0)
  else if byte ≤ 0xF3 then some ([anyTail, anyTail, anyTail], byte % 0x08)
  else if byte = 0xF4 then some ([(0x80, 0x8F), anyTail, anyTail], 4)
  else none

/-- The characters that a byte completes between characters, and what is owed after it. -/
def begin (byte : ℕ) : List Char × List (ℕ × ℕ) × ℕ :=
  match leading byte with
  | none => ([replacement], [], 0)
  | some ([], value) => ([Char.ofNat value], [], 0)
  | some (owed, value) => ([], owed, value)

/-- The characters that a byte completes, and what is owed after it. -/
def readByte (owed : List (ℕ × ℕ)) (value byte : ℕ) : List Char × List (ℕ × ℕ) × ℕ :=
  match owed with
  | [] => begin byte
  | (low, high) :: later =>
    if low ≤ byte ∧ byte ≤ high then
      let value := value * 0x40 + byte % 0x40
      if later = [] then ([Char.ofNat value], [], 0) else ([], later, value)
    else (replacement :: (begin byte).1, (begin byte).2)

def decodeLossy (owed : List (ℕ × ℕ)) (value : ℕ) : List UInt8 → List Char
  | [] => if owed = [] then [] else [replacement]
  | byte :: rest =>
    let read := readByte owed value byte.toNat
    read.1 ++ decodeLossy read.2.1 read.2.2 rest

/-- `String::from_utf8_lossy`. -/
def fromUtf8Lossy (bytes : List UInt8) : String := String.ofList (decodeLossy [] 0 bytes)

theorem decodeLossy_single {value : ℕ} (rest : List UInt8) (h : value < 0x80) :
    decodeLossy [] 0 (UInt8.ofNat value :: rest) = Char.ofNat value :: decodeLossy [] 0 rest := by
  have hbyte : (UInt8.ofNat value).toNat = value := by
    rw [UInt8.toNat_ofNat']
    omega
  rw [decodeLossy, hbyte]
  simp [readByte, begin, leading, h]

/-- A byte that begins a longer character leaves its tail owed. -/
theorem decodeLossy_leading {byte bits : ℕ} {owed : List (ℕ × ℕ)} (rest : List UInt8)
    (hbyte : byte < 0x100) (h : leading byte = some (owed, bits)) (howed : owed ≠ []) :
    decodeLossy [] 0 (UInt8.ofNat byte :: rest) = decodeLossy owed bits rest := by
  have hself : (UInt8.ofNat byte).toNat = byte := by
    rw [UInt8.toNat_ofNat']
    omega
  rw [decodeLossy, hself]
  cases owed with
  | nil => exact absurd rfl howed
  | cons first later => simp [readByte, begin, h]

theorem decodeLossy_tail {low high value byte : ℕ} {first : ℕ × ℕ} {later : List (ℕ × ℕ)}
    (rest : List UInt8) (hlow : low ≤ byte + 0x80) (hhigh : byte + 0x80 ≤ high)
    (hbyte : byte < 0x40) :
    decodeLossy ((low, high) :: first :: later) value (UInt8.ofNat (byte + 0x80) :: rest) =
      decodeLossy (first :: later) (value * 0x40 + byte) rest := by
  have hself : (UInt8.ofNat (byte + 0x80)).toNat = byte + 0x80 := by
    rw [UInt8.toNat_ofNat']
    omega
  have hbits : (byte + 0x80) % 0x40 = byte := by omega
  rw [decodeLossy, hself]
  simp [readByte, hlow, hhigh, hbits]

theorem decodeLossy_last {low high value byte : ℕ} (rest : List UInt8)
    (hlow : low ≤ byte + 0x80) (hhigh : byte + 0x80 ≤ high) (hbyte : byte < 0x40) :
    decodeLossy [(low, high)] value (UInt8.ofNat (byte + 0x80) :: rest) =
      Char.ofNat (value * 0x40 + byte) :: decodeLossy [] 0 rest := by
  have hself : (UInt8.ofNat (byte + 0x80)).toNat = byte + 0x80 := by
    rw [UInt8.toNat_ofNat']
    omega
  have hbits : (byte + 0x80) % 0x40 = byte := by omega
  rw [decodeLossy, hself]
  simp [readByte, hlow, hhigh, hbits]

/-- The first byte of three narrows the second one where the character is at an end of its range. -/
theorem leading_three {value : ℕ} (hlow : 0x800 ≤ value) (hhigh : value < 0x10000)
    (hvalid : value < 0xD800 ∨ 0xDFFF < value) :
    ∃ low high, leading (value / 4096 % 16 + 0xE0) =
        some ([(low, high), anyTail], value / 4096) ∧
      low ≤ value / 64 % 64 + 0x80 ∧ value / 64 % 64 + 0x80 ≤ high := by
  by_cases hfirst : value / 4096 = 0
  · refine ⟨0xA0, 0xBF, ?_, by omega, by omega⟩
    rw [hfirst]
    rfl
  by_cases hsurrogate : value / 4096 = 0x0D
  · refine ⟨0x80, 0x9F, ?_, by omega, by omega⟩
    rw [hsurrogate]
    rfl
  · refine ⟨0x80, 0xBF, ?_, by omega, by omega⟩
    unfold leading
    rw [if_neg (by omega), if_neg (by omega), if_neg (by omega), if_neg (by omega),
      if_neg (by omega), if_pos (by omega)]
    congr 2
    omega

theorem leading_four {value : ℕ} (hlow : 0x10000 ≤ value) (hhigh : value < 0x110000) :
    ∃ low high, leading (value / 262144 % 8 + 0xF0) =
        some ([(low, high), anyTail, anyTail], value / 262144) ∧
      low ≤ value / 4096 % 64 + 0x80 ∧ value / 4096 % 64 + 0x80 ≤ high := by
  by_cases hfirst : value / 262144 = 0
  · refine ⟨0x90, 0xBF, ?_, by omega, by omega⟩
    rw [hfirst]
    rfl
  by_cases hlast : value / 262144 = 4
  · refine ⟨0x80, 0x8F, ?_, by omega, by omega⟩
    rw [hlast]
    rfl
  · refine ⟨0x80, 0xBF, ?_, by omega, by omega⟩
    unfold leading
    rw [if_neg (by omega), if_neg (by omega), if_neg (by omega), if_neg (by omega),
      if_neg (by omega), if_neg (by omega), if_neg (by omega), if_pos (by omega)]
    congr 2
    omega

/-- The bytes of a character are read as that character. -/
theorem decodeLossy_utf8EncodeChar (c : Char) (rest : List UInt8) :
    decodeLossy [] 0 (String.utf8EncodeChar c ++ rest) = c :: decodeLossy [] 0 rest := by
  have hvalid : c.toNat < 0xD800 ∨ 0xDFFF < c.toNat ∧ c.toNat < 0x110000 := c.valid
  have hchar : ∀ value, value = c.toNat → Char.ofNat value = c := by
    rintro value rfl
    exact Char.ofNat_toNat c
  have hval : c.val.toNat = c.toNat := rfl
  unfold String.utf8EncodeChar
  simp only [hval]
  split
  · rename_i hone
    rw [List.singleton_append, decodeLossy_single rest (by omega), hchar _ rfl]
  split
  · rename_i hone htwo
    have hlead : leading (c.toNat / 64 % 32 + 0xC0) = some ([anyTail], c.toNat / 64) := by
      unfold leading
      rw [if_neg (by omega), if_neg (by omega), if_pos (by omega)]
      congr 2
      omega
    rw [List.cons_append, decodeLossy_leading _ (by omega) hlead (by simp), List.singleton_append,
      anyTail, decodeLossy_last rest (by omega) (by omega) (by omega), hchar]
    omega
  split
  · rename_i hone htwo hthree
    obtain ⟨low, high, hlead, hlow, hhigh⟩ :=
      @leading_three c.toNat (by omega) (by omega) (by omega)
    rw [List.cons_append, decodeLossy_leading _ (by omega) hlead (by simp), List.cons_append,
      anyTail, decodeLossy_tail _ hlow hhigh (by omega), List.singleton_append,
      decodeLossy_last rest (by omega) (by omega) (by omega), hchar]
    omega
  · rename_i hone htwo hthree
    obtain ⟨low, high, hlead, hlow, hhigh⟩ :=
      @leading_four c.toNat (by omega) (by omega)
    rw [List.cons_append, decodeLossy_leading _ (by omega) hlead (by simp), List.cons_append,
      anyTail, decodeLossy_tail _ hlow hhigh (by omega), List.cons_append,
      decodeLossy_tail _ (by omega) (by omega) (by omega), List.singleton_append,
      decodeLossy_last rest (by omega) (by omega) (by omega), hchar]
    omega

/-- The bytes of characters, one after another. -/
def encode (chars : List Char) : List UInt8 := chars.flatMap String.utf8EncodeChar

theorem encode_append (chars later : List Char) :
    encode (chars ++ later) = encode chars ++ encode later :=
  List.flatMap_append

theorem decodeLossy_encode (chars : List Char) : decodeLossy [] 0 (encode chars) = chars := by
  induction chars with
  | nil => rfl
  | cons c rest ih => rw [encode, List.flatMap_cons, decodeLossy_utf8EncodeChar, ← encode, ih]

theorem fromUtf8Lossy_encode (chars : List Char) :
    fromUtf8Lossy (encode chars) = String.ofList chars := by
  rw [fromUtf8Lossy, decodeLossy_encode]

/-- The bytes of a text are read as that text. -/
theorem fromUtf8Lossy_toUTF8 (text : String) : fromUtf8Lossy text.toUTF8.toList = text := by
  have hbytes : text.toUTF8.toList = encode text.toList := toList_toUTF8 text
  rw [hbytes, fromUtf8Lossy_encode, String.ofList_toList]

/-- A text is split at a character of ASCII where its bytes are split at the byte. -/
theorem splitList_encode {c : Char} (hc : c.toNat < 128) (chars : List Char) :
    splitList (UInt8.ofNat c.toNat) (encode chars) = (splitList c chars).map encode := by
  have hbyte : (UInt8.ofNat c.toNat).toNat = c.toNat := by
    rw [UInt8.toNat_ofNat']
    omega
  have hnot : ∀ {part : List Char}, c ∉ part → UInt8.ofNat c.toNat ∉ encode part := by
    intro part hpart hmem
    obtain ⟨d, hd, hbytes⟩ := List.mem_flatMap.mp hmem
    have heq := toNat_eq_of_mem_utf8EncodeChar (by omega) hbytes
    rw [hbyte] at heq
    exact hpart (Char.toNat_inj.mp heq ▸ hd)
  induction hlength : chars.length using Nat.strong_induction_on generalizing chars with
  | _ length ih =>
    by_cases hmem : c ∈ chars
    · obtain ⟨before, after, rfl, hbefore⟩ := List.eq_append_cons_of_mem hmem
      have hshorter : after.length < length := by
        rw [← hlength, List.length_append, List.length_cons]
        omega
      have hsep : encode (c :: after) = UInt8.ofNat c.toNat :: encode after := by
        rw [encode, List.flatMap_cons, utf8EncodeChar_of_lt hc, List.singleton_append, ← encode]
      rw [encode_append, hsep, splitList_append _ (hnot hbefore), splitList_append _ hbefore,
        List.map_cons, ih _ hshorter after rfl]
    · rw [splitList_of_notMem (hnot hmem), splitList_of_notMem hmem, List.map_singleton]

example : fromUtf8Lossy [0x61, 0xE2, 0x82, 0x62, 0xFF, 0xF0] = "a\uFFFDb\uFFFD\uFFFD" := by decide

end Esdiag.LossyText
