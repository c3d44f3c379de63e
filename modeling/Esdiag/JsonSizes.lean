import Esdiag.JsonValues

/-!
The size of a document in a bulk request, estimated without rendering it. The
estimate adds up what every byte of a string and every separator takes; for a
value whose text is addressable it is the exact length of the compact text.
-/
namespace Esdiag.JsonSizes

open SaturatingCounters JsonValues

section Strings

/-- The bytes of one escaped character. -/
def escapedSize (c : Char) : ℕ := ((escapeChar c).map Char.utf8Size).sum

/-- The bytes that the estimate counts for a character. -/
def countedSize (c : Char) : ℕ :=
  ((String.utf8EncodeChar c).map fun byte => (escapedByteSize byte).toNat).sum

/-- The escapes of ASCII, one after another. -/
theorem countedSize_ascii : ∀ n < 128,
    countedSize (Char.ofNat n) = escapedSize (Char.ofNat n) := by
  decide +kernel

theorem escapedByteSize_of_le {byte : UInt8} (h : 128 ≤ byte.toNat) :
    escapedByteSize byte = 1#64 := by
  have hne : ∀ other : UInt8, other.toNat < 128 → byte ≠ other := by
    rintro other hother rfl
    omega
  have hnone : ¬(byte = 34 ∨ byte = 92 ∨ byte = 10 ∨ byte = 13 ∨ byte = 9 ∨ byte = 8 ∨
      byte = 12) := by
    simp only [not_or]
    exact ⟨hne 34 (by decide), hne 92 (by decide), hne 10 (by decide), hne 13 (by decide),
      hne 9 (by decide), hne 8 (by decide), hne 12 (by decide)⟩
  have hlarge : ¬ byte ≤ 31 := by
    rw [UInt8.le_iff_toNat_le]
    exact fun hle => absurd (Nat.le_trans h hle) (by decide)
  rw [escapedByteSize, if_neg hnone, if_neg hlarge]
  rfl

/-- Beyond ASCII nothing is escaped. -/
theorem escapeChar_of_le {c : Char} (h : 128 ≤ c.toNat) : escapeChar c = [c] := by
  unfold escapeChar
  split
  · exact absurd h (by decide)
  · exact absurd h (by decide)
  · exact absurd h (by decide)
  · exact absurd h (by decide)
  · exact absurd h (by decide)
  · rw [if_neg (by omega), if_neg (by omega), if_neg (by omega)]

theorem countedSize_eq (c : Char) : countedSize c = escapedSize c := by
  by_cases hascii : c.toNat < 128
  · have h := countedSize_ascii c.toNat hascii
    rwa [Char.ofNat_toNat] at h
  · have hbytes : (String.utf8EncodeChar c).map (fun byte => (escapedByteSize byte).toNat) =
        (String.utf8EncodeChar c).map fun _ => 1 := by
      apply List.map_congr_left
      intro byte hbyte
      rw [escapedByteSize_of_le
        (Texts.le_of_mem_utf8EncodeChar (Nat.le_of_not_lt hascii) hbyte)]
      rfl
    rw [countedSize, hbytes, escapedSize, escapeChar_of_le (Nat.le_of_not_lt hascii)]
    simp

theorem utf8ByteSize_renderString (text : String) :
    (renderString text).utf8ByteSize = 2 + (text.toList.map escapedSize).sum := by
  have hquote : ("\"" : String).utf8ByteSize = 1 := by decide
  have hescaped : (String.ofList (text.toList.flatMap escapeChar)).utf8ByteSize =
      (text.toList.map escapedSize).sum := by
    rw [Texts.utf8ByteSize_eq, String.toList_ofList, List.map_flatMap, List.flatMap_def,
      List.sum_flatten, List.map_map]
    rfl
  rw [renderString, String.utf8ByteSize_append, String.utf8ByteSize_append, hquote, hescaped]
  omega

theorem toNat_estimatedJsonStringBytes (text : String) :
    (estimatedJsonStringBytes text).toNat =
      min (renderString text).utf8ByteSize (maxCount 64) := by
  have hcounted : exactTotal (text.toUTF8.toList.map escapedByteSize) =
      (text.toList.map escapedSize).sum := by
    rw [exactTotal, List.map_map, Texts.toList_toUTF8, List.map_flatMap, List.flatMap_def,
      List.sum_flatten, List.map_map]
    exact congrArg List.sum (List.map_congr_left fun c _ => countedSize_eq c)
  have htwo : (2 : BitVec 64).toNat = 2 := rfl
  rw [estimatedJsonStringBytes, ← List.foldl_map, toNat_foldl_satAdd, hcounted, htwo,
    utf8ByteSize_renderString]

theorem toNat_estimatedJsonStringBytes_of_lt (text : String)
    (h : (renderString text).utf8ByteSize < 2 ^ 64) :
    (estimatedJsonStringBytes text).toNat = (renderString text).utf8ByteSize := by
  rw [toNat_estimatedJsonStringBytes]
  exact Nat.min_eq_left (Nat.le_sub_one_of_lt h)

end Strings

section Values

open Texts (separatedSize utf8ByteSize_join)

theorem utf8ByteSize_array (items : List Value) :
    (render (.array items)).utf8ByteSize = 2 + separatedSize true (renderItems items) := by
  have hopen : ("[" : String).utf8ByteSize = 1 := by decide
  have hclose : ("]" : String).utf8ByteSize = 1 := by decide
  rw [render, String.utf8ByteSize_append, String.utf8ByteSize_append, hopen, hclose,
    utf8ByteSize_join]
  omega

theorem utf8ByteSize_object (fields : List (String × Value)) :
    (render (.object fields)).utf8ByteSize = 2 + separatedSize true (renderFields fields) := by
  have hopen : ("\x7b" : String).utf8ByteSize = 1 := by decide
  have hclose : ("\x7d" : String).utf8ByteSize = 1 := by decide
  rw [render, String.utf8ByteSize_append, String.utf8ByteSize_append, hopen, hclose,
    utf8ByteSize_join]
  omega

theorem toNat_comma (first : Bool) :
    (if first then 0#64 else 1#64).toNat = if first then 0 else 1 := by
  cases first <;> rfl

/-- An addition that stays within its width, by what its operands come to. -/
theorem toNat_satAdd_of_eq {a b : BitVec 64} {m n : ℕ} (ha : a.toNat = m) (hb : b.toNat = n)
    (h : m + n < 2 ^ 64) : (satAdd a b).toNat = m + n := by
  subst ha hb
  exact toNat_satAdd_of_lt h

mutual
theorem toNat_estimatedJsonValueBytes (value : Value)
    (h : (render value).utf8ByteSize < 2 ^ 64) :
    (estimatedJsonValueBytes value).toNat = (render value).utf8ByteSize := by
  match value with
  | .null => rfl
  | .bool true => rfl
  | .bool false => rfl
  | .number n =>
    rw [render] at h ⊢
    rw [estimatedJsonValueBytes, BitVec.toNat_ofNat]
    exact Nat.mod_eq_of_lt h
  | .string text =>
    rw [render] at h ⊢
    exact toNat_estimatedJsonStringBytes_of_lt text h
  | .array items =>
    rw [utf8ByteSize_array] at h ⊢
    exact toNat_estimatedItemsBytes items 2#64 true h
  | .object fields =>
    rw [utf8ByteSize_object] at h ⊢
    exact toNat_estimatedFieldsBytes fields 2#64 true h

theorem toNat_estimatedItemsBytes (items : List Value) (bytes : BitVec 64) (first : Bool)
    (h : bytes.toNat + separatedSize first (renderItems items) < 2 ^ 64) :
    (estimatedItemsBytes bytes first items).toNat =
      bytes.toNat + separatedSize first (renderItems items) := by
  match items with
  | [] => rfl
  | item :: rest =>
    rw [renderItems, separatedSize] at h ⊢
    have hitem := toNat_estimatedJsonValueBytes item (by omega)
    have hcomma := toNat_satAdd_of_eq (Eq.refl bytes.toNat) (toNat_comma first) (by omega)
    have hsum : _ = bytes.toNat + (if first then 0 else 1) + (render item).utf8ByteSize :=
      toNat_satAdd_of_eq hcomma hitem (by omega)
    have hrest := toNat_estimatedItemsBytes rest _ false (by rw [hsum]; omega)
    rw [hsum] at hrest
    rw [estimatedItemsBytes]
    exact hrest.trans (by omega)

theorem toNat_estimatedFieldsBytes (fields : List (String × Value)) (bytes : BitVec 64)
    (first : Bool) (h : bytes.toNat + separatedSize first (renderFields fields) < 2 ^ 64) :
    (estimatedFieldsBytes bytes first fields).toNat =
      bytes.toNat + separatedSize first (renderFields fields) := by
  match fields with
  | [] => rfl
  | (key, value) :: rest =>
    have hcolon : (":" : String).utf8ByteSize = 1 := by decide
    rw [renderFields, separatedSize, String.utf8ByteSize_append, String.utf8ByteSize_append,
      hcolon] at h ⊢
    have hkey := toNat_estimatedJsonStringBytes_of_lt key (by omega)
    have hvalue := toNat_estimatedJsonValueBytes value (by omega)
    have hcomma := toNat_satAdd_of_eq (Eq.refl bytes.toNat) (toNat_comma first) (by omega)
    have hname := toNat_satAdd_of_eq hcomma hkey (by omega)
    have hone : (1#64).toNat = 1 := rfl
    have hnamed := toNat_satAdd_of_eq hname hone (by omega)
    have hsum : _ = bytes.toNat + (if first then 0 else 1) + (renderString key).utf8ByteSize + 1 +
        (render value).utf8ByteSize := toNat_satAdd_of_eq hnamed hvalue (by omega)
    have hrest := toNat_estimatedFieldsBytes rest _ false (by rw [hsum]; omega)
    rw [hsum] at hrest
    rw [estimatedFieldsBytes]
    exact hrest.trans (by omega)
end

/-- The estimate is the length of the compact text, for every text that is addressable. -/
theorem estimate_is_rendered_size (value : Value) (h : (render value).toUTF8.size < 2 ^ 64) :
    (estimatedJsonValueBytes value).toNat = (render value).toUTF8.size :=
  toNat_estimatedJsonValueBytes value h

/-- A value with every kind of escape, an empty array and an empty object. -/
def mixedValue : Value :=
  .object
    [("tab\tquote\"", .array [.null, .bool true, .bool false, .string "é\u0001\\"]),
      ("numbers", .array [.number (.posInt 9#64), .number (.float "-1.5e300")]),
      ("empty", .array []), ("", .object [])]

theorem estimate_is_rendered_size_mixed :
    (estimatedJsonValueBytes mixedValue).toNat = (render mixedValue).toUTF8.size :=
  estimate_is_rendered_size mixedValue (by decide +kernel)

end Values

end Esdiag.JsonSizes
