import Mathlib.Data.Nat.Digits.Defs
import Esdiag.VersionRanges

/-!
The lifetime of an unlock lease as it is typed: a decimal number of 64 bits and
one of three units, from one second up to thirty days. The text is taken as it
is typed, and cut before its last byte.
-/
namespace Esdiag.UnlockTtls

open VersionRanges

section Numbers

/-- The value of decimal digits, the most significant first. -/
def decimalValue (digits : List Char) : ℕ :=
  Nat.ofDigits 10 (digits.reverse.map fun c => c.toNat - '0'.toNat)

/-- A text that writes a number of 64 bits: digits, and a plus before them or no
sign. -/
structure WritesU64 (text : String) (value : ℕ) : Prop where
  digits : ∃ sign digits, text.toList = sign ++ digits ∧ (sign = [] ∨ sign = ['+']) ∧
    digits ≠ [] ∧ (∀ c ∈ digits, c.isDigit = true) ∧ decimalValue digits = value
  inRange : value < 2 ^ 64

theorem foldl_eq_decimalValue (digits : List Char) :
    digits.foldl (fun value c => value * 10 + (c.toNat - '0'.toNat)) 0 = decimalValue digits := by
  rw [decimalValue, Nat.ofDigits_eq_foldr, List.foldr_map, List.foldr_reverse]
  congr 1
  funext value c
  simp only [Nat.cast_id]
  omega

/-- The digits of a text, after a plus that it may begin with. -/
def unsignedDigits (text : String) : List Char :=
  match text.toList with
  | '+' :: rest => rest
  | chars => chars

theorem parseU64_eq (text : String) :
    parseU64 text =
      if (unsignedDigits text).isEmpty || !(unsignedDigits text).all Char.isDigit then none
      else if decimalValue (unsignedDigits text) < 2 ^ 64 then
        some (decimalValue (unsignedDigits text))
      else none := by
  unfold parseU64
  simp only [foldl_eq_decimalValue]
  rfl

theorem unsignedDigits_eq {text : String} {sign digits : List Char}
    (htext : text.toList = sign ++ digits) (hsign : sign = [] ∨ sign = ['+'])
    (hdigits : ∀ c ∈ digits, c.isDigit = true) : unsignedDigits text = digits := by
  unfold unsignedDigits
  rcases hsign with rfl | rfl
  · rw [htext, List.nil_append]
    split
    · have hplus := hdigits '+' (by simp)
      exact absurd hplus (by decide)
    · rfl
  · rw [htext]
    rfl

theorem exists_sign (text : String) :
    ∃ sign, text.toList = sign ++ unsignedDigits text ∧ (sign = [] ∨ sign = ['+']) := by
  unfold unsignedDigits
  split
  · rename_i rest htext
    exact ⟨['+'], htext, .inr rfl⟩
  · exact ⟨[], rfl, .inl rfl⟩

/-- The parser reads the numbers that are written so. -/
theorem parseU64_eq_some {text : String} {value : ℕ} :
    parseU64 text = some value ↔ WritesU64 text value := by
  rw [parseU64_eq]
  constructor
  · intro h
    by_cases hdigits : (unsignedDigits text).isEmpty || !(unsignedDigits text).all Char.isDigit
    · rw [if_pos hdigits] at h
      cases h
    · rw [if_neg hdigits] at h
      by_cases hrange : decimalValue (unsignedDigits text) < 2 ^ 64
      · rw [if_pos hrange, Option.some.injEq] at h
        obtain ⟨sign, htext, hsign⟩ := exists_sign text
        simp only [Bool.or_eq_true, Bool.not_eq_true', not_or, List.isEmpty_iff,
          Bool.not_eq_false, List.all_eq_true] at hdigits
        exact ⟨⟨sign, _, htext, hsign, hdigits.1, hdigits.2, h⟩, h ▸ hrange⟩
      · rw [if_neg hrange] at h
        cases h
  · rintro ⟨⟨sign, digits, htext, hsign, hne, hdigits, rfl⟩, hrange⟩
    have hunsigned := unsignedDigits_eq htext hsign hdigits
    have hall : digits.all Char.isDigit = true := List.all_eq_true.mpr hdigits
    rw [hunsigned, if_neg (by simp [hne, hall]), if_pos hrange]

theorem WritesU64.size_pos {text : String} {value : ℕ} (h : WritesU64 text value) :
    0 < text.utf8ByteSize := by
  obtain ⟨sign, digits, htext, -, hne, -, -⟩ := h.digits
  obtain ⟨c, rest, rfl⟩ := List.exists_cons_of_ne_nil hne
  have hpos := c.utf8Size_pos
  rw [Texts.utf8ByteSize_eq, htext, List.map_append, List.sum_append, List.map_cons,
    List.sum_cons]
  omega

end Numbers

section Parsing

/-- What a call comes to: its result, or a panic. -/
inductive Attempt (T : Type) where
  | returned (result : Except String T)
  | panicked

def maxUnlockTtlSecs : ℕ := 30 * 24 * 60 * 60

def saturatingMul (value factor : ℕ) : ℕ := min (value * factor) (2 ^ 64 - 1)

def invalidTtl (input : String) : String :=
  "Invalid unlock TTL '" ++ input ++ "'. Use an integer followed by m, h, or d."

/-- The seconds of a value in the unit that a suffix names. -/
def ttlSeconds (value : ℕ) (suffix : String) : Option ℕ :=
  if suffix = "m" then some (saturatingMul value 60)
  else if suffix = "h" then some (saturatingMul value (60 * 60))
  else if suffix = "d" then some (saturatingMul value (24 * 60 * 60))
  else none

def parseUnlockTtl (input : String) : Attempt ℕ :=
  if input.utf8ByteSize < 2 then .returned (.error (invalidTtl input))
  else
    match Texts.splitAt (input.utf8ByteSize - 1) input with
    | none => .panicked
    | some (value, suffix) =>
      match parseU64 value with
      | none => .returned (.error (invalidTtl input))
      | some value =>
        match ttlSeconds value suffix with
        | none => .returned (.error (invalidTtl input))
        | some seconds =>
          if seconds = 0 then .returned (.error "Unlock TTL must be greater than zero.")
          else if maxUnlockTtlSecs < seconds then
            .returned (.error "Unlock TTL may not exceed 30d.")
          else .returned (.ok seconds)

end Parsing

section Grammar

inductive TtlUnit where
  | minutes
  | hours
  | days
  deriving DecidableEq

def TtlUnit.text : TtlUnit → String
  | minutes => "m"
  | hours => "h"
  | days => "d"

def TtlUnit.seconds : TtlUnit → ℕ
  | minutes => 60
  | hours => 60 * 60
  | days => 24 * 60 * 60

/-- A text that gives a lifetime: a number and a unit, up to thirty days. -/
structure GivesTtl (text : String) (duration : ℕ) : Prop where
  spelled : ∃ number value, ∃ unit : TtlUnit, text = number ++ unit.text ∧
    WritesU64 number value ∧ duration = value * unit.seconds
  positive : 0 < duration
  bounded : duration ≤ maxUnlockTtlSecs

theorem TtlUnit.utf8ByteSize_text (unit : TtlUnit) : unit.text.utf8ByteSize = 1 := by
  cases unit <;> decide

theorem ttlSeconds_text (value : ℕ) (unit : TtlUnit) :
    ttlSeconds value unit.text = some (saturatingMul value unit.seconds) := by
  cases unit <;> rfl

theorem ttlSeconds_eq_some {value seconds : ℕ} {suffix : String}
    (h : ttlSeconds value suffix = some seconds) :
    ∃ unit : TtlUnit, suffix = unit.text ∧ seconds = saturatingMul value unit.seconds := by
  unfold ttlSeconds at h
  split at h
  · rename_i hsuffix
    exact ⟨.minutes, hsuffix, (Option.some.inj h).symm⟩
  · split at h
    · rename_i hsuffix
      exact ⟨.hours, hsuffix, (Option.some.inj h).symm⟩
    · split at h
      · rename_i hsuffix
        exact ⟨.days, hsuffix, (Option.some.inj h).symm⟩
      · cases h

/-- Within thirty days nothing saturates. -/
theorem saturatingMul_le_iff {value factor duration : ℕ} (hbounded : duration ≤ maxUnlockTtlSecs) :
    saturatingMul value factor = duration ↔ value * factor = duration := by
  unfold saturatingMul maxUnlockTtlSecs at *
  omega

/-- What is accepted, is given. -/
theorem givesTtl_of_parse {input : String} {duration : ℕ}
    (h : parseUnlockTtl input = .returned (.ok duration)) : GivesTtl input duration := by
  unfold parseUnlockTtl at h
  split at h
  · cases h
  · split at h
    · cases h
    · rename_i number suffix hsplit
      obtain ⟨htext, -⟩ := Texts.splitAt_eq_some.mp hsplit
      split at h
      · cases h
      · rename_i value hvalue
        split at h
        · cases h
        · rename_i seconds hseconds
          split at h
          · cases h
          · rename_i hpositive
            split at h
            · cases h
            · rename_i hbounded
              cases h
              obtain ⟨unit, rfl, hproduct⟩ := ttlSeconds_eq_some hseconds
              have hexact := (saturatingMul_le_iff (by omega)).mp hproduct.symm
              exact ⟨⟨number, value, unit, htext, parseU64_eq_some.mp hvalue, hexact.symm⟩,
                by omega, by omega⟩

/-- What gives a lifetime, is accepted. -/
theorem parse_of_givesTtl {input : String} {duration : ℕ} (h : GivesTtl input duration) :
    parseUnlockTtl input = .returned (.ok duration) := by
  obtain ⟨⟨number, value, unit, rfl, hnumber, hproduct⟩, hpositive, hbounded⟩ := h
  have hsize : (number ++ unit.text).utf8ByteSize = number.utf8ByteSize + 1 := by
    rw [String.utf8ByteSize_append, unit.utf8ByteSize_text]
  have hnonempty := hnumber.size_pos
  have hsplit : Texts.splitAt ((number ++ unit.text).utf8ByteSize - 1) (number ++ unit.text) =
      some (number, unit.text) := Texts.splitAt_eq_some.mpr ⟨rfl, by omega⟩
  have hseconds : ttlSeconds value unit.text = some duration := by
    rw [ttlSeconds_text, (saturatingMul_le_iff hbounded).mpr hproduct.symm]
  simp only [parseUnlockTtl]
  rw [if_neg (by omega), hsplit]
  simp only [parseU64_eq_some.mpr hnumber, hseconds]
  rw [if_neg (by omega), if_neg (by omega)]

theorem parseUnlockTtl_panics {input : String} :
    parseUnlockTtl input = .panicked ↔
      2 ≤ input.utf8ByteSize ∧ Texts.splitAt (input.utf8ByteSize - 1) input = none := by
  unfold parseUnlockTtl
  by_cases hsize : input.utf8ByteSize < 2
  · rw [if_pos hsize]
    simp
    omega
  · rw [if_neg hsize]
    cases Texts.splitAt (input.utf8ByteSize - 1) input with
    | none => simp; omega
    | some parts =>
      simp only [reduceCtorEq, and_false, iff_false]
      cases parseU64 parts.1 with
      | none => simp
      | some value =>
        cases hseconds : ttlSeconds value parts.2 with
        | none => simp [hseconds]
        | some seconds =>
          by_cases hzero : seconds = 0
          · simp [hseconds, hzero]
          · by_cases hbounded : maxUnlockTtlSecs < seconds <;>
              simp [hseconds, hzero, hbounded]

/-- A last character of one byte is what is cut off. -/
theorem splitAt_last {input : String} {chars : List Char} {c : Char}
    (hinput : input.toList = chars ++ [c]) (hc : c.utf8Size = 1) :
    Texts.splitAt (input.utf8ByteSize - 1) input =
      some (String.ofList chars, String.singleton c) := by
  refine Texts.splitAt_eq_some.mpr ⟨?_, ?_⟩
  · apply String.toList_inj.mp
    rw [hinput, String.toList_append, String.toList_ofList, String.toList_singleton]
  · rw [Texts.utf8ByteSize_eq, Texts.utf8ByteSize_eq, String.toList_ofList, hinput,
      List.map_append, List.sum_append, List.map_singleton, List.sum_singleton, hc]
    omega

/-- A text that does not end in a character of several bytes is read to a result. -/
theorem parseUnlockTtl_returns {input : String}
    (h : ∀ c ∈ input.toList.getLast?, c.utf8Size = 1) :
    ∃ result, parseUnlockTtl input = .returned result := by
  cases hparse : parseUnlockTtl input with
  | returned result => exact ⟨result, rfl⟩
  | panicked =>
    obtain ⟨hsize, hnone⟩ := parseUnlockTtl_panics.mp hparse
    rcases List.eq_nil_or_concat input.toList with hnil | ⟨chars, c, hchars⟩
    · rw [Texts.utf8ByteSize_eq, hnil] at hsize
      exact absurd hsize (by simp)
    · rw [List.concat_eq_append] at hchars
      have hlast : c ∈ input.toList.getLast? := by simp [hchars]
      rw [splitAt_last hchars (h c hlast)] at hnone
      cases hnone

/-- The texts that give a lifetime are the texts that are accepted, and a text
whose last character is one byte is read to a result. -/
theorem unlockTtl_grammar (input : String) :
    (∀ duration, parseUnlockTtl input = .returned (.ok duration) ↔ GivesTtl input duration) ∧
      ((∀ c ∈ input.toList.getLast?, c.utf8Size = 1) →
        ∃ result, parseUnlockTtl input = .returned result) :=
  ⟨fun _ => ⟨givesTtl_of_parse, parse_of_givesTtl⟩, parseUnlockTtl_returns⟩

/-- Digits write their value. -/
theorem writesU64_digits (digits : List Char) (hne : digits ≠ [])
    (hdigits : ∀ c ∈ digits, c.isDigit = true) (hrange : decimalValue digits < 2 ^ 64) :
    WritesU64 (String.ofList digits) (decimalValue digits) where
  digits := ⟨[], digits, by rw [String.toList_ofList, List.nil_append], .inl rfl, hne, hdigits,
    rfl⟩
  inRange := hrange

theorem givesTtl_fiveMinutes : GivesTtl "5m" 300 where
  spelled := by
    have hnumber : WritesU64 "5" 5 :=
      writesU64_digits ['5'] (by decide) (List.all_eq_true.mp rfl) (by decide)
    exact ⟨"5", 5, .minutes, rfl, hnumber, rfl⟩
  positive := by omega
  bounded := by decide

/-- White space around a lifetime is not taken off. -/
theorem padded_ttl_rejected :
    Texts.trim "5m " = "5m" ∧ GivesTtl "5m" 300 ∧
      parseUnlockTtl "5m " = .returned (.error (invalidTtl "5m ")) ∧
      parseUnlockTtl "5é" = .panicked :=
  ⟨by decide, givesTtl_fiveMinutes, by rfl, by rfl⟩

theorem unlockTtl_grammar_ninetyMinutes :
    parseUnlockTtl "90m" = .returned (.ok 5400) ∧
      ∃ result, parseUnlockTtl "90m" = .returned result := by
  obtain ⟨hgrammar, hreturns⟩ := unlockTtl_grammar "90m"
  have hnumber : WritesU64 "90" 90 :=
    writesU64_digits ['9', '0'] (by decide) (List.all_eq_true.mp rfl) (by decide)
  have hlast : ∀ c ∈ ("90m" : String).toList.getLast?, c.utf8Size = 1 := by
    intro c hc
    cases hc
    rfl
  exact ⟨(hgrammar 5400).mpr ⟨⟨"90", 90, .minutes, rfl, hnumber, rfl⟩, by omega, by decide⟩,
    hreturns hlast⟩

end Grammar

end Esdiag.UnlockTtls
