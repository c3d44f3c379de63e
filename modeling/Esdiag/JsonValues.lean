import Esdiag.SaturatingCounters
import Esdiag.Texts

/-!
JSON values as the bulk exporter reads and measures them: field access that
answers null for what is missing, compact rendering, and the estimate of a
document's serialized size that decides where a bulk request is split.
-/
namespace Esdiag.JsonValues

open SaturatingCounters

/-- A number keeps the text it is printed with when it is not an integer. -/
inductive Number where
  | posInt (n : BitVec 64)
  | negInt (n : ℤ)
  | float (text : String)

inductive Value where
  | null
  | bool (b : Bool)
  | number (n : Number)
  | string (text : String)
  | array (items : List Value)
  | object (fields : List (String × Value))

namespace Number

def toText : Number → String
  | posInt n => toString n.toNat
  | negInt n => toString n
  | float text => text

end Number

namespace Value

def findField (name : String) : List (String × Value) → Option Value
  | [] => none
  | (key, value) :: rest => if key = name then some value else findField name rest

/-- `Value::get` with a string index. -/
def get (value : Value) (name : String) : Option Value :=
  match value with
  | object fields => findField name fields
  | _ => none

/-- The index operator: a missing field reads as null. -/
def index (value : Value) (name : String) : Value := (value.get name).getD null

def asStr : Value → Option String
  | string text => some text
  | _ => none

def asU64 : Value → Option (BitVec 64)
  | number (.posInt n) => some n
  | _ => none

def asArray : Value → Option (List Value)
  | array items => some items
  | _ => none

def isText (value : Value) (text : String) : Bool := value.asStr == some text

end Value

def hexDigit (n : ℕ) : Char := Char.ofNat (if n < 10 then 48 + n else 87 + n)

/-- The escape of one character inside a JSON string. -/
def escapeChar (c : Char) : List Char :=
  match c with
  | '"' => ['\\', '"']
  | '\\' => ['\\', '\\']
  | '\n' => ['\\', 'n']
  | '\r' => ['\\', 'r']
  | '\t' => ['\\', 't']
  | _ =>
    if c.toNat = 8 then ['\\', 'b']
    else if c.toNat = 12 then ['\\', 'f']
    else if c.toNat < 32 then
      ['\\', 'u', '0', '0', hexDigit (c.toNat / 16), hexDigit (c.toNat % 16)]
    else [c]

def renderString (text : String) : String :=
  "\"" ++ String.ofList (text.toList.flatMap escapeChar) ++ "\""

mutual
/-- The compact text of a value, as `Display` prints it. -/
def render : Value → String
  | .null => "null"
  | .bool b => if b then "true" else "false"
  | .number n => n.toText
  | .string text => renderString text
  | .array items => "[" ++ Texts.join "," (renderItems items) ++ "]"
  | .object fields => "\x7b" ++ Texts.join "," (renderFields fields) ++ "\x7d"

def renderItems : List Value → List String
  | [] => []
  | item :: rest => render item :: renderItems rest

def renderFields : List (String × Value) → List String
  | [] => []
  | (key, value) :: rest => (renderString key ++ ":" ++ render value) :: renderFields rest
end

/-- The bytes one byte of a string takes once it is escaped. -/
def escapedByteSize (byte : UInt8) : BitVec 64 :=
  if byte = 34 ∨ byte = 92 ∨ byte = 10 ∨ byte = 13 ∨ byte = 9 ∨ byte = 8 ∨ byte = 12 then 2
  else if byte ≤ 31 then 6
  else 1

def estimatedJsonStringBytes (text : String) : BitVec 64 :=
  text.toUTF8.toList.foldl (fun bytes byte => satAdd bytes (escapedByteSize byte)) 2

mutual
def estimatedJsonValueBytes : Value → BitVec 64
  | .null => 4
  | .bool b => if b then 4 else 5
  | .number n => BitVec.ofNat 64 n.toText.toUTF8.size
  | .string text => estimatedJsonStringBytes text
  | .array items => estimatedItemsBytes 2 true items
  | .object fields => estimatedFieldsBytes 2 true fields

/-- The running total over array items; every item but the first adds a comma. -/
def estimatedItemsBytes (bytes : BitVec 64) (first : Bool) : List Value → BitVec 64
  | [] => bytes
  | item :: rest =>
    estimatedItemsBytes
      (satAdd (satAdd bytes (if first then 0 else 1)) (estimatedJsonValueBytes item)) false rest

def estimatedFieldsBytes (bytes : BitVec 64) (first : Bool) :
    List (String × Value) → BitVec 64
  | [] => bytes
  | (key, value) :: rest =>
    estimatedFieldsBytes
      (satAdd (satAdd (satAdd (satAdd bytes (if first then 0 else 1))
        (estimatedJsonStringBytes key)) 1) (estimatedJsonValueBytes value)) false rest
end

def bulkActionOverheadBytes : BitVec 64 := 128

/-- A document with its bulk action line for an index. -/
def estimatedBulkValueBytes (index : String) (value : Value) : BitVec 64 :=
  satAdd (satAdd (estimatedJsonValueBytes value) (BitVec.ofNat 64 index.toUTF8.size))
    bulkActionOverheadBytes

end Esdiag.JsonValues
