import Esdiag.KeyedMaps

/-!
YAML values, as records are read from them and written to them. A record is a
mapping read field by field: a required field, one with a default, or an
optional one, whose absence and whose null are the same. A written record lists
its present fields in order, and reading a field back skips every other one.
-/
namespace Esdiag.YamlValues

open KeyedMaps

/-- A parsed document; the parser has rejected a key that occurs twice. -/
inductive Yaml where
  | null
  | bool (value : Bool)
  | int (value : Int)
  | decimal (text : String)
  | string (value : String)
  | sequence (items : List Yaml)
  | mapping (fields : List (String × Yaml))

namespace Yaml

def asString : Yaml → Option String
  | string value => some value
  | _ => none

def asBool : Yaml → Option Bool
  | bool value => some value
  | _ => none

def asSequence : Yaml → Option (List Yaml)
  | sequence items => some items
  | _ => none

def asMapping : Yaml → Option (List (String × Yaml))
  | mapping fields => some fields
  | _ => none

/-- An unsigned integer below the bound of its type. -/
def asUnsigned (bound : ℕ) : Yaml → Option ℕ
  | int value => if 0 ≤ value ∧ value < bound then some value.toNat else none
  | _ => none

def isNull : Yaml → Bool
  | null => true
  | _ => false

def ofStrings (texts : List String) : Yaml := sequence (texts.map string)

end Yaml

theorem Yaml.asUnsigned_int {n bound : ℕ} (h : n < bound) :
    (Yaml.int n).asUnsigned bound = some n := by
  have hbound : (0 : Int) ≤ (n : Int) ∧ (n : Int) < (bound : Int) := by omega
  unfold Yaml.asUnsigned
  simp only [if_pos hbound, Int.toNat_natCast]

/-- The text of a document, by a library that reads its own texts back. -/
structure YamlText where
  render : Yaml → Option String
  parse : String → Option Yaml
  parse_render : ∀ value text, render value = some text → parse text = some value

/-- Read every item; one that cannot be read fails the whole. -/
def readAll {α : Type*} (read : Yaml → Option α) : List Yaml → Option (List α)
  | [] => some []
  | item :: rest =>
    match read item, readAll read rest with
    | some value, some values => some (value :: values)
    | _, _ => none

def readStrings (value : Yaml) : Option (List String) :=
  value.asSequence.bind (readAll Yaml.asString)

theorem readAll_map {α : Type*} {read : Yaml → Option α} {write : α → Yaml}
    (hread : ∀ value, read (write value) = some value) (values : List α) :
    readAll read (values.map write) = some values := by
  induction values with
  | nil => rfl
  | cons value rest ih => simp only [List.map_cons, readAll, hread, ih]

@[simp] theorem readStrings_ofStrings (texts : List String) :
    readStrings (.ofStrings texts) = some texts := by
  show readAll Yaml.asString (texts.map Yaml.string) = some texts
  apply readAll_map
  intro text
  rfl

section Fields

variable {α : Type*}

abbrev Fields := List (String × Yaml)

namespace Fields

def required (key : String) (read : Yaml → Option α) (fields : Fields) : Option α :=
  (findEntry key fields).bind read

def withDefault (key : String) (read : Yaml → Option α) (default : α) (fields : Fields) :
    Option α :=
  match findEntry key fields with
  | none => some default
  | some value => read value

/-- An optional field: absent and null are the same. -/
def ifPresent (key : String) (read : Yaml → Option α) (fields : Fields) : Option (Option α) :=
  match findEntry key fields with
  | none => some none
  | some value => if value.isNull then some none else (read value).map some

/-- The field, if it has a value. -/
def present (key : String) (value : Option Yaml) : Fields :=
  value.elim [] fun value => [(key, value)]

@[simp] theorem findEntry_append (key : String) (left right : Fields) :
    findEntry key (left ++ right) = (findEntry key left).or (findEntry key right) := by
  induction left with
  | nil => rfl
  | cons entry rest ih =>
    obtain ⟨other, value⟩ := entry
    by_cases hkey : other = key
    · simp [findEntry, hkey]
    · simp [findEntry, hkey, ih]

@[simp] theorem findEntry_present (key other : String) (value : Option Yaml) :
    findEntry key (present other value) = if other = key then value else none := by
  cases value with
  | none => simp [present, findEntry]
  | some value => simp [present, findEntry]

/-- What a reader goes on with behind a field that it has read. -/
theorem bind_of_eq_some {β : Type*} {field : Option α} {value : α} (h : field = some value)
    (next : α → Option β) : field.bind next = next value := by
  rw [h, Option.bind_some]

/-- What was written as a required field is read back. -/
theorem required_of_findEntry {key : String} {read : Yaml → Option α} {fields : Fields}
    {written : Yaml} {value : α} (hfield : findEntry key fields = some written)
    (hread : read written = some value) : required key read fields = some value :=
  (bind_of_eq_some hfield read).trans hread

/-- What was written as an optional field is read back. -/
theorem ifPresent_of_findEntry {key : String} {read : Yaml → Option α} (write : α → Yaml)
    {fields : Fields} {value : Option α}
    (hfield : findEntry key fields = value.map write)
    (hread : ∀ a, value = some a → read (write a) = some a ∧ (write a).isNull = false) :
    ifPresent key read fields = some value := by
  unfold ifPresent
  rw [hfield]
  cases value with
  | none => rfl
  | some a =>
    obtain ⟨hback, hnull⟩ := hread a rfl
    simp [hback, hnull]

end Fields

end Fields

section Maps

variable {ν ε : Type*}

/-- A map from texts to values; any failure is the one error. -/
def readMap (error : ε) (read : Yaml → Option ν) (value : Yaml) : Except ε (KeyedMap String ν) :=
  match value.asMapping.bind KeyedMap.ofEntries? with
  | none => .error error
  | some fields => fields.traverse fun _ field => (read field).elim (.error error) .ok

/-- Write every value; one that cannot be written fails the whole. -/
def writeMap (write : ν → Option Yaml) (values : KeyedMap String ν) : Option Yaml :=
  match values.traverse fun _ value => (write value).elim (Except.error ()) .ok with
  | .error _ => none
  | .ok fields => some (.mapping fields.entries)

theorem writeMap_eq_some {write : ν → Option Yaml} {values : KeyedMap String ν} {out : Yaml}
    (h : writeMap write values = some out) :
    ∃ fields : KeyedMap String Yaml, out = .mapping fields.entries ∧
      traverseEntries (fun _ value => (write value).elim (Except.error ()) .ok) values.entries =
        .ok fields.entries := by
  unfold writeMap at h
  cases hfields : values.traverse fun _ value => (write value).elim (Except.error ()) .ok with
  | error error => simp [hfields] at h
  | ok fields =>
    refine ⟨fields, ?_, KeyedMap.traverse_eq_ok_iff.mp hfields⟩
    simpa [hfields] using h.symm

theorem writeMap_isSome {write : ν → Option Yaml} {values : KeyedMap String ν}
    (h : ∀ e ∈ values.entries, (write e.2).isSome = true) :
    (writeMap write values).isSome = true := by
  have hok : ∃ out, values.traverse
      (fun _ value => (write value).elim (Except.error ()) .ok) = .ok out := by
    apply KeyedMap.traverse_ok_iff.mpr
    intro e he
    obtain ⟨out, hout⟩ := Option.isSome_iff_exists.mp (h e he)
    exact ⟨out, by rw [hout]; rfl⟩
  obtain ⟨out, hout⟩ := hok
  unfold writeMap
  rw [hout]
  rfl

/-- A written map reads back under the same keys in the same order. -/
theorem readMap_writeMap (error : ε) {read : Yaml → Option ν} {write : ν → Option Yaml}
    {g : ν → ν} {values : KeyedMap String ν} {out : Yaml} (hwrite : writeMap write values = some out)
    (hread : ∀ e ∈ values.entries, ∀ field, write e.2 = some field → read field = some (g e.2)) :
    readMap error read out = .ok (values.mapValues fun _ => g) := by
  obtain ⟨fields, rfl, hfields⟩ := writeMap_eq_some hwrite
  unfold readMap
  rw [Yaml.asMapping, Option.bind_some, KeyedMap.ofEntries?_entries]
  apply KeyedMap.traverse_eq_ok_iff.mpr
  generalize fields.entries = written at hfields
  show traverseEntries _ written = .ok (values.entries.map fun e => (e.1, g e.2))
  generalize values.entries = entries at hread hfields
  induction entries generalizing written with
  | nil =>
    obtain rfl : [] = written := by simpa [traverseEntries] using hfields
    rfl
  | cons entry rest ih =>
    obtain ⟨key, value⟩ := entry
    rw [List.forall_mem_cons] at hread
    obtain ⟨field, others, hfield, hothers, rfl⟩ := traverseEntries_cons_ok hfields
    have hfield' : write value = some field := by
      cases hw : write value with
      | none => simp [hw] at hfield
      | some written => simpa [hw] using hfield
    simp only [traverseEntries, hread.1 field hfield', Option.elim_some,
      ih others hread.2 hothers, List.map_cons]

/-- Every value of a map that was read comes from a field. -/
theorem exists_of_readMap {error : ε} {read : Yaml → Option ν} {value : Yaml}
    {values : KeyedMap String ν} (h : readMap error read value = .ok values) :
    ∀ e ∈ values.entries, ∃ field, read field = some e.2 := by
  unfold readMap at h
  cases hfields : value.asMapping.bind KeyedMap.ofEntries? with
  | none => simp [hfields] at h
  | some fields =>
    rw [hfields] at h
    intro e he
    obtain ⟨field, -, hfield⟩ :=
      mem_of_mem_traverseEntries (KeyedMap.traverse_eq_ok_iff.mp h) he
    refine ⟨field, ?_⟩
    cases hread : read field with
    | none => simp [hread] at hfield
    | some found => simpa [hread] using hfield

/-- A map whose values can all be written reads back value by value. -/
theorem readMap_mapValues (error : ε) {read : Yaml → Option ν} {write : ν → Yaml} {g : ν → ν}
    {values : KeyedMap String ν}
    (hread : ∀ e ∈ values.entries, read (write e.2) = some (g e.2)) :
    readMap error read (.mapping (values.mapValues fun _ value => write value).entries) =
      .ok (values.mapValues fun _ => g) := by
  unfold readMap
  rw [Yaml.asMapping, Option.bind_some, KeyedMap.ofEntries?_entries]
  apply KeyedMap.traverse_eq_ok_iff.mpr
  show traverseEntries _ (values.entries.map fun e => (e.1, write e.2)) =
    .ok (values.entries.map fun e => (e.1, g e.2))
  generalize values.entries = entries at hread
  induction entries with
  | nil => rfl
  | cons entry rest ih =>
    rw [List.forall_mem_cons] at hread
    simp only [List.map_cons, traverseEntries, hread.1, Option.elim_some, ih hread.2]

end Maps

end Esdiag.YamlValues
