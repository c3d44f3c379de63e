import Esdiag.KeyedMaps
import Esdiag.NormalizedRanges

/-!
Catalogues of sources as documents. A key of a mapping is a text, or something
else that is only told apart from other keys. Two mappings are the same when
they have the same fields, in whatever order. The ranges of an upstream source
are normalized key by key, and its tags are a text with commas.
-/
namespace Esdiag.SourceCatalogues

open KeyedMaps NormalizedRanges

inductive Key where
  | text (value : String)
  | other (index : ℕ)
  deriving DecidableEq

def Key.asString : Key → Option String
  | text value => some value
  | other _ => none

inductive Value where
  | null
  | bool (value : Bool)
  | int (value : Int)
  | decimal (text : String)
  | string (value : String)
  | sequence (items : List Value)
  | mapping (fields : List (Key × Value))

abbrev Mapping := KeyedMap Key Value

namespace Value

def asString : Value → Option String
  | string value => some value
  | _ => none

def asSequence : Value → Option (List Value)
  | sequence items => some items
  | _ => none

/-- The fields of a mapping; the parser has rejected a key that occurs twice. -/
def asMapping : Value → Option Mapping
  | mapping fields => KeyedMap.ofEntries? fields
  | _ => none

def ofMapping (fields : Mapping) : Value := mapping fields.entries

mutual

/-- Equality of documents: the order of the fields does not count. -/
def same : Value → Value → Bool
  | null, null => true
  | bool a, bool b => a == b
  | int a, int b => a == b
  | decimal a, decimal b => a == b
  | string a, string b => a == b
  | sequence items, sequence others => sameItems items others
  | mapping fields, mapping others =>
    fields.length == others.length && sameFields fields others
  | _, _ => false

def sameItems : List Value → List Value → Bool
  | [], [] => true
  | item :: items, other :: others => same item other && sameItems items others
  | _, _ => false

def sameFields : List (Key × Value) → List (Key × Value) → Bool
  | [], _ => true
  | (key, value) :: rest, others =>
    (others.any fun other => other.1 == key && same value other.2) && sameFields rest others

end

mutual

theorem same_refl : (value : Value) → same value value = true
  | null => by simp [same]
  | bool _ => by simp [same]
  | int _ => by simp [same]
  | decimal _ => by simp [same]
  | string _ => by simp [same]
  | sequence items => by simpa [same] using sameItems_refl items
  | mapping fields => by
    have hfields := sameFields_of_subset fields fields fun _ hfield => hfield
    simpa [same] using hfields

theorem sameItems_refl : (items : List Value) → sameItems items items = true
  | [] => by simp [sameItems]
  | item :: items => by simp [sameItems, same_refl item, sameItems_refl items]

theorem sameFields_of_subset : (fields others : List (Key × Value)) →
    (∀ field ∈ fields, field ∈ others) → sameFields fields others = true
  | [], _, _ => by simp [sameFields]
  | (key, value) :: rest, others, hsubset => by
    rw [List.forall_mem_cons] at hsubset
    have hfound : (others.any fun other => other.1 == key && same value other.2) = true := by
      apply List.any_eq_true.mpr
      exact ⟨(key, value), hsubset.1, by simp [same_refl value]⟩
    simp [sameFields, hfound, sameFields_of_subset rest others hsubset.2]

end

theorem asMapping_ofMapping (fields : Mapping) : (ofMapping fields).asMapping = some fields :=
  KeyedMap.ofEntries?_entries fields

end Value

section Ranges

/-- Take fields under their normalized keys; of two with one key the later one stays. -/
def normalizeFields : List (Key × Value) → Mapping → Except String Mapping
  | [], normalized => .ok normalized
  | (.other _, _) :: _, _ => .error "version range keys must be strings"
  | (.text key, value) :: rest, normalized =>
    normalizeFields rest (normalized.insert (.text (normalizeSemverRange key)) value)

def normalizeVersions (value : Value) : Except String Value :=
  match value.asMapping with
  | none => .error "versions must be a YAML mapping"
  | some mapping => (normalizeFields mapping.entries .empty).map Value.ofMapping

end Ranges

section Tags

def tagsKey : Key := .text "tags"

/-- The tags of an entry, as they are read from its text; a value that is no text has none. -/
def tagList (entry : Mapping) : List String :=
  let tags := ((entry.find? tagsKey).bind Value.asString).getD ""
  ((Texts.split ',' tags).map Texts.trim).filter fun tag => tag ≠ ""

/-- Add the tags that are missing, and say whether there were any. -/
def pushMissing : List String → List String × Bool → List String × Bool
  | [], state => state
  | tag :: rest, (values, changed) =>
    if values.contains tag then pushMissing rest (values, changed)
    else pushMissing rest (values ++ [tag], true)

def ensureDefaultTags (entry : Mapping) (defaults : List String) : Mapping × Bool :=
  match pushMissing defaults (tagList entry, false) with
  | (_, false) => (entry, false)
  | (values, true) => (entry.insert tagsKey (.string (Texts.join "," values)), true)

theorem pushMissing_eq (defaults values : List String) (changed : Bool) :
    ∃ added, pushMissing defaults (values, changed) = (values ++ added, changed || !added.isEmpty) ∧
      added ⊆ defaults ∧ defaults ⊆ values ++ added := by
  induction defaults generalizing values changed with
  | nil => exact ⟨[], by simp [pushMissing], List.nil_subset _, List.nil_subset _⟩
  | cons tag rest ih =>
    by_cases hmem : tag ∈ values
    · obtain ⟨added, hpush, hadded, hrest⟩ := ih values changed
      refine ⟨added, by simpa [pushMissing, hmem] using hpush, ?_, ?_⟩
      · exact fun other hother => List.mem_cons_of_mem _ (hadded hother)
      · exact List.cons_subset.mpr ⟨List.mem_append_left _ hmem, hrest⟩
    · obtain ⟨added, hpush, hadded, hrest⟩ := ih (values ++ [tag]) true
      refine ⟨tag :: added, by simp [pushMissing, hmem, hpush], ?_, ?_⟩
      · exact List.cons_subset.mpr ⟨List.mem_cons_self,
          fun other hother => List.mem_cons_of_mem _ (hadded hother)⟩
      · rw [List.append_assoc, List.singleton_append] at hrest
        exact List.cons_subset.mpr ⟨by simp, hrest⟩

/-- A tag as it stands in a list of tags. -/
structure IsTag (tag : String) : Prop where
  no_comma : ',' ∉ tag.toList
  trimmed : Texts.trim tag = tag
  nonempty : tag ≠ ""

theorem isTag_of_mem_tagList {entry : Mapping} {tag : String} (h : tag ∈ tagList entry) :
    IsTag tag := by
  obtain ⟨hmem, hne⟩ := List.mem_filter.mp h
  obtain ⟨part, hpart, rfl⟩ := List.mem_map.mp hmem
  refine ⟨fun hcomma => ?_, Texts.trim_trim part, by simpa using hne⟩
  exact Texts.notMem_of_mem_split hpart (Texts.mem_of_mem_trim hcomma)

theorem tagList_insert (entry : Mapping) {tags : List String} (h : ∀ tag ∈ tags, IsTag tag) :
    tagList (entry.insert tagsKey (.string (Texts.join "," tags))) = tags := by
  unfold tagList
  simp only [KeyedMap.find?_insert_self, Option.bind_some, Value.asString, Option.getD_some]
  cases tags with
  | nil => rfl
  | cons tag rest =>
    have hsplit := Texts.split_join ',' (List.cons_ne_nil tag rest) fun one hone =>
      (h one hone).no_comma
    have hcomma : String.singleton ',' = "," := rfl
    rw [hcomma] at hsplit
    rw [hsplit]
    have htrim : (tag :: rest).map Texts.trim = tag :: rest := by
      rw [List.map_congr_left (g := id) fun one hone => (h one hone).trimmed, List.map_id]
    rw [htrim, List.filter_eq_self]
    intro one hone
    simpa using (h one hone).nonempty

/-- What the default tags do to an entry: its tags are extended, and nothing else changes. -/
theorem ensureDefaultTags_spec (entry : Mapping) {defaults : List String}
    (hdefaults : ∀ tag ∈ defaults, IsTag tag) :
    ∃ added, tagList (ensureDefaultTags entry defaults).1 = tagList entry ++ added ∧
      added ⊆ defaults ∧ defaults ⊆ tagList entry ++ added ∧
      (∀ key, key ≠ tagsKey →
        (ensureDefaultTags entry defaults).1.find? key = entry.find? key) ∧
      (added = [] → (ensureDefaultTags entry defaults) = (entry, false)) := by
  obtain ⟨added, hpush, hadded, hall⟩ := pushMissing_eq defaults (tagList entry) false
  refine ⟨added, ?_, hadded, hall, ?_, ?_⟩
  · cases added with
    | nil => simp [ensureDefaultTags, hpush]
    | cons tag rest =>
      have htags : ∀ one ∈ tagList entry ++ tag :: rest, IsTag one := by
        intro one hone
        exact (List.mem_append.mp hone).elim isTag_of_mem_tagList
          fun hmem => hdefaults one (hadded hmem)
      simpa [ensureDefaultTags, hpush] using tagList_insert entry htags
  · intro key hkey
    cases added with
    | nil => simp [ensureDefaultTags, hpush]
    | cons tag rest => simp [ensureDefaultTags, hpush, KeyedMap.find?_insert_of_ne entry hkey]
  · rintro rfl
    simp [ensureDefaultTags, hpush]

theorem ensureDefaultTags_of_subset {entry : Mapping} {defaults : List String}
    (h : defaults ⊆ tagList entry) : ensureDefaultTags entry defaults = (entry, false) := by
  have hpush : ∀ values changed, defaults ⊆ values →
      pushMissing defaults (values, changed) = (values, changed) := by
    induction defaults with
    | nil => exact fun _ _ _ => rfl
    | cons tag rest ih =>
      intro values changed hsubset
      obtain ⟨htag, hrest⟩ := List.cons_subset.mp hsubset
      have hothers := ih (List.cons_subset.mp h).2 values changed hrest
      simpa [pushMissing, htag] using hothers
  simp [ensureDefaultTags, hpush _ false h]

end Tags

end Esdiag.SourceCatalogues
