import Esdiag.KeyedUpdates
import Esdiag.SourceCatalogues

/-!
Reconciliation of a catalogue with the upstream one. Every upstream source that
is not recorded as removed is laid over the entry of its name, or of the name it
is renamed to: upstream gives the fields it owns, and the tags of the product are
added. Where distinct sources have distinct names, the entries are laid over one
by one, and a second pass finds nothing to do.
-/
namespace Esdiag.Reconciliation

open KeyedMaps KeyedUpdates SourceCatalogues

inductive Product where
  | elasticsearch
  | kibana
  | logstash

def Product.defaultTags : Product → List String
  | elasticsearch | logstash => ["support"]
  | kibana => ["standard", "light", "support"]

def upstreamFields : List String := ["versions", "extension", "subdir", "retry"]

def esdiagFields : List String :=
  ["tags", "source_weight", "processing_weight", "streamable", "processable", "required",
    "dependencies", "collect_dependencies"]

section Divergences

def stringFields (field : String) : List (Key × Value) → KeyedMap String String →
    Except String (KeyedMap String String)
  | [], values => .ok values
  | (key, value) :: rest, values =>
    match key.asString with
    | none => .error ("divergences `" ++ field ++ "` keys must be strings")
    | some key =>
      match value.asString with
      | none => .error ("divergences `" ++ field ++ "` values must be strings")
      | some value => stringFields field rest (values.insert key value)

def stringMapping (mapping : Mapping) (field : String) :
    Except String (KeyedMap String String) :=
  match mapping.find? (.text field) with
  | none => .ok .empty
  | some value =>
    match value.asMapping with
    | none => .error ("divergences `" ++ field ++ "` must be a mapping")
    | some fields => stringFields field fields.entries .empty

def stringItems (field : String) : List Value → Except String (List String)
  | [] => .ok []
  | item :: rest =>
    match item.asString with
    | none => .error ("divergences `" ++ field ++ "` values must be strings")
    | some item => (stringItems field rest).map fun items => item :: items

def stringSet (mapping : Mapping) (field : String) : Except String (List String) :=
  match mapping.find? (.text field) with
  | none => .ok []
  | some value =>
    match value.asSequence with
    | none => .error ("divergences `" ++ field ++ "` must be a sequence")
    | some items => stringItems field items

end Divergences

section Overlay

def hasAnyField (entry : Mapping) (fields : List String) : Bool :=
  fields.any fun field => (entry.find? (.text field)).isSome

/-- The value that upstream gives a field. -/
def normalizeField (field : String) (value : Value) : Except String Value :=
  if field = "versions" then normalizeVersions value else .ok value

def refreshField (key : String) (upstreamEntry : Mapping) (field : String) (entry : Mapping) :
    Except String (Mapping × List String) :=
  match upstreamEntry.find? (.text field) with
  | none =>
    if (entry.find? (.text field)).isSome then
      .ok (entry.remove (.text field),
        [key ++ ": removed stale upstream-owned `" ++ field ++ "`"])
    else .ok (entry, [])
  | some value =>
    match normalizeField field value with
    | .error error => .error error
    | .ok value =>
      if (entry.find? (.text field)).any fun old => old.same value then .ok (entry, [])
      else
        .ok (entry.insert (.text field) value,
          [key ++ ": refreshed `" ++ field ++ "` from upstream"])

def refreshFields (key : String) (upstreamEntry : Mapping) : List String → Mapping →
    Except String (Mapping × List String)
  | [], entry => .ok (entry, [])
  | field :: rest, entry =>
    match refreshField key upstreamEntry field entry with
    | .error error => .error error
    | .ok (entry, changes) =>
      (refreshFields key upstreamEntry rest entry).map fun result =>
        (result.1, changes ++ result.2)

/-- One upstream source over the entry that the catalogue has for it, if any. -/
def overlayEntry (product : Product) (upstreamKey key : String) (upstreamEntry : Value)
    (existing : Option Value) : Except String (Value × List String) :=
  match (existing.getD (.ofMapping .empty)).asMapping with
  | none => .error ("source entry `" ++ key ++ "` must be a YAML mapping")
  | some entry =>
    let isNewSource := existing.isNone ||
      !hasAnyField entry upstreamFields && !hasAnyField entry esdiagFields
    match upstreamEntry.asMapping with
    | none => .error ("upstream source entry `" ++ upstreamKey ++ "` must be a YAML mapping")
    | some upstreamEntry =>
      match refreshFields key upstreamEntry upstreamFields entry with
      | .error error => .error error
      | .ok (entry, changes) =>
        let (entry, added) := ensureDefaultTags entry product.defaultTags
        .ok (.ofMapping entry, changes ++
          ((if added && !isNewSource then [key ++ ": added default tag(s) for upstream source"]
            else []) ++
          if isNewSource then [key ++ ": NEW upstream source added (review weights/tags)"]
            else []))

/-- The name that an upstream source has in the catalogue. -/
def targetKey (renames : KeyedMap String String) (upstreamKey : String) : String :=
  (renames.find? upstreamKey).getD upstreamKey

variable (product : Product) (renames : KeyedMap String String) (removed : List String)

def overlayEntries : List (Key × Value) → Mapping × List String →
    Except String (Mapping × List String)
  | [], state => .ok state
  | (.other _, _) :: rest, state => overlayEntries rest state
  | (.text upstreamKey, upstreamEntry) :: rest, (merged, changes) =>
    if removed.contains upstreamKey then overlayEntries rest (merged, changes)
    else
      let key := targetKey renames upstreamKey
      match overlayEntry product upstreamKey key upstreamEntry (merged.find? (.text key)) with
      | .error error => .error error
      | .ok (value, added) =>
        overlayEntries rest (merged.insert (.text key) value, changes ++ added)

/-- The entries that are neither upstream nor recorded as owned. -/
def notPresent (owned : List String) (upstream merged : Mapping) : List String :=
  let upstreamKeys := (upstream.entries.filterMap fun entry => entry.1.asString).map
    (targetKey renames)
  ((merged.entries.filterMap fun entry => entry.1.asString).filter fun key =>
    !upstreamKeys.contains key && !owned.contains key).map fun key =>
      key ++ ": not present upstream (esdiag-only; record in divergences if intended)"

def overlay (product : Product) (esdiag upstream divergences : Mapping) :
    Except String (Mapping × List String) := do
  let renames ← stringMapping divergences "renames"
  let removed ← stringSet divergences "removed"
  let owned ← stringSet divergences "esdiag_only"
  let (merged, changes) ← overlayEntries product renames removed upstream.entries (esdiag, [])
  pure (merged, changes ++ notPresent renames owned upstream merged)

end Overlay

section Fields

variable {key : String} {upstreamEntry entry after : Mapping} {changes : List String}

/-- A field is as upstream has it, normalized; without one upstream, it is absent. -/
def FieldRefreshed (upstreamEntry entry : Mapping) (field : String) : Prop :=
  match upstreamEntry.find? (.text field) with
  | none => entry.find? (.text field) = none
  | some value => ∃ normal found, normalizeField field value = .ok normal ∧
      entry.find? (.text field) = some found ∧ found.same normal = true

theorem FieldRefreshed.congr {field : String}
    (heq : after.find? (.text field) = entry.find? (.text field))
    (h : FieldRefreshed upstreamEntry entry field) : FieldRefreshed upstreamEntry after field := by
  unfold FieldRefreshed at h ⊢
  rw [heq]
  exact h

theorem refreshField_spec {field : String}
    (h : refreshField key upstreamEntry field entry = .ok (after, changes)) :
    FieldRefreshed upstreamEntry after field ∧
      ∀ other, other ≠ Key.text field → after.find? other = entry.find? other := by
  unfold refreshField at h
  unfold FieldRefreshed
  cases hvalue : upstreamEntry.find? (.text field) with
  | none =>
    simp only [hvalue] at h ⊢
    split at h
    · obtain ⟨rfl, -⟩ := Prod.mk.inj (Except.ok.inj h)
      refine ⟨by simp [KeyedMap.find?_remove], ?_⟩
      intro other hother
      simp [KeyedMap.find?_remove, hother]
    · rename_i hnone
      obtain ⟨rfl, -⟩ := Prod.mk.inj (Except.ok.inj h)
      exact ⟨by simpa using hnone, fun _ _ => rfl⟩
  | some value =>
    simp only [hvalue] at h ⊢
    cases hnormal : normalizeField field value with
    | error error => simp [hnormal] at h
    | ok normal =>
      simp only [hnormal] at h
      split at h
      · rename_i hsame
        obtain ⟨rfl, -⟩ := Prod.mk.inj (Except.ok.inj h)
        cases hfound : entry.find? (.text field) with
        | none => simp [hfound] at hsame
        | some found =>
          rw [hfound, Option.any_some] at hsame
          exact ⟨⟨normal, found, rfl, rfl, hsame⟩, fun _ _ => rfl⟩
      · obtain ⟨rfl, -⟩ := Prod.mk.inj (Except.ok.inj h)
        refine ⟨⟨normal, normal, rfl, KeyedMap.find?_insert_self _ _ _, normal.same_refl⟩, ?_⟩
        intro other hother
        exact KeyedMap.find?_insert_of_ne _ hother _

theorem refreshField_of_refreshed {field : String} (h : FieldRefreshed upstreamEntry entry field) :
    refreshField key upstreamEntry field entry = .ok (entry, []) := by
  unfold FieldRefreshed at h
  unfold refreshField
  cases hvalue : upstreamEntry.find? (.text field) with
  | none =>
    rw [hvalue] at h
    simp only at h
    simp [h]
  | some value =>
    rw [hvalue] at h
    obtain ⟨normal, found, hnormal, hfound, hsame⟩ := h
    simp [hnormal, hfound, hsame]

/-- After the pass over the fields each is as upstream has it, and no other one has changed. -/
theorem refreshFields_spec {fields : List String} (hnodup : fields.Nodup)
    (h : refreshFields key upstreamEntry fields entry = .ok (after, changes)) :
    (∀ field ∈ fields, FieldRefreshed upstreamEntry after field) ∧
      ∀ other, other ∉ fields.map Key.text → after.find? other = entry.find? other := by
  induction fields generalizing entry changes with
  | nil =>
    obtain ⟨rfl, -⟩ := Prod.mk.inj (Except.ok.inj h)
    exact ⟨fun _ hfield => absurd hfield List.not_mem_nil, fun _ _ => rfl⟩
  | cons field rest ih =>
    rw [List.nodup_cons] at hnodup
    unfold refreshFields at h
    cases hfirst : refreshField key upstreamEntry field entry with
    | error error => simp [hfirst] at h
    | ok made =>
      obtain ⟨between, first⟩ := made
      cases hrest : refreshFields key upstreamEntry rest between with
      | error error => simp [hfirst, hrest, Except.map] at h
      | ok result =>
        simp only [hfirst, hrest, Except.map, Except.ok.injEq, Prod.mk.injEq] at h
        obtain ⟨rfl, -⟩ := h
        obtain ⟨hfield, hothers⟩ := refreshField_spec hfirst
        obtain ⟨hfields, hkept⟩ := ih hnodup.2 hrest
        have hlater : Key.text field ∉ rest.map Key.text := by
          intro hmem
          obtain ⟨other, hother, heq⟩ := List.mem_map.mp hmem
          exact hnodup.1 (Key.text.inj heq ▸ hother)
        refine ⟨List.forall_mem_cons.mpr ⟨hfield.congr (hkept _ hlater), hfields⟩, ?_⟩
        intro other hother
        rw [List.map_cons, List.mem_cons, not_or] at hother
        rw [hkept other hother.2, hothers other hother.1]

theorem refreshFields_of_refreshed {fields : List String}
    (h : ∀ field ∈ fields, FieldRefreshed upstreamEntry entry field) :
    refreshFields key upstreamEntry fields entry = .ok (entry, []) := by
  induction fields with
  | nil => rfl
  | cons field rest ih =>
    rw [List.forall_mem_cons] at h
    unfold refreshFields
    rw [refreshField_of_refreshed h.1]
    simp only [ih h.2, Except.map, List.nil_append]

end Fields

section Entries

variable {product : Product} {upstreamKey key : String} {upstreamEntry : Value}

theorem isTag_of_mem_defaultTags {tag : String} (h : tag ∈ product.defaultTags) : IsTag tag := by
  have hall : ∀ tag ∈ ["support", "standard", "light"], ',' ∉ tag.toList ∧
      Texts.trim tag = tag ∧ tag ≠ "" := by decide
  have hmem : tag ∈ ["support", "standard", "light"] := by
    cases product <;> simp [Product.defaultTags] at h ⊢ <;> tauto
  obtain ⟨hcomma, htrim, hne⟩ := hall tag hmem
  exact ⟨hcomma, htrim, hne⟩

theorem defaultTags_ne_nil (product : Product) : product.defaultTags ≠ [] := by
  cases product <;> simp [Product.defaultTags]

/-- What an upstream source makes of an entry: upstream's fields are refreshed, the tags are
extended with default ones, and everything else is kept. -/
structure EntryReconciled (product : Product) (upstreamEntry before after : Mapping) : Prop where
  refreshed : ∀ field ∈ upstreamFields, FieldRefreshed upstreamEntry after field
  kept : ∀ key, key ∉ upstreamFields.map Key.text → key ≠ tagsKey →
    after.find? key = before.find? key
  tags : ∃ added, tagList after = tagList before ++ added ∧ added ⊆ product.defaultTags ∧
    product.defaultTags ⊆ tagList after ∧
    (added = [] → after.find? tagsKey = before.find? tagsKey)

theorem find?_tagsKey_isSome {entry : Mapping} (h : product.defaultTags ⊆ tagList entry) :
    hasAnyField entry esdiagFields = true := by
  obtain ⟨tag, rest, hdefaults⟩ := List.exists_cons_of_ne_nil (defaultTags_ne_nil product)
  have htag : tag ∈ tagList entry := h (hdefaults ▸ List.mem_cons_self)
  cases hentry : entry.find? tagsKey with
  | none =>
    have hempty : tagList entry = [] := by
      unfold tagList
      rw [hentry]
      rfl
    rw [hempty] at htag
    exact absurd htag List.not_mem_nil
  | some value =>
    have htags : (entry.find? (.text "tags")).isSome = true := by
      rw [show Key.text "tags" = tagsKey from rfl, hentry]
      rfl
    simp [hasAnyField, esdiagFields, htags]

theorem overlayEntry_spec {existing : Option Value} {value : Value} {changes : List String}
    (h : overlayEntry product upstreamKey key upstreamEntry existing = .ok (value, changes)) :
    ∃ upstreamFields before after, upstreamEntry.asMapping = some upstreamFields ∧
      (existing.getD (.ofMapping .empty)).asMapping = some before ∧
      value = .ofMapping after ∧ EntryReconciled product upstreamFields before after := by
  unfold overlayEntry at h
  cases hbefore : (existing.getD (.ofMapping .empty)).asMapping with
  | none => simp [hbefore] at h
  | some before =>
    cases hupstream : upstreamEntry.asMapping with
    | none => simp [hbefore, hupstream] at h
    | some upstream =>
      cases hfields : refreshFields key upstream upstreamFields before with
      | error error => simp [hbefore, hupstream, hfields] at h
      | ok made =>
        obtain ⟨refreshed, notices⟩ := made
        simp only [hbefore, hupstream, hfields, Except.ok.injEq, Prod.mk.injEq] at h
        obtain ⟨rfl, -⟩ := h
        have hnodup : upstreamFields.Nodup := by decide
        obtain ⟨hrefreshed, hkept⟩ := refreshFields_spec hnodup hfields
        have htagsKey : tagsKey ∉ upstreamFields.map Key.text := by decide
        have hsameTags : tagList refreshed = tagList before := by
          unfold tagList
          rw [hkept tagsKey htagsKey]
        obtain ⟨added, htags, hadded, hall, hothers, hnone⟩ :=
          ensureDefaultTags_spec refreshed fun tag (htag : tag ∈ product.defaultTags) =>
            isTag_of_mem_defaultTags htag
        refine ⟨upstream, before, _, rfl, rfl, rfl, ?_, ?_, added, ?_, hadded, ?_, ?_⟩
        · intro field hfield
          have hne : Key.text field ≠ tagsKey := by
            intro heq
            exact htagsKey (heq ▸ List.mem_map_of_mem hfield)
          exact (hrefreshed field hfield).congr (hothers _ hne)
        · intro other hother hne
          rw [hothers other hne, hkept other hother]
        · rw [htags, hsameTags]
        · rw [htags]
          exact hall
        · intro hadded
          rw [hnone hadded, hkept tagsKey htagsKey]

/-- What an upstream source has made of an entry needs no further change. -/
theorem overlayEntry_of_reconciled {upstream before after : Mapping}
    (hupstream : upstreamEntry.asMapping = some upstream)
    (h : EntryReconciled product upstream before after) :
    overlayEntry product upstreamKey key upstreamEntry (some (.ofMapping after)) =
      .ok (.ofMapping after, []) := by
  obtain ⟨added, -, -, hall, -⟩ := h.tags
  unfold overlayEntry
  simp only [Option.getD_some, Value.asMapping_ofMapping, hupstream,
    refreshFields_of_refreshed h.refreshed, ensureDefaultTags_of_subset hall,
    find?_tagsKey_isSome hall, Option.isNone_some, Bool.not_true, Bool.and_false, Bool.or_false,
    Bool.false_and, Bool.false_eq_true, if_false, List.append_nil]

end Entries

section Pass

variable (product : Product) (renames : KeyedMap String String) (removed : List String)

/-- The update that an upstream source asks for; none for a removed one. -/
def updateOf (entry : Key × Value) : Option (Update Key Value String String) :=
  match entry.1 with
  | .other _ => none
  | .text upstreamKey =>
    if removed.contains upstreamKey then none
    else some
      { target := .text (targetKey renames upstreamKey)
        apply := overlayEntry product upstreamKey (targetKey renames upstreamKey) entry.2 }

/-- The loop over the upstream sources is a pass of their updates. -/
theorem overlayEntries_eq (entries : List (Key × Value)) (merged : Mapping)
    (changes : List String) :
    overlayEntries product renames removed entries (merged, changes) =
      (applyAll (entries.filterMap (updateOf product renames removed)) merged).map
        fun result => (result.1, changes ++ result.2) := by
  induction entries generalizing merged changes with
  | nil => simp [overlayEntries, applyAll, Except.map]
  | cons entry rest ih =>
    obtain ⟨key, value⟩ := entry
    cases key with
    | other index =>
      have hnone : updateOf product renames removed (.other index, value) = none := rfl
      rw [List.filterMap_cons_none hnone, ← ih]
      rfl
    | text upstreamKey =>
      by_cases hremoved : removed.contains upstreamKey = true
      · have hnone : updateOf product renames removed (.text upstreamKey, value) = none := by
          simp only [updateOf, hremoved, if_true]
        rw [List.filterMap_cons_none hnone, ← ih]
        simp only [overlayEntries, hremoved, if_true]
      · have hsome : updateOf product renames removed (.text upstreamKey, value) = some _ :=
          if_neg hremoved
        rw [List.filterMap_cons_some hsome]
        simp only [overlayEntries, applyAll, if_neg hremoved]
        cases overlayEntry product upstreamKey (targetKey renames upstreamKey) value
            (merged.find? (.text (targetKey renames upstreamKey))) with
        | error error => rfl
        | ok made =>
          obtain ⟨made, added⟩ := made
          simp only [ih]
          cases applyAll (rest.filterMap (updateOf product renames removed))
              (merged.insert (.text (targetKey renames upstreamKey)) made) with
          | error error => rfl
          | ok result => simp [Except.map, List.append_assoc]

variable {product renames removed}

/-- A name that upstream has and that is not recorded as removed. -/
def Kept (removed : List String) (upstream : Mapping) (upstreamKey : String) : Prop :=
  (upstream.find? (.text upstreamKey)).isSome = true ∧ upstreamKey ∉ removed

/-- Distinct kept sources have distinct names in the catalogue. -/
def KeysDistinct (renames : KeyedMap String String) (removed : List String) (upstream : Mapping) :
    Prop :=
  ∀ left right, Kept removed upstream left → Kept removed upstream right →
    targetKey renames left = targetKey renames right → left = right

theorem updateOf_eq_some {entry : Key × Value} {update : Update Key Value String String}
    (h : updateOf product renames removed entry = some update) :
    ∃ upstreamKey, entry.1 = .text upstreamKey ∧ upstreamKey ∉ removed ∧
      update = { target := .text (targetKey renames upstreamKey)
                 apply := overlayEntry product upstreamKey (targetKey renames upstreamKey)
                   entry.2 } := by
  obtain ⟨key, value⟩ := entry
  cases key with
  | other index => cases h
  | text upstreamKey =>
    unfold updateOf at h
    simp only at h
    split at h
    · cases h
    · rename_i hremoved
      refine ⟨upstreamKey, rfl, by simpa using hremoved, (Option.some.inj h).symm⟩

theorem nodup_targets {upstream : Mapping} (hdistinct : KeysDistinct renames removed upstream) :
    ((upstream.entries.filterMap (updateOf product renames removed)).map Update.target).Nodup := by
  have hkept : ∀ entry ∈ upstream.entries, ∀ update,
      updateOf product renames removed entry = some update →
      ∃ upstreamKey, entry.1 = .text upstreamKey ∧ Kept removed upstream upstreamKey ∧
        update.target = .text (targetKey renames upstreamKey) := by
    intro entry hentry update hupdate
    obtain ⟨upstreamKey, hkey, hremoved, rfl⟩ := updateOf_eq_some hupdate
    refine ⟨upstreamKey, hkey, ⟨?_, hremoved⟩, rfl⟩
    rw [KeyedMap.find?_isSome_iff, ← hkey]
    exact List.mem_map_of_mem hentry
  have hnodup := upstream.nodup_keys
  generalize upstream.entries = entries at hkept hnodup
  induction entries with
  | nil => exact List.nodup_nil
  | cons entry rest ih =>
    rw [List.map_cons, List.nodup_cons] at hnodup
    rw [List.forall_mem_cons] at hkept
    cases hupdate : updateOf product renames removed entry with
    | none =>
      rw [List.filterMap_cons_none hupdate]
      exact ih hkept.2 hnodup.2
    | some update =>
      rw [List.filterMap_cons_some hupdate, List.map_cons, List.nodup_cons]
      refine ⟨?_, ih hkept.2 hnodup.2⟩
      intro hmem
      obtain ⟨upstreamKey, hkey, hkeep, htarget⟩ := hkept.1 update hupdate
      obtain ⟨other, hother, heq⟩ := List.mem_map.mp hmem
      obtain ⟨entry', hentry', hupdate'⟩ := List.mem_filterMap.mp hother
      obtain ⟨upstreamKey', hkey', hkeep', htarget'⟩ := hkept.2 entry' hentry' other hupdate'
      rw [htarget, htarget', Key.text.injEq] at heq
      obtain rfl := hdistinct _ _ hkeep' hkeep heq
      exact hnodup.1 (hkey ▸ hkey' ▸ List.mem_map_of_mem hentry')

theorem updateOf_settles {entry : Key × Value} {update : Update Key Value String String}
    (h : updateOf product renames removed entry = some update) : update.Settles := by
  obtain ⟨upstreamKey, -, -, rfl⟩ := updateOf_eq_some h
  intro before value notices hmade
  obtain ⟨upstream, old, after, hupstream, -, rfl, hreconciled⟩ := overlayEntry_spec hmade
  exact overlayEntry_of_reconciled hupstream hreconciled

end Pass

section Convergence

variable {product : Product} {esdiag upstream divergences merged : Mapping}
  {renames : KeyedMap String String} {removed changes : List String}

theorem overlay_eq_ok (hrenames : stringMapping divergences "renames" = .ok renames)
    (hremoved : stringSet divergences "removed" = .ok removed)
    (h : overlay product esdiag upstream divergences = .ok (merged, changes)) :
    ∃ owned made, stringSet divergences "esdiag_only" = .ok owned ∧
      applyAll (upstream.entries.filterMap (updateOf product renames removed)) esdiag =
        .ok (merged, made) ∧
      changes = made ++ notPresent renames owned upstream merged := by
  unfold overlay at h
  simp only [hrenames, hremoved, bind, Except.bind, overlayEntries_eq] at h
  cases howned : stringSet divergences "esdiag_only" with
  | error error => simp [howned] at h
  | ok owned =>
    cases hpass : applyAll (upstream.entries.filterMap (updateOf product renames removed))
        esdiag with
    | error error => simp [howned, hpass, Except.map] at h
    | ok result =>
      simp only [howned, hpass, Except.map, List.nil_append, pure, Except.pure, Except.ok.injEq,
        Prod.mk.injEq] at h
      obtain ⟨rfl, rfl⟩ := h
      exact ⟨owned, result.2, rfl, rfl, rfl⟩

/-- Reconciliation refreshes what upstream owns of every kept source and nothing else, leaves
the entries of all other names alone, and finds nothing to do a second time. -/
theorem overlay_converges (hrenames : stringMapping divergences "renames" = .ok renames)
    (hremoved : stringSet divergences "removed" = .ok removed)
    (hdistinct : KeysDistinct renames removed upstream)
    (h : overlay product esdiag upstream divergences = .ok (merged, changes)) :
    (∀ upstreamKey upstreamEntry, upstream.find? (.text upstreamKey) = some upstreamEntry →
      upstreamKey ∉ removed → ∃ upstreamFields before after,
        upstreamEntry.asMapping = some upstreamFields ∧
        ((esdiag.find? (.text (targetKey renames upstreamKey))).getD (.ofMapping .empty)).asMapping
          = some before ∧
        merged.find? (.text (targetKey renames upstreamKey)) = some (.ofMapping after) ∧
        EntryReconciled product upstreamFields before after) ∧
    (∀ key, (∀ upstreamKey, Kept removed upstream upstreamKey →
        key ≠ .text (targetKey renames upstreamKey)) → merged.find? key = esdiag.find? key) ∧
    ∃ owned, stringSet divergences "esdiag_only" = .ok owned ∧
      overlay product merged upstream divergences =
        .ok (merged, notPresent renames owned upstream merged) := by
  obtain ⟨owned, made, howned, hpass, -⟩ := overlay_eq_ok hrenames hremoved h
  have hnodup : ((upstream.entries.filterMap (updateOf product renames removed)).map
      Update.target).Nodup := nodup_targets hdistinct
  refine ⟨?_, ?_, owned, howned, ?_⟩
  · intro upstreamKey upstreamEntry hentry hkept
    have hmem := KeyedMap.find?_eq_some_iff.mp hentry
    have hupdate : updateOf product renames removed (.text upstreamKey, upstreamEntry) = some _ :=
      if_neg (by simpa using hkept)
    obtain ⟨value, notices, hvalue, hfind⟩ := find?_applyAll_of_mem hpass hnodup
      (List.mem_filterMap.mpr ⟨_, hmem, hupdate⟩)
    obtain ⟨fields, before, after, hfields, hbefore, rfl, hreconciled⟩ := overlayEntry_spec hvalue
    exact ⟨fields, before, after, hfields, hbefore, hfind, hreconciled⟩
  · intro key hkey
    apply find?_applyAll_of_ne hpass
    intro update hupdate
    obtain ⟨entry, hentry, hof⟩ := List.mem_filterMap.mp hupdate
    obtain ⟨upstreamKey, hname, hkept, rfl⟩ := updateOf_eq_some hof
    refine Ne.symm (hkey upstreamKey ⟨?_, hkept⟩)
    rw [KeyedMap.find?_isSome_iff, ← hname]
    exact List.mem_map_of_mem hentry
  · have hsettles : ∀ update ∈ upstream.entries.filterMap (updateOf product renames removed),
        update.Settles := by
      intro update hupdate
      obtain ⟨entry, -, hof⟩ := List.mem_filterMap.mp hupdate
      exact updateOf_settles hof
    have htwice := applyAll_twice hpass hnodup hsettles
    unfold overlay
    simp only [hrenames, hremoved, howned, bind, Except.bind, overlayEntries_eq, htwice,
      Except.map, List.nil_append, pure, Except.pure]

end Convergence

section Samples

def sampleVersions (path : String) : Key × Value :=
  (.text "versions", .mapping [(.text ">= 8.0.0", .string path)])

def sampleCatalogue (path : String) : Mapping where
  entries := [(.text "settings",
    .mapping [(.text "tags", .string "light,support"), sampleVersions path])]
  nodup_keys := List.nodup_singleton _

def sampleUpstream : Mapping where
  entries := [(.text "settings", .mapping [sampleVersions "/_settings"]),
    (.text "indices", .mapping [sampleVersions "/_all/_settings"])]
  nodup_keys := by decide

def sampleDivergences : Mapping where
  entries := [(.text "renames", .mapping [(.text "indices", .string "settings")]),
    (.text "removed", .sequence [.string "settings"])]
  nodup_keys := by decide

def sampleRenames : KeyedMap String String := KeyedMap.empty.insert "indices" "settings"

def sampleChanges : List String := ["settings: refreshed `versions` from upstream"]

theorem sampleKeysDistinct : KeysDistinct sampleRenames ["settings"] sampleUpstream := by
  have honly : ∀ upstreamKey, Kept ["settings"] sampleUpstream upstreamKey →
      upstreamKey = "indices" := by
    rintro upstreamKey ⟨hkey, hkept⟩
    rw [KeyedMap.find?_isSome_iff] at hkey
    simpa [sampleUpstream, show upstreamKey ≠ "settings" by simpa using hkept] using hkey
  intro left right hleft hright _
  rw [honly left hleft, honly right hright]

set_option maxRecDepth 20000 in
theorem sampleOverlay_eq : overlay .elasticsearch (sampleCatalogue "/_settings") sampleUpstream
    sampleDivergences = .ok (sampleCatalogue "/_all/_settings", sampleChanges) := by
  -- the loop that normalizes a range is by well-founded recursion, which `rfl` alone leaves shut
  with_unfolding_all rfl

theorem sample_converges : ∃ owned, stringSet sampleDivergences "esdiag_only" = .ok owned ∧
    overlay .elasticsearch (sampleCatalogue "/_all/_settings") sampleUpstream sampleDivergences =
      .ok (sampleCatalogue "/_all/_settings",
        notPresent sampleRenames owned sampleUpstream (sampleCatalogue "/_all/_settings")) :=
  (overlay_converges rfl rfl sampleKeysDistinct sampleOverlay_eq).2.2

/-- An upstream source that is renamed to the name of a removed one is laid over the entry of
that name, although the kept sources have distinct names. -/
theorem removed_entry_refreshed :
    stringMapping sampleDivergences "renames" = .ok sampleRenames ∧
    stringSet sampleDivergences "removed" = .ok ["settings"] ∧
    KeysDistinct sampleRenames ["settings"] sampleUpstream ∧
    overlay .elasticsearch (sampleCatalogue "/_settings") sampleUpstream sampleDivergences =
      .ok (sampleCatalogue "/_all/_settings", sampleChanges) ∧
    (sampleCatalogue "/_all/_settings").find? (.text "settings") ≠
      (sampleCatalogue "/_settings").find? (.text "settings") := by
  refine ⟨rfl, rfl, sampleKeysDistinct, sampleOverlay_eq, ?_⟩
  intro heq
  simp [sampleCatalogue, sampleVersions, KeyedMap.find?, findEntry] at heq

end Samples

end Esdiag.Reconciliation
