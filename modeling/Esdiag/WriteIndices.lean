import Esdiag.DataStreamLookups
import Esdiag.IndexStatistics

/-!
Which index is exported as a write index. The aliases of a cluster come as hash maps,
and a table by index name keeps one of the aliases of an index, whichever the
iteration comes to last. A response is a map here, and an iteration of it any order
of its entries, so that a result can be asked for under every order.
-/
namespace Esdiag.WriteIndices

open CheckedIntegers KeyedMaps IndexStatistics Lookups Outcomes

structure AliasSettings where
  isHidden : Option Bool := none
  isWriteIndex : Bool := false
  deriving DecidableEq, Repr

/-- The aliases of one index. -/
abbrev Aliases := KeyedMap String AliasSettings

/-- The alias response. -/
abbrev AliasList := KeyedMap String Aliases

def aliasOfSettings (data : AliasSettings) : Alias where
  name := ""
  isHidden := data.isHidden.getD false
  isWriteIndex := data.isWriteIndex

def aliasWithName (self : Alias) (name : String) : Alias := { self with name := name }

/-- The alias of an entry of the response. -/
def aliasOf (entry : String × AliasSettings) : Alias :=
  aliasWithName (aliasOfSettings entry.2) entry.1

/-! ### The table of aliases -/

section Tables

variable (build : Build)

def addAliases (indexName : String) :
    List (String × AliasSettings) → Lookup Alias → Except Panic (Lookup Alias)
  | [], lookup => .ok lookup
  | entry :: rest, lookup => do
    let next ← (lookup.add (aliasOf entry)).withName build indexName
    addAliases indexName rest next

def addIndices :
    List (String × List (String × AliasSettings)) → Lookup Alias → Except Panic (Lookup Alias)
  | [], lookup => .ok lookup
  | (indexName, aliases) :: rest, lookup => do
    let next ← addAliases build indexName aliases lookup
    addIndices rest next

/-- The table from the entries in the order in which the maps are drained. -/
def aliasLookup (order : List (String × List (String × AliasSettings))) :
    Except Panic (Lookup Alias) :=
  addIndices build order Lookup.new

variable {lookup : Lookup Alias} {registry : Registry Alias}

theorem exists_addAliases (indexName : String) (aliases : List (String × AliasSettings))
    (h : Represents lookup registry) :
    ∃ after registry', addAliases build indexName aliases lookup = .ok after ∧
      Represents after registry' ∧
      ∀ name, registry'.names name =
        (if indexName = name then aliases.getLast?.map aliasOf else none).or
          (registry.names name) := by
  induction aliases generalizing lookup registry with
  | nil => exact ⟨lookup, registry, rfl, h, fun name => by simp⟩
  | cons entry rest ih =>
    obtain ⟨next, hnext, hrep⟩ := (h.add (aliasOf entry)).exists_withName build rfl indexName
    obtain ⟨after, registry', hafter, hrep', hnames⟩ := ih hrep
    refine ⟨after, registry', bind_eq_ok_iff.mpr ⟨next, hnext, hafter⟩, hrep', fun name => ?_⟩
    rw [hnames, Registry.names_withName_add]
    by_cases hname : indexName = name
    · subst hname
      rw [if_pos rfl, if_pos rfl, Function.update_self, List.getLast?_cons]
      cases rest.getLast? <;> rfl
    · rw [if_neg hname, if_neg hname, Function.update_of_ne (Ne.symm hname)]

/-- The alias that the table keeps for an index. -/
def lastAlias (order : List (String × List (String × AliasSettings))) (name : String) :
    Option Alias :=
  lastSome (fun entry => if entry.1 = name then entry.2.getLast?.map aliasOf else none) order

theorem exists_addIndices (order : List (String × List (String × AliasSettings)))
    (h : Represents lookup registry) :
    ∃ after registry', addIndices build order lookup = .ok after ∧
      Represents after registry' ∧
      ∀ name, registry'.names name = (lastAlias order name).or (registry.names name) := by
  induction order generalizing lookup registry with
  | nil => exact ⟨lookup, registry, rfl, h, fun _ => rfl⟩
  | cons entry rest ih =>
    obtain ⟨indexName, aliases⟩ := entry
    obtain ⟨next, registry₁, hnext, hrep, hnames₁⟩ :=
      exists_addAliases build indexName aliases h
    obtain ⟨after, registry', hafter, hrep', hnames⟩ := ih hrep
    refine ⟨after, registry', bind_eq_ok_iff.mpr ⟨next, hnext, hafter⟩, hrep', fun name => ?_⟩
    rw [hnames, hnames₁, lastAlias, lastAlias, lastSome, Option.or_assoc]

theorem exists_aliasLookup (order : List (String × List (String × AliasSettings))) :
    ∃ lookup, aliasLookup build order = .ok lookup ∧
      ∀ name, lookup.byName name = .ok (lastAlias order name) := by
  obtain ⟨lookup, registry, hlookup, hrep, hnames⟩ :=
    exists_addIndices build order Represents.new
  refine ⟨lookup, hlookup, fun name => ?_⟩
  rw [hrep.byName_eq, hnames]
  simp [Registry.empty]

end Tables

/-! ### Orders of a response -/

/-- An order in which the maps of a response are iterated. -/
def IterationOf (response : AliasList) (order : List (String × List (String × AliasSettings))) :
    Prop :=
  ∃ entries, entries.Perm response.entries ∧
    List.Forall₂ (fun entry drained => drained.1 = entry.1 ∧ drained.2.Perm entry.2.entries)
      entries order

/-- The aliases of an index, by their names. -/
def aliasesOf (response : AliasList) (name : String) : List (String × AliasSettings) :=
  (response.find? name).elim [] (·.entries)

section Orders

variable {response : AliasList} {order : List (String × List (String × AliasSettings))}
  {name : String}

theorem exists_left_of_mem {α β : Type} {r : α → β → Prop} {left : List α} {right : List β}
    (h : List.Forall₂ r left right) {b : β} (hb : b ∈ right) : ∃ a ∈ left, r a b := by
  induction h with
  | nil => cases hb
  | cons hr _ ih =>
    rcases List.mem_cons.mp hb with rfl | hrest
    · exact ⟨_, List.mem_cons_self, hr⟩
    · obtain ⟨a, ha, hab⟩ := ih hrest
      exact ⟨a, List.mem_cons_of_mem _ ha, hab⟩

/-- What is drained under a name are the aliases of that index, in some order. -/
theorem perm_of_mem_iteration (h : IterationOf response order)
    {drained : String × List (String × AliasSettings)} (hmem : drained ∈ order) :
    drained.2.Perm (aliasesOf response drained.1) := by
  obtain ⟨entries, hperm, hentries⟩ := h
  obtain ⟨entry, hentry, hname, hdrained⟩ := exists_left_of_mem hentries hmem
  rw [aliasesOf, hname, KeyedMap.find?_eq_some_iff.mpr (hperm.subset hentry)]
  exact hdrained

/-- The table keeps one of the aliases of an index. -/
theorem exists_of_lastAlias (h : IterationOf response order) {kept : Alias}
    (hkept : lastAlias order name = some kept) :
    ∃ entry ∈ aliasesOf response name, kept = aliasOf entry := by
  obtain ⟨drained, hmem, hlast⟩ := exists_of_lastSome hkept
  by_cases hname : drained.1 = name
  · rw [if_pos hname] at hlast
    obtain ⟨entry, hentry, rfl⟩ := Option.map_eq_some_iff.mp hlast
    have hperm := perm_of_mem_iteration h hmem
    rw [hname] at hperm
    exact ⟨entry, hperm.subset (List.mem_of_getLast? hentry), rfl⟩
  · rw [if_neg hname] at hlast
    cases hlast

/-- An index with aliases keeps one of them. -/
theorem isSome_lastAlias (h : IterationOf response order) (hne : aliasesOf response name ≠ []) :
    (lastAlias order name).isSome := by
  obtain ⟨entries, hperm, hentries⟩ := h
  cases hfind : response.find? name with
  | none => simp [aliasesOf, hfind] at hne
  | some aliases =>
    have hmem : (name, aliases) ∈ entries :=
      hperm.symm.subset (mem_of_findEntry hfind)
    obtain ⟨drained, hdrained, hname, hpermuted⟩ :=
      exists_left_of_mem (List.Forall₂.flip hentries) hmem
    refine isSome_lastSome hdrained ?_
    have hdrainedNe : drained.2 ≠ [] := by
      intro hnil
      rw [hnil, List.nil_perm] at hpermuted
      rw [aliasesOf, hfind] at hne
      exact hne hpermuted
    rw [if_pos hname, List.getLast?_eq_some_getLast hdrainedNe]
    rfl

/-- The entries of one index with its aliases in the given order. -/
def drainIndex (name : String) (aliases : List (String × AliasSettings))
    (entry : String × Aliases) : String × List (String × AliasSettings) :=
  (entry.1, if entry.1 = name then aliases else entry.2.entries)

theorem iterationOf_drainIndex {aliases : List (String × AliasSettings)}
    (h : aliases.Perm (aliasesOf response name)) :
    IterationOf response (response.entries.map (drainIndex name aliases)) := by
  refine ⟨response.entries, List.Perm.refl _, ?_⟩
  rw [List.forall₂_map_right_iff, List.forall₂_same]
  intro entry hentry
  refine ⟨rfl, ?_⟩
  unfold drainIndex
  by_cases hname : entry.1 = name
  · have hown : aliasesOf response name = entry.2.entries := by
      rw [aliasesOf, ← hname, KeyedMap.find?_eq_some_iff.mpr hentry]
      rfl
    rw [if_pos hname, ← hown]
    exact h
  · rw [if_neg hname]

theorem lastAlias_drainIndex {aliases : List (String × AliasSettings)} {found : Aliases}
    {entry : String × AliasSettings} (hfind : response.find? name = some found)
    (hlast : aliases.getLast? = some entry) :
    lastAlias (response.entries.map (drainIndex name aliases)) name = some (aliasOf entry) := by
  have hmem : (name, aliases) ∈ response.entries.map (drainIndex name aliases) :=
    List.mem_map.mpr ⟨(name, found), mem_of_findEntry hfind, by simp [drainIndex]⟩
  refine lastSome_eq_of_unique hmem (by rw [if_pos rfl, hlast, Option.map_some]) ?_
  intro other hother hsome
  by_cases hname : other.1 = name
  · obtain ⟨entry, -, rfl⟩ := List.mem_map.mp hother
    simp only [drainIndex] at hname ⊢
    rw [if_pos hname, hname]
  · rw [if_neg hname] at hsome
    cases hsome

/-- Any alias of an index is the kept one under some order. -/
theorem exists_iteration_last {entry : String × AliasSettings}
    (hentry : entry ∈ aliasesOf response name) :
    ∃ order, IterationOf response order ∧ lastAlias order name = some (aliasOf entry) := by
  obtain ⟨before, after, hsplit⟩ := List.append_of_mem hentry
  have hperm : (before ++ after ++ [entry]).Perm (aliasesOf response name) := by
    rw [hsplit, List.append_assoc]
    exact (List.perm_append_singleton entry after).append_left before
  cases hfind : response.find? name with
  | none => simp [aliasesOf, hfind] at hentry
  | some found =>
    exact ⟨_, iterationOf_drainIndex hperm, lastAlias_drainIndex hfind List.getLast?_concat⟩

end Orders

/-! ### The exported flag -/

/-- The entry that a table gives; no position that it stores is out of range. -/
def read {T : Type} (result : Except Panic (Option T)) : Option T := result.toOption.join

/-- What the diagnostic holds beside the aliases and the index stats. -/
structure Collected where
  streams : List DataStreams.ReceivedStream
  others : IndexStatistics.Lookups
  collectionDate : U64

def withTables (others : IndexStatistics.Lookups) (aliases : Lookup Alias)
    (streams : Lookup DataStreamLookups.DataStreamDocument) : IndexStatistics.Lookups :=
  { others with
    indexAlias := fun name => read (aliases.byName name)
    dataStream := fun id => (read (streams.byId id)).map fun document =>
      ⟨document.name, document.isWriteIndex⟩ }

/-- The index document of an entry of the index stats, under an order of the aliases. -/
def exportIndex (build : Build) (collected : Collected)
    (order : List (String × List (String × AliasSettings))) (indexName : String)
    (stats : IndexStats) : Option EnrichedIndexStatsWithSettings :=
  match aliasLookup build order, DataStreamLookups.lookupOf build collected.streams with
  | .ok aliases, .ok streams =>
    match processIndex build (withTables collected.others aliases streams)
      collected.collectionDate indexName stats with
    | .ok (document, _) => some document.index
    | .error _ => none
  | _, _ => none

/-- Whether the document of the index's data stream is the one of a write index. -/
def streamMark (build : Build) (streams : List DataStreams.ReceivedStream) (indexName : String) :
    Bool :=
  match DataStreamLookups.lookupOf build streams with
  | .ok table => (read (table.byId indexName)).any (·.isWriteIndex)
  | .error _ => false

/-- Some alias of the index or its data stream marks it as the write index. -/
def Marked (build : Build) (response : AliasList) (collected : Collected) (indexName : String) :
    Prop :=
  (∃ entry ∈ aliasesOf response indexName, entry.2.isWriteIndex = true) ∨
    streamMark build collected.streams indexName = true

/-- The flag is the same under all orders of the aliases, and says what is marked. -/
structure FlagExact (build : Build) (response : AliasList) (collected : Collected)
    (indexName : String) (stats : IndexStats) : Prop where
  same : ∀ order order' index index', IterationOf response order → IterationOf response order' →
    exportIndex build collected order indexName stats = some index →
    exportIndex build collected order' indexName stats = some index' →
    index.isWriteIndex = index'.isWriteIndex
  marked : ∀ order index, IterationOf response order →
    exportIndex build collected order indexName stats = some index →
    (index.isWriteIndex = true ↔ Marked build response collected indexName)

/-- The data stream of an index with settings marks it, or nothing does, or all of its
aliases do. -/
def MarksAgree (build : Build) (response : AliasList) (collected : Collected)
    (indexName : String) : Prop :=
  (streamMark build collected.streams indexName = true ∧
      (collected.others.indexSettings indexName).isSome) ∨
    (streamMark build collected.streams indexName = false ∧
      ∀ entry ∈ aliasesOf response indexName, entry.2.isWriteIndex = false) ∨
    aliasesOf response indexName ≠ [] ∧
      ∀ entry ∈ aliasesOf response indexName, entry.2.isWriteIndex = true

section Flags

variable {build : Build} {lookups : IndexStatistics.Lookups} {collectionDate : U64}
  {indexName : String} {stats : IndexStats}

theorem succeeds_processIndex_iff :
    Succeeds (processIndex build lookups collectionDate indexName stats) ↔
      Succeeds (rolloverOf build (settingsDocument lookups collectionDate indexName)) ∧
        ShardsCounted stats := by
  constructor
  · rintro ⟨⟨document, shards⟩, hprocess⟩
    obtain ⟨index, hindex, hdocument⟩ := processIndex_eq_ok hprocess
    obtain ⟨hrollover, -, hprimaries, htotal⟩ := withSettings_eq_ok hindex
    have hcounted := succeeds_calculateIndex_iff.1 ⟨document, hdocument⟩
    simp only [hprimaries, htotal] at hcounted
    exact ⟨⟨_, hrollover⟩, hcounted.1, hcounted.2⟩
  · rintro ⟨hrollover, hcounted⟩
    obtain ⟨index, hindex⟩ := (@succeeds_withSettings_iff build
      (enrichedEntry lookups indexName stats) (settingsDocument lookups collectionDate indexName)
      (lookups.mappingStats indexName)).2 hrollover
    obtain ⟨-, -, hprimaries, htotal⟩ := withSettings_eq_ok hindex
    have hdivisors : index.primaries.shardStats.totalCount ≠ 0#64 ∧
        index.total.shardStats.totalCount ≠ 0#64 := by
      rw [hprimaries, htotal]
      exact ⟨hcounted.primaries, hcounted.total⟩
    obtain ⟨document, hdocument⟩ := (@succeeds_calculateIndex_iff build ⟨index⟩).2 hdivisors
    obtain ⟨shards, hprocess⟩ := exists_processIndex hindex hdocument
    exact ⟨_, hprocess⟩

theorem isWriteIndex_of_calculate {document result : IndexStatsDocument}
    (h : document.calculate build = .ok result) :
    result.index.isWriteIndex = (document.index.indexAlias.any (·.isWriteIndex) ||
      document.index.dataStream.any (·.isWriteIndex)) := by
  obtain ⟨seconds, -, h⟩ := bind_eq_ok_iff.1 h
  obtain ⟨docs, -, h⟩ := bind_eq_ok_iff.1 h
  obtain ⟨primaries, -, h⟩ := bind_eq_ok_iff.1 h
  obtain ⟨total, -, h⟩ := bind_eq_ok_iff.1 h
  cases h
  rfl

/-- The data stream of an index reaches its document through the settings only. -/
theorem isWriteIndex_of_processIndex {document : IndexStatsDocument}
    {shards : List ShardStatsDocument}
    (h : processIndex build lookups collectionDate indexName stats = .ok (document, shards)) :
    document.index.isWriteIndex = ((lookups.indexAlias indexName).any (·.isWriteIndex) ||
      (lookups.indexSettings indexName).isSome &&
        (lookups.dataStream indexName).any (·.isWriteIndex)) := by
  obtain ⟨index, hindex, hdocument⟩ := processIndex_eq_ok h
  rw [isWriteIndex_of_calculate hdocument]
  unfold settingsDocument at hindex
  cases hsettings : lookups.indexSettings indexName with
  | none =>
    rw [hsettings] at hindex
    cases hindex
    rfl
  | some settings =>
    rw [hsettings] at hindex
    obtain ⟨rollover, -, hindex⟩ := bind_eq_ok_iff.1 hindex
    cases hindex
    rfl

variable {collected : Collected} {order : List (String × List (String × AliasSettings))}
  {index : EnrichedIndexStatsWithSettings}

theorem exportIndex_eq_some_iff :
    exportIndex build collected order indexName stats = some index ↔
      ∃ aliases streams document shards, aliasLookup build order = .ok aliases ∧
        DataStreamLookups.lookupOf build collected.streams = .ok streams ∧
        processIndex build (withTables collected.others aliases streams)
          collected.collectionDate indexName stats = .ok (document, shards) ∧
        document.index = index := by
  unfold exportIndex
  cases aliasLookup build order with
  | error panic => simp
  | ok aliases =>
    cases DataStreamLookups.lookupOf build collected.streams with
    | error panic => simp
    | ok streams =>
      cases hprocess : processIndex build (withTables collected.others aliases streams)
        collected.collectionDate indexName stats with
      | error fault => simp [hprocess]
      | ok documents => simp [hprocess, Prod.ext_iff]

/-- The flag comes from the alias that the table keeps and from the data stream. -/
theorem isWriteIndex_of_exportIndex
    (h : exportIndex build collected order indexName stats = some index) :
    index.isWriteIndex = ((lastAlias order indexName).any (·.isWriteIndex) ||
      (collected.others.indexSettings indexName).isSome &&
        streamMark build collected.streams indexName) := by
  obtain ⟨aliases, streams, document, shards, haliases, hstreams, hprocess, rfl⟩ :=
    exportIndex_eq_some_iff.mp h
  obtain ⟨aliases', haliases', hnames⟩ := exists_aliasLookup build order
  obtain rfl := Except.ok.inj (haliases.symm.trans haliases')
  rw [isWriteIndex_of_processIndex hprocess, streamMark, hstreams]
  simp only [withTables, hnames, read, Option.any_map]
  rfl

/-- An index that is exported under one order of the aliases is exported under every order. -/
theorem exists_exportIndex (h : exportIndex build collected order indexName stats = some index)
    (order' : List (String × List (String × AliasSettings))) :
    ∃ index', exportIndex build collected order' indexName stats = some index' := by
  obtain ⟨aliases, streams, document, shards, -, hstreams, hprocess, -⟩ :=
    exportIndex_eq_some_iff.mp h
  obtain ⟨aliases', haliases', -⟩ := exists_aliasLookup build order'
  -- neither the rollover nor the shards depend on the aliases
  have hsucceeds := succeeds_processIndex_iff.1 ⟨_, hprocess⟩
  obtain ⟨⟨document', shards'⟩, hprocess'⟩ := (@succeeds_processIndex_iff build
    (withTables collected.others aliases' streams) collected.collectionDate indexName stats).2
      hsucceeds
  exact ⟨_, exportIndex_eq_some_iff.mpr
    ⟨aliases', streams, document', shards', haliases', hstreams, hprocess', rfl⟩⟩

end Flags

section Agreement

variable {build : Build} {response : AliasList} {collected : Collected} {indexName : String}
  {stats : IndexStats}

theorem flagExact_of_marksAgree (h : MarksAgree build response collected indexName) :
    FlagExact build response collected indexName stats := by
  have hmarked : ∀ order index, IterationOf response order →
      exportIndex build collected order indexName stats = some index →
      (index.isWriteIndex = true ↔ Marked build response collected indexName) := by
    intro order index horder hindex
    rw [isWriteIndex_of_exportIndex hindex, Marked]
    rcases h with ⟨hstream, hsettings⟩ | ⟨hstream, hnone⟩ | ⟨hne, hall⟩
    · simp [hstream, hsettings]
    · have hkept : (lastAlias order indexName).any (·.isWriteIndex) = false := by
        cases hkept : lastAlias order indexName with
        | none => rfl
        | some kept =>
          obtain ⟨entry, hentry, rfl⟩ := exists_of_lastAlias horder hkept
          exact hnone entry hentry
      simp only [hkept, hstream, Bool.and_false, Bool.or_false, Bool.false_eq_true, or_false,
        false_iff, not_exists, not_and]
      intro entry hentry
      simp [hnone entry hentry]
    · obtain ⟨kept, hkept⟩ := Option.isSome_iff_exists.mp (isSome_lastAlias horder hne)
      obtain ⟨entry, hentry, rfl⟩ := exists_of_lastAlias horder hkept
      have hmark : (aliasOf entry).isWriteIndex = true := hall entry hentry
      rw [hkept, Option.any_some, hmark, Bool.true_or]
      exact ⟨fun _ => Or.inl ⟨entry, hentry, hall entry hentry⟩, fun _ => rfl⟩
  refine ⟨fun order order' index index' horder horder' hindex hindex' => ?_, hmarked⟩
  rw [Bool.eq_iff_iff, hmarked order index horder hindex, hmarked order' index' horder' hindex']

theorem marksAgree_of_flagExact
    (hexported : ∃ order index, IterationOf response order ∧
      exportIndex build collected order indexName stats = some index)
    (h : FlagExact build response collected indexName stats) :
    MarksAgree build response collected indexName := by
  obtain ⟨order, index, horder, hindex⟩ := hexported
  -- any alias may be the one that is kept
  have hkept : ∀ entry ∈ aliasesOf response indexName,
      ((entry.2.isWriteIndex || (collected.others.indexSettings indexName).isSome &&
        streamMark build collected.streams indexName) = true ↔
          Marked build response collected indexName) := by
    intro entry hentry
    obtain ⟨order', horder', hlast⟩ := exists_iteration_last hentry
    obtain ⟨index', hindex'⟩ := exists_exportIndex hindex order'
    rw [← h.marked order' index' horder' hindex', isWriteIndex_of_exportIndex hindex', hlast]
    rfl
  have hread := h.marked order index horder hindex
  rw [isWriteIndex_of_exportIndex hindex] at hread
  cases hstream : (collected.others.indexSettings indexName).isSome &&
      streamMark build collected.streams indexName with
  | true =>
    obtain ⟨hsettings, hmark⟩ := Bool.and_eq_true_iff.mp hstream
    exact Or.inl ⟨hmark, hsettings⟩
  | false =>
    rw [hstream, Bool.or_false] at hread
    simp only [hstream, Bool.or_false] at hkept
    by_cases hmarked : Marked build response collected indexName
    · refine Or.inr (Or.inr ⟨fun hnil => ?_, fun entry hentry =>
        (hkept entry hentry).mpr hmarked⟩)
      obtain ⟨kept, hlast, -⟩ := (Option.any_eq_true _ _).mp (hread.mpr hmarked)
      obtain ⟨entry, hentry, -⟩ := exists_of_lastAlias horder hlast
      rw [hnil] at hentry
      cases hentry
    · refine Or.inr (Or.inl ⟨?_, fun entry hentry => ?_⟩)
      · exact Bool.eq_false_iff.mpr fun hmark => hmarked (Or.inr hmark)
      · exact Bool.eq_false_iff.mpr fun hmark => hmarked (Or.inl ⟨entry, hentry, hmark⟩)

/-- The flag does not depend on the order of the aliases exactly where all marks agree. -/
theorem flag_exact_iff (build : Build) (response : AliasList) (collected : Collected)
    (indexName : String) (stats : IndexStats)
    (hexported : ∃ order index, IterationOf response order ∧
      exportIndex build collected order indexName stats = some index) :
    FlagExact build response collected indexName stats ↔
      MarksAgree build response collected indexName :=
  ⟨marksAgree_of_flagExact hexported, flagExact_of_marksAgree⟩

/-- Two aliases of one index, which is written to through one of them only. -/
def logsAliases : Aliases where
  entries := [("logs", { isWriteIndex := false }), ("logs-write", { isWriteIndex := true })]
  nodup_keys := by decide

def logsResponse : AliasList where
  entries := [("logs-000002", logsAliases)]
  nodup_keys := by decide

def noStreams : Collected := ⟨[], noLookups, 1000#64⟩

theorem exists_logs_export (order : List (String × List (String × AliasSettings))) :
    ∃ index, exportIndex ⟨true⟩ noStreams order "logs-000002" (entryOf 1#64 1#64) =
      some index := by
  obtain ⟨aliases, haliases, -⟩ := exists_aliasLookup ⟨true⟩ order
  have hcounted : ShardsCounted (entryOf 1#64 1#64) := ⟨by decide, by decide⟩
  obtain ⟨⟨document, shards⟩, hprocess⟩ := (@succeeds_processIndex_iff ⟨true⟩
    (withTables noLookups aliases Lookup.new) 1000#64 "logs-000002" (entryOf 1#64 1#64)).2
      ⟨⟨none, rfl⟩, hcounted⟩
  exact ⟨_, exportIndex_eq_some_iff.mpr
    ⟨aliases, Lookup.new, document, shards, haliases, rfl, hprocess, rfl⟩⟩

theorem logs_flag_exact_iff :
    FlagExact ⟨true⟩ logsResponse noStreams "logs-000002" (entryOf 1#64 1#64) ↔
      MarksAgree ⟨true⟩ logsResponse noStreams "logs-000002" := by
  obtain ⟨order, horder, -⟩ := @exists_iteration_last logsResponse "logs-000002"
    ("logs", { isWriteIndex := false }) (by decide)
  obtain ⟨index, hindex⟩ := exists_logs_export order
  exact flag_exact_iff ⟨true⟩ logsResponse noStreams "logs-000002" (entryOf 1#64 1#64)
    ⟨order, index, horder, hindex⟩

/-- The flag depends on which of the two aliases the iteration comes to last. -/
theorem logs_flag_not_exact :
    ¬FlagExact ⟨true⟩ logsResponse noStreams "logs-000002" (entryOf 1#64 1#64) := by
  intro h
  obtain ⟨order, horder, hlast⟩ := @exists_iteration_last logsResponse "logs-000002"
    ("logs", { isWriteIndex := false }) (by decide)
  obtain ⟨order', horder', hlast'⟩ := @exists_iteration_last logsResponse "logs-000002"
    ("logs-write", { isWriteIndex := true }) (by decide)
  obtain ⟨index, hindex⟩ := exists_logs_export order
  obtain ⟨index', hindex'⟩ := exists_logs_export order'
  have hsame := h.same order order' index index' horder horder' hindex hindex'
  rw [isWriteIndex_of_exportIndex hindex, isWriteIndex_of_exportIndex hindex', hlast, hlast']
    at hsame
  exact absurd hsame (by decide)

end Agreement

section Streams

open DataStreamLookups

variable {build : Build} {streams : List DataStreams.ReceivedStream} {indexName : String}

theorem streamMark_of_byId {table : Lookup DataStreamLookups.DataStreamDocument}
    (htable : lookupOf build streams = .ok table) {received : DataStreams.ReceivedStream}
    {write : Bool} (h : table.byId indexName = .ok (some (documentOf received write))) :
    streamMark build streams indexName = write := by
  rw [streamMark, htable]
  change (read (table.byId indexName)).any (·.isWriteIndex) = write
  rw [h]
  rfl

/-- Where the table of data streams is exact, a stream marks its last backing index. -/
theorem streamMark_iff_of_loadable (hnodup : (streams.flatMap indexNames).Nodup)
    (h : Loadable build streams) :
    streamMark build streams indexName = true ↔
      ∃ received ∈ streams, (backingNames received).getLast? = some indexName := by
  obtain ⟨table, htable⟩ := exists_lookupOf_iff.mpr h.accepted
  have hexact := exact_of_loadable htable hnodup h
  constructor
  · intro hmark
    have hfound : ∃ document, lastSome (fun received =>
        ownEntry (built received) indexName) streams = some document := by
      rw [streamMark, htable] at hmark
      change (read (table.byId indexName)).any (·.isWriteIndex) = true at hmark
      rw [(lookupOf_eq_ok htable).2.1] at hmark
      obtain ⟨document, hdocument, -⟩ := (Option.any_eq_true _ _).mp hmark
      exact ⟨document, hdocument⟩
    obtain ⟨document, hdocument⟩ := hfound
    obtain ⟨received, hmem, hown⟩ := exists_of_lastSome hdocument
    have hname : indexName ∈ indexNames received :=
      mem_indexNames_of_ownEntry (by rw [hown]; rfl)
    refine ⟨received, hmem, ?_⟩
    rcases List.mem_append.mp hname with hbacking | hfailure
    · obtain ⟨index, hindex, rfl⟩ := List.mem_map.mp hbacking
      obtain ⟨i, hi⟩ := List.mem_iff_getElem?.mp hindex
      rw [streamMark_of_byId htable (hexact.backing received hmem i index hi),
        decide_eq_true_eq] at hmark
      rw [backingNames, List.getLast?_map, List.getLast?_eq_getElem?, ← hmark,
        Nat.add_sub_cancel, hi]
      rfl
    · rw [streamMark_of_byId htable (hexact.failure received hmem indexName hfailure)] at hmark
      cases hmark
  · rintro ⟨received, hmem, hlast⟩
    rw [backingNames, List.getLast?_map, List.getLast?_eq_getElem?] at hlast
    obtain ⟨index, hi, rfl⟩ := Option.map_eq_some_iff.mp hlast
    rw [streamMark_of_byId htable (hexact.backing received hmem _ index hi), decide_eq_true_eq]
    have hlt := (List.getElem?_eq_some_iff.mp hi).1
    omega

end Streams

end Esdiag.WriteIndices
