import Esdiag.CheckedIntegers
import Esdiag.MappingSummaries
import Esdiag.NodeStatistics
import Esdiag.SaturatingCounters

/-!
The statistics derived for every index of an index stats response and for its
shards. The index settings and the ILM explain response were collected at other
moments than the diagnostic's own date, so ages and times since a rollover come
from dates in any order; the totals that averages are divided by may be zero.
-/

namespace Esdiag.IndexStatistics

open CheckedIntegers Outcomes

abbrev U64 := BitVec 64

/-! ### The responses -/

structure Docs where
  count : U64
  deleted : U64
  totalSizeInBytes : Option U64 := none
  avgSize : Option U64 := none
  perGb : Option U64 := none
  deletedPercent : Option Float32 := none

structure ShardStats where
  totalCount : U64

structure StoreStats where
  sizeInBytes : U64
  totalDataSetSizeInBytes : Option U64 := none
  reservedInBytes : Option U64 := none

structure Indexing where
  deleteCurrent : U64 := 0#64
  deleteTimeInMillis : U64 := 0#64
  deleteTotal : U64 := 0#64
  indexCurrent : U64 := 0#64
  indexFailed : U64 := 0#64
  indexTimeInMillis : U64
  indexTotal : U64
  isThrottled : Option Bool := none
  noopUpdateTotal : Option U64 := none
  throttleTimeInMillis : Option U64 := none
  writeLoad : Option Float := none
  avgDocsSec : Option U64 := none
  avgCpuMillis : Option U64 := none
  avgBytesSec : Option U64 := none

structure Search where
  fetchTimeInMillis : U64
  fetchTotal : U64
  queryTimeInMillis : U64
  queryTotal : U64
  avgFetchCpuMillis : Option U64 := none
  avgFetchRate : Option Float := none
  avgQueryCpuMillis : Option U64 := none
  avgQueryRate : Option Float := none

structure Bulk where
  avgSizeInBytes : Option U64 := none
  avgTimeInMillis : Option U64 := none
  totalOperations : U64
  totalSizeInBytes : U64
  totalTimeInMillis : U64
  avgBytesSec : Option U64 := none
  compressionRatio : Option Float32 := none
  storageRatio : Option Float32 := none

structure Stats where
  bulk : Option Bulk := none
  docs : Option Docs := none
  indexing : Option Indexing := none
  search : Option Search := none
  shardStats : ShardStats
  store : Option StoreStats := none

structure ShardEntry where
  routingNode : String
  stats : Stats

structure IndexStats where
  uuid : Option String := none
  health : Option String := none
  primaries : Stats
  total : Stats
  shards : Option (List (BitVec 16 × List ShardEntry)) := none

structure Alias where
  name : String
  isHidden : Bool
  isWriteIndex : Bool

structure DataStreamDocument where
  name : String
  isWriteIndex : Bool

structure IlmStats where
  managed : Bool
  policy : Option String := none
  lifecycleDateMillis : Option U64
  action : Option String := none

structure StoreSettings where
  config : Option String
  storeType : Option String

/-! ### Index settings -/

/-- The settings of an index as the lookup holds them, which names every one. -/
structure IndexSettings where
  codec : String
  creationDate : Option U64
  isWriteIndex : Bool
  lifecycle : Option String
  mode : String
  name : String
  numberOfReplicas : Option U64
  numberOfShards : Option U64
  refreshInterval : String
  source : Option String
  store : Option StoreSettings
  uuid : String
  age : Option U64 := none
  dataStream : Option DataStreamDocument := none

/-- Milliseconds from the creation to the given time, zero for an index created later. -/
def IndexSettings.withAge (settings : IndexSettings) (epochMillis : U64) : IndexSettings :=
  { settings with
    age := settings.creationDate.map fun date => SaturatingCounters.satSub epochMillis date }

def IndexSettings.withDataStream (settings : IndexSettings)
    (dataStream : Option DataStreamDocument) : IndexSettings :=
  { settings with
    dataStream := dataStream
    isWriteIndex := settings.isWriteIndex || dataStream.any (·.isWriteIndex) }

structure IndexSettingsDocument where
  age : Option U64
  codec : String
  creationDate : U64
  dataStream : Option DataStreamDocument
  lifecycle : Option String
  ilm : Option IlmStats
  isWriteIndex : Option Bool
  mode : String
  name : String
  store : Option StoreSettings
  numberOfShards : Option U64
  numberOfReplicas : Option U64
  refreshInterval : String
  source : Option String
  writePhaseSec : Option U64
  uuid : String

def IndexSettingsDocument.ofSettings (settings : IndexSettings) : IndexSettingsDocument where
  age := settings.age
  codec := settings.codec
  creationDate := settings.creationDate.getD 0#64
  dataStream := settings.dataStream
  lifecycle := settings.lifecycle
  ilm := none
  isWriteIndex := some settings.isWriteIndex
  mode := settings.mode
  name := settings.name
  store := settings.store
  numberOfShards := settings.numberOfShards
  numberOfReplicas := settings.numberOfReplicas
  refreshInterval := settings.refreshInterval
  source := settings.source
  writePhaseSec := none
  uuid := settings.uuid

def IndexSettingsDocument.withIlm (settings : IndexSettingsDocument) (ilm : Option IlmStats) :
    IndexSettingsDocument :=
  { settings with ilm := ilm }

def IndexSettingsDocument.writePhase (settings : IndexSettingsDocument)
    (writePhaseSec : Option U64) : IndexSettingsDocument :=
  { settings with writePhaseSec := writePhaseSec }

/-! ### Numbers -/

def toF64 (x : U64) : Float := (UInt64.ofBitVec x).toFloat

def toF32 (x : U64) : Float32 := (UInt64.ofBitVec x).toFloat32

def ofF64 (x : Float) : U64 := x.toUInt64.toBitVec

def ofF32 (x : Float32) : U64 := x.toUInt64.toBitVec

def bytesPerGb : U64 := 1073741824#64

def docAvgSize (size count : U64) : Except Fault U64 :=
  if 0 < count.toNat then div size count else .ok 0#64

def docsPerGb (size count avgSize : U64) : Except Fault U64 :=
  if size = 0#64 then .ok 0#64
  else if size.toNat < bytesPerGb.toNat ∧ 0 < avgSize.toNat then div bytesPerGb avgSize
  else .ok (ofF32 (toF32 count / (toF32 size / 1073741824.0)))

def perWriteSecond (x writePhaseSec : U64) : Except Fault U64 :=
  if writePhaseSec = 0#64 then .ok 0#64 else div x writePhaseSec

/-- Milliseconds spent for every second since the creation. -/
def cpuPerSecond (millis : U64) (sinceCreation : Option U64) : Except Fault U64 :=
  match sinceCreation with
  | some x =>
    if 0 < x.toNat then do
      let seconds ← div x 1000#64
      div millis (if seconds.toNat < 1 then 1#64 else seconds)
    else .ok 0#64
  | none => .ok 0#64

def ratePerSecond (count : U64) (sinceCreation : Option U64) : Float :=
  match sinceCreation with
  | some x => if 0 < x.toNat then toF64 count / max (toF64 x / 1000.0) 1.0 else 0.0
  | none => 0.0

def estBytesPerDay (size : U64) (writePhaseSec : Option U64) : Option U64 :=
  writePhaseSec.map fun seconds =>
    if seconds = 0#64 then 0#64 else ofF64 (toF64 size * (86400.0 / toF64 seconds))

/-! ### Index documents -/

structure EnrichedBulk where
  avgSizeInBytes : U64 := 0#64
  avgTimeInMillis : U64 := 0#64
  totalOperations : U64 := 0#64
  totalSizeInBytes : U64 := 0#64
  totalTimeInMillis : U64 := 0#64
  estBytesPerDay : Option U64 := none

structure EnrichedDocs where
  count : U64
  deleted : U64
  totalSizeInBytes : Option U64
  perGb : Option U64 := none
  avgSize : Option U64 := none
  deletedPercent : Option Float := none

structure EnrichedIndexing where
  indexTotal : U64 := 0#64
  indexTimeInMillis : U64 := 0#64
  indexCurrent : U64 := 0#64
  indexFailed : U64 := 0#64
  deleteCurrent : U64 := 0#64
  deleteTimeInMillis : U64 := 0#64
  deleteTotal : U64 := 0#64
  isThrottled : Bool := false
  noopUpdateTotal : U64 := 0#64
  throttleTimeInMillis : U64 := 0#64
  writeLoad : Float := 0.0
  estBytesPerDay : Option U64 := none
  indexTimePerShardInMillis : Option U64 := none

structure EnrichedStoreStats where
  sizeInBytes : U64 := 0#64
  totalDataSetSizeInBytes : Option U64 := none
  reservedInBytes : Option U64 := none

structure EnrichedStats where
  bulk : EnrichedBulk
  docs : Option EnrichedDocs
  indexing : EnrichedIndexing
  shardStats : ShardStats
  store : EnrichedStoreStats

def EnrichedBulk.ofBulk : Option Bulk → EnrichedBulk
  | some bulk =>
    { avgSizeInBytes := bulk.avgSizeInBytes.getD 0#64
      avgTimeInMillis := bulk.avgTimeInMillis.getD 0#64
      totalOperations := bulk.totalOperations
      totalSizeInBytes := bulk.totalSizeInBytes
      totalTimeInMillis := bulk.totalTimeInMillis }
  | none => {}

def EnrichedDocs.ofDocs (docs : Docs) : EnrichedDocs where
  count := docs.count
  deleted := docs.deleted
  totalSizeInBytes := docs.totalSizeInBytes

def EnrichedIndexing.ofIndexing : Option Indexing → EnrichedIndexing
  | some indexing =>
    { deleteCurrent := indexing.deleteCurrent
      deleteTimeInMillis := indexing.deleteTimeInMillis
      deleteTotal := indexing.deleteTotal
      indexCurrent := indexing.indexCurrent
      indexFailed := indexing.indexFailed
      indexTimeInMillis := indexing.indexTimeInMillis
      indexTotal := indexing.indexTotal
      isThrottled := indexing.isThrottled.getD false
      noopUpdateTotal := indexing.noopUpdateTotal.getD 0#64
      throttleTimeInMillis := indexing.throttleTimeInMillis.getD 0#64
      writeLoad := indexing.writeLoad.getD 0.0 }
  | none => {}

def EnrichedStoreStats.ofStore : Option StoreStats → EnrichedStoreStats
  | some store =>
    { sizeInBytes := store.sizeInBytes
      totalDataSetSizeInBytes := store.totalDataSetSizeInBytes
      reservedInBytes := store.reservedInBytes }
  | none => {}

def EnrichedStats.ofStats (stats : Stats) : EnrichedStats where
  bulk := .ofBulk stats.bulk
  docs := stats.docs.map EnrichedDocs.ofDocs
  indexing := .ofIndexing stats.indexing
  shardStats := stats.shardStats
  store := .ofStore stats.store

structure EnrichedIndexStats where
  indexAlias : Option Alias := none
  health : Option String
  isWriteIndex : Bool := false
  primaries : EnrichedStats
  sinceRollover : Option U64 := none
  name : Option String := none
  total : EnrichedStats
  uuid : Option String
  writePhaseSec : Option U64 := none

def EnrichedIndexStats.ofStats (stats : IndexStats) : EnrichedIndexStats where
  health := stats.health
  primaries := .ofStats stats.primaries
  total := .ofStats stats.total
  uuid := stats.uuid

structure EnrichedIndexStatsWithSettings where
  age : Option U64
  indexAlias : Option Alias
  codec : Option String
  creationDate : Option U64
  dataStream : Option DataStreamDocument
  health : Option String
  ilm : Option IlmStats
  isWriteIndex : Bool
  lifecycle : Option String
  mappings : Option MappingSummaries.MappingSummary
  mode : Option String
  name : Option String
  numberOfReplicas : Option U64
  numberOfShards : Option U64
  primaries : EnrichedStats
  refreshInterval : Option String
  sinceRollover : Option U64
  source : Option String
  store : Option StoreSettings
  total : EnrichedStats
  uuid : String
  writePhaseSec : Option U64

/-- The time since the rollover: the age counts from the creation, the lifecycle date is an
epoch time as well. -/
def sinceRollover (build : Build) (settings : IndexSettingsDocument) :
    Except Fault (Option U64) :=
  match settings.ilm.bind (·.lifecycleDateMillis), settings.age with
  | some lifecycleDate, some age => do
    let sum ← add build age settings.creationDate
    some <$> sub build sum lifecycleDate
  | _, _ => .ok none

def withSettings (build : Build) (stats : EnrichedIndexStats)
    (settings : Option IndexSettingsDocument)
    (mappings : Option MappingSummaries.MappingSummary) :
    Except Fault EnrichedIndexStatsWithSettings :=
  match settings with
  | some settings => do
    let rollover ← sinceRollover build settings
    return {
      age := settings.age
      indexAlias := stats.indexAlias
      codec := some settings.codec
      creationDate := some settings.creationDate
      dataStream := settings.dataStream
      health := stats.health
      ilm := settings.ilm
      isWriteIndex := settings.isWriteIndex.getD false
      lifecycle := settings.lifecycle
      mappings := mappings
      mode := some settings.mode
      name := some settings.name
      numberOfReplicas := settings.numberOfReplicas
      numberOfShards := settings.numberOfShards
      primaries := stats.primaries
      refreshInterval := some settings.refreshInterval
      sinceRollover := rollover
      source := settings.source
      store := settings.store
      total := stats.total
      uuid := stats.uuid.getD "unkown"
      writePhaseSec := settings.writePhaseSec }
  | none =>
    .ok {
      age := none
      indexAlias := stats.indexAlias
      codec := none
      creationDate := none
      dataStream := none
      health := none
      ilm := none
      isWriteIndex := true
      lifecycle := none
      mappings := mappings
      mode := none
      name := stats.name
      numberOfReplicas := none
      numberOfShards := none
      primaries := stats.primaries
      refreshInterval := none
      sinceRollover := none
      source := none
      store := none
      total := stats.total
      uuid := stats.uuid.getD "unkown"
      writePhaseSec := none }

def isBeforeRollover (ilm : Option IlmStats) : Bool :=
  ilm.any fun ilm => ilm.action == some "rollover"

/-- The seconds an index was, or has been, written to. -/
def writePhaseSec (build : Build) (age : U64) (sinceRollover : Option U64)
    (beforeRollover : Bool) : Except Fault U64 :=
  match sinceRollover with
  | some rollover =>
    if rollover.toNat < age.toNat then do
      let elapsed ← sub build age rollover
      div elapsed 1000#64
    else if beforeRollover then div age 1000#64
    else .ok 0#64
  | none => .ok 0#64

def EnrichedDocs.calculate (docs : EnrichedDocs) (size : U64) : Except Fault EnrichedDocs := do
  let avgSize ← docAvgSize size docs.count
  let perGb ← docsPerGb size docs.count avgSize
  return { docs with
    avgSize := some avgSize
    deletedPercent := some (toF64 docs.deleted / (toF64 docs.count + toF64 docs.deleted))
    perGb := some perGb }

def EnrichedStats.calculateIndexing (stats : EnrichedStats) (writePhaseSec : Option U64) :
    Except Fault EnrichedIndexing := do
  let perShard ← div stats.indexing.indexTimeInMillis stats.shardStats.totalCount
  return { stats.indexing with
    estBytesPerDay := estBytesPerDay stats.store.sizeInBytes writePhaseSec
    indexTimePerShardInMillis := some perShard }

/-- A part of the statistics that a response may leave out. -/
def calculatePart {α : Type} (part : Option α) (calculate : α → Except Fault α) :
    Except Fault (Option α) :=
  match part with
  | some x => some <$> calculate x
  | none => .ok none

structure IndexStatsDocument where
  index : EnrichedIndexStatsWithSettings

def IndexStatsDocument.calculate (build : Build) (doc : IndexStatsDocument) :
    Except Fault IndexStatsDocument := do
  let index := doc.index
  let seconds ← IndexStatistics.writePhaseSec build (index.age.getD 0#64) index.sinceRollover
    (isBeforeRollover index.ilm)
  let docs ← calculatePart index.total.docs (·.calculate index.total.store.sizeInBytes)
  let primaries ← index.primaries.calculateIndexing (some seconds)
  let total ← index.total.calculateIndexing (some seconds)
  return { doc with index := { index with
    isWriteIndex := index.indexAlias.any (·.isWriteIndex) || index.dataStream.any (·.isWriteIndex)
    writePhaseSec := some seconds
    primaries := { index.primaries with
      indexing := primaries
      bulk := { index.primaries.bulk with
        estBytesPerDay :=
          estBytesPerDay index.primaries.bulk.totalSizeInBytes (some seconds) } }
    total := { index.total with docs := docs, indexing := total } } }

/-! ### Shard documents -/

structure EnrichedShardStats where
  number : BitVec 16
  routingNode : String
  stats : Stats

structure ShardStatsDocument where
  shard : EnrichedShardStats
  index : Option IndexSettingsDocument
  node : Option NodeStatistics.NodeDocument

def Indexing.calculate (indexing : Indexing) (totalSize writePhaseSec : U64) :
    Except Fault Indexing := do
  let docs ← perWriteSecond indexing.indexTotal writePhaseSec
  let cpu ← perWriteSecond indexing.indexTimeInMillis writePhaseSec
  let bytes ← perWriteSecond totalSize writePhaseSec
  return { indexing with
    avgDocsSec := some docs, avgCpuMillis := some cpu, avgBytesSec := some bytes }

def Bulk.calculate (bulk : Bulk) (totalSize writePhaseSec : U64) : Except Fault Bulk := do
  let bytes ← perWriteSecond bulk.totalSizeInBytes writePhaseSec
  return { bulk with
    compressionRatio := some (toF32 bulk.totalSizeInBytes / toF32 totalSize)
    avgBytesSec := some bytes
    storageRatio := some (if bulk.totalSizeInBytes = 0#64 then 0.0
      else toF32 totalSize / toF32 bulk.totalSizeInBytes) }

def Docs.calculate (docs : Docs) (size : U64) : Except Fault Docs := do
  let avgSize ← docAvgSize size docs.count
  let perGb ← docsPerGb size docs.count avgSize
  return { docs with
    perGb := some perGb
    deletedPercent := some (toF32 docs.deleted / (toF32 docs.count + toF32 docs.deleted))
    avgSize := some avgSize }

def Search.calculate (search : Search) (sinceCreation : Option U64) : Except Fault Search := do
  let query ← cpuPerSecond search.queryTimeInMillis sinceCreation
  let fetch ← cpuPerSecond search.fetchTimeInMillis sinceCreation
  return { search with
    avgQueryCpuMillis := some query
    avgQueryRate := some (ratePerSecond search.queryTotal sinceCreation)
    avgFetchCpuMillis := some fetch
    avgFetchRate := some (ratePerSecond search.fetchTotal sinceCreation) }

def ShardStatsDocument.calculate (doc : ShardStatsDocument) : Except Fault ShardStatsDocument := do
  let stats := doc.shard.stats
  let writePhaseSec := (doc.index.map fun index => index.writePhaseSec.getD 0#64).getD 0#64
  let totalSize := (stats.store.map (·.sizeInBytes)).getD 0#64
  let sinceCreation := doc.index.map fun index => index.age.getD 0#64
  let indexing ← calculatePart stats.indexing (·.calculate totalSize writePhaseSec)
  let bulk ← calculatePart stats.bulk (·.calculate totalSize writePhaseSec)
  let docs ← calculatePart stats.docs (·.calculate totalSize)
  let search ← calculatePart stats.search (·.calculate sinceCreation)
  return { doc with shard := { doc.shard with stats := { stats with
    indexing := indexing, bulk := bulk, docs := docs, search := search } } }

def extractShardDocuments (shards : List (BitVec 16 × List ShardEntry))
    (settings : Option IndexSettingsDocument)
    (lookupNode : String → Option NodeStatistics.NodeDocument) :
    Except Fault (List ShardStatsDocument) :=
  let entries := shards.flatMap fun (number, entries) => entries.map fun entry => (number, entry)
  entries.mapM fun (number, entry) => ShardStatsDocument.calculate {
    shard := { number := number, routingNode := entry.routingNode, stats := entry.stats }
    index := settings
    node := lookupNode entry.routingNode }

def shardDocuments (shards : Option (List (BitVec 16 × List ShardEntry)))
    (settings : Option IndexSettingsDocument)
    (lookupNode : String → Option NodeStatistics.NodeDocument) :
    Except Fault (List ShardStatsDocument) :=
  match shards with
  | some shards => extractShardDocuments shards settings lookupNode
  | none => .ok []

/-! ### An entry of the response -/

/-- What was collected beside the index stats, by index name and by node id. -/
structure Lookups where
  indexAlias : String → Option Alias
  dataStream : String → Option DataStreamDocument
  ilmExplain : String → Option IlmStats
  indexSettings : String → Option IndexSettings
  mappingStats : String → Option MappingSummaries.MappingSummary
  node : String → Option NodeStatistics.NodeDocument

def settingsDocument (lookups : Lookups) (collectionDate : U64) (indexName : String) :
    Option IndexSettingsDocument :=
  (lookups.indexSettings indexName).map fun settings =>
    let settings := (settings.withDataStream (lookups.dataStream indexName)).withAge collectionDate
    (IndexSettingsDocument.ofSettings settings).withIlm (lookups.ilmExplain indexName)

/-- The entry as `process_index` gives it to `with_settings`. -/
def enrichedEntry (lookups : Lookups) (indexName : String) (stats : IndexStats) :
    EnrichedIndexStats :=
  { EnrichedIndexStats.ofStats stats with
    name := some indexName, indexAlias := lookups.indexAlias indexName }

/-- The documents that `process_index` sends for an entry. -/
def processIndex (build : Build) (lookups : Lookups) (collectionDate : U64) (indexName : String)
    (indexStats : IndexStats) :
    Except Fault (IndexStatsDocument × List ShardStatsDocument) := do
  let settings := settingsDocument lookups collectionDate indexName
  let stats ← withSettings build (enrichedEntry lookups indexName indexStats) settings
    (lookups.mappingStats indexName)
  let document ← IndexStatsDocument.calculate build ⟨stats⟩
  let settings := settings.map (·.writePhase document.index.writePhaseSec)
  let shards ← shardDocuments indexStats.shards settings lookups.node
  return (document, shards)

/-! ### Guarded divisions -/

theorem succeeds_docAvgSize (size count : U64) : Succeeds (docAvgSize size count) := by
  unfold docAvgSize
  split_ifs with hcount
  · apply succeeds_div_iff.2
    rintro rfl
    simp at hcount
  · exact succeeds_ok _

theorem succeeds_docsPerGb (size count avgSize : U64) :
    Succeeds (docsPerGb size count avgSize) := by
  unfold docsPerGb
  split_ifs with hsize havg
  · exact succeeds_ok _
  · apply succeeds_div_iff.2
    rintro rfl
    simp at havg
  · exact succeeds_ok _

theorem succeeds_perWriteSecond (x writePhaseSec : U64) :
    Succeeds (perWriteSecond x writePhaseSec) := by
  unfold perWriteSecond
  split_ifs with hzero
  · exact succeeds_ok _
  · exact succeeds_div_iff.2 hzero

theorem succeeds_cpuPerSecond (millis : U64) (sinceCreation : Option U64) :
    Succeeds (cpuPerSecond millis sinceCreation) := by
  unfold cpuPerSecond
  cases sinceCreation with
  | none => exact succeeds_ok _
  | some x =>
    dsimp only
    split_ifs with hx
    · have hthousand : (1000#64 : U64) ≠ 0#64 := by decide
      refine (succeeds_div_iff.2 hthousand).bind fun seconds => succeeds_div_iff.2 ?_
      split_ifs with hone
      · decide
      · rintro rfl
        simp at hone
    · exact succeeds_ok _

theorem succeeds_calculatePart {α : Type} {part : Option α} {calculate : α → Except Fault α}
    (h : ∀ x, Succeeds (calculate x)) : Succeeds (calculatePart part calculate) := by
  cases part with
  | none => exact succeeds_ok _
  | some x => exact (h x).map some

theorem succeeds_calculateEnrichedDocs (docs : EnrichedDocs) (size : U64) :
    Succeeds (docs.calculate size) :=
  (succeeds_docAvgSize _ _).bind fun _ => (succeeds_docsPerGb _ _ _).bind fun _ => succeeds_ok _

theorem succeeds_calculateDocs (docs : Docs) (size : U64) : Succeeds (docs.calculate size) :=
  (succeeds_docAvgSize _ _).bind fun _ => (succeeds_docsPerGb _ _ _).bind fun _ => succeeds_ok _

theorem succeeds_calculateIndexing (indexing : Indexing) (totalSize writePhaseSec : U64) :
    Succeeds (indexing.calculate totalSize writePhaseSec) :=
  (succeeds_perWriteSecond _ _).bind fun _ => (succeeds_perWriteSecond _ _).bind fun _ =>
    (succeeds_perWriteSecond _ _).bind fun _ => succeeds_ok _

theorem succeeds_calculateBulk (bulk : Bulk) (totalSize writePhaseSec : U64) :
    Succeeds (bulk.calculate totalSize writePhaseSec) :=
  (succeeds_perWriteSecond _ _).bind fun _ => succeeds_ok _

theorem succeeds_calculateSearch (search : Search) (sinceCreation : Option U64) :
    Succeeds (search.calculate sinceCreation) :=
  (succeeds_cpuPerSecond _ _).bind fun _ => (succeeds_cpuPerSecond _ _).bind fun _ => succeeds_ok _

/-- Every division of a shard document is guarded. -/
theorem succeeds_calculateShard (doc : ShardStatsDocument) : Succeeds doc.calculate := by
  unfold ShardStatsDocument.calculate
  refine (succeeds_calculatePart fun _ => succeeds_calculateIndexing _ _ _).bind fun _ => ?_
  refine (succeeds_calculatePart fun _ => succeeds_calculateBulk _ _ _).bind fun _ => ?_
  refine (succeeds_calculatePart fun _ => succeeds_calculateDocs _ _).bind fun _ => ?_
  exact (succeeds_calculatePart fun _ => succeeds_calculateSearch _ _).bind fun _ => succeeds_ok _

theorem succeeds_shardDocuments (shards : Option (List (BitVec 16 × List ShardEntry)))
    (settings : Option IndexSettingsDocument)
    (lookupNode : String → Option NodeStatistics.NodeDocument) :
    Succeeds (shardDocuments shards settings lookupNode) := by
  cases shards with
  | none => exact succeeds_ok []
  | some shards => exact succeeds_mapM (fun _ => succeeds_calculateShard _) _

/-! ### Write phase and rollover -/

/-- The subtraction is guarded, and what is left of the age is no more than the age. -/
theorem exists_writePhaseSec (build : Build) (age : U64) (rollover : Option U64)
    (beforeRollover : Bool) :
    ∃ seconds, writePhaseSec build age rollover beforeRollover = .ok seconds ∧
      seconds.toNat * 1000 ≤ age.toNat := by
  have hthousand : (1000#64 : U64) ≠ 0#64 := by decide
  have hdiv (x : U64) : (x / 1000#64).toNat * 1000 ≤ x.toNat := by
    rw [BitVec.toNat_udiv]
    exact Nat.div_mul_le_self x.toNat 1000
  unfold writePhaseSec
  cases rollover with
  | none => exact ⟨0#64, rfl, by simp⟩
  | some rollover =>
    dsimp only
    split_ifs with hage hbefore
    · have hle : rollover.toNat ≤ age.toNat := hage.le
      rw [sub_of_le hle]
      refine ⟨_, div_of_ne_zero hthousand, (hdiv _).trans ?_⟩
      rw [BitVec.toNat_sub_of_le (BitVec.le_def.2 hle)]
      exact Nat.sub_le _ _
    · exact ⟨_, div_of_ne_zero hthousand, hdiv age⟩
    · exact ⟨0#64, rfl, by simp⟩

/-- Age and creation date add up to the later of creation and collection, so the time since
the rollover is the elapsed one only where the rollover is the creation, or neither date is
later than the collection. -/
theorem elapsed_iff {build : Build} {collection creation rollover : U64} :
    (∃ elapsed,
      (add build (SaturatingCounters.satSub collection creation) creation >>= fun sum =>
        sub build sum rollover) = .ok elapsed ∧
      elapsed.toNat = collection.toNat - rollover.toNat) ↔
    rollover = creation ∨
      rollover.toNat ≤ collection.toNat ∧ creation.toNat ≤ collection.toNat := by
  have hage := SaturatingCounters.toNat_satSub collection creation
  have hcollection := collection.isLt
  have hcreation := creation.isLt
  have hfits : (SaturatingCounters.satSub collection creation).toNat + creation.toNat < 2 ^ 64 := by
    omega
  rw [add_of_lt hfits]
  have hsum := SaturatingCounters.toNat_add_of_lt hfits
  generalize SaturatingCounters.satSub collection creation + creation = sum at hsum
  change (∃ elapsed, sub build sum rollover = .ok elapsed ∧ _) ↔ _
  simp only [sub_eq_ok_iff]
  constructor
  · rintro ⟨_, ⟨-, rfl⟩, helapsed⟩
    by_cases hle : rollover.toNat ≤ sum.toNat
    · rw [BitVec.toNat_sub_of_le (BitVec.le_def.2 hle)] at helapsed
      by_cases heq : rollover.toNat = creation.toNat
      · exact Or.inl (BitVec.eq_of_toNat_eq heq)
      · right
        omega
    · -- The difference wraps and is more than the later of both dates.
      have hwrapped := lt_toNat_sub_of_lt (not_le.1 hle)
      omega
  · intro h
    have hle : rollover.toNat ≤ sum.toNat := by
      rcases h with rfl | h <;> omega
    refine ⟨_, ⟨fun _ => hle, rfl⟩, ?_⟩
    rw [BitVec.toNat_sub_of_le (BitVec.le_def.2 hle)]
    rcases h with rfl | h <;> omega

/-! ### The documents of an entry -/

section Entry

variable {build : Build} {lookups : Lookups} {collectionDate : U64} {indexName : String}

/-- The time since the rollover that `withSettings` puts in the document. -/
def rolloverOf (build : Build) : Option IndexSettingsDocument → Except Fault (Option U64)
  | some settings => sinceRollover build settings
  | none => .ok none

theorem succeeds_withSettings_iff {enriched : EnrichedIndexStats}
    {settings : Option IndexSettingsDocument} {mappings : Option MappingSummaries.MappingSummary} :
    Succeeds (withSettings build enriched settings mappings) ↔
      Succeeds (rolloverOf build settings) := by
  cases settings with
  | none => exact ⟨fun _ => succeeds_ok _, fun _ => succeeds_ok _⟩
  | some settings =>
    constructor
    · rintro ⟨stats, hstats⟩
      obtain ⟨rollover, hrollover, -⟩ := bind_eq_ok_iff.1 hstats
      exact ⟨rollover, hrollover⟩
    · intro h
      exact h.bind fun _ => succeeds_ok _

theorem withSettings_eq_ok {enriched : EnrichedIndexStats}
    {settings : Option IndexSettingsDocument} {mappings : Option MappingSummaries.MappingSummary}
    {stats : EnrichedIndexStatsWithSettings}
    (h : withSettings build enriched settings mappings = .ok stats) :
    rolloverOf build settings = .ok stats.sinceRollover ∧
      stats.age = settings.bind (·.age) ∧
      stats.primaries = enriched.primaries ∧ stats.total = enriched.total := by
  cases settings with
  | none =>
    cases h
    exact ⟨rfl, rfl, rfl, rfl⟩
  | some settings =>
    obtain ⟨rollover, hrollover, hstats⟩ := bind_eq_ok_iff.1 h
    cases hstats
    exact ⟨hrollover, rfl, rfl, rfl⟩

theorem succeeds_calculateIndex_iff {doc : IndexStatsDocument} :
    Succeeds (doc.calculate build) ↔
      doc.index.primaries.shardStats.totalCount ≠ 0#64 ∧
      doc.index.total.shardStats.totalCount ≠ 0#64 := by
  constructor
  · rintro ⟨result, hresult⟩
    obtain ⟨seconds, -, hresult⟩ := bind_eq_ok_iff.1 hresult
    obtain ⟨docs, -, hresult⟩ := bind_eq_ok_iff.1 hresult
    obtain ⟨primaries, hprimaries, hresult⟩ := bind_eq_ok_iff.1 hresult
    obtain ⟨total, htotal, -⟩ := bind_eq_ok_iff.1 hresult
    obtain ⟨_, hprimaries, -⟩ := bind_eq_ok_iff.1 hprimaries
    obtain ⟨_, htotal, -⟩ := bind_eq_ok_iff.1 htotal
    exact ⟨(div_eq_ok_iff.1 hprimaries).1, (div_eq_ok_iff.1 htotal).1⟩
  · rintro ⟨hprimaries, htotal⟩
    obtain ⟨seconds, hseconds, -⟩ := exists_writePhaseSec build (doc.index.age.getD 0#64)
      doc.index.sinceRollover (isBeforeRollover doc.index.ilm)
    refine Succeeds.bind ⟨seconds, hseconds⟩ fun _ => ?_
    refine (succeeds_calculatePart fun _ => succeeds_calculateEnrichedDocs _ _).bind fun _ => ?_
    refine Succeeds.bind ((succeeds_div_iff.2 hprimaries).bind fun _ => succeeds_ok _) fun _ => ?_
    exact Succeeds.bind ((succeeds_div_iff.2 htotal).bind fun _ => succeeds_ok _) fun _ =>
      succeeds_ok _

/-- What `calculate` keeps of the index, and the bound it puts on the write phase. -/
theorem calculate_eq_ok {doc result : IndexStatsDocument} (h : doc.calculate build = .ok result) :
    result.index.age = doc.index.age ∧ result.index.sinceRollover = doc.index.sinceRollover ∧
      ∃ seconds, result.index.writePhaseSec = some seconds ∧
        seconds.toNat * 1000 ≤ (doc.index.age.getD 0#64).toNat := by
  obtain ⟨seconds, hseconds, h⟩ := bind_eq_ok_iff.1 h
  obtain ⟨docs, -, h⟩ := bind_eq_ok_iff.1 h
  obtain ⟨primaries, -, h⟩ := bind_eq_ok_iff.1 h
  obtain ⟨total, -, h⟩ := bind_eq_ok_iff.1 h
  cases h
  obtain ⟨seconds', hseconds', hbound⟩ := exists_writePhaseSec build (doc.index.age.getD 0#64)
    doc.index.sinceRollover (isBeforeRollover doc.index.ilm)
  rw [hseconds'] at hseconds
  rw [Except.ok.inj hseconds] at hbound
  exact ⟨rfl, rfl, seconds, rfl, hbound⟩

/-- Milliseconds from the first date to the second, zero when the first is later. -/
def elapsedMillis (date collectionDate : U64) : ℕ := collectionDate.toNat - date.toNat

def creationOf (lookups : Lookups) (indexName : String) : Option U64 :=
  (lookups.indexSettings indexName).bind (·.creationDate)

def rolloverDateOf (lookups : Lookups) (indexName : String) : Option U64 :=
  (lookups.ilmExplain indexName).bind (·.lifecycleDateMillis)

/-- The derived times are the elapsed ones, and no index is written to for longer than it
exists. -/
structure Intended (lookups : Lookups) (collectionDate : U64) (indexName : String)
    (index : EnrichedIndexStatsWithSettings) : Prop where
  age : index.age.map BitVec.toNat =
    (creationOf lookups indexName).map (elapsedMillis · collectionDate)
  sinceRollover : index.sinceRollover.map BitVec.toNat =
    (creationOf lookups indexName).bind fun _ =>
      (rolloverDateOf lookups indexName).map (elapsedMillis · collectionDate)
  writePhase : ∃ seconds, index.writePhaseSec = some seconds ∧
    seconds.toNat * 1000 ≤ (index.age.getD 0#64).toNat

/-- The rollover is the creation itself, or neither of them is later than the collection. -/
def DatesInOrder (lookups : Lookups) (collectionDate : U64) (indexName : String) : Prop :=
  ∀ creation ∈ creationOf lookups indexName, ∀ rollover ∈ rolloverDateOf lookups indexName,
    rollover = creation ∨
      rollover.toNat ≤ collectionDate.toNat ∧ creation.toNat ≤ collectionDate.toNat

theorem age_settingsDocument :
    ((settingsDocument lookups collectionDate indexName).bind (·.age)).map BitVec.toNat =
      (creationOf lookups indexName).map (elapsedMillis · collectionDate) := by
  unfold settingsDocument creationOf
  cases lookups.indexSettings indexName with
  | none => rfl
  | some settings =>
    change (settings.creationDate.map fun date =>
      SaturatingCounters.satSub collectionDate date).map BitVec.toNat =
        settings.creationDate.map (elapsedMillis · collectionDate)
    rw [Option.map_map]
    congr 1
    funext date
    exact SaturatingCounters.toNat_satSub collectionDate date

theorem rolloverOf_settingsDocument :
    rolloverOf build (settingsDocument lookups collectionDate indexName) =
      match creationOf lookups indexName, rolloverDateOf lookups indexName with
      | some creation, some rollover =>
        some <$> (add build (SaturatingCounters.satSub collectionDate creation) creation >>=
          fun sum => sub build sum rollover)
      | _, _ => .ok none := by
  unfold settingsDocument creationOf rolloverDateOf
  cases lookups.indexSettings indexName with
  | none => rfl
  | some settings =>
    change sinceRollover build _ = _
    unfold sinceRollover
    simp only [IndexSettingsDocument.withIlm, IndexSettingsDocument.ofSettings,
      IndexSettings.withAge, IndexSettings.withDataStream, Option.bind_some]
    cases settings.creationDate <;>
      cases (lookups.ilmExplain indexName).bind (·.lifecycleDateMillis) <;> try rfl
    simp only [Option.map_some, Option.getD_some, map_bind]

theorem rollover_intended_iff :
    (∃ rollover, rolloverOf build (settingsDocument lookups collectionDate indexName) =
        .ok rollover ∧
      rollover.map BitVec.toNat = (creationOf lookups indexName).bind fun _ =>
        (rolloverDateOf lookups indexName).map (elapsedMillis · collectionDate)) ↔
      DatesInOrder lookups collectionDate indexName := by
  rw [rolloverOf_settingsDocument]
  unfold DatesInOrder
  cases creationOf lookups indexName with
  | none => simp
  | some creation =>
    cases rolloverDateOf lookups indexName with
    | none => simp
    | some rollover =>
      simp only [Option.mem_some_iff, forall_eq']
      rw [← @elapsed_iff build]
      generalize (add build (SaturatingCounters.satSub collectionDate creation) creation >>=
        fun sum => sub build sum rollover) = outcome
      cases outcome with
      | error fault => exact ⟨fun ⟨_, h, _⟩ => (nomatch h), fun ⟨_, h, _⟩ => (nomatch h)⟩
      | ok elapsed =>
        constructor
        · rintro ⟨_, ⟨⟩, helapsed⟩
          exact ⟨elapsed, rfl, Option.some.inj helapsed⟩
        · rintro ⟨_, ⟨⟩, helapsed⟩
          exact ⟨some elapsed, rfl, congrArg some helapsed⟩

/-- The totals that averages over the shards are divided by. -/
structure ShardsCounted (stats : IndexStats) : Prop where
  primaries : stats.primaries.shardStats.totalCount ≠ 0#64
  total : stats.total.shardStats.totalCount ≠ 0#64

theorem processIndex_eq_ok {stats : IndexStats} {document : IndexStatsDocument}
    {shards : List ShardStatsDocument}
    (h : processIndex build lookups collectionDate indexName stats = .ok (document, shards)) :
    ∃ index, withSettings build (enrichedEntry lookups indexName stats)
        (settingsDocument lookups collectionDate indexName)
        (lookups.mappingStats indexName) = .ok index ∧
      IndexStatsDocument.calculate build ⟨index⟩ = .ok document := by
  obtain ⟨index, hindex, h⟩ := bind_eq_ok_iff.1 h
  obtain ⟨document', hdocument, h⟩ := bind_eq_ok_iff.1 h
  obtain ⟨_, -, h⟩ := bind_eq_ok_iff.1 h
  cases h
  exact ⟨index, hindex, hdocument⟩

theorem exists_processIndex {stats : IndexStats} {index : EnrichedIndexStatsWithSettings}
    {document : IndexStatsDocument}
    (hindex : withSettings build (enrichedEntry lookups indexName stats)
      (settingsDocument lookups collectionDate indexName)
      (lookups.mappingStats indexName) = .ok index)
    (hdocument : IndexStatsDocument.calculate build ⟨index⟩ = .ok document) :
    ∃ shards, processIndex build lookups collectionDate indexName stats =
      .ok (document, shards) := by
  obtain ⟨shards, hshards⟩ := succeeds_shardDocuments stats.shards
    ((settingsDocument lookups collectionDate indexName).map
      fun settings => settings.writePhase document.index.writePhaseSec) lookups.node
  refine ⟨shards, bind_eq_ok_iff.2 ⟨index, hindex, ?_⟩⟩
  refine bind_eq_ok_iff.2 ⟨document, hdocument, ?_⟩
  exact bind_eq_ok_iff.2 ⟨shards, hshards, rfl⟩

/-- The statistics of an entry exist with the intended values exactly where shards are counted
in both totals and the dates are in order; those of a shard always exist. -/
theorem statistics_intended_iff (build : Build) (lookups : Lookups) (collectionDate : U64)
    (indexName : String) (stats : IndexStats) :
    ((∃ document shards,
        processIndex build lookups collectionDate indexName stats = .ok (document, shards) ∧
        Intended lookups collectionDate indexName document.index) ↔
      ShardsCounted stats ∧ DatesInOrder lookups collectionDate indexName) ∧
    ∀ shard : ShardStatsDocument, ∃ result, shard.calculate = .ok result := by
  refine ⟨?_, succeeds_calculateShard⟩
  rw [← @rollover_intended_iff build]
  constructor
  · rintro ⟨document, shards, hprocess, hintended⟩
    obtain ⟨index, hindex, hdocument⟩ := processIndex_eq_ok hprocess
    obtain ⟨hrollover, -, hprimaries, htotal⟩ := withSettings_eq_ok hindex
    obtain ⟨-, hkept, -⟩ := calculate_eq_ok hdocument
    have hcounted := succeeds_calculateIndex_iff.1 ⟨document, hdocument⟩
    simp only [hprimaries, htotal] at hcounted
    refine ⟨⟨hcounted.1, hcounted.2⟩, index.sinceRollover, hrollover, ?_⟩
    rw [← hkept]
    exact hintended.sinceRollover
  · rintro ⟨hcounted, rollover, hrollover, hintended⟩
    have hsettings : Succeeds (withSettings build (enrichedEntry lookups indexName stats)
        (settingsDocument lookups collectionDate indexName) (lookups.mappingStats indexName)) :=
      succeeds_withSettings_iff.2 ⟨rollover, hrollover⟩
    obtain ⟨index, hindex⟩ := hsettings
    obtain ⟨hrollover', hage, hprimaries, htotal⟩ := withSettings_eq_ok hindex
    have hdivisors : index.primaries.shardStats.totalCount ≠ 0#64 ∧
        index.total.shardStats.totalCount ≠ 0#64 := by
      rw [hprimaries, htotal]
      exact ⟨hcounted.primaries, hcounted.total⟩
    obtain ⟨document, hdocument⟩ := (@succeeds_calculateIndex_iff build ⟨index⟩).2 hdivisors
    obtain ⟨shards, hprocess⟩ := exists_processIndex hindex hdocument
    obtain ⟨hkeptAge, hkept, seconds, hseconds, hbound⟩ := calculate_eq_ok hdocument
    rw [hrollover] at hrollover'
    refine ⟨document, shards, hprocess, ?_, ?_, seconds, hseconds, ?_⟩
    · rw [hkeptAge, hage]
      exact age_settingsDocument
    · rw [hkept, ← Except.ok.inj hrollover']
      exact hintended
    · rw [hkeptAge]
      exact hbound

end Entry

/-! ### Entries that fault -/

def noLookups : Lookups where
  indexAlias _ := none
  dataStream _ := none
  ilmExplain _ := none
  indexSettings _ := none
  mappingStats _ := none
  node _ := none

/-- An index created at 500 and rolled over at 2000. -/
def rolledLookups : Lookups :=
  { noLookups with
    ilmExplain := fun _ => some { managed := true, lifecycleDateMillis := some 2000#64 }
    indexSettings := fun name => some {
      codec := "default", creationDate := some 500#64, isWriteIndex := false, lifecycle := none
      mode := "standard", name := name, numberOfReplicas := some 1#64
      numberOfShards := some 1#64, refreshInterval := "default", source := none, store := none
      uuid := "b7k" } }

def entryOf (primaries total : U64) : IndexStats where
  primaries := { shardStats := ⟨primaries⟩ }
  total := { shardStats := ⟨total⟩ }

/-- Without an assigned primary every build panics. A rollover after the collection at 1000
panics where overflow is checked, and elsewhere gives a time since the rollover near the
largest integer. -/
theorem unassigned_primaries_panic :
    (∀ build, processIndex build noLookups 1000#64 "logs" (entryOf 0#64 1#64) =
      .error .divisionByZero) ∧
    processIndex ⟨true⟩ rolledLookups 1000#64 "logs" (entryOf 1#64 2#64) = .error .overflow ∧
    ∃ document shards,
      processIndex ⟨false⟩ rolledLookups 1000#64 "logs" (entryOf 1#64 2#64) =
        .ok (document, shards) ∧
      document.index.sinceRollover = some 18446744073709550616#64 := by
  refine ⟨?_, rfl, _, _, rfl, rfl⟩
  rintro ⟨checks⟩
  cases checks <;> rfl

end Esdiag.IndexStatistics
