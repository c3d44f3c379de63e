import Esdiag.BatchResponses
import Esdiag.Deployments

/-!
The report of one diagnostic: its recorded events, its document counts, the
statistics of lookups and processors, and the outcome derived from events and
counts. Processor summaries are trees; adding one to the report adds every
summary of the tree in turn. Plain counters are 32 bit and wrap; what holds
when none of them wraps is proved elsewhere.
-/
namespace Esdiag.Reports

open SaturatingCounters KeyedMaps BatchResponses Deployments

inductive SkipKind where
  | byDesign
  | notImplemented
  deriving DecidableEq

inductive DiagnosticOutcome where
  | complete
  | partly
  | failed
  | skipped (kind : SkipKind)
  deriving DecidableEq

inductive EventSeverity where
  | error
  | warning
  | success
  deriving DecidableEq

structure DiagnosticEvent where
  severity : EventSeverity
  source : String
  reason : String
  deriving DecidableEq

namespace DiagnosticEvent

def error (source reason : String) : DiagnosticEvent := ⟨.error, source, reason⟩

def warning (source reason : String) : DiagnosticEvent := ⟨.warning, source, reason⟩

def success (source reason : String) : DiagnosticEvent := ⟨.success, source, reason⟩

end DiagnosticEvent

structure Docs where
  created : U32
  errors : U32
  total : U32

def Docs.none : Docs := ⟨0#32, 0#32, 0#32⟩

/-- The only way an outcome is computed. -/
def deriveOutcome (events : List DiagnosticEvent) (docs : Docs) : DiagnosticOutcome :=
  let hasError := events.any fun event => event.severity == .error
  let hasWarning := events.any fun event => event.severity == .warning
  let hasFailureSignal := hasError || hasWarning || decide (0#32 < docs.errors)
  let produced := decide (0#32 < docs.total) || events.any fun event => event.severity == .success
  if hasFailureSignal && !produced then .failed
  else if hasFailureSignal then .partly
  else .complete

structure Source where
  parsed : Bool
  missing : Bool

structure BatchStats where
  count : U32
  retries : U16
  statusCodes : KeyedMap U16 U32
  responses : List BatchResponse

structure ProcessorSummary where
  rejectedIndices : Rejections
  rejectionReasons : RejectionReasons
  batch : BatchStats
  docs : U32
  docErrors : U32
  processor : String
  index : String
  source : Source
  children : List ProcessorSummary
  events : List DiagnosticEvent

def BatchStats.merge (self other : BatchStats) : BatchStats :=
  { count := satAdd self.count other.count
    retries := satAdd self.retries other.retries
    statusCodes := other.statusCodes.entries.foldl
      (fun codes entry => BatchResponse.countStatus codes entry.1 entry.2) self.statusCodes
    responses := self.responses ++ other.responses }

namespace ProcessorSummary

def new (name : String) : ProcessorSummary :=
  { rejectedIndices := .empty
    rejectionReasons := .empty
    batch := ⟨0#32, 0#16, .empty, []⟩
    docs := 0#32
    docErrors := 0#32
    processor := name
    index := name
    source := ⟨false, false⟩
    children := []
    events := [] }

def missing (name : String) : ProcessorSummary := { new name with source := ⟨false, true⟩ }

def withError (self : ProcessorSummary) (reason : String) : ProcessorSummary :=
  { self with events := self.events ++ [.error self.processor reason] }

def rename (self : ProcessorSummary) (name : String) : ProcessorSummary :=
  { self with processor := name }

/-- The result of another source folded into this summary. The children of the
other summary are not taken over. -/
def merge (self : ProcessorSummary) (other : Except String ProcessorSummary) :
    ProcessorSummary :=
  match other with
  | .ok other =>
    { self with
      rejectedIndices := mergeRejections self.rejectedIndices other.rejectedIndices
      rejectionReasons := mergeRejectionReasons self.rejectionReasons other.rejectionReasons
      batch := self.batch.merge other.batch
      docs := satAdd self.docs other.docs
      docErrors := satAdd self.docErrors other.docErrors
      events := self.events ++ other.events }
  | .error message => self.withError message

def addChild (self : ProcessorSummary) (other : Except String ProcessorSummary) :
    ProcessorSummary :=
  match other with
  | .ok other => { self with children := self.children ++ [other] }
  | .error message => self.withError message

/-- The rejections of a batch, with the errors it does not attribute to any
index charged to the summary's own index. -/
def attributeRejections (self : ProcessorSummary) (batch : BatchResponse) : Rejections :=
  let merged := mergeRejections self.rejectedIndices batch.rejectedIndices
  let counted := batch.rejectedIndices.values.foldl satAdd 0#32
  let unattributed := satSub batch.errors counted
  if 0#32 < unattributed then addRejections merged self.index unattributed else merged

def addBatch (self : ProcessorSummary) (batch : BatchResponse) : ProcessorSummary :=
  if batch.batchCount = 0#32 ∧ batch.docs = 0#32 ∧ batch.errors = 0#32 then self
  else
    { self with
      rejectedIndices := self.attributeRejections batch
      rejectionReasons := mergeRejectionReasons self.rejectionReasons batch.rejectionReasons
      batch :=
        { count := satAdd self.batch.count batch.batchCount
          retries := satAdd self.batch.retries batch.retries
          statusCodes :=
            if batch.statusCounts.isEmpty then
              BatchResponse.countStatus self.batch.statusCodes batch.statusCode batch.batchCount
            else
              batch.statusCounts.entries.foldl
                (fun codes entry => BatchResponse.countStatus codes entry.1 entry.2)
                self.batch.statusCodes
          responses := self.batch.responses ++ [batch] }
      docs := satAdd self.docs batch.docs
      docErrors := satAdd self.docErrors batch.errors }

mutual
def wasParsed : ProcessorSummary → ProcessorSummary
  | ⟨rejected, reasons, batch, docs, docErrors, processor, index, _, children, events⟩ =>
    ⟨rejected, reasons, batch, docs, docErrors, processor, index, ⟨true, false⟩,
      wasParsedAll children, events⟩

def wasParsedAll : List ProcessorSummary → List ProcessorSummary
  | [] => []
  | child :: rest => wasParsed child :: wasParsedAll rest
end

mutual
/-- The summaries of a tree, a parent before its children. -/
def intoSummaries : ProcessorSummary → List ProcessorSummary
  | ⟨rejected, reasons, batch, docs, docErrors, processor, index, source, children, events⟩ =>
    ⟨rejected, reasons, batch, docs, docErrors, processor, index, source, [], events⟩ ::
      intoSummariesAll children

def intoSummariesAll : List ProcessorSummary → List ProcessorSummary
  | [] => []
  | child :: rest => intoSummaries child ++ intoSummariesAll rest
end

theorem intoSummaries_eq (summary : ProcessorSummary) :
    summary.intoSummaries = { summary with children := [] } :: intoSummariesAll summary.children := by
  cases summary
  rfl

theorem intoSummariesAll_append (left right : List ProcessorSummary) :
    intoSummariesAll (left ++ right) = intoSummariesAll left ++ intoSummariesAll right := by
  induction left with
  | nil => rfl
  | cons child rest ih =>
    rw [List.cons_append, intoSummariesAll, ih, intoSummariesAll, List.append_assoc]

mutual
/-- Marking a tree as parsed marks every summary it is flattened to. -/
theorem intoSummaries_wasParsed (summary : ProcessorSummary) :
    summary.wasParsed.intoSummaries =
      summary.intoSummaries.map fun one => { one with source := ⟨true, false⟩ } := by
  match summary with
  | ⟨rejected, reasons, batch, docs, docErrors, processor, index, source, children, events⟩ =>
    simp only [wasParsed, intoSummaries, List.map_cons,
      intoSummariesAll_wasParsedAll children]

theorem intoSummariesAll_wasParsedAll (children : List ProcessorSummary) :
    intoSummariesAll (wasParsedAll children) =
      (intoSummariesAll children).map fun one => { one with source := ⟨true, false⟩ } := by
  match children with
  | [] => rfl
  | child :: rest =>
    simp only [wasParsedAll, intoSummariesAll, List.map_append,
      intoSummaries_wasParsed child, intoSummariesAll_wasParsedAll rest]
end

def hasRecordedError (summary : ProcessorSummary) : Bool :=
  summary.events.any fun event => event.severity == .error

/-- Neither missing from an imported bundle nor read from it. -/
def unread (summary : ProcessorSummary) : Bool :=
  !summary.source.missing && !summary.source.parsed

/-- The event that records the verdict on a source. -/
def verdictEvents (summary : ProcessorSummary) : List DiagnosticEvent :=
  if summary.source.missing then []
  else if !summary.source.parsed then
    if summary.hasRecordedError then []
    else [.error summary.processor "source could not be read or parsed"]
  else if 0#32 < summary.docErrors then
    [.warning summary.processor (toString summary.docErrors.toNat ++ " of " ++
      toString (summary.docs + summary.docErrors).toNat ++ " documents rejected")]
  else [.success summary.processor (toString summary.docs.toNat ++ " documents exported")]

def rejectionEvents (summary : ProcessorSummary) : List DiagnosticEvent :=
  summary.rejectionReasons.inOrder.flatMap fun entry => entry.2.map (.warning entry.1)

end ProcessorSummary

structure NestedStats (T : Type) where
  count : U32
  errors : U32
  failures : List String
  stats : KeyedMap String T

namespace NestedStats

variable {T : Type}

def empty (stats : KeyedMap String T) : NestedStats T := ⟨0#32, 0#32, [], stats⟩

def push (self : NestedStats T) (name : String) (summary : T) : NestedStats T :=
  { self with count := self.count + 1#32, stats := self.stats.insert name summary }

/-- One more error, recorded under a name. -/
def fail (self : NestedStats T) (name : String) : NestedStats T :=
  { self with errors := self.errors + 1#32, failures := self.failures ++ [name] }

end NestedStats

structure LookupSummary where
  docs : U32
  parsed : Bool

structure Lookup (T : Type) where
  entries : List T
  parsed : Bool
  missing : Bool

structure Origin where
  type : String
  path : String

def Origin.ofReceiver (receiver : String) : Option Origin :=
  (Texts.splitOnce ' ' receiver).map fun parts => ⟨parts.1, parts.2⟩

/-- The part of a report that its operations read and write. -/
structure DiagnosticReport where
  metadataId : String
  application : Option Application
  docs : Docs
  origin : Origin
  lookup : NestedStats LookupSummary
  processor : NestedStats ProcessorSummary
  identifiers : Identifiers
  events : List DiagnosticEvent
  outcome : DiagnosticOutcome

namespace DiagnosticReport

/-- The platform of a report; unresolved provenance is unknown. -/
def platform (self : DiagnosticReport) : Platform := self.identifiers.platform.getD .unknown

def refreshOutcome (self : DiagnosticReport) : DiagnosticReport :=
  { self with outcome := deriveOutcome self.events self.docs }

def recordEvent (self : DiagnosticReport) (event : DiagnosticEvent) : DiagnosticReport :=
  { self with events := self.events ++ [event] }.refreshOutcome

def addIdentifiers (self : DiagnosticReport) (identifiers : Identifiers) : DiagnosticReport :=
  { self with identifiers := identifiers }

def addSingleProcessorSummary (self : DiagnosticReport) (summary : ProcessorSummary) :
    DiagnosticReport :=
  let processor := if summary.unread then self.processor.fail summary.index else self.processor
  { self with
    events := self.events ++ summary.events ++ summary.verdictEvents ++ summary.rejectionEvents
    docs :=
      { created := self.docs.created + summary.docs
        errors := self.docs.errors + summary.docErrors
        total := self.docs.total + (summary.docs + summary.docErrors) }
    processor := processor.push summary.processor { summary with events := [] } }.refreshOutcome

def addProcessorSummary (self : DiagnosticReport) (summary : ProcessorSummary) :
    DiagnosticReport :=
  summary.intoSummaries.foldl addSingleProcessorSummary self

theorem foldl_addProcessorSummary (summaries : List ProcessorSummary) (self : DiagnosticReport) :
    summaries.foldl addProcessorSummary self =
      (summaries.flatMap ProcessorSummary.intoSummaries).foldl addSingleProcessorSummary self := by
  rw [List.foldl_flatMap]
  rfl

def addLookup {T : Type} (self : DiagnosticReport) (name : String) (lookup : Lookup T) :
    DiagnosticReport :=
  let marked :=
    if lookup.missing then self
    else if !lookup.parsed && !self.lookup.failures.contains name then
      { self with
        lookup := self.lookup.fail name
        events := self.events ++ [DiagnosticEvent.warning name "lookup could not be parsed"] }.refreshOutcome
    else self
  { marked with
    lookup := marked.lookup.push name ⟨BitVec.ofNat 32 lookup.entries.length, lookup.parsed⟩ }

/-- Lookups leave the document counts and the processors alone. -/
theorem addLookup_frame {T : Type} (self : DiagnosticReport) (name : String)
    (lookup : Lookup T) :
    (self.addLookup name lookup).docs = self.docs ∧
      (self.addLookup name lookup).processor = self.processor := by
  unfold addLookup
  cases lookup.missing with
  | true => exact ⟨rfl, rfl⟩
  | false => cases !lookup.parsed && !self.lookup.failures.contains name <;> exact ⟨rfl, rfl⟩

/-- The rejections of all summaries that the report holds, by index. -/
def rejectionsByIndex (self : DiagnosticReport) : Rejections :=
  self.processor.stats.values.foldl
    (fun indices summary => mergeRejections indices summary.rejectedIndices) .empty

def rejectedIndices (self : DiagnosticReport) : List (String × U32) :=
  self.rejectionsByIndex.inOrder

end DiagnosticReport

structure RequestedApi where
  status : Option U16

/-- What a bundle says of itself: its identity, its application and the record
of the requests that filled it. -/
structure DiagnosticManifest where
  diagnosticId : String
  application : Option Application
  requestedApis : Option (KeyedMap String RequestedApi)

structure DiagnosticReportBuilder where
  metadataId : String
  application : Option Application
  processors : KeyedMap String ProcessorSummary
  origin : Option Origin
  collectionEvents : List DiagnosticEvent

namespace RequestedApi

def succeeded (api : RequestedApi) : Bool :=
  api.status.any fun status => 200#16 ≤ status && status < 300#16

def failureReason (api : RequestedApi) : String :=
  match api.status with
  | some status => "collection failed with HTTP " ++ toString status.toNat
  | none => "collection failed without an HTTP response"

end RequestedApi

namespace DiagnosticReportBuilder

/-- Requests that failed at collection time are warnings of the report. -/
def ofManifest (manifest : DiagnosticManifest) : DiagnosticReportBuilder :=
  { metadataId := manifest.diagnosticId
    application := manifest.application
    processors := .empty
    origin := none
    collectionEvents :=
      (manifest.requestedApis.map fun apis =>
        (apis.inOrder.filter fun entry => !entry.2.succeeded).map
          fun entry => DiagnosticEvent.warning entry.1 entry.2.failureReason).getD [] }

def ofMetadata (metadataId : String) : DiagnosticReportBuilder :=
  ⟨metadataId, none, .empty, none, []⟩

def receiver (self : DiagnosticReportBuilder) (receiver : String) : DiagnosticReportBuilder :=
  { self with origin := Origin.ofReceiver receiver }

def build (self : DiagnosticReportBuilder) (ambientUser : Option String) :
    Except String DiagnosticReport :=
  match self.origin with
  | none => .error "Origin not set"
  | some origin =>
    .ok
      { metadataId := self.metadataId
        application := self.application
        docs := Docs.none
        origin := origin
        lookup := .empty .empty
        processor := .empty self.processors
        identifiers := .default ambientUser
        events := self.collectionEvents
        outcome := deriveOutcome self.collectionEvents Docs.none }

end DiagnosticReportBuilder

end Esdiag.Reports
