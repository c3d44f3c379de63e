import Esdiag.BundleReceivers
import Esdiag.KeyedMaps
import Esdiag.KibanaCollection

/-!
Collection from Elasticsearch and from Logstash. Each API is requested until it is
answered, fails for good or five minutes have passed, with a delay between two
attempts that doubles up to a minute. The light APIs run together, and their
outcomes are folded in the order in which they finish; the heavy ones follow one
by one, and the manifest with all requests is saved last. The archive is a zip file.
-/
namespace Esdiag.StackCollection

open KeyedMaps BundleReceivers
open KibanaCollection (Failure RequestedApi ArchiveExporter Path)

inductive Collector where
  | elasticsearch
  | logstash
  deriving DecidableEq

/-- A source of the registry, with the request path that it has for the version. -/
structure CollectSource where
  file : SourceFile
  url : Option String

structure RawResponse where
  status : Option ℕ
  responseTimeMs : ℕ
  responseSizeBytes : ℕ

/-- What one attempt meets: the answer, whether its file can be written, and the times that
pass until the answer, until the deadline is looked at and beyond the delay. -/
structure Attempt where
  answer : Except Failure RawResponse
  writable : Bool
  tookMs : ℕ
  checkedMs : ℕ
  oversleptMs : ℕ

structure ApiScript where
  name : String
  source : Option CollectSource
  weight : ℕ
  attempts : ℕ → Attempt

structure ApiCollectOutcome where
  requestedApi : Option (String × RequestedApi)
  saved : ℕ

namespace ApiCollectOutcome

def skipped : ApiCollectOutcome := ⟨none, 0⟩

def success (name : String) (requestedApi : RequestedApi) (retries saved : ℕ) :
    ApiCollectOutcome :=
  ⟨some (name, { requestedApi with retries := retries }), saved⟩

def failed (name : String) (status : Option ℕ)
    (retries responseTimeMs responseSizeBytes : ℕ) : ApiCollectOutcome :=
  ⟨some (name, ⟨status, retries, responseTimeMs, responseSizeBytes⟩), 0⟩

end ApiCollectOutcome

section Requests

def shouldRetryElasticsearchError : Failure → Bool
  | .http status _ _ => status = 429 || (500 ≤ status && status < 600)
  | .transport retryable => retryable

def shouldRetryLogstashError : Failure → Bool
  | .http status _ _ => status = 408 || status = 429 || (500 ≤ status && status < 600)
  | .transport retryable => retryable

def Collector.shouldRetry : Collector → Failure → Bool
  | elasticsearch => shouldRetryElasticsearchError
  | logstash => shouldRetryLogstashError

def requestMetrics : Failure → Option ℕ × ℕ × ℕ
  | .http status responseTimeMs responseSizeBytes =>
    (some status, responseTimeMs, responseSizeBytes)
  | .transport _ => (none, 0, 0)

/-- Where the response of an API is saved. -/
def filePath (source : CollectSource) (name : String) : Path :=
  Texts.split '/' (source.file.getFilePath name)

/-- One request. An API without a source, or without a path for the version, is left out; a
file that cannot be saved is not counted. -/
def saveRaw (script : ApiScript) (attempt : Attempt) (files : List Path) :
    Except Failure (Option (RequestedApi × ℕ)) × List Path :=
  match script.source with
  | none => (.ok none, files)
  | some source =>
    match source.url with
    | none => (.ok none, files)
    | some _ =>
      match attempt.answer with
      | .error failure => (.error failure, files)
      | .ok response =>
        let saved := ArchiveExporter.zip.save (filePath source script.name) attempt.writable files
        (.ok (some (⟨response.status, 0, response.responseTimeMs, response.responseSizeBytes⟩,
          if saved.1.isSome then 1 else 0)), saved.2)

def saveApi (script : ApiScript) (attempt : Attempt) (files : List Path) :
    Except Failure ApiCollectOutcome × List Path :=
  let raw := saveRaw script attempt files
  (raw.1.map fun response =>
    match response with
    | some (requestedApi, saved) => .success script.name requestedApi 0 saved
    | none => .skipped, raw.2)

def maxDurationMs : ℕ := 300000

def firstDelayMs : ℕ := 2000

def maxDelayMs : ℕ := 60000

/-- What the failed attempts leave to the next one. -/
structure Retried where
  retries : ℕ
  responseTimeMs : ℕ
  responseSizeBytes : ℕ

/-- A failed attempt is added; where no time was measured, the time of the attempt counts. -/
def Retried.add (retried : Retried) (failure : Failure) (tookMs : ℕ) : Retried :=
  let (_, responseTimeMs, responseSizeBytes) := requestMetrics failure
  { retried with
    responseTimeMs :=
      retried.responseTimeMs + if responseTimeMs = 0 then tookMs else responseTimeMs
    responseSizeBytes := retried.responseSizeBytes + responseSizeBytes }

def ApiCollectOutcome.withRetried (outcome : ApiCollectOutcome) (retried : Retried) :
    ApiCollectOutcome :=
  { outcome with
    requestedApi := outcome.requestedApi.map fun (name, requestedApi) =>
      (name, { requestedApi with
        retries := retried.retries
        responseTimeMs := requestedApi.responseTimeMs + retried.responseTimeMs
        responseSizeBytes := requestedApi.responseSizeBytes + retried.responseSizeBytes }) }

/-- The retry loop, from the attempt of a number on; the fuel counts attempts. -/
def saveApiWithRetry (collector : Collector) (script : ApiScript) (files : List Path) :
    ℕ → ℕ → ℕ → ℕ → Retried → Option (ApiCollectOutcome × List Path)
  | 0, _, _, _, _ => none
  | fuel + 1, number, nowMs, delayMs, retried =>
    let attempt := script.attempts number
    match saveApi script attempt files with
    | (.ok outcome, files) => some (outcome.withRetried retried, files)
    | (.error failure, files) =>
      let retried := retried.add failure attempt.tookMs
      let failed := ApiCollectOutcome.failed script.name (requestMetrics failure).1
        retried.retries retried.responseTimeMs retried.responseSizeBytes
      let elapsedMs := nowMs + attempt.tookMs + attempt.checkedMs
      if !collector.shouldRetry failure then some (failed, files)
      else if maxDurationMs < elapsedMs then some (failed, files)
      else
        saveApiWithRetry collector script files fuel (number + 1)
          (elapsedMs + delayMs + attempt.oversleptMs) (min (delayMs * 2) maxDelayMs)
          { retried with retries := retried.retries + 1 }

end Requests

section Collecting

structure DiagnosticManifest where
  requestedApis : KeyedMap String RequestedApi
  collectedApis : List String

def withRequestedApis (requestedApis : KeyedMap String RequestedApi) : DiagnosticManifest where
  requestedApis := requestedApis
  collectedApis := (requestedApis.inOrder.filter fun entry =>
    entry.2.status.any fun status => 200 ≤ status && status < 300).map Prod.fst

structure CollectConcurrencyPolicy where
  sequentialThreshold : ℕ

def CollectConcurrencyPolicy.isSequential (policy : CollectConcurrencyPolicy)
    (sourceWeight : ℕ) : Bool := policy.sequentialThreshold ≤ sourceWeight

/-- The orders in which APIs that run together save their files and finish. -/
structure Schedule where
  saves : List ApiScript → List ApiScript
  saves_perm : ∀ scripts, (saves scripts).Perm scripts
  finishes : List ApiCollectOutcome → List ApiCollectOutcome
  finishes_perm : ∀ outcomes, (finishes outcomes).Perm outcomes

variable (collector : Collector) (fuel : ℕ)

def runApis : List ApiScript → List Path → Option (List ApiCollectOutcome × List Path)
  | [], files => some ([], files)
  | script :: rest, files =>
    match saveApiWithRetry collector script files fuel 0 0 firstDelayMs ⟨0, 0, 0⟩ with
    | none => none
    | some (outcome, files) =>
      (runApis rest files).map fun (outcomes, files) => (outcome :: outcomes, files)

/-- The counts of a collection, and the requests that its manifest is to list. -/
structure Tally where
  success : ℕ
  requestedApis : KeyedMap String RequestedApi

def Tally.add (tally : Tally) (outcome : ApiCollectOutcome) : Tally where
  success := tally.success + outcome.saved
  requestedApis :=
    match outcome.requestedApi with
    | some (name, requestedApi) => tally.requestedApis.insert name requestedApi
    | none => tally.requestedApis

structure CollectionResult where
  success : ℕ
  total : ℕ
  manifest : DiagnosticManifest
  files : List Path

def manifestFilename : Path := ["diagnostic_manifest.json"]

inductive CollectError where
  | manifest
  | finalize

/-- A collection of the resolved APIs, with the fates of the manifest and of the archive. -/
def collect (policy : CollectConcurrencyPolicy) (schedule : Schedule)
    (manifestWritable finalizes : Bool) (apis : List ApiScript) :
    Option (Except CollectError CollectionResult) :=
  let lightApis := apis.filter fun script => !policy.isSequential script.weight
  let heavyApis := apis.filter fun script => policy.isSequential script.weight
  match runApis collector fuel (schedule.saves lightApis) [] with
  | none => none
  | some (lightOutcomes, files) =>
    match runApis collector fuel heavyApis files with
    | none => none
    | some (heavyOutcomes, files) =>
      let light := (schedule.finishes lightOutcomes).foldl Tally.add ⟨0, .empty⟩
      let tally := heavyOutcomes.foldl Tally.add light
      match ArchiveExporter.zip.save manifestFilename manifestWritable files with
      | (none, _) => some (.error .manifest)
      | (some _, files) =>
        if finalizes then
          some (.ok
            { success := tally.success + 1
              total := apis.length + 1
              manifest := withRequestedApis tally.requestedApis
              files := files })
        else some (.error .finalize)

end Collecting

end Esdiag.StackCollection
