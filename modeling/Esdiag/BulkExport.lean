import Esdiag.BatchResponses
import Esdiag.JsonValues

/-!
The Elasticsearch bulk exporter: documents are split into sub-batches, each
sub-batch is sent with retries on HTTP 429, each response is read into a
BatchResponse, and the responses are merged. What the network, the server and
the local disk answer is an arbitrary table of exchanges, indexed by sub-batch
and attempt.
-/
namespace Esdiag.BulkExport

open SaturatingCounters KeyedMaps BatchResponses JsonValues

inductive ExporterError where
  | rateLimited
  | fatal (message : String)

/-- What one attempt gets back: no answer in time, a transport error, or a
status with a body that may not be readable as JSON. -/
inductive Reply where
  | timedOut
  | transportError (message : String)
  | response (statusCode : U16) (body : Except String Value)

/-- A reply, with the results of the two local log writes made while it is read. -/
structure Exchange where
  reply : Reply
  saveResponses : Except String Unit
  saveBulkErrors : Except String Unit

structure BulkConfig where
  url : String
  bulkSizeSetting : ℕ
  bulkBytesSetting : BitVec 64
  maxRetries : U16
  debugEnabled : Bool
  traceEnabled : Bool
  /-- Whether a text parses as a date of the format `%Y.%m.%d`. -/
  isDate : String → Bool

namespace BulkConfig

def bulkSize (cfg : BulkConfig) : ℕ := max cfg.bulkSizeSetting 1

def bulkBytes (cfg : BulkConfig) : Option (BitVec 64) :=
  if 0 < cfg.bulkBytesSetting then some cfg.bulkBytesSetting else none

end BulkConfig

/-- Bulk items name backing indices; the data stream they belong to is
recognized only for the stream names of this program. -/
def rejectedDataStream (cfg : BulkConfig) (index : String) : String :=
  match (Texts.stripPrefix ".ds-" index).orElse fun _ => Texts.stripPrefix ".fs-" index with
  | none => index
  | some backing =>
    match Texts.rsplitOnce '-' backing with
    | none => index
    | some (datedStream, generation) =>
      match Texts.rsplitOnce '-' datedStream with
      | none => index
      | some (stream, date) =>
        if generation.toUTF8.size < 6 ∨ ¬ generation.toList.all Char.isDigit ∨
            ¬ cfg.isDate date ∨
            ¬ (Texts.endsWith stream "-esdiag" ∨ Texts.contains stream "-esdiag-") then index
        else stream

/-- The status codes that end an attempt before its body is read. -/
def statusRefusal (index : String) (statusCode : U16) : Option ExporterError :=
  if statusCode = 200 then none
  else if statusCode = 400 then some (.fatal (index ++ " - http 400 bad request"))
  else if statusCode = 401 then some (.fatal (index ++ " - http 401 unauthorized"))
  else if statusCode = 403 then some (.fatal (index ++ " - http 403 forbidden"))
  else if statusCode = 404 then some (.fatal (index ++ " - http 404 not found"))
  else if statusCode = 413 then some (.fatal (index ++ " - http 413 request too large"))
  else if statusCode = 429 then some .rateLimited
  else if 500 ≤ statusCode ∧ statusCode ≤ 599 then
    some (.fatal (index ++ " - server errors: http " ++ toString statusCode.toNat))
  else none

def bulkItems (body : Value) : List Value := ((body.get "items").bind Value.asArray).getD []

def usedFailureStore (item : Value) : Bool :=
  ((item.index "create").index "failure_store").isText "used"

/-- An item counts as created only with status 201 and outside the failure store. -/
def isErrorItem (item : Value) : Bool :=
  ((item.index "create").index "status").asU64 != some 201 || usedFailureStore item

def rejectionReason (destination : String) (item : Value) : String :=
  let create := item.index "create"
  let error := create.index "error"
  let reason :=
    match (error.get "reason").bind Value.asStr with
    | some reason => ((error.index "type").asStr.getD "document_rejected") ++ ": " ++ reason
    | none =>
      if usedFailureStore item then
        "Document retained in " ++ destination ++
          "::failures; inspect error.message for the rejection reason"
      else "Bulk item rejected with status " ++ render (create.index "status")
  String.ofList (reason.toList.take 1024)

def recordRejection (cfg : BulkConfig) (index : String) (response : BatchResponse)
    (item : Value) : BatchResponse :=
  let named := ((item.index "create").index "_index").asStr.filter fun name => name != ""
  let destination := rejectedDataStream cfg (named.getD index)
  { response with
    rejectedIndices := response.rejectedIndices.upsert destination fun old => old.getD 0#32 + 1#32
    rejectionReasons := response.rejectionReasons.upsert destination fun samples =>
      pushSample (samples.getD []) (rejectionReason destination item) }

def logged (needed : Bool) (result : Except String Unit) : Except ExporterError Unit :=
  if needed then result.mapError .fatal else .ok ()

def readBody (cfg : BulkConfig) (index : String) (exchange : Exchange) (retries : U16)
    (statusCode : U16) (body : Value) : Except ExporterError BatchResponse :=
  let items := bulkItems body
  let errorItems := items.filter isErrorItem
  let docCount := items.length - errorItems.length
  match logged ((statusCode != 200 && cfg.debugEnabled) || cfg.traceEnabled)
      exchange.saveResponses with
  | .error error => .error error
  | .ok _ =>
    match logged (0 < errorItems.length) exchange.saveBulkErrors with
    | .error error => .error error
    | .ok _ =>
      let response :=
        errorItems.foldl (recordRejection cfg index) (.new (BitVec.ofNat 32 docCount))
      .ok { response with
        errors := BitVec.ofNat 32 errorItems.length
        retries := retries
        statusCode := statusCode
        time := (((body.get "took").bind Value.asU64).getD 0).setWidth 32 }

/-- `parse_response`, on a reply that arrived in time. -/
def parseResponse (cfg : BulkConfig) (index : String) (exchange : Exchange) (retries : U16) :
    Except ExporterError BatchResponse :=
  match exchange.reply with
  | .timedOut =>
    .error (.fatal ("Timed out sending bulk request to " ++ cfg.url ++ " for index " ++ index))
  | .transportError message => .error (.fatal message)
  | .response statusCode body =>
    match statusRefusal index statusCode with
    | some error => .error error
    | none =>
      match body with
      | .error message => .error (.fatal message)
      | .ok body => readBody cfg index exchange retries statusCode body

/-- The retry loop from an attempt on, with `left` attempts allowed after it. -/
def sendAttempts (cfg : BulkConfig) (index : String) (batch : List Value)
    (exchanges : ℕ → Exchange) : (left attempt : ℕ) → (retries : U16) →
    Except String BatchResponse
  | left, attempt, retries =>
    match parseResponse cfg index (exchanges attempt) retries with
    | .ok response => .ok response
    | .error (.fatal message) => .error message
    | .error .rateLimited =>
      match left with
      | 0 => .ok { BatchResponse.failed (BitVec.ofNat 32 batch.length) 429 with
          retries := retries }
      | left + 1 => sendAttempts cfg index batch exchanges left (attempt + 1) (retries + 1)

def sendValueBatch (cfg : BulkConfig) (index : String) (batch : List Value)
    (exchanges : ℕ → Exchange) : Except String BatchResponse :=
  sendAttempts cfg index batch exchanges cfg.maxRetries.toNat 0 0

/-- The batches closed so far, the open batch and its estimated size. -/
structure SplitState where
  batches : List (List Value)
  batch : List Value
  batchBytes : BitVec 64

def splitStep (cfg : BulkConfig) (index : String) (state : SplitState) (value : Value) :
    SplitState :=
  let docBytes := cfg.bulkBytes.elim 0 fun _ => estimatedBulkValueBytes index value
  let exceedsCount : Bool := cfg.bulkSize ≤ state.batch.length
  let exceedsBytes : Bool := cfg.bulkBytes.any fun maxBytes =>
    !state.batch.isEmpty && decide (maxBytes < satAdd state.batchBytes docBytes)
  if exceedsCount || exceedsBytes then
    ⟨state.batches ++ [state.batch], [value], satAdd 0 docBytes⟩
  else ⟨state.batches, state.batch ++ [value], satAdd state.batchBytes docBytes⟩

def splitBatches (cfg : BulkConfig) (index : String) (values : List Value) :
    List (List Value) :=
  let state := values.foldl (splitStep cfg index) ⟨[], [], 0⟩
  if state.batch.isEmpty then state.batches else state.batches ++ [state.batch]

/-- The loop over the sub-batches from number `k` on. A failure after a partial
success counts the failed and the unsent documents as errors. -/
def sendBatches (cfg : BulkConfig) (index : String) (exchanges : ℕ → ℕ → Exchange) :
    ℕ → List (List Value) → BatchResponse → Except String BatchResponse
  | _, [], summary => .ok summary
  | k, batch :: rest, summary =>
    match sendValueBatch cfg index batch (exchanges k) with
    | .ok response => sendBatches cfg index exchanges (k + 1) rest (summary.merge response)
    | .error message =>
      if summary.batchCount = 0 then .error message
      else
        let unsentDocs := rest.foldl
          (fun count unsent => satAdd count (BitVec.ofNat 32 unsent.length)) 0#32
        let failedDocs := satAdd (BitVec.ofNat 32 batch.length) unsentDocs
        .ok (summary.merge (.failed failedDocs BatchResponse.httpRequestNotCompleted))

section Send

variable {T : Type*} (serialize : T → Except String Value)

def toValues : List T → Except String (List Value)
  | [] => .ok []
  | doc :: rest =>
    match serialize doc with
    | .error message => .error ("Failed to serialize document: " ++ message)
    | .ok value => (toValues rest).map (value :: ·)

def batchSend (cfg : BulkConfig) (index : String) (docs : List T)
    (exchanges : ℕ → ℕ → Exchange) : Except String BatchResponse :=
  match toValues serialize docs with
  | .error message => .error message
  | .ok values =>
    if values.isEmpty then .ok { BatchResponse.aggregate with statusCode := 200 }
    else sendBatches cfg index exchanges 0 (splitBatches cfg index values) .aggregate

/-- The response `batch_tx` sends on its one-shot channel. -/
def batchTx (cfg : BulkConfig) (index : String) (docs : List T)
    (exchanges : ℕ → ℕ → Exchange) : BatchResponse :=
  match batchSend serialize cfg index docs exchanges with
  | .ok response => response
  | .error _ =>
    .failed (BitVec.ofNat 32 docs.length) BatchResponse.httpRequestNotCompleted

/-- The direct caller, `send_batch_with_failed_response`, for this exporter. -/
def sendBatchWithFailedResponse (cfg : BulkConfig) (index : String) (docs : List T)
    (exchanges : ℕ → ℕ → Exchange) : BatchResponse :=
  match batchSend serialize cfg index docs exchanges with
  | .ok response => response
  | .error _ =>
    .failed (BitVec.ofNat 32 docs.length) BatchResponse.httpRequestNotCompleted

end Send

end Esdiag.BulkExport
