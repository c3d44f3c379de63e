import Esdiag.Texts
import Mathlib.Data.Nat.Digits.Lemmas

/-!
Collection from Kibana. An API is asked in every space, page by page where it has
pages, and each answer is saved as a file of its own. An attempt that fails is
repeated as a whole after a while; what it has saved and measured so far is
carried over by hand. Saving a file never ends an attempt: a file that cannot be
saved is logged and not counted.
-/
namespace Esdiag.KibanaCollection

/-- The numbers of the members of a response body, as far as it is an object. -/
abbrev Body := String → Option ℕ

structure Response where
  status : Option ℕ
  responseTimeMs : ℕ
  responseSizeBytes : ℕ
  body : Body

inductive Failure where
  | http (status responseTimeMs responseSizeBytes : ℕ)
  | transport (retryable : Bool)
  deriving DecidableEq

structure RequestedApi where
  status : Option ℕ
  retries : ℕ
  responseTimeMs : ℕ
  responseSizeBytes : ℕ
  deriving DecidableEq

/-- What a request comes to, and whether its file can be written. -/
structure PageAnswer where
  answer : Except Failure Response
  writable : Bool

structure ScopeScript where
  space : Option String
  pages : List PageAnswer

/-- What one attempt meets: whether the API exists in the version, and the scopes. -/
structure Attempt where
  version : Except Failure Bool
  scopes : List ScopeScript
  elapsedMs : ℕ
  expired : Bool

abbrev Path := List String

structure ApiScript where
  name : String
  baseFilePath : Path
  paginate : Option String
  attempts : List Attempt

inductive ArchiveExporter where
  | directory
  | zip
  deriving DecidableEq

/-- An answer that was received, and where it is saved. -/
structure Visit where
  space : Option String
  page : ℕ
  pageScope : Option ℕ
  response : Response
  writable : Bool

section Pages

def lookupPageSize (body : Body) (paginateField : String) : Option ℕ :=
  (body paginateField).or ((body "per_page").or (body "perPage"))

def divCeil (total perPage : ℕ) : ℕ := (total + perPage - 1) / perPage

def parseTotalPages (body : Body) (paginateField : String) (currentPage : ℕ) : Option ℕ := do
  let total ← body "total"
  let page := (body "page").getD currentPage
  let perPage ← lookupPageSize body paginateField
  if perPage = 0 then none else some (max page (divCeil total perPage))

/-- The decimal digits of a page, at least four of them. -/
def pageDigits (page : ℕ) : List ℕ :=
  (Nat.digits 10 page ++ List.replicate (4 - (Nat.digits 10 page).length) 0).reverse

def pageSegment (page : ℕ) : String :=
  String.ofList ("page-".toList ++ (pageDigits page).map Nat.digitChar)

def sanitizeSegment (segment : String) : String :=
  String.ofList (segment.toList.map fun c => if c = '/' ∨ c = '\\' ∨ c = ':' then '_' else c)

def scopedOutputPath (baseFilePath : Path) (space : Option String) (page : Option ℕ) : Path :=
  ((space.map fun space => ["spaces", sanitizeSegment space]).getD [] ++
    (page.map fun page => ["pages", pageSegment page]).getD []) ++ baseFilePath

/-- The components of a path; empty ones and the current directory are none. -/
def components (path : Path) : Path := path.filter fun segment => segment ≠ "" ∧ segment ≠ "."

end Pages

section Saving

/-- The parts of an entry name in an archive, with backslashes as separators. -/
def normalizeArchivePath (path : Path) : Option Path :=
  let parts := components (path.flatMap fun segment =>
    Texts.split '/' (String.ofList (segment.toList.map fun c => if c = '\\' then '/' else c)))
  if ".." ∈ parts ∨ parts = [] ∨ (parts.any fun part => Texts.endsWith part ":") then none
  else some parts

def validateRelativeOutputPath (path : Path) : Option Path :=
  if ".." ∈ path then none else some (components path)

def ArchiveExporter.entryName : ArchiveExporter → Path → Option Path
  | directory => validateRelativeOutputPath
  | zip => normalizeArchivePath

/-- Save a file. An archive refuses a name that it has already; a directory replaces the file. -/
def ArchiveExporter.save (exporter : ArchiveExporter) (path : Path) (writable : Bool)
    (files : List Path) : Option Path × List Path :=
  match exporter.entryName path with
  | none => (none, files)
  | some name =>
    if writable = false ∨ (exporter = .zip ∧ name ∈ files) then (none, files)
    else (some name, if name ∈ files then files else files ++ [name])

/-- The names that are counted as saved, of which there is one at most. -/
def saveContent (exporter : ArchiveExporter) (baseFilePath : Path) (space : Option String)
    (page : Option ℕ) (writable : Bool) (files : List Path) : List Path × List Path :=
  let (saved, files) := exporter.save (scopedOutputPath baseFilePath space page) writable files
  (saved.toList, files)

end Saving

section Requests

def requestedApiOf (response : Response) : RequestedApi where
  status := response.status
  retries := 0
  responseTimeMs := response.responseTimeMs
  responseSizeBytes := response.responseSizeBytes

def mergeRequestedApi (target : Option RequestedApi) (next : RequestedApi) : RequestedApi :=
  match target with
  | some current =>
    { current with
      status := next.status
      responseTimeMs := current.responseTimeMs + next.responseTimeMs
      responseSizeBytes := current.responseSizeBytes + next.responseSizeBytes }
  | none => next

/-- An error of an attempt, with what was collected before it. What is saved is carried by
name here, where the code carries the number. -/
inductive CollectError where
  | request (failure : Failure)
  | incomplete (source : CollectError) (requestedApi : Option RequestedApi) (saved : List Path)

namespace CollectError

def failure : CollectError → Failure
  | request failure => failure
  | incomplete source _ _ => source.failure

def saved : CollectError → List Path
  | request _ => []
  | incomplete _ _ saved => saved

def requestMetrics (error : CollectError) : Option ℕ × ℕ × ℕ :=
  match error.failure with
  | .http status responseTimeMs responseSizeBytes =>
    (some status, responseTimeMs, responseSizeBytes)
  | .transport _ => (none, 0, 0)

def completedMetrics : CollectError → ℕ × ℕ
  | request _ => (0, 0)
  | incomplete source requestedApi _ =>
    let nested := source.completedMetrics
    ((requestedApi.map RequestedApi.responseTimeMs).getD 0 + nested.1,
      (requestedApi.map RequestedApi.responseSizeBytes).getD 0 + nested.2)

end CollectError

def Failure.shouldRetry : Failure → Bool
  | http status _ _ => status = 408 || status = 429 || (500 ≤ status && status < 600)
  | transport retryable => retryable

def shouldRetryKibanaError (error : CollectError) : Bool := error.failure.shouldRetry

def fallbackResponseTimeMs (responseTimeMs attemptElapsedMs completedResponseTimeMs : ℕ) : ℕ :=
  if responseTimeMs = 0 then attemptElapsedMs - completedResponseTimeMs else responseTimeMs

variable (exporter : ArchiveExporter) (baseFilePath : Path)

/-- The loop over the pages of one scope. The result comes with the files and the answers
that were received; there is none while requests are still to be answered. -/
def savePages (paginateField : String) (space : Option String) (page totalPages : ℕ)
    (saved : List Path) (requestedApi : Option RequestedApi) (files : List Path) :
    List PageAnswer →
      Option (Except CollectError (RequestedApi × List Path) × List Path × List Visit)
  | [] => none
  | answered :: rest =>
    match answered.answer with
    | .error failure => some (.error (.incomplete (.request failure) requestedApi saved), files, [])
    | .ok response =>
      let totalPages := max totalPages ((parseTotalPages response.body paginateField page).getD page)
      let pageScope := if 1 < totalPages then some page else none
      let visit : Visit := ⟨space, page, pageScope, response, answered.writable⟩
      let (more, files) :=
        saveContent exporter baseFilePath space pageScope answered.writable files
      let saved := saved ++ more
      let requestedApi := mergeRequestedApi requestedApi (requestedApiOf response)
      if totalPages ≤ page then some (.ok (requestedApi, saved), files, [visit])
      else
        (savePages paginateField space (page + 1) totalPages saved (some requestedApi) files
          rest).map fun (result, files, visits) => (result, files, visit :: visits)

def saveEndpoint (paginate : Option String) (scope : ScopeScript) (files : List Path) :
    Option (Except CollectError (RequestedApi × List Path) × List Path × List Visit) :=
  match paginate with
  | some paginateField =>
    savePages exporter baseFilePath paginateField scope.space 1 1 [] none files scope.pages
  | none =>
    match scope.pages with
    | [] => none
    | answered :: _ =>
      match answered.answer with
      | .error failure => some (.error (.request failure), files, [])
      | .ok response =>
        let (saved, files) :=
          saveContent exporter baseFilePath scope.space none answered.writable files
        some (.ok (requestedApiOf response, saved), files,
          [⟨scope.space, 1, none, response, answered.writable⟩])

/-- The loop over the scopes of one attempt. -/
def saveScopes (paginate : Option String) (saved : List Path)
    (requestedApi : Option RequestedApi) (files : List Path) :
    List ScopeScript →
      Option (Except CollectError (Option RequestedApi × List Path) × List Path ×
        List (List Visit))
  | [] => some (.ok (requestedApi, saved), files, [])
  | scope :: rest =>
    match saveEndpoint exporter baseFilePath paginate scope files with
    | none => none
    | some (.error error, files, visits) =>
      some (.error (.incomplete error requestedApi (saved ++ error.saved)), files, [visits])
    | some (.ok (scopeRequestedApi, scopeSaved), files, visits) =>
      (saveScopes paginate (saved ++ scopeSaved)
        (some (mergeRequestedApi requestedApi scopeRequestedApi)) files rest).map
          fun (result, files, others) => (result, files, visits :: others)

structure ApiCollectOutcome where
  requestedApi : Option (String × RequestedApi)
  saved : List Path

def ApiCollectOutcome.skipped : ApiCollectOutcome := ⟨none, []⟩

/-- One attempt. -/
def saveApi (name : String) (paginate : Option String) (files : List Path) (attempt : Attempt) :
    Option (Except CollectError ApiCollectOutcome × List Path × List (List Visit)) :=
  match attempt.version with
  | .error failure => some (.error (.request failure), files, [])
  | .ok false => some (.ok .skipped, files, [])
  | .ok true =>
    match saveScopes exporter baseFilePath paginate [] none files attempt.scopes with
    | none => none
    | some (.error error, files, visits) => some (.error error, files, visits)
    | some (.ok (some requestedApi, saved), files, visits) =>
      some (.ok ⟨some (name, { requestedApi with retries := 0 }), saved⟩, files, visits)
    | some (.ok (none, _), files, visits) => some (.ok .skipped, files, visits)

/-- What the failed attempts leave to the next one. -/
structure Retried where
  retries : ℕ
  responseTimeMs : ℕ
  responseSizeBytes : ℕ
  saved : List Path

def Retried.none : Retried := ⟨0, 0, 0, []⟩

/-- The outcome of an API, with the files it leaves and the answers of the last attempt. -/
structure ApiRun where
  outcome : ApiCollectOutcome
  succeeded : Bool
  files : List Path
  visits : List (List Visit)

def Retried.add (retried : Retried) (error : CollectError) (attemptElapsedMs : ℕ) : Retried :=
  let (_, responseTimeMs, responseSizeBytes) := error.requestMetrics
  let (completedResponseTimeMs, completedResponseSizeBytes) := error.completedMetrics
  { retried with
    responseTimeMs := retried.responseTimeMs + (completedResponseTimeMs +
      fallbackResponseTimeMs responseTimeMs attemptElapsedMs completedResponseTimeMs)
    responseSizeBytes :=
      retried.responseSizeBytes + (completedResponseSizeBytes + responseSizeBytes)
    saved := retried.saved ++ error.saved }

def ApiCollectOutcome.withRetried (outcome : ApiCollectOutcome) (retried : Retried) :
    ApiCollectOutcome :=
  { outcome with
    requestedApi := outcome.requestedApi.map fun (name, requestedApi) =>
      (name, { requestedApi with
        retries := retried.retries
        responseTimeMs := requestedApi.responseTimeMs + retried.responseTimeMs
        responseSizeBytes := requestedApi.responseSizeBytes + retried.responseSizeBytes }) }

def failedWithSaved (name : String) (status : Option ℕ) (retried : Retried) : ApiCollectOutcome :=
  ⟨some (name, ⟨status, retried.retries, retried.responseTimeMs, retried.responseSizeBytes⟩),
    retried.saved⟩

def saveApiWithRetry (name : String) (paginate : Option String) (retried : Retried)
    (files : List Path) : List Attempt → Option ApiRun
  | [] => none
  | attempt :: rest =>
    match saveApi exporter baseFilePath name paginate files attempt with
    | none => none
    | some (.ok outcome, files, visits) =>
      some ⟨outcome.withRetried retried, true, files, visits⟩
    | some (.error error, files, visits) =>
      let retried := retried.add error attempt.elapsedMs
      if !shouldRetryKibanaError error || attempt.expired then
        some ⟨failedWithSaved name error.requestMetrics.1 retried, false, files, visits⟩
      else
        saveApiWithRetry name paginate { retried with retries := retried.retries + 1 } files rest

end Requests

section Collecting

variable (exporter : ArchiveExporter)

/-- The outcomes of the APIs; no two of them save to the same files. -/
def collectApis : List ApiScript → Option (List ApiRun)
  | [] => some []
  | script :: rest =>
    match saveApiWithRetry exporter script.baseFilePath script.name script.paginate .none []
      script.attempts with
    | none => none
    | some run => (collectApis rest).map fun runs => run :: runs

structure CollectionResult where
  success : ℕ
  total : ℕ
  deriving DecidableEq

/-- The collection, where it is reported: the manifest is saved last. -/
def collect (scripts : List ApiScript) (manifestSaved : Bool) :
    Option (CollectionResult × List ApiRun) :=
  match collectApis exporter scripts with
  | none => none
  | some runs =>
    if manifestSaved then
      some (⟨(runs.map fun run => run.outcome.saved.length).sum + 1, scripts.length + 1⟩, runs)
    else none

end Collecting

end Esdiag.KibanaCollection
