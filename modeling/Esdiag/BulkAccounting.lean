import Esdiag.BulkSplitting

/-!
What a bulk call counts, compared with what it was given. Every sub-batch has
an answer that can be read off its exchanges: it is counted from the items of
a body, dropped after too many refusals, or fatal. The counts of a whole call
are the saturating totals of these answers. They add up to the documents of
the call exactly when the bodies that arrived with an unlisted status have as
many items as the sub-batches they answer have documents.
-/
namespace Esdiag.BulkAccounting

open SaturatingCounters KeyedMaps BatchResponses JsonValues BulkExport

/-- What becomes of the documents of one sub-batch. A body is listed when it
came with status 200, the one status the match on status codes accepts. -/
inductive Answer where
  | fatal
  | dropped
  | counted (listed : Bool) (created rejected : ℕ)

def logsFail (cfg : BulkConfig) (exchange : Exchange) (statusCode : U16) (rejected : ℕ) : Bool :=
  (((statusCode != 200 && cfg.debugEnabled) || cfg.traceEnabled) &&
      !exchange.saveResponses.isOk) ||
    (decide (0 < rejected) && !exchange.saveBulkErrors.isOk)

def bodyAnswer (cfg : BulkConfig) (exchange : Exchange) (statusCode : U16) (body : Value) :
    Answer :=
  let rejected := ((bulkItems body).filter isErrorItem).length
  if logsFail cfg exchange statusCode rejected then .fatal
  else .counted (statusCode == 200) ((bulkItems body).length - rejected) rejected

/-- The answer of one attempt; none asks for another attempt. -/
def attemptAnswer (cfg : BulkConfig) (index : String) (exchange : Exchange) : Option Answer :=
  match exchange.reply with
  | .timedOut => some .fatal
  | .transportError _ => some .fatal
  | .response statusCode body =>
    match statusRefusal index statusCode, body with
    | some .rateLimited, _ => none
    | some (.fatal _), _ => some .fatal
    | none, .error _ => some .fatal
    | none, .ok body => some (bodyAnswer cfg exchange statusCode body)

def answerFrom (cfg : BulkConfig) (index : String) (exchanges : ℕ → Exchange) :
    (left attempt : ℕ) → Answer
  | left, attempt =>
    match attemptAnswer cfg index (exchanges attempt), left with
    | some answer, _ => answer
    | none, 0 => .dropped
    | none, left + 1 => answerFrom cfg index exchanges left (attempt + 1)

def subBatchAnswer (cfg : BulkConfig) (index : String) (exchanges : ℕ → Exchange) : Answer :=
  answerFrom cfg index exchanges cfg.maxRetries.toNat 0

/-- The documents a sub-batch adds to the created and the failed count. -/
structure Counts where
  created : U32
  failed : U32

namespace Answer

def counts (batch : List Value) : Answer → Option Counts
  | fatal => none
  | dropped => some ⟨0#32, BitVec.ofNat 32 batch.length⟩
  | counted _ created rejected => some ⟨BitVec.ofNat 32 created, BitVec.ofNat 32 rejected⟩

theorem counts_eq_none {batch : List Value} {answer : Answer}
    (h : answer.counts batch = none) : answer = fatal := by
  cases answer with
  | fatal => rfl
  | dropped => simp [counts] at h
  | counted listed created rejected => simp [counts] at h

end Answer

/-- A result of sending a sub-batch that agrees with the counts of its answer. -/
def Explains {ε : Type} (asFatal : String → ε) (result : Except ε BatchResponse) :
    Option Counts → Prop
  | none => ∃ message, result = .error (asFatal message)
  | some counts => ∃ response, result = .ok response ∧ response.batchCount = 1#32 ∧
      response.docs = counts.created ∧ response.errors = counts.failed

private theorem foldl_recordRejection (cfg : BulkConfig) (index : String) (items : List Value)
    (response : BatchResponse) :
    (items.foldl (recordRejection cfg index) response).docs = response.docs ∧
      (items.foldl (recordRejection cfg index) response).batchCount = response.batchCount := by
  induction items generalizing response with
  | nil => exact ⟨rfl, rfl⟩
  | cons item rest ih => exact ih (recordRejection cfg index response item)

private theorem logged_of_not_ok {needed : Bool} {result : Except String Unit} :
    (needed && !result.isOk) = true → ∃ message, logged needed result = .error (.fatal message) := by
  intro h
  cases result with
  | ok => simp [Except.isOk, Except.toBool] at h
  | error message =>
    cases needed with
    | false => simp at h
    | true => exact ⟨message, rfl⟩

private theorem logged_of_ok {needed : Bool} {result : Except String Unit} :
    (needed && !result.isOk) = false → logged needed result = .ok () := by
  intro h
  cases result with
  | ok => cases needed <;> rfl
  | error message =>
    cases needed with
    | false => rfl
    | true => simp [Except.isOk, Except.toBool] at h

theorem readBody_explained (cfg : BulkConfig) (index : String) (batch : List Value)
    (exchange : Exchange) (retries statusCode : U16) (body : Value) :
    Explains .fatal (readBody cfg index exchange retries statusCode body)
      ((bodyAnswer cfg exchange statusCode body).counts batch) := by
  unfold bodyAnswer readBody
  cases hresponses : (((statusCode != 200 && cfg.debugEnabled) || cfg.traceEnabled) &&
      !exchange.saveResponses.isOk) with
  | true =>
    obtain ⟨message, hlog⟩ := logged_of_not_ok hresponses
    simp only [logsFail, hresponses, Bool.true_or, if_true]
    exact ⟨message, by rw [hlog]⟩
  | false =>
    have hlog := logged_of_ok hresponses
    cases herrors : (decide (0 < ((bulkItems body).filter isErrorItem).length) &&
        !exchange.saveBulkErrors.isOk) with
    | true =>
      obtain ⟨message, hlog'⟩ := logged_of_not_ok herrors
      simp only [logsFail, hresponses, herrors, Bool.or_true, if_true]
      exact ⟨message, by simp only [hlog, hlog']⟩
    | false =>
      have hlog' := logged_of_ok herrors
      simp only [logsFail, hresponses, herrors, Bool.or_false, Bool.false_eq_true, if_false,
        hlog, hlog']
      obtain ⟨hdocs, hcount⟩ := foldl_recordRejection cfg index
        ((bulkItems body).filter isErrorItem)
        (.new (BitVec.ofNat 32
          ((bulkItems body).length - ((bulkItems body).filter isErrorItem).length)))
      exact ⟨_, rfl, hcount, hdocs, rfl⟩

/-- Parsing a reply either asks for another attempt, as its answer says, or
gives the result that its answer describes. -/
theorem parseResponse_explained (cfg : BulkConfig) (index : String) (batch : List Value)
    (exchange : Exchange) (retries : U16) :
    match attemptAnswer cfg index exchange with
    | none => parseResponse cfg index exchange retries = .error .rateLimited
    | some answer =>
      Explains .fatal (parseResponse cfg index exchange retries) (answer.counts batch) := by
  unfold attemptAnswer parseResponse
  cases exchange.reply with
  | timedOut => exact ⟨_, rfl⟩
  | transportError message => exact ⟨message, rfl⟩
  | response statusCode body =>
    cases hrefusal : statusRefusal index statusCode with
    | some error =>
      cases error with
      | rateLimited => simp only [hrefusal]
      | fatal message =>
        simp only [hrefusal]
        exact ⟨message, rfl⟩
    | none =>
      cases body with
      | error message =>
        simp only [hrefusal]
        exact ⟨message, rfl⟩
      | ok body =>
        simp only [hrefusal]
        exact readBody_explained cfg index batch exchange retries statusCode body

/-- An attempt with an answer ends the retry loop, whatever is left of it. -/
private theorem sendAttempts_of_answer {cfg : BulkConfig} {index : String} (batch : List Value)
    {exchanges : ℕ → Exchange} {attempt : ℕ} {answer : Answer} (left : ℕ) (retries : U16)
    (hanswer : attemptAnswer cfg index (exchanges attempt) = some answer) :
    Explains id (sendAttempts cfg index batch exchanges left attempt retries)
      (answer.counts batch) := by
  have hparse := parseResponse_explained cfg index batch (exchanges attempt) retries
  rw [hanswer] at hparse
  unfold sendAttempts
  cases hcounts : answer.counts batch with
  | none =>
    simp only [hcounts] at hparse
    obtain ⟨message, hresult⟩ := hparse
    exact ⟨message, by rw [hresult]; rfl⟩
  | some counts =>
    simp only [hcounts] at hparse
    obtain ⟨response, hresult, hcounted⟩ := hparse
    exact ⟨response, by rw [hresult], hcounted⟩

private theorem sendAttempts_explained (cfg : BulkConfig) (index : String) (batch : List Value)
    (exchanges : ℕ → Exchange) (left attempt : ℕ) (retries : U16) :
    Explains id (sendAttempts cfg index batch exchanges left attempt retries)
      ((answerFrom cfg index exchanges left attempt).counts batch) := by
  induction left generalizing attempt retries with
  | zero =>
    unfold answerFrom
    cases hanswer : attemptAnswer cfg index (exchanges attempt) with
    | some answer => exact sendAttempts_of_answer batch 0 retries hanswer
    | none =>
      have hparse := parseResponse_explained cfg index batch (exchanges attempt) retries
      rw [hanswer] at hparse
      unfold sendAttempts
      rw [hparse]
      exact ⟨_, rfl, rfl, rfl, rfl⟩
  | succ left ih =>
    unfold answerFrom
    cases hanswer : attemptAnswer cfg index (exchanges attempt) with
    | some answer => exact sendAttempts_of_answer batch (left + 1) retries hanswer
    | none =>
      have hparse := parseResponse_explained cfg index batch (exchanges attempt) retries
      rw [hanswer] at hparse
      unfold sendAttempts
      rw [hparse]
      exact ih (attempt + 1) (retries + 1)

theorem sendValueBatch_explained (cfg : BulkConfig) (index : String) (batch : List Value)
    (exchanges : ℕ → Exchange) :
    Explains id (sendValueBatch cfg index batch exchanges)
      ((subBatchAnswer cfg index exchanges).counts batch) :=
  sendAttempts_explained cfg index batch exchanges cfg.maxRetries.toNat 0 0

def unsentCounts (batches : List (List Value)) : List U32 :=
  batches.map fun unsent => BitVec.ofNat 32 unsent.length

private theorem foldl_unsent (batches : List (List Value)) :
    batches.foldl (fun count unsent => satAdd count (BitVec.ofNat 32 unsent.length)) 0#32 =
      satTotal (unsentCounts batches) := by
  rw [satTotal, unsentCounts, List.foldl_map]

/-- The counts merged by the loop over the sub-batches, one entry for each
sub-batch up to the first fatal one, whose entry covers all unsent documents. -/
def tally (cfg : BulkConfig) (index : String) (exchanges : ℕ → ℕ → Exchange) :
    ℕ → List (List Value) → List Counts
  | _, [] => []
  | k, batch :: rest =>
    match (subBatchAnswer cfg index (exchanges k)).counts batch with
    | none => [⟨0#32, satAdd (BitVec.ofNat 32 batch.length) (satTotal (unsentCounts rest))⟩]
    | some counts => counts :: tally cfg index exchanges (k + 1) rest

/-- Once one sub-batch was counted, the loop ends with a response, and its
counters are the running saturating totals of the tally. -/
theorem sendBatches_tally (cfg : BulkConfig) (index : String) (exchanges : ℕ → ℕ → Exchange)
    (batches : List (List Value)) (k : ℕ) (summary : BatchResponse)
    (hcounted : summary.batchCount ≠ 0) :
    ∃ response, sendBatches cfg index exchanges k batches summary = .ok response ∧
      response.docs = ((tally cfg index exchanges k batches).map Counts.created).foldl satAdd
        summary.docs ∧
      response.errors = ((tally cfg index exchanges k batches).map Counts.failed).foldl satAdd
        summary.errors := by
  induction batches generalizing k summary with
  | nil => exact ⟨summary, rfl, rfl, rfl⟩
  | cons batch rest ih =>
    have hsend := sendValueBatch_explained cfg index batch (exchanges k)
    unfold sendBatches tally
    cases hcounts : (subBatchAnswer cfg index (exchanges k)).counts batch with
    | none =>
      rw [hcounts] at hsend
      obtain ⟨message, hresult⟩ := hsend
      rw [hresult]
      simp only [id_eq, if_neg hcounted]
      refine ⟨_, rfl, rfl, ?_⟩
      rw [BatchResponse.merge_errors, foldl_unsent]
      rfl
    | some counts =>
      rw [hcounts] at hsend
      obtain ⟨response, hresult, hcount, hdocs, herrors⟩ := hsend
      rw [hresult]
      have hmerged : (summary.merge response).batchCount ≠ 0 :=
        summary.merge_batchCount_ne_zero response (by rw [hcount]; decide)
      obtain ⟨final, hfinal, hfinalDocs, hfinalErrors⟩ := ih (k + 1) _ hmerged
      refine ⟨final, hfinal, ?_, ?_⟩
      · rw [hfinalDocs, BatchResponse.merge_docs, hdocs]
        rfl
      · rw [hfinalErrors, BatchResponse.merge_errors, herrors]
        rfl

/-- A first sub-batch without counts fails the call; any other start succeeds
with the saturating totals of the tally. -/
theorem sendBatches_aggregate (cfg : BulkConfig) (index : String)
    (exchanges : ℕ → ℕ → Exchange) (batch : List Value) (rest : List (List Value)) :
    ((subBatchAnswer cfg index (exchanges 0)).counts batch = none ∧
      ∃ message, sendValueBatch cfg index batch (exchanges 0) = .error message ∧
        sendBatches cfg index exchanges 0 (batch :: rest) .aggregate = .error message) ∨
    ∃ response, sendBatches cfg index exchanges 0 (batch :: rest) .aggregate = .ok response ∧
      response.docs = satTotal ((tally cfg index exchanges 0 (batch :: rest)).map
        Counts.created) ∧
      response.errors = satTotal ((tally cfg index exchanges 0 (batch :: rest)).map
        Counts.failed) := by
  have hsend := sendValueBatch_explained cfg index batch (exchanges 0)
  cases hcounts : (subBatchAnswer cfg index (exchanges 0)).counts batch with
  | none =>
    rw [hcounts] at hsend
    obtain ⟨message, hresult⟩ := hsend
    refine Or.inl ⟨rfl, message, hresult, ?_⟩
    unfold sendBatches
    rw [hresult]
    rfl
  | some counts =>
    rw [hcounts] at hsend
    obtain ⟨response, hresult, hcount, hdocs, herrors⟩ := hsend
    have hmerged : (BatchResponse.aggregate.merge response).batchCount ≠ 0 :=
      BatchResponse.merge_batchCount_ne_zero _ response (by rw [hcount]; decide)
    obtain ⟨final, hfinal, hfinalDocs, hfinalErrors⟩ :=
      sendBatches_tally cfg index exchanges rest 1 _ hmerged
    refine Or.inr ⟨final, ?_, ?_, ?_⟩
    · unfold sendBatches
      rw [hresult]
      exact hfinal
    · rw [hfinalDocs, BatchResponse.merge_docs, hdocs, tally, hcounts]
      rfl
    · rw [hfinalErrors, BatchResponse.merge_errors, herrors, tally, hcounts]
      rfl

/-- Sub-batches answered with a status outside the match, before the first
fatal one: the documents submitted and the items counted. -/
def unlistedAnswers (cfg : BulkConfig) (index : String) (exchanges : ℕ → ℕ → Exchange) :
    ℕ → List (List Value) → List (ℕ × ℕ)
  | _, [] => []
  | k, batch :: rest =>
    match subBatchAnswer cfg index (exchanges k) with
    | .fatal => []
    | .dropped => unlistedAnswers cfg index exchanges (k + 1) rest
    | .counted true _ _ => unlistedAnswers cfg index exchanges (k + 1) rest
    | .counted false created rejected =>
      (batch.length, created % 2 ^ 32 + rejected % 2 ^ 32) ::
        unlistedAnswers cfg index exchanges (k + 1) rest

def unlistedDocs (answers : List (ℕ × ℕ)) : ℕ := (answers.map Prod.fst).sum

def unlistedItems (answers : List (ℕ × ℕ)) : ℕ := (answers.map Prod.snd).sum

/-- What a body of status 200 promises: one item for each document of the
sub-batch it answers. -/
def OneItemPerDocument (exchanges : ℕ → ℕ → Exchange) (batches : List (List Value)) : Prop :=
  ∀ k batch, batches[k]? = some batch → ∀ attempt body,
    (exchanges k attempt).reply = .response 200 (.ok body) →
      (bulkItems body).length = batch.length

theorem attemptAnswer_counted {cfg : BulkConfig} {index : String} {exchange : Exchange}
    {created rejected : ℕ}
    (hanswer : attemptAnswer cfg index exchange = some (.counted true created rejected)) :
    ∃ body, exchange.reply = .response 200 (.ok body) ∧
      created + rejected = (bulkItems body).length := by
  unfold attemptAnswer at hanswer
  cases hreply : exchange.reply with
  | timedOut => simp [hreply] at hanswer
  | transportError message => simp [hreply] at hanswer
  | response statusCode body =>
    cases hrefusal : statusRefusal index statusCode with
    | some error => cases error <;> simp [hreply, hrefusal] at hanswer
    | none =>
      cases body with
      | error message => simp [hreply, hrefusal] at hanswer
      | ok body =>
        simp only [hreply, hrefusal, Option.some.injEq, bodyAnswer] at hanswer
        split at hanswer
        · exact absurd hanswer (by simp)
        · simp only [Answer.counted.injEq, beq_iff_eq] at hanswer
          obtain ⟨hstatus, hcreated, hrejected⟩ := hanswer
          have hle := List.length_filter_le isErrorItem (bulkItems body)
          exact ⟨body, by rw [hstatus], by omega⟩

theorem answerFrom_counted {cfg : BulkConfig} {index : String} {exchanges : ℕ → Exchange}
    {left attempt created rejected : ℕ}
    (hanswer : answerFrom cfg index exchanges left attempt = .counted true created rejected) :
    ∃ last body, (exchanges last).reply = .response 200 (.ok body) ∧
      created + rejected = (bulkItems body).length := by
  induction left generalizing attempt with
  | zero =>
    unfold answerFrom at hanswer
    cases hattempt : attemptAnswer cfg index (exchanges attempt) with
    | none => simp [hattempt] at hanswer
    | some answer =>
      simp only [hattempt] at hanswer
      subst hanswer
      exact ⟨attempt, attemptAnswer_counted hattempt⟩
  | succ left ih =>
    unfold answerFrom at hanswer
    cases hattempt : attemptAnswer cfg index (exchanges attempt) with
    | none =>
      simp only [hattempt] at hanswer
      exact ih hanswer
    | some answer =>
      simp only [hattempt] at hanswer
      subst hanswer
      exact ⟨attempt, attemptAnswer_counted hattempt⟩

private theorem oneItemPerDocument_tail {exchanges : ℕ → ℕ → Exchange} {k : ℕ}
    {batch : List Value} {rest : List (List Value)}
    (hitems : OneItemPerDocument (fun j => exchanges (k + j)) (batch :: rest)) :
    OneItemPerDocument (fun j => exchanges (k + 1 + j)) rest := by
  intro j other hother attempt body hreply
  refine hitems (j + 1) other (by simpa using hother) attempt body ?_
  have hindex : k + (j + 1) = k + 1 + j := by omega
  simpa only [hindex] using hreply

/-- The documents of a list of sub-batches. -/
def submitted (batches : List (List Value)) : ℕ := (batches.map List.length).sum

@[simp] theorem submitted_nil : submitted [] = 0 := rfl

@[simp] theorem submitted_cons (batch : List Value) (rest : List (List Value)) :
    submitted (batch :: rest) = batch.length + submitted rest := by
  simp [submitted]

theorem exactTotal_unsentCounts (batches : List (List Value)) (h : submitted batches < 2 ^ 32) :
    exactTotal (unsentCounts batches) = submitted batches := by
  induction batches with
  | nil => rfl
  | cons batch rest ih =>
    rw [submitted_cons] at h
    have hrest := ih (by omega)
    simp only [unsentCounts, List.map_cons, exactTotal_cons] at hrest ⊢
    rw [submitted_cons, hrest, BitVec.toNat_ofNat, Nat.mod_eq_of_lt (by omega)]

def createdTotal (counts : List Counts) : ℕ := exactTotal (counts.map Counts.created)

def failedTotal (counts : List Counts) : ℕ := exactTotal (counts.map Counts.failed)

@[simp] theorem createdTotal_cons (counts : Counts) (rest : List Counts) :
    createdTotal (counts :: rest) = counts.created.toNat + createdTotal rest := by
  simp [createdTotal]

@[simp] theorem failedTotal_cons (counts : Counts) (rest : List Counts) :
    failedTotal (counts :: rest) = counts.failed.toNat + failedTotal rest := by
  simp [failedTotal]

/-- The exact balance of a call: the counted documents differ from the
submitted ones by what the unlisted answers report wrongly. -/
theorem tally_balance (cfg : BulkConfig) (index : String) (exchanges : ℕ → ℕ → Exchange)
    (batches : List (List Value)) (k : ℕ) (hsize : submitted batches < 2 ^ 32)
    (hitems : OneItemPerDocument (fun j => exchanges (k + j)) batches) :
    createdTotal (tally cfg index exchanges k batches) +
        failedTotal (tally cfg index exchanges k batches) +
        unlistedDocs (unlistedAnswers cfg index exchanges k batches) =
      submitted batches + unlistedItems (unlistedAnswers cfg index exchanges k batches) := by
  induction batches generalizing k with
  | nil => rfl
  | cons batch rest ih =>
    rw [submitted_cons] at hsize ⊢
    have hlength : (BitVec.ofNat 32 batch.length).toNat = batch.length := by
      rw [BitVec.toNat_ofNat, Nat.mod_eq_of_lt (by omega)]
    have hrest := ih (k + 1) (by omega) (oneItemPerDocument_tail hitems)
    unfold tally unlistedAnswers
    cases hanswer : subBatchAnswer cfg index (exchanges k) with
    | fatal =>
      have hunsent := exactTotal_unsentCounts rest (by omega)
      have htotal : (satTotal (unsentCounts rest)).toNat = exactTotal (unsentCounts rest) :=
        toNat_satTotal_of_lt (by omega)
      have hfailed := toNat_satAdd_of_lt (a := BitVec.ofNat 32 batch.length)
        (b := satTotal (unsentCounts rest)) (by omega)
      simp only [Answer.counts, createdTotal_cons, failedTotal_cons]
      rw [hfailed, hlength, htotal, hunsent]
      simp [createdTotal, failedTotal, unlistedDocs, unlistedItems]
    | dropped =>
      simp only [Answer.counts, createdTotal_cons, failedTotal_cons]
      rw [hlength, BitVec.toNat_ofNat, Nat.zero_mod]
      omega
    | counted listed created rejected =>
      cases listed with
      | true =>
        obtain ⟨last, body, hreply, hsum⟩ := answerFrom_counted hanswer
        have hone := hitems 0 batch rfl last body hreply
        simp only [Answer.counts, createdTotal_cons, failedTotal_cons, BitVec.toNat_ofNat]
        rw [Nat.mod_eq_of_lt (a := created) (by omega), Nat.mod_eq_of_lt (a := rejected) (by omega)]
        omega
      | false =>
        simp only [Answer.counts, createdTotal_cons, failedTotal_cons, BitVec.toNat_ofNat,
          unlistedDocs, unlistedItems, List.map_cons, List.sum_cons] at hrest ⊢
        omega

private theorem satTotals_singleton (count : ℕ) :
    (satTotal ([⟨0#32, BitVec.ofNat 32 count⟩].map Counts.created)).toNat +
      (satTotal ([⟨0#32, BitVec.ofNat 32 count⟩].map Counts.failed)).toNat = count ↔
        count < 2 ^ 32 := by
  simp only [List.map_cons, List.map_nil, toNat_satTotal, exactTotal_cons, exactTotal_nil,
    BitVec.toNat_ofNat, maxCount]
  omega

/-- A first sub-batch with a fatal answer leaves a tally that covers all
documents, as far as they fit the counter. -/
private theorem satTotals_of_fatal {cfg : BulkConfig} {index : String}
    (exchanges : ℕ → ℕ → Exchange) {batch : List Value} (rest : List (List Value))
    (hfatal : subBatchAnswer cfg index (exchanges 0) = .fatal) :
    (satTotal ((tally cfg index exchanges 0 (batch :: rest)).map Counts.created)).toNat +
      (satTotal ((tally cfg index exchanges 0 (batch :: rest)).map Counts.failed)).toNat =
        submitted (batch :: rest) ↔ submitted (batch :: rest) < 2 ^ 32 := by
  simp only [tally, hfatal, Answer.counts, List.map_cons, List.map_nil, toNat_satTotal,
    exactTotal_cons, exactTotal_nil, BitVec.toNat_ofNat, toNat_satAdd, maxCount, submitted_cons]
  have hunsent := exactTotal_unsentCounts rest
  omega

theorem submitted_splitBatches (cfg : BulkConfig) (index : String) (values : List Value) :
    submitted (splitBatches cfg index values) = values.length := by
  rw [submitted, ← List.length_flatten, BulkSplitting.splitBatches_flatten]

section Call

variable {T : Type} (serialize : T → Except String Value)

theorem toValues_length {docs : List T} {values : List Value}
    (hvalues : toValues serialize docs = .ok values) : values.length = docs.length := by
  induction docs generalizing values with
  | nil =>
    simp only [toValues, Except.ok.injEq] at hvalues
    rw [← hvalues]
    rfl
  | cons doc rest ih =>
    unfold toValues at hvalues
    cases hdoc : serialize doc with
    | error message => simp [hdoc] at hvalues
    | ok value =>
      cases hrest : toValues serialize rest with
      | error message => simp [hdoc, hrest, Except.map] at hvalues
      | ok others =>
        simp only [hdoc, hrest, Except.map, Except.ok.injEq] at hvalues
        rw [← hvalues, List.length_cons, List.length_cons, ih hrest]

/-- The sub-batches a call goes through; none when a document cannot be serialized. -/
def subBatches (cfg : BulkConfig) (index : String) (docs : List T) : List (List Value) :=
  match toValues serialize docs with
  | .error _ => []
  | .ok values => splitBatches cfg index values

def callTally (cfg : BulkConfig) (index : String) (docs : List T)
    (exchanges : ℕ → ℕ → Exchange) : List Counts :=
  match toValues serialize docs with
  | .error _ => [⟨0#32, BitVec.ofNat 32 docs.length⟩]
  | .ok values => tally cfg index exchanges 0 (splitBatches cfg index values)

def callUnlistedAnswers (cfg : BulkConfig) (index : String) (docs : List T)
    (exchanges : ℕ → ℕ → Exchange) : List (ℕ × ℕ) :=
  unlistedAnswers cfg index exchanges 0 (subBatches serialize cfg index docs)

/-- The documents created by the sub-batches that were answered before the
first one whose result is an error. -/
def createdBeforeFailure (cfg : BulkConfig) (index : String) (exchanges : ℕ → ℕ → Exchange) :
    ℕ → List (List Value) → ℕ
  | _, [] => 0
  | k, batch :: rest =>
    match sendValueBatch cfg index batch (exchanges k) with
    | .error _ => 0
    | .ok response =>
      response.docs.toNat + createdBeforeFailure cfg index exchanges (k + 1) rest

def AccountsFor (count : ℕ) (response : BatchResponse) : Prop :=
  response.docs.toNat + response.errors.toNat = count

instance (count : ℕ) (response : BatchResponse) : Decidable (AccountsFor count response) :=
  inferInstanceAs (Decidable (_ = _))

/-- A call loses no count: a merged response accounts for every document. After
an error both callers account for every document, all of them as failed, and
none of those had been created by an earlier sub-batch. -/
structure NoCountLost (cfg : BulkConfig) (index : String) (docs : List T)
    (exchanges : ℕ → ℕ → Exchange) : Prop where
  merged : ∀ response, batchSend serialize cfg index docs exchanges = .ok response →
    AccountsFor docs.length response
  callers : ∀ message, batchSend serialize cfg index docs exchanges = .error message →
    AccountsFor docs.length (batchTx serialize cfg index docs exchanges) ∧
    AccountsFor docs.length (sendBatchWithFailedResponse serialize cfg index docs exchanges) ∧
    createdBeforeFailure cfg index exchanges 0 (subBatches serialize cfg index docs) = 0

/-- Below 2^32 - 1 documents, the unlisted answers hold one item per document
overall. From there on the counters can saturate, and the created and the
failed count, each cut off at the top, have to add up all the same. -/
def UnlistedAnswersComplete (cfg : BulkConfig) (index : String) (docs : List T)
    (exchanges : ℕ → ℕ → Exchange) : Prop :=
  if docs.length < 2 ^ 32 - 1 then
    unlistedItems (callUnlistedAnswers serialize cfg index docs exchanges) =
      unlistedDocs (callUnlistedAnswers serialize cfg index docs exchanges)
  else
    (satTotal ((callTally serialize cfg index docs exchanges).map Counts.created)).toNat +
      (satTotal ((callTally serialize cfg index docs exchanges).map Counts.failed)).toNat =
        docs.length

instance (cfg : BulkConfig) (index : String) (docs : List T) (exchanges : ℕ → ℕ → Exchange) :
    Decidable (UnlistedAnswersComplete serialize cfg index docs exchanges) :=
  inferInstanceAs (Decidable (ite (docs.length < 2 ^ 32 - 1) (_ = _) (_ = _)))

/-- A failed call without a trace: no sub-batch counted anything before the
failure, and its tally adds up whenever the documents fit a counter. -/
def FailsUncounted (cfg : BulkConfig) (index : String) (docs : List T)
    (exchanges : ℕ → ℕ → Exchange) : Prop :=
  createdBeforeFailure cfg index exchanges 0 (subBatches serialize cfg index docs) = 0 ∧
    callUnlistedAnswers serialize cfg index docs exchanges = [] ∧
    ((satTotal ((callTally serialize cfg index docs exchanges).map Counts.created)).toNat +
      (satTotal ((callTally serialize cfg index docs exchanges).map Counts.failed)).toNat =
        docs.length ↔ docs.length < 2 ^ 32)

theorem batchSend_cases (cfg : BulkConfig) (index : String) (docs : List T)
    (exchanges : ℕ → ℕ → Exchange) :
    (∃ message, batchSend serialize cfg index docs exchanges = .error message ∧
      FailsUncounted serialize cfg index docs exchanges) ∨
    ∃ response, batchSend serialize cfg index docs exchanges = .ok response ∧
      response.docs =
        satTotal ((callTally serialize cfg index docs exchanges).map Counts.created) ∧
      response.errors =
        satTotal ((callTally serialize cfg index docs exchanges).map Counts.failed) := by
  unfold batchSend FailsUncounted callUnlistedAnswers callTally subBatches
  cases hvalues : toValues serialize docs with
  | error reason => exact Or.inl ⟨reason, rfl, rfl, rfl, satTotals_singleton docs.length⟩
  | ok values =>
    have hsize := submitted_splitBatches cfg index values
    rw [toValues_length serialize hvalues] at hsize
    by_cases hempty : values = []
    · subst hempty
      exact Or.inr ⟨_, rfl, rfl, rfl⟩
    · have hnonempty : values.isEmpty = false := by simpa using hempty
      simp only [hnonempty, Bool.false_eq_true, if_false]
      cases hsplit : splitBatches cfg index values with
      | nil => exact Or.inr ⟨.aggregate, rfl, rfl, rfl⟩
      | cons batch rest =>
        rw [hsplit] at hsize
        rcases sendBatches_aggregate cfg index exchanges batch rest with
          ⟨hcounts, reason, hsend, hresult⟩ | hsuccess
        · refine Or.inl ⟨reason, hresult, ?_, ?_, ?_⟩
          · simp only [createdBeforeFailure, hsend]
          · simp only [unlistedAnswers, Answer.counts_eq_none hcounts]
          · rw [← hsize]
            exact satTotals_of_fatal exchanges rest (Answer.counts_eq_none hcounts)
        · exact Or.inr hsuccess

/-- The exact balance of the whole call, for as many documents as a counter holds. -/
theorem callTally_balance {cfg : BulkConfig} {index : String} {docs : List T}
    {exchanges : ℕ → ℕ → Exchange} (hsize : docs.length < 2 ^ 32)
    (hitems : OneItemPerDocument exchanges (subBatches serialize cfg index docs)) :
    createdTotal (callTally serialize cfg index docs exchanges) +
        failedTotal (callTally serialize cfg index docs exchanges) +
        unlistedDocs (callUnlistedAnswers serialize cfg index docs exchanges) =
      docs.length + unlistedItems (callUnlistedAnswers serialize cfg index docs exchanges) := by
  unfold callTally callUnlistedAnswers subBatches at *
  cases hvalues : toValues serialize docs with
  | error reason =>
    simp only [createdTotal_cons, failedTotal_cons, BitVec.toNat_ofNat, Nat.mod_eq_of_lt hsize]
    simp [createdTotal, failedTotal, unlistedAnswers, unlistedDocs, unlistedItems]
  | ok values =>
    rw [hvalues] at hitems
    have hsubmitted := submitted_splitBatches cfg index values
    rw [toValues_length serialize hvalues] at hsubmitted
    have hbalance := tally_balance cfg index exchanges (splitBatches cfg index values) 0
      (by omega) (by simpa only [Nat.zero_add] using hitems)
    rw [hsubmitted] at hbalance
    exact hbalance

/-- The tally adds up to the documents exactly when no unlisted answer spoils it. -/
theorem callTally_complete_iff {cfg : BulkConfig} {index : String} {docs : List T}
    {exchanges : ℕ → ℕ → Exchange}
    (hitems : OneItemPerDocument exchanges (subBatches serialize cfg index docs)) :
    (satTotal ((callTally serialize cfg index docs exchanges).map Counts.created)).toNat +
      (satTotal ((callTally serialize cfg index docs exchanges).map Counts.failed)).toNat =
        docs.length ↔ UnlistedAnswersComplete serialize cfg index docs exchanges := by
  unfold UnlistedAnswersComplete
  split
  · rename_i hsmall
    have hbalance := callTally_balance serialize (by omega) hitems
    rw [toNat_satTotal, toNat_satTotal]
    simp only [createdTotal, failedTotal, maxCount] at hbalance ⊢
    omega
  · exact Iff.rfl

/-- Bulk counts are complete exactly when the unlisted answers are. -/
theorem noCountLost_iff (cfg : BulkConfig) (index : String) (docs : List T)
    (exchanges : ℕ → ℕ → Exchange)
    (hitems : OneItemPerDocument exchanges (subBatches serialize cfg index docs)) :
    NoCountLost serialize cfg index docs exchanges ↔
      UnlistedAnswersComplete serialize cfg index docs exchanges := by
  rw [← callTally_complete_iff serialize hitems]
  rcases batchSend_cases serialize cfg index docs exchanges with
    ⟨message, herror, hbefore, -, htotals⟩ | ⟨response, hresponse, hdocs, herrors⟩
  · rw [htotals]
    constructor
    · intro hlost
      have hfailed := (hlost.callers message herror).1
      unfold batchTx at hfailed
      rw [herror] at hfailed
      change 0 + docs.length % 2 ^ 32 = docs.length at hfailed
      omega
    · intro hsize
      have hfailed : AccountsFor docs.length
          (.failed (BitVec.ofNat 32 docs.length) BatchResponse.httpRequestNotCompleted) := by
        change 0 + docs.length % 2 ^ 32 = docs.length
        omega
      refine ⟨fun response hresponse => ?_, fun _ _ => ⟨?_, ?_, hbefore⟩⟩
      · rw [herror] at hresponse
        exact absurd hresponse (by simp)
      · unfold batchTx
        rwa [herror]
      · unfold sendBatchWithFailedResponse
        rwa [herror]
  · rw [← hdocs, ← herrors]
    constructor
    · intro hlost
      exact hlost.merged response hresponse
    · intro htotal
      refine ⟨fun other hother => ?_, fun message herror => ?_⟩
      · rw [hresponse, Except.ok.injEq] at hother
        rwa [← hother]
      · rw [hresponse] at herror
        exact absurd herror (by simp)

end Call

section Samples

/-- Two documents a sub-batch, and one attempt after a refusal. -/
def pairConfig : BulkConfig :=
  { url := "http://localhost:9200/"
    bulkSizeSetting := 2
    bulkBytesSetting := 0
    maxRetries := 1
    debugEnabled := false
    traceEnabled := false
    isDate := fun _ => false }

def itemWith (status : ℕ) : Value :=
  .object [("create", .object [("status", .number (.posInt status))])]

def exchangeWith (statusCode : U16) (items : List Value) : Exchange :=
  { reply := .response statusCode (.ok (.object [("items", .array items)]))
    saveResponses := .ok ()
    saveBulkErrors := .ok () }

/-- The first sub-batch is answered at its second attempt, with a rejected document; the second one
with an unlisted status; the third one is refused until it is dropped; and the fourth one fails. -/
def unevenExchanges : ℕ → ℕ → Exchange
  | 0, 0 => exchangeWith 429 []
  | 0, _ + 1 => exchangeWith 200 [itemWith 201, itemWith 400]
  | 1, _ => exchangeWith 202 [itemWith 201, itemWith 201]
  | 2, _ => exchangeWith 429 []
  | _ + 3, _ => exchangeWith 503 []

def nineDocuments : List Value := List.replicate 9 .null

theorem unevenExchanges_oneItemPerDocument : OneItemPerDocument unevenExchanges
    (subBatches Except.ok pairConfig "settings" nineDocuments) := by
  intro k batch hbatch attempt body hreply
  rcases k with _ | _ | _ | k
  · cases attempt with
    | zero => simp [unevenExchanges, exchangeWith] at hreply
    | succ attempt =>
      have hfirst : some [Value.null, Value.null] = some batch := hbatch
      simp only [unevenExchanges, exchangeWith, Reply.response.injEq, Except.ok.injEq,
        true_and] at hreply
      rw [← hreply, ← Option.some.inj hfirst]
      rfl
  all_goals simp [unevenExchanges, exchangeWith] at hreply

/-- No document is lost from the counts, with a sub-batch that fails and one that is not sent. -/
theorem created_document_counted :
    NoCountLost Except.ok pairConfig "settings" nineDocuments unevenExchanges :=
  (noCountLost_iff Except.ok pairConfig "settings" nineDocuments unevenExchanges
    unevenExchanges_oneItemPerDocument).mpr (by decide)

/-- A server that gives up with status 408 and sends no items. -/
def timeoutExchange : Exchange :=
  { reply := .response 408 (.ok (.object []))
    saveResponses := .ok ()
    saveBulkErrors := .ok () }

/-- The call returns a response that counts the document neither as created
nor as failed. -/
theorem request_timeout_loses_count :
    OneItemPerDocument (fun _ _ => timeoutExchange)
      (subBatches Except.ok pairConfig "settings" [Value.null]) ∧
    ¬ NoCountLost Except.ok pairConfig "settings" [Value.null] (fun _ _ => timeoutExchange) := by
  refine ⟨fun k batch _ attempt body hreply => ?_, fun hlost => ?_⟩
  · simp [timeoutExchange] at hreply
  · have htotal := hlost.merged _ rfl
    exact absurd htotal (by decide)

end Samples

end Esdiag.BulkAccounting
