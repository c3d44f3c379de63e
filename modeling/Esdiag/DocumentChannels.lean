import Esdiag.Reports

/-!
The channel of documents into an exporter. Documents are received one at a time
and handed over in batches; a batch is refused at once or accepted, and a task
of its own answers an accepted batch later or ends without an answer. When the
input is closed and drained, the last partial batch is handed over and the
answers are awaited in the order of the batches. The producer, the consumer and
the tasks take their steps in any order.
-/
namespace Esdiag.DocumentChannels

open SaturatingCounters BatchResponses Reports

/-- A use of the channel, with what becomes of each batch by its number. No reply is a
response channel that is closed without an answer. -/
structure Export where
  index : String
  batchSize : ℕ
  documentSize : ℕ
  capacity : ℕ
  capacity_pos : 0 < capacity
  failedRequestStatus : U16
  accepts : ℕ → Bool
  reply : ℕ → Option BatchResponse

/-- The accumulator is allocated first, which panics above the largest allocation. -/
def Export.overflows (env : Export) : Bool := 2 ^ 63 ≤ env.batchSize * env.documentSize

structure Consumer (T : Type*) where
  summary : ProcessorSummary
  accumulator : List T
  sent : List (List T)
  batchReceivers : List ℕ

section Consumer

variable {T : Type*} (env : Export)

def Consumer.new : Consumer T := ⟨.new env.index, [], [], []⟩

/-- Hand a batch over; a refused one is counted as failed. -/
def tx (batch : List T) (consumer : Consumer T) : Consumer T :=
  let number := consumer.sent.length
  let sent := consumer.sent ++ [batch]
  if env.accepts number then
    { consumer with sent, accumulator := []
                    batchReceivers := consumer.batchReceivers ++ [number] }
  else
    { consumer with sent, accumulator := []
                    summary := consumer.summary.addBatch
                      (.failed (BitVec.ofNat 32 batch.length) env.failedRequestStatus) }

def receive (consumer : Consumer T) (doc : T) : Consumer T :=
  let accumulator := consumer.accumulator ++ [doc]
  if env.batchSize ≤ accumulator.length then tx env accumulator consumer
  else { consumer with accumulator }

def sendPartial (consumer : Consumer T) : Consumer T :=
  if consumer.accumulator.isEmpty then consumer else tx env consumer.accumulator consumer

/-- Take in the answer of a batch; a closed channel leaves only a warning in the log. -/
def collect (summary : ProcessorSummary) (number : ℕ) : ProcessorSummary :=
  match env.reply number with
  | some response => summary.addBatch response
  | none => summary

def collectAll (consumer : Consumer T) : Consumer T :=
  { consumer with
    summary := consumer.batchReceivers.foldl (collect env) consumer.summary
    batchReceivers := [] }

/-- The consumer run on its own, over all documents of the channel. -/
def documentChannel (documents : List T) : Option (Consumer T) :=
  if env.overflows then none
  else some (collectAll env (sendPartial env (documents.foldl (receive env) (.new env))))

end Consumer

inductive Phase where
  | receiving
  | collecting
  | returned

/-- The channel between its producer, its consumer and the tasks of the batches. -/
structure System (T : Type*) where
  buffer : List T
  senderOpen : Bool
  documents : List T
  answered : List ℕ
  consumer : Consumer T
  phase : Phase

section Runs

variable {T : Type*} (env : Export)

def System.start : System T := ⟨[], true, [], [], .new env, .receiving⟩

inductive Step : System T → System T → Prop
  | send (s : System T) (doc : T) (hopen : s.senderOpen = true)
      (hroom : s.buffer.length < env.capacity) :
    Step s { s with buffer := s.buffer ++ [doc], documents := s.documents ++ [doc] }
  | close (s : System T) : Step s { s with senderOpen := false }
  | receive (s : System T) (doc : T) (rest : List T) (hphase : s.phase = .receiving)
      (hbuffer : s.buffer = doc :: rest) :
    Step s { s with buffer := rest, consumer := receive env s.consumer doc }
  | finish (s : System T) (hphase : s.phase = .receiving) (hbuffer : s.buffer = [])
      (hclosed : s.senderOpen = false) :
    Step s { s with consumer := sendPartial env s.consumer, phase := .collecting }
  | answer (s : System T) (number : ℕ) (hpending : number ∈ s.consumer.batchReceivers) :
    Step s { s with answered := number :: s.answered }
  | collect (s : System T) (number : ℕ) (rest : List ℕ) (hphase : s.phase = .collecting)
      (hreceivers : s.consumer.batchReceivers = number :: rest)
      (hanswered : number ∈ s.answered) :
    Step s { s with consumer := { s.consumer with
      summary := collect env s.consumer.summary number, batchReceivers := rest } }
  | returned (s : System T) (hphase : s.phase = .collecting)
      (hreceivers : s.consumer.batchReceivers = []) :
    Step s { s with phase := .returned }

inductive Run : System T → Prop
  | start (hfits : env.overflows = false) : Run (.start env)
  | step {s t : System T} (hrun : Run s) (hstep : Step env s t) : Run t

/-- What the consumer has done so far, by its phase. -/
def Consistent (s : System T) : Prop :=
  match s.phase with
  | .receiving => ∃ taken, s.documents = taken ++ s.buffer ∧
      s.consumer = taken.foldl (receive env) (.new env)
  | .collecting => s.buffer = [] ∧ s.senderOpen = false ∧
      collectAll env s.consumer =
        collectAll env (sendPartial env (s.documents.foldl (receive env) (.new env)))
  | .returned => s.buffer = [] ∧ s.senderOpen = false ∧
      s.consumer = collectAll env (sendPartial env (s.documents.foldl (receive env) (.new env)))

variable {env}

theorem Step.consistent {s t : System T} (hstep : Step env s t) (hs : Consistent env s) :
    Consistent env t := by
  cases hstep with
  | send doc hopen hroom =>
    unfold Consistent at hs ⊢
    cases hphase : s.phase with
    | receiving =>
      simp only [hphase] at hs ⊢
      obtain ⟨taken, hdocuments, hconsumer⟩ := hs
      exact ⟨taken, by rw [hdocuments, List.append_assoc], hconsumer⟩
    | collecting =>
      simp only [hphase] at hs
      rw [hs.2.1] at hopen
      cases hopen
    | returned =>
      simp only [hphase] at hs
      rw [hs.2.1] at hopen
      cases hopen
  | close =>
    unfold Consistent at hs ⊢
    cases hphase : s.phase with
    | receiving => simpa only [hphase] using hs
    | collecting =>
      simp only [hphase] at hs ⊢
      exact ⟨hs.1, trivial, hs.2.2⟩
    | returned =>
      simp only [hphase] at hs ⊢
      exact ⟨hs.1, trivial, hs.2.2⟩
  | receive doc rest hphase hbuffer =>
    unfold Consistent at hs ⊢
    simp only [hphase] at hs ⊢
    obtain ⟨taken, hdocuments, hconsumer⟩ := hs
    refine ⟨taken ++ [doc], ?_, ?_⟩
    · rw [hdocuments, hbuffer, List.append_assoc, List.singleton_append]
    · rw [List.foldl_append, ← hconsumer, List.foldl_cons, List.foldl_nil]
  | finish hphase hbuffer hclosed =>
    unfold Consistent at hs ⊢
    simp only [hphase] at hs ⊢
    obtain ⟨taken, hdocuments, hconsumer⟩ := hs
    rw [hbuffer, List.append_nil] at hdocuments
    refine ⟨hbuffer, hclosed, ?_⟩
    rw [hconsumer, hdocuments]
  | answer number hpending => exact hs
  | collect number rest hphase hreceivers hanswered =>
    unfold Consistent at hs ⊢
    simp only [hphase] at hs ⊢
    refine ⟨hs.1, hs.2.1, ?_⟩
    rw [← hs.2.2]
    simp only [collectAll, hreceivers, List.foldl_cons]
  | returned hphase hreceivers =>
    unfold Consistent at hs ⊢
    simp only [hphase] at hs ⊢
    refine ⟨hs.1, hs.2.1, ?_⟩
    rw [← hs.2.2]
    simp only [collectAll, hreceivers, List.foldl_nil]
    rw [← hreceivers]

theorem Run.consistent {s : System T} (hrun : Run env s) :
    env.overflows = false ∧ Consistent env s := by
  induction hrun with
  | start hfits => exact ⟨hfits, [], rfl, rfl⟩
  | step _ hstep ih => exact ⟨ih.1, hstep.consistent ih.2⟩

/-- Whatever the order of the steps, what is returned is what the consumer computes alone. -/
theorem Run.documentChannel_eq {s : System T} (hrun : Run env s) (hphase : s.phase = .returned) :
    documentChannel env s.documents = some s.consumer := by
  obtain ⟨hfits, hs⟩ := hrun.consistent
  unfold Consistent at hs
  simp only [hphase] at hs
  rw [documentChannel, hfits, hs.2.2]
  rfl

/-- Each document can be sent and received in turn. -/
theorem exists_receiving (hfits : env.overflows = false) (documents : List T) :
    Run env ⟨[], true, documents, [], documents.foldl (receive env) (.new env), .receiving⟩ := by
  induction documents using List.reverseRecOn with
  | nil => exact .start hfits
  | append_singleton rest doc ih =>
    have hsent := ih.step (.send _ doc rfl env.capacity_pos)
    have hreceived := hsent.step (.receive _ doc [] rfl rfl)
    rw [List.foldl_append]
    exact hreceived

/-- Once the input is closed, the answers can come in and be collected one by one. -/
theorem exists_returned {s : System T} (hrun : Run env s) (hphase : s.phase = .collecting) :
    ∃ t, Run env t ∧ t.documents = s.documents ∧ t.phase = .returned := by
  obtain ⟨receivers, hreceivers⟩ : ∃ receivers, s.consumer.batchReceivers = receivers := ⟨_, rfl⟩
  induction receivers generalizing s with
  | nil => exact ⟨_, hrun.step (.returned s hphase hreceivers), rfl, rfl⟩
  | cons number rest ih =>
    have hpending : number ∈ s.consumer.batchReceivers := by
      rw [hreceivers]
      exact List.mem_cons_self
    have hanswered := hrun.step (.answer s number hpending)
    have hcollected := hanswered.step
      (.collect _ number rest hphase hreceivers List.mem_cons_self)
    have hrest := ih hcollected hphase rfl
    exact hrest

theorem exists_run (hfits : env.overflows = false) (documents : List T) :
    ∃ s, Run env s ∧ s.documents = documents ∧ s.phase = .returned := by
  have hreceived := exists_receiving hfits documents
  have hclosed := hreceived.step (.close _)
  have hfinished := hclosed.step (.finish _ rfl rfl rfl)
  exact exists_returned hfinished rfl

end Runs

section Batches

variable {T : Type*} (env : Export)

/-- The documents cut into batches, with what is accumulated so far. -/
def splitDocuments (accumulator : List T) : List T → List (List T)
  | [] => if accumulator.isEmpty then [] else [accumulator]
  | doc :: rest =>
    if env.batchSize ≤ (accumulator ++ [doc]).length then
      (accumulator ++ [doc]) :: splitDocuments [] rest
    else splitDocuments (accumulator ++ [doc]) rest

/-- The batches that were accepted, with their numbers. -/
def acceptedBatches (batches : List (List T)) : List (List T × ℕ) :=
  batches.zipIdx.filter fun e => env.accepts e.2

def acceptedDocs (batches : List (List T)) : ℕ :=
  ((acceptedBatches env batches).map fun e => e.1.length).sum

/-- The refused documents, as a failed response counts them for each batch. -/
def refusedCounts (batches : List (List T)) : List U32 :=
  (batches.zipIdx.filter fun e => !env.accepts e.2).map fun e => BitVec.ofNat 32 e.1.length

def replies (batches : List (List T)) : List BatchResponse :=
  (acceptedBatches env batches).filterMap fun e => env.reply e.2

def repliedCreated (batches : List (List T)) : ℕ :=
  exactTotal ((replies env batches).map BatchResponse.docs)

def repliedErrors (batches : List (List T)) : ℕ :=
  exactTotal ((replies env batches).map BatchResponse.errors)

/-- The answers that arrive count as many documents as were accepted. Where a counter can
be full, the counts are cut off at its largest value. -/
def RepliesComplete (documents : List T) : Prop :=
  let batches := splitDocuments env [] documents
  if documents.length < maxCount 32 then
    repliedCreated env batches + repliedErrors env batches = acceptedDocs env batches
  else
    min (repliedCreated env batches) (maxCount 32) +
      min (exactTotal (refusedCounts env batches) + repliedErrors env batches) (maxCount 32) =
        documents.length

variable {env}

theorem tx_sent (batch : List T) (consumer : Consumer T) :
    (tx env batch consumer).sent = consumer.sent ++ [batch] ∧
      (tx env batch consumer).accumulator = [] := by
  unfold tx
  cases haccepts : env.accepts consumer.sent.length <;> simp [haccepts]

/-- Documents are handed over in the order in which they came. -/
theorem sent_foldl_receive (documents : List T) (consumer : Consumer T) :
    (sendPartial env (documents.foldl (receive env) consumer)).sent =
      consumer.sent ++ splitDocuments env consumer.accumulator documents := by
  induction documents generalizing consumer with
  | nil =>
    unfold sendPartial splitDocuments
    rw [List.foldl_nil]
    split
    · rw [List.append_nil]
    · exact (tx_sent _ _).1
  | cons doc rest ih =>
    have hsplit : splitDocuments env consumer.accumulator (doc :: rest) =
        if env.batchSize ≤ (consumer.accumulator ++ [doc]).length then
          (consumer.accumulator ++ [doc]) :: splitDocuments env [] rest
        else splitDocuments env (consumer.accumulator ++ [doc]) rest := rfl
    rw [List.foldl_cons, ih, hsplit]
    unfold receive
    by_cases hfull : env.batchSize ≤ (consumer.accumulator ++ [doc]).length
    · simp only [hfull, if_true, tx_sent, List.append_assoc, List.singleton_append]
    · simp only [hfull, if_false]

theorem flatten_splitDocuments (accumulator documents : List T) :
    (splitDocuments env accumulator documents).flatten = accumulator ++ documents := by
  induction documents generalizing accumulator with
  | nil =>
    unfold splitDocuments
    cases accumulator <;> simp
  | cons doc rest ih =>
    unfold splitDocuments
    split
    · rw [List.flatten_cons, ih, List.nil_append, List.append_assoc, List.singleton_append]
    · rw [ih, List.append_assoc, List.singleton_append]

theorem nil_notMem_splitDocuments (accumulator documents : List T) :
    [] ∉ splitDocuments env accumulator documents := by
  induction documents generalizing accumulator with
  | nil =>
    unfold splitDocuments
    cases accumulator <;> simp
  | cons doc rest ih =>
    unfold splitDocuments
    split
    · simpa using ih []
    · exact ih _

theorem accepted_add_refused_from (batches : List (List T)) (start : ℕ)
    (hsmall : batches.flatten.length < 2 ^ 32) :
    (((batches.zipIdx start).filter fun e => env.accepts e.2).map fun e => e.1.length).sum +
      exactTotal (((batches.zipIdx start).filter fun e => !env.accepts e.2).map
        fun e => BitVec.ofNat 32 e.1.length) = batches.flatten.length := by
  induction batches generalizing start with
  | nil => rfl
  | cons batch rest ih =>
    rw [List.flatten_cons, List.length_append] at hsmall ⊢
    have hrest := ih (start + 1) (by omega)
    have hbatch : (BitVec.ofNat 32 batch.length).toNat = batch.length := by
      rw [BitVec.toNat_ofNat]
      omega
    rw [List.zipIdx_cons]
    cases haccepts : env.accepts start with
    | true =>
      simp only [List.filter_cons, haccepts, if_true, Bool.not_true, Bool.false_eq_true, if_false,
        List.map_cons, List.sum_cons]
      omega
    | false =>
      simp only [List.filter_cons, haccepts, if_true, Bool.not_false, Bool.false_eq_true, if_false,
        List.map_cons, exactTotal_cons, hbatch]
      omega

/-- Every document is in an accepted batch or counted with a refused one. -/
theorem acceptedDocs_add_refused (batches : List (List T))
    (hsmall : batches.flatten.length < 2 ^ 32) :
    acceptedDocs env batches + exactTotal (refusedCounts env batches) = batches.flatten.length :=
  accepted_add_refused_from batches 0 hsmall

theorem acceptedBatches_append (batches : List (List T)) (batch : List T) :
    acceptedBatches env (batches ++ [batch]) = acceptedBatches env batches ++
      if env.accepts batches.length then [(batch, batches.length)] else [] := by
  unfold acceptedBatches
  rw [List.zipIdx_append, List.filter_append]
  cases haccepts : env.accepts batches.length <;> simp [haccepts]

theorem refusedCounts_append (batches : List (List T)) (batch : List T) :
    refusedCounts env (batches ++ [batch]) = refusedCounts env batches ++
      if env.accepts batches.length then [] else [BitVec.ofNat 32 batch.length] := by
  unfold refusedCounts
  rw [List.zipIdx_append, List.filter_append, List.map_append]
  cases haccepts : env.accepts batches.length <;> simp [haccepts]

end Batches

section Totals

variable {T : Type*} {env : Export}

theorem addBatch_docs (summary : ProcessorSummary) (response : BatchResponse) :
    (summary.addBatch response).docs = satAdd summary.docs response.docs := by
  unfold ProcessorSummary.addBatch
  split
  · rename_i hempty
    rw [hempty.2.1, satAdd_zero]
  · rfl

theorem addBatch_docErrors (summary : ProcessorSummary) (response : BatchResponse) :
    (summary.addBatch response).docErrors = satAdd summary.docErrors response.errors := by
  unfold ProcessorSummary.addBatch
  split
  · rename_i hempty
    rw [hempty.2.2, satAdd_zero]
  · rfl

/-- What the summary counts while batches are handed over: the refused ones, as errors. -/
structure Tallied (env : Export) (consumer : Consumer T) : Prop where
  docs : consumer.summary.docs = 0#32
  docErrors : consumer.summary.docErrors = satTotal (refusedCounts env consumer.sent)
  batchReceivers : consumer.batchReceivers = (acceptedBatches env consumer.sent).map Prod.snd

theorem Tallied.tx (batch : List T) {consumer : Consumer T} (h : Tallied env consumer) :
    Tallied env (tx env batch consumer) := by
  cases haccepts : env.accepts consumer.sent.length with
  | true =>
    have htx : DocumentChannels.tx env batch consumer = { consumer with
        sent := consumer.sent ++ [batch], accumulator := []
        batchReceivers := consumer.batchReceivers ++ [consumer.sent.length] } := by
      simp [DocumentChannels.tx, haccepts]
    rw [htx]
    refine ⟨h.docs, ?_, ?_⟩
    · rw [refusedCounts_append, haccepts, if_pos rfl, List.append_nil]
      exact h.docErrors
    · rw [acceptedBatches_append, haccepts, if_pos rfl, List.map_append, ← h.batchReceivers]
      rfl
  | false =>
    have htx : DocumentChannels.tx env batch consumer = { consumer with
        sent := consumer.sent ++ [batch], accumulator := []
        summary := consumer.summary.addBatch
          (.failed (BitVec.ofNat 32 batch.length) env.failedRequestStatus) } := by
      simp [DocumentChannels.tx, haccepts]
    rw [htx]
    refine ⟨?_, ?_, ?_⟩
    · rw [addBatch_docs, h.docs]
      rfl
    · rw [addBatch_docErrors, h.docErrors, refusedCounts_append, haccepts, satTotal, satTotal,
        if_neg (by simp), List.foldl_append]
      rfl
    · rw [acceptedBatches_append, haccepts, if_neg (by simp), List.append_nil]
      exact h.batchReceivers

theorem tallied_foldl_receive (documents : List T) {consumer : Consumer T}
    (h : Tallied env consumer) : Tallied env (documents.foldl (receive env) consumer) := by
  induction documents generalizing consumer with
  | nil => exact h
  | cons doc rest ih =>
    apply ih
    unfold receive
    by_cases hfull : env.batchSize ≤ (consumer.accumulator ++ [doc]).length
    · simp only [if_pos hfull]
      exact h.tx _
    · simp only [if_neg hfull]
      exact ⟨h.docs, h.docErrors, h.batchReceivers⟩

theorem tallied_sendPartial {consumer : Consumer T} (h : Tallied env consumer) :
    Tallied env (sendPartial env consumer) := by
  unfold sendPartial
  split
  · exact h
  · exact h.tx _

theorem foldl_collect (numbers : List ℕ) (summary : ProcessorSummary) :
    (numbers.foldl (collect env) summary).docs =
        ((numbers.filterMap env.reply).map BatchResponse.docs).foldl satAdd summary.docs ∧
      (numbers.foldl (collect env) summary).docErrors =
        ((numbers.filterMap env.reply).map BatchResponse.errors).foldl satAdd
          summary.docErrors := by
  induction numbers generalizing summary with
  | nil => exact ⟨rfl, rfl⟩
  | cons number rest ih =>
    rw [List.foldl_cons]
    obtain ⟨hdocs, herrors⟩ := ih (collect env summary number)
    rw [hdocs, herrors]
    cases hreply : env.reply number with
    | none => simp only [collect, hreply, List.filterMap_cons, true_and]
    | some response =>
      simp only [collect, hreply, List.filterMap_cons, List.map_cons, List.foldl_cons,
        addBatch_docs, addBatch_docErrors, true_and]

/-- What is returned: the batches of the documents, and the saturated counts. -/
theorem documentChannel_counts {documents : List T} {consumer : Consumer T}
    (h : documentChannel env documents = some consumer) :
    consumer.sent = splitDocuments env [] documents ∧
      consumer.summary.docs.toNat = min (repliedCreated env consumer.sent) (maxCount 32) ∧
      consumer.summary.docErrors.toNat =
        min (exactTotal (refusedCounts env consumer.sent) + repliedErrors env consumer.sent)
          (maxCount 32) := by
  unfold documentChannel at h
  split at h
  · cases h
  obtain rfl := Option.some.inj h
  have hempty : Tallied env (Consumer.new env : Consumer T) := ⟨rfl, rfl, rfl⟩
  have htallied := tallied_sendPartial (tallied_foldl_receive documents hempty)
  refine ⟨sent_foldl_receive documents (.new env), ?_, ?_⟩
  · rw [collectAll, (foldl_collect _ _).1, htallied.docs, htallied.batchReceivers,
      toNat_foldl_satAdd, List.filterMap_map]
    simp [repliedCreated, replies]
  · rw [collectAll, (foldl_collect _ _).2, htallied.docErrors, htallied.batchReceivers,
      toNat_foldl_satAdd, toNat_satTotal, List.filterMap_map]
    simp only [repliedErrors, replies, Function.comp_def]
    omega

end Totals

section Honest

variable {T : Type*} {env : Export}

/-- An answer counts a document of its batch once at most. -/
def NoneCountedTwice (env : Export) (batches : List (List T)) : Prop :=
  ∀ e ∈ acceptedBatches env batches, ∀ response, env.reply e.2 = some response →
    response.docs.toNat + response.errors.toNat ≤ e.1.length

/-- The batch is answered, and the answer counts all of it. -/
def AnsweredInFull (env : Export) (e : List T × ℕ) : Prop :=
  ∃ response, env.reply e.2 = some response ∧
    response.docs.toNat + response.errors.toNat = e.1.length

theorem replied_le_and_eq_iff (entries : List (List T × ℕ)) (hne : ∀ e ∈ entries, e.1 ≠ [])
    (hbound : ∀ e ∈ entries, ∀ response, env.reply e.2 = some response →
      response.docs.toNat + response.errors.toNat ≤ e.1.length) :
    let answers := entries.filterMap fun e => env.reply e.2
    let counted := exactTotal (answers.map BatchResponse.docs) +
      exactTotal (answers.map BatchResponse.errors)
    let documents := (entries.map fun e => e.1.length).sum
    counted ≤ documents ∧ (counted = documents ↔ ∀ e ∈ entries, AnsweredInFull env e) := by
  induction entries with
  | nil => simp
  | cons e rest ih =>
    obtain ⟨hle, heq⟩ := ih (fun e' he' => hne e' (List.mem_cons_of_mem e he'))
      (fun e' he' => hbound e' (List.mem_cons_of_mem e he'))
    have hpos : 0 < e.1.length := List.length_pos_iff.mpr (hne e List.mem_cons_self)
    simp only [List.forall_mem_cons, List.map_cons, List.sum_cons]
    cases hreply : env.reply e.2 with
    | none =>
      have hnot : ¬ AnsweredInFull env e := by
        rintro ⟨response, hresponse, -⟩
        rw [hreply] at hresponse
        cases hresponse
      simp only [List.filterMap_cons, hreply, hnot, false_and, iff_false]
      omega
    | some response =>
      have hone := hbound e List.mem_cons_self response hreply
      have hfull : AnsweredInFull env e ↔
          response.docs.toNat + response.errors.toNat = e.1.length := by
        simp [AnsweredInFull, hreply]
      simp only [List.filterMap_cons, hreply, List.map_cons, exactTotal_cons, hfull, ← heq]
      omega

/-- With answers that count no document twice, all documents are accounted for exactly
when every accepted batch is answered in full. -/
theorem repliesComplete_iff_answered {documents : List T}
    (hsmall : documents.length < maxCount 32)
    (honest : NoneCountedTwice env (splitDocuments env [] documents)) :
    RepliesComplete env documents ↔
      ∀ e ∈ acceptedBatches env (splitDocuments env [] documents), AnsweredInFull env e := by
  unfold RepliesComplete
  simp only [if_pos hsmall]
  refine (replied_le_and_eq_iff _ (fun e he hnil => ?_) honest).2
  have hmem := List.fst_mem_of_mem_zipIdx (List.mem_of_mem_filter he)
  rw [hnil] at hmem
  exact nil_notMem_splitDocuments [] documents hmem

end Honest

section Accounting

variable {T : Type*} (env : Export)

/-- What the channel owes for the documents it takes: it returns, and whatever the order
of the steps it has then counted them all and handed them over once and in order. -/
structure Accounted (documents : List T) : Prop where
  returns : ∃ s, Run env s ∧ s.documents = documents ∧ s.phase = .returned
  counted : ∀ s, Run env s → s.documents = documents → s.phase = .returned →
    s.consumer.summary.docs.toNat + s.consumer.summary.docErrors.toNat = documents.length
  in_order : ∀ s, Run env s → s.documents = documents → s.phase = .returned →
    s.consumer.sent.flatten = documents

variable {env}

theorem Run.in_order {s : System T} (hrun : Run env s) (hphase : s.phase = .returned) :
    s.consumer.sent.flatten = s.documents := by
  obtain ⟨hsent, -, -⟩ := documentChannel_counts (hrun.documentChannel_eq hphase)
  rw [hsent, flatten_splitDocuments, List.nil_append]

theorem Run.counted_iff {s : System T} (hrun : Run env s) (hphase : s.phase = .returned) :
    s.consumer.summary.docs.toNat + s.consumer.summary.docErrors.toNat = s.documents.length ↔
      RepliesComplete env s.documents := by
  obtain ⟨hsent, hdocs, herrors⟩ := documentChannel_counts (hrun.documentChannel_eq hphase)
  rw [hdocs, herrors, hsent]
  unfold RepliesComplete
  simp only
  split
  · rename_i hsmall
    have hflatten : (splitDocuments env [] s.documents).flatten = s.documents :=
      flatten_splitDocuments [] s.documents
    have hdocuments : acceptedDocs env (splitDocuments env [] s.documents) +
        exactTotal (refusedCounts env (splitDocuments env [] s.documents)) =
          (splitDocuments env [] s.documents).flatten.length := by
      apply acceptedDocs_add_refused
      rw [hflatten]
      unfold maxCount at hsmall
      omega
    rw [hflatten] at hdocuments
    unfold maxCount at hsmall ⊢
    omega
  · exact Iff.rfl

theorem documents_accounted_iff (env : Export) (documents : List T) :
    Accounted env documents ↔
      env.overflows = false ∧ RepliesComplete env documents := by
  constructor
  · intro h
    obtain ⟨s, hrun, rfl, hphase⟩ := h.returns
    exact ⟨hrun.consistent.1, (hrun.counted_iff hphase).mp (h.counted s hrun rfl hphase)⟩
  · rintro ⟨hfits, hreplies⟩
    refine ⟨exists_run hfits documents, ?_, ?_⟩
    · rintro s hrun rfl hphase
      exact (hrun.counted_iff hphase).mpr hreplies
    · rintro s hrun rfl hphase
      exact hrun.in_order hphase

end Accounting

section Sample

/-- Every batch is accepted, and no task of a batch answers. -/
def silentExport : Export where
  index := "metrics-node-esdiag"
  batchSize := 0
  documentSize := 8
  capacity := 1
  capacity_pos := by decide
  failedRequestStatus := BatchResponse.httpRequestNotCompleted
  accepts _ := true
  reply _ := none

/-- A document whose batch is never answered is in neither count. -/
theorem unanswered_document_lost : ¬ Accounted silentExport [0] := by
  intro h
  have hfits : silentExport.overflows = false := rfl
  obtain ⟨s, hrun, hdocuments, hphase⟩ := exists_run hfits [0]
  have hcounted := h.counted s hrun hdocuments hphase
  have hreturned := hrun.documentChannel_eq hphase
  rw [hdocuments] at hreturned
  rw [← Option.some.inj hreturned] at hcounted
  cases hcounted

end Sample

end Esdiag.DocumentChannels
