import Esdiag.BulkExport
import Esdiag.GreedyGroups
import Esdiag.JsonSizes

/-!
How documents are split into bulk requests. The sub-batches are greedy groups: a
document opens a new one where the current one has its number of documents or its
estimated size would pass the limit. The estimate is never below what a document
takes in the request, so that the request of two or more documents stays within
the limit as well.
-/
namespace Esdiag.BulkSplitting

open SaturatingCounters JsonValues JsonSizes BulkExport GreedyGroups

section Refinement

variable (cfg : BulkConfig) (index : String)

/-- The estimated size of a document, which is not taken without a limit. -/
def docBytes (value : Value) : BitVec 64 :=
  cfg.bulkBytes.elim 0 fun _ => estimatedBulkValueBytes index value

def batchBytes (batch : List Value) : BitVec 64 := satTotal (batch.map (docBytes cfg index))

/-- Whether a document no longer fits into a sub-batch. -/
def isFull (batch : List Value) (value : Value) : Bool :=
  decide (cfg.bulkSize ≤ batch.length) ||
    cfg.bulkBytes.any fun maxBytes =>
      !batch.isEmpty &&
        decide (maxBytes < satAdd (batchBytes cfg index batch) (docBytes cfg index value))

theorem isFull_nil (value : Value) : isFull cfg index [] value = false := by
  have hsize : ¬ cfg.bulkSize ≤ ([] : List Value).length := by
    rw [List.length_nil, Nat.le_zero, BulkConfig.bulkSize]
    omega
  unfold isFull
  rw [decide_eq_false hsize]
  cases cfg.bulkBytes <;> rfl

theorem batchBytes_append (batch : List Value) (value : Value) :
    batchBytes cfg index (batch ++ [value]) =
      satAdd (batchBytes cfg index batch) (docBytes cfg index value) := by
  rw [batchBytes, satTotal, List.map_append, List.foldl_append]
  rfl

/-- A state of the loop and the groups that it stands for. -/
structure Stands (state : SplitState) (groups : Groups Value) : Prop where
  batches : state.batches = groups.closed
  batch : state.batch = groups.current
  batchBytes : state.batchBytes = batchBytes cfg index groups.current

theorem splitStep_eq {state : SplitState}
    (hbytes : state.batchBytes = batchBytes cfg index state.batch) (value : Value) :
    splitStep cfg index state value =
      if isFull cfg index state.batch value then
        ⟨state.batches ++ [state.batch], [value], satAdd 0 (docBytes cfg index value)⟩
      else
        ⟨state.batches, state.batch ++ [value],
          satAdd state.batchBytes (docBytes cfg index value)⟩ := by
  rw [isFull, ← hbytes]
  rfl

theorem Stands.step {state : SplitState} {groups : Groups Value}
    (h : Stands cfg index state groups) (value : Value) :
    Stands cfg index (splitStep cfg index state value)
      (groups.add (isFull cfg index) value) := by
  obtain ⟨hbatches, hbatch, hbytes⟩ := h
  rw [splitStep_eq cfg index (hbytes.trans (by rw [hbatch])), Groups.add, hbatch]
  split
  · exact ⟨by rw [hbatches], rfl, rfl⟩
  · exact ⟨hbatches, rfl, by rw [batchBytes_append, hbytes]⟩

theorem Stands.run {state : SplitState} {groups : Groups Value}
    (h : Stands cfg index state groups) (values : List Value) :
    Stands cfg index (values.foldl (splitStep cfg index) state)
      (values.foldl (Groups.add (isFull cfg index)) groups) := by
  induction values generalizing state groups with
  | nil => exact h
  | cons value rest ih => exact ih (h.step cfg index value)

/-- The loop computes the greedy groups. -/
theorem splitBatches_eq (values : List Value) :
    splitBatches cfg index values = groupsOf (isFull cfg index) values := by
  have hstart : Stands cfg index ⟨[], [], 0⟩ ⟨[], []⟩ := ⟨rfl, rfl, rfl⟩
  have hrun := hstart.run cfg index values
  unfold splitBatches groupsOf Groups.all
  dsimp only
  rw [hrun.batches, hrun.batch]

/-- The sub-batches are the documents in their order, cut into pieces. -/
theorem splitBatches_flatten (values : List Value) :
    (splitBatches cfg index values).flatten = values := by
  rw [splitBatches_eq, flatten_groupsOf]

end Refinement

section Payload

variable (actionLine : String)

/-- The body of a bulk request: for every document the line of its action and its own. -/
def bulkPayload : List Value → String
  | [] => ""
  | value :: rest => actionLine ++ "\n" ++ render value ++ "\n" ++ bulkPayload rest

theorem utf8ByteSize_bulkPayload_cons (value : Value) (rest : List Value) :
    (bulkPayload actionLine (value :: rest)).utf8ByteSize =
      actionLine.utf8ByteSize + 2 + (render value).utf8ByteSize +
        (bulkPayload actionLine rest).utf8ByteSize := by
  have hline : ("\n" : String).utf8ByteSize = 1 := by decide
  rw [bulkPayload]
  simp only [String.utf8ByteSize_append, hline]
  omega

variable {actionLine} {cfg : BulkConfig} {maxBytes : BitVec 64}
  (hlimit : cfg.bulkBytes = some maxBytes) (haction : actionLine.utf8ByteSize + 2 ≤ 128)

include hlimit haction

/-- The estimate of a document covers both of its lines. -/
theorem le_docBytes (index : String) {value : Value}
    (hvalue : (render value).utf8ByteSize < 2 ^ 64) :
    min (actionLine.utf8ByteSize + 2 + (render value).utf8ByteSize) (maxCount 64) ≤
      (docBytes cfg index value).toNat := by
  have hestimate := toNat_estimatedJsonValueBytes value hvalue
  have hoverhead : bulkActionOverheadBytes.toNat = 128 := rfl
  have hdoc : docBytes cfg index value = estimatedBulkValueBytes index value := by
    rw [docBytes, hlimit]
    rfl
  rw [hdoc, estimatedBulkValueBytes, toNat_satAdd, toNat_satAdd, hestimate, hoverhead]
  omega

theorem min_bulkPayload_le (index : String) {batch : List Value}
    (hbatch : (bulkPayload actionLine batch).utf8ByteSize < 2 ^ 64) :
    min (bulkPayload actionLine batch).utf8ByteSize (maxCount 64) ≤
      min (exactTotal (batch.map (docBytes cfg index))) (maxCount 64) := by
  induction batch with
  | nil => exact Nat.le_refl _
  | cons value rest ih =>
    rw [utf8ByteSize_bulkPayload_cons] at hbatch ⊢
    have hrest := ih (by omega)
    have hrender : (render value).utf8ByteSize < 2 ^ 64 := by omega
    have hvalue := le_docBytes hlimit haction index hrender
    rw [List.map_cons, exactTotal_cons]
    omega

/-- The estimated size of a batch is that of its request at least. -/
theorem bulkPayload_le_batchBytes (index : String) {batch : List Value}
    (hbatch : (bulkPayload actionLine batch).utf8ByteSize < 2 ^ 64) :
    (bulkPayload actionLine batch).utf8ByteSize ≤ (batchBytes cfg index batch).toNat := by
  have hle := min_bulkPayload_le hlimit haction index hbatch
  have hfits : (bulkPayload actionLine batch).utf8ByteSize ≤ maxCount 64 :=
    Nat.le_sub_one_of_lt hbatch
  rw [batchBytes, toNat_satTotal]
  omega

end Payload

section Results

/-- The limits that every sub-batch keeps, in estimated sizes. -/
structure WithinLimits (cfg : BulkConfig) (index : String) (batch : List Value) : Prop where
  count : batch.length ≤ cfg.bulkSize
  bytes : ∀ maxBytes, cfg.bulkBytes = some maxBytes → 2 ≤ batch.length →
    batchBytes cfg index batch ≤ maxBytes

theorem withinLimits_singleton (cfg : BulkConfig) (index : String) (value : Value) :
    WithinLimits cfg index [value] := by
  refine ⟨?_, fun _ _ htwo => absurd htwo (by simp)⟩
  rw [List.length_singleton, BulkConfig.bulkSize]
  omega

theorem WithinLimits.append {cfg : BulkConfig} {index : String} {batch : List Value}
    {value : Value} (hroom : isFull cfg index batch value = false) :
    WithinLimits cfg index (batch ++ [value]) := by
  unfold isFull at hroom
  rw [Bool.or_eq_false_iff, decide_eq_false_iff_not] at hroom
  obtain ⟨hcount, hbytes⟩ := hroom
  have hlength : (batch ++ [value]).length = batch.length + 1 := List.length_append
  refine ⟨by omega, ?_⟩
  intro maxBytes hlimit htwo
  have hopen : batch.isEmpty = false := by
    cases batch with
    | nil => exact absurd htwo (by simp)
    | cons => rfl
  rw [hlimit, Option.any_some, hopen, Bool.not_false, Bool.true_and,
    decide_eq_false_iff_not] at hbytes
  rw [batchBytes_append]
  exact BitVec.not_lt.mp hbytes

theorem withinLimits_of_mem {cfg : BulkConfig} {index : String} {values batch : List Value}
    (h : batch ∈ splitBatches cfg index values) : WithinLimits cfg index batch := by
  rw [splitBatches_eq] at h
  exact forall_groupsOf (isFull_nil cfg index) (withinLimits_singleton cfg index)
    (fun _ _ _ hroom => WithinLimits.append hroom) values batch h

/-- Splitting loses nothing and keeps both limits. The request of two or more documents is
within the limit of bytes for every client whose action line is short enough; a document
that passes the limit alone gets a sub-batch of its own. -/
theorem splitting_lossless_bounded (cfg : BulkConfig) (index : String) (values : List Value)
    {actionLine : String} (haction : actionLine.utf8ByteSize + 2 ≤ 128) :
    (splitBatches cfg index values).flatten = values ∧
      (splitBatches cfg index values).length ≤ values.length ∧
      ∀ batch ∈ splitBatches cfg index values,
        batch ≠ [] ∧ batch.length ≤ cfg.bulkSize ∧
          ∀ maxBytes, cfg.bulkBytes = some maxBytes → 2 ≤ batch.length →
            (bulkPayload actionLine batch).utf8ByteSize < 2 ^ 64 →
            (bulkPayload actionLine batch).utf8ByteSize ≤ maxBytes.toNat := by
  refine ⟨splitBatches_flatten cfg index values, ?_, ?_⟩
  · rw [splitBatches_eq]
    exact length_groupsOf_le (isFull_nil cfg index) values
  · intro batch hbatch
    have hwithin := withinLimits_of_mem hbatch
    refine ⟨?_, hwithin.count, ?_⟩
    · rw [splitBatches_eq] at hbatch
      exact ne_nil_of_mem_groupsOf (isFull_nil cfg index) values batch hbatch
    · intro maxBytes hlimit htwo hpayload
      have hestimate := bulkPayload_le_batchBytes hlimit haction index hpayload
      have hbytes := hwithin.bytes maxBytes hlimit htwo
      exact Nat.le_trans hestimate hbytes

/-- Requests of at most three documents and 300 bytes. -/
def smallRequests : BulkConfig :=
  { url := "http://localhost:9200"
    bulkSizeSetting := 3
    bulkBytesSetting := 300#64
    maxRetries := 0#16
    debugEnabled := false
    traceEnabled := false
    isDate := fun _ => false }

/-- The action line of the client for a document that is created through the pipeline. -/
def createLine : String := "\x7b\"create\":\x7b\"pipeline\":\"esdiag\"\x7d\x7d"

def smallDocuments : List Value := [.bool true, .string "green", .object [("count", .null)]]

theorem splitting_lossless_bounded_small :
    (splitBatches smallRequests "logs-esdiag" smallDocuments).flatten = smallDocuments ∧
      ((splitBatches smallRequests "logs-esdiag" smallDocuments).all fun batch =>
        decide (batch ≠ []) && decide (batch.length ≤ 3)) = true := by
  have haction : createLine.utf8ByteSize + 2 ≤ 128 := by decide +kernel
  obtain ⟨hflatten, -, hbounded⟩ :=
    splitting_lossless_bounded smallRequests "logs-esdiag" smallDocuments haction
  refine ⟨hflatten, List.all_eq_true.mpr fun batch hbatch => ?_⟩
  obtain ⟨hne, hlength, -⟩ := hbounded batch hbatch
  have hthree : batch.length ≤ 3 := hlength
  simp [hne, hthree]

end Results

end Esdiag.BulkSplitting
