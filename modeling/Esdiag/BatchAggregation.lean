import Esdiag.KeyedFolds
import Esdiag.Reports
import Mathlib.Data.List.Dedup

/-!
Responses merged into an aggregate, in whatever order they arrive. Counters and
counts by key are saturating sums and the status code is a maximum, so the order
leaves no trace in them, also where a response is itself an aggregate. Of the
rejection reasons of an index only the first three different ones are kept, and
which ones these are does depend on the order.
-/
namespace Esdiag.BatchAggregation

open SaturatingCounters KeyedMaps KeyedFolds BatchResponses Reports BatchResponse

section Sampling

/-- What holds of the samples kept so far, given the reasons seen so far. -/
structure Sampled (seen samples : List String) : Prop where
  nodup : samples.Nodup
  reported : samples ⊆ seen
  bounded : samples.length ≤ 3
  complete : samples.length < 3 → seen ⊆ samples

theorem sampled_nil : Sampled [] [] :=
  ⟨List.nodup_nil, List.Subset.refl _, Nat.zero_le 3, fun _ => List.Subset.refl _⟩

theorem Sampled.push {seen samples : List String} (h : Sampled seen samples) (reason : String) :
    Sampled (seen ++ [reason]) (pushSample samples reason) := by
  by_cases hroom : samples.length < 3 ∧ reason ∉ samples
  · have hpush : pushSample samples reason = samples ++ [reason] := if_pos hroom
    have hlength : (samples ++ [reason]).length = samples.length + 1 := List.length_append
    rw [hpush]
    have hnodup := h.nodup.concat hroom.2
    rw [List.concat_eq_append] at hnodup
    refine ⟨hnodup, ?_, by omega, fun _ => ?_⟩
    · exact List.append_subset.mpr ⟨List.subset_append_of_subset_left _ h.reported,
        List.subset_append_right _ _⟩
    · exact List.append_subset.mpr ⟨List.subset_append_of_subset_left _ (h.complete hroom.1),
        List.subset_append_right _ _⟩
  · have hpush : pushSample samples reason = samples := if_neg hroom
    rw [hpush]
    refine ⟨h.nodup, List.subset_append_of_subset_left _ h.reported, h.bounded, fun hfew => ?_⟩
    have hknown : reason ∈ samples := by
      by_contra hnew
      exact hroom ⟨hfew, hnew⟩
    exact List.append_subset.mpr ⟨h.complete hfew, fun other hother =>
      List.mem_singleton.mp hother ▸ hknown⟩

theorem Sampled.foldl {seen samples : List String} (h : Sampled seen samples)
    (reasons : List String) : Sampled (seen ++ reasons) (reasons.foldl pushSample samples) := by
  induction reasons generalizing seen samples with
  | nil => simpa using h
  | cons reason rest ih =>
    have hrest := ih (h.push reason)
    rwa [List.append_assoc, List.singleton_append] at hrest

/-- Three reasons are kept, or all of them where there are fewer. -/
theorem Sampled.length_eq {seen samples : List String} (h : Sampled seen samples) :
    samples.length = min 3 seen.dedup.length := by
  have hle : samples.length ≤ seen.dedup.length :=
    (List.subperm_of_subset h.nodup fun _ hmem =>
      List.mem_dedup.mpr (h.reported hmem)).length_le
  have hbounded := h.bounded
  by_cases hfew : samples.length < 3
  · have hge : seen.dedup.length ≤ samples.length :=
      (List.subperm_of_subset seen.nodup_dedup fun _ hmem =>
        h.complete hfew (List.mem_dedup.mp hmem)).length_le
    omega
  · omega

/-- Up to three different reasons are all kept. -/
theorem Sampled.mem_iff {seen samples : List String} (h : Sampled seen samples)
    (hfew : seen.dedup.length ≤ 3) (reason : String) : reason ∈ samples ↔ reason ∈ seen := by
  have hlength := h.length_eq
  have hperm : samples.Perm seen.dedup :=
    (List.subperm_of_subset h.nodup fun _ hmem =>
      List.mem_dedup.mpr (h.reported hmem)).perm_of_length_le (by omega)
  rw [hperm.mem_iff, List.mem_dedup]

end Sampling

section Fields

theorem zero_satAdd {w : ℕ} (a : BitVec w) : satAdd 0#w a = a := by
  apply BitVec.eq_of_toNat_eq
  have h := toNat_le_maxCount a
  rw [toNat_satAdd]
  simp only [BitVec.toNat_ofNat, Nat.zero_mod]
  omega

theorem satAdd_right_comm {w : ℕ} (a b c : BitVec w) :
    satAdd (satAdd a b) c = satAdd (satAdd a c) b := by
  apply BitVec.eq_of_toNat_eq
  simp only [toNat_satAdd]
  omega

/-- A saturating counter of the aggregate. -/
theorem counter_foldl_merge_perm {w : ℕ} {counter : BatchResponse → BitVec w}
    (hmerge : ∀ held response,
      counter (held.merge response) = satAdd (counter held) (counter response))
    {responses order : List BatchResponse} (h : responses.Perm order) (start : BatchResponse) :
    counter (responses.foldl merge start) = counter (order.foldl merge start) := by
  let step : BitVec w → BatchResponse → BitVec w := fun held response =>
    satAdd held (counter response)
  have hstep : ∀ held first second, step (step held first) second = step (step held second) first :=
    fun held first second => satAdd_right_comm held (counter first) (counter second)
  exact field_foldl_perm counter hmerge hstep h start

theorem batchCount_foldl_merge (responses : List BatchResponse) (start : BatchResponse) :
    (responses.foldl merge start).batchCount =
      (responses.map batchCount).foldl satAdd start.batchCount := by
  rw [List.foldl_map]
  exact field_foldl batchCount merge_batchCount responses start

/-- However the branches are taken, the larger code is kept. -/
theorem toNat_mergeStatusCode (wasEmpty : Bool) (left right : U16) (rightErrors : U32) :
    (mergeStatusCode wasEmpty left right rightErrors).toNat = max left.toNat right.toNat := by
  have hsevere : (moreSevere left right).toNat = max left.toNat right.toNat := by
    unfold moreSevere
    split
    · rename_i hle
      exact (max_eq_right hle).symm
    · rename_i hnot
      exact (max_eq_left (Nat.le_of_lt (Nat.lt_of_not_le hnot))).symm
  unfold mergeStatusCode
  split
  · rename_i h
    simp [h.1]
  · split
    · rename_i h
      simp [h.1]
    · split
      · rename_i h
        simp [h]
      · split
        · exact hsevere
        · rename_i hboth
          split
          · rename_i hleft
            have hright : ¬ 400#16 ≤ right := fun hright => hboth ⟨hleft, hright⟩
            exact (max_eq_left (Nat.le_of_lt (Nat.lt_of_lt_of_le
              (Nat.lt_of_not_le hright) hleft))).symm
          · rename_i hleft
            split
            · rename_i hright
              exact (max_eq_right (Nat.le_of_lt (Nat.lt_of_lt_of_le
                (Nat.lt_of_not_le hleft) hright))).symm
            · exact hsevere

/-- The status code of a response as a number. -/
def codeOf (response : BatchResponse) : ℕ := response.statusCode.toNat

theorem codeOf_merge (held response : BatchResponse) :
    codeOf (held.merge response) = max (codeOf held) (codeOf response) :=
  toNat_mergeStatusCode _ _ _ _

theorem codeOf_foldl_merge_perm {responses order : List BatchResponse}
    (h : responses.Perm order) (start : BatchResponse) :
    codeOf (responses.foldl merge start) = codeOf (order.foldl merge start) := by
  let step : ℕ → BatchResponse → ℕ := fun held response => max held (codeOf response)
  have hstep : ∀ held first second, step (step held first) second = step (step held second) first :=
    fun held first second => max_right_comm held (codeOf first) (codeOf second)
  exact field_foldl_perm codeOf codeOf_merge hstep h start

theorem codeOf_foldl_merge (responses : List BatchResponse) (start : BatchResponse) :
    codeOf start ≤ codeOf (responses.foldl merge start) ∧
      (∀ response ∈ responses, codeOf response ≤ codeOf (responses.foldl merge start)) ∧
      (codeOf (responses.foldl merge start) = codeOf start ∨
        ∃ response ∈ responses, codeOf response = codeOf (responses.foldl merge start)) := by
  induction responses generalizing start with
  | nil => exact ⟨Nat.le_refl _, by simp, Or.inl rfl⟩
  | cons first rest ih =>
    obtain ⟨hstart, hrest, hreached⟩ := ih (start.merge first)
    have hmerge := codeOf_merge start first
    rw [List.foldl_cons]
    refine ⟨by omega, ?_, ?_⟩
    · intro response hmem
      rcases List.mem_cons.mp hmem with heq | hmem
      · rw [heq]
        omega
      · exact hrest response hmem
    · rcases hreached with heq | ⟨response, hmem, heq⟩
      · by_cases hle : codeOf first ≤ codeOf start
        · exact Or.inl (by omega)
        · exact Or.inr ⟨first, List.mem_cons_self, by omega⟩
      · exact Or.inr ⟨response, List.mem_cons_of_mem _ hmem, heq⟩

end Fields

section Maps

theorem countStatus_eq (counts : KeyedMap U16 U32) (status : U16) (count : U32) :
    countStatus counts status count = counts.upsert status (raise count) := by
  have hraise : (fun old : Option U32 => old.elim count fun existing => satAdd existing count) =
      raise count := by
    funext old
    cases old with
    | none => exact (zero_satAdd count).symm
    | some existing => rfl
  rw [countStatus, hraise]

theorem foldl_countStatus (counts : KeyedMap U16 U32) (entries : List (U16 × U32)) :
    entries.foldl (fun merged entry => countStatus merged entry.1 entry.2) counts =
      foldInto raise counts entries := by
  simp only [countStatus_eq, foldInto]

/-- The batches of a response by their status. One without counts of its own is
counted under its own status, unless it is an aggregate of nothing. -/
def countsOf (response : BatchResponse) : List (U16 × U32) :=
  if response.statusCounts.isEmpty then
    if 0 < response.batchCount then [(response.statusCode, response.batchCount)] else []
  else response.statusCounts.entries

theorem mergeStatusCounts_eq (counts : KeyedMap U16 U32) (other : BatchResponse) :
    mergeStatusCounts counts other = foldInto raise counts (countsOf other) := by
  rw [mergeStatusCounts, countsOf, foldl_countStatus]
  split
  · split
    · rw [countStatus_eq]
      rfl
    · rfl
  · rfl

theorem statusCounts_foldl_merge (responses : List BatchResponse) (start : BatchResponse) :
    (responses.foldl merge start).statusCounts =
      foldInto raise start.statusCounts (responses.flatMap countsOf) := by
  rw [← foldl_foldInto]
  exact field_foldl statusCounts
    (fun held response => mergeStatusCounts_eq held.statusCounts response) responses start

theorem rejectedIndices_foldl_merge (responses : List BatchResponse) (start : BatchResponse) :
    (responses.foldl merge start).rejectedIndices =
      foldInto raise start.rejectedIndices
        (responses.flatMap fun response => response.rejectedIndices.inOrder) := by
  have hmerge : ∀ held response : BatchResponse, (held.merge response).rejectedIndices =
      foldInto raise held.rejectedIndices response.rejectedIndices.inOrder := fun _ _ => rfl
  rw [← foldl_foldInto]
  exact field_foldl rejectedIndices hmerge responses start

/-- Reasons sampled into those that an index has. -/
def sampleReasons (reasons : List String) (old : Option (List String)) : List String :=
  reasons.foldl pushSample (old.getD [])

theorem rejectionReasons_foldl_merge (responses : List BatchResponse) (start : BatchResponse) :
    (responses.foldl merge start).rejectionReasons =
      foldInto sampleReasons start.rejectionReasons
        (responses.flatMap fun response => response.rejectionReasons.inOrder) := by
  have hmerge : ∀ held response : BatchResponse, (held.merge response).rejectionReasons =
      foldInto sampleReasons held.rejectionReasons response.rejectionReasons.inOrder :=
    fun _ _ => rfl
  rw [← foldl_foldInto]
  exact field_foldl rejectionReasons hmerge responses start

/-- Every reason that the responses give for an index, in the order of the responses. -/
def reportedReasons (index : String) (responses : List BatchResponse) : List String :=
  responses.flatMap fun response => (response.rejectionReasons.find? index).getD []

theorem sampled_foldHeld (values : List (List String)) {seen : List String}
    {held : Option (List String)} (h : Sampled seen (held.getD [])) :
    Sampled (seen ++ values.flatten) ((foldHeld sampleReasons held values).getD []) := by
  induction values generalizing seen held with
  | nil => simpa [foldHeld] using h
  | cons reasons rest ih =>
    have hfirst : Sampled (seen ++ reasons) ((some (sampleReasons reasons held)).getD []) :=
      h.foldl reasons
    have hrest := ih hfirst
    rwa [List.append_assoc] at hrest

theorem valuesAt_reasons (index : String) (responses : List BatchResponse) :
    valuesAt index (responses.flatMap fun response => response.rejectionReasons.inOrder) =
      responses.flatMap fun response => (response.rejectionReasons.find? index).toList := by
  simp only [valuesAt_flatMap, valuesAt_inOrder]

theorem flatten_values (index : String) (responses : List BatchResponse) :
    (responses.flatMap fun response => (response.rejectionReasons.find? index).toList).flatten =
      reportedReasons index responses := by
  induction responses with
  | nil => rfl
  | cons response rest ih =>
    have hcons : reportedReasons index (response :: rest) =
        (response.rejectionReasons.find? index).getD [] ++ reportedReasons index rest := rfl
    rw [List.flatMap_cons, List.flatten_append, ih, hcons]
    cases response.rejectionReasons.find? index <;> simp

theorem sampled_aggregate (index : String) (responses : List BatchResponse) :
    Sampled (reportedReasons index responses)
      (((responses.foldl merge aggregate).rejectionReasons.find? index).getD []) := by
  have hnone : Sampled [] ((none : Option (List String)).getD []) := sampled_nil
  have hsampled := sampled_foldHeld
    (responses.flatMap fun response => (response.rejectionReasons.find? index).toList) hnone
  rw [flatten_values, List.nil_append] at hsampled
  rw [rejectionReasons_foldl_merge, find?_foldInto, valuesAt_reasons]
  exact hsampled

end Maps

section Conservation

/-- The sum of all counts by status, in unbounded arithmetic. -/
def statusTotal (counts : KeyedMap U16 U32) : ℕ := KeyedMap.total BitVec.toNat counts

/-- The responses that exporters return: without counts by status, or merged from such. -/
inductive Received : BatchResponse → Prop where
  | single {response : BatchResponse} (h : response.statusCounts = .empty) : Received response
  | merged {responses : List BatchResponse} (h : ∀ response ∈ responses, Received response) :
      Received (responses.foldl merge aggregate)

theorem min_exactTotal_flatMap {responses : List BatchResponse}
    (h : ∀ response ∈ responses,
      min (exactTotal ((countsOf response).map Prod.snd)) (maxCount 32) =
        response.batchCount.toNat) :
    min (exactTotal ((responses.flatMap countsOf).map Prod.snd)) (maxCount 32) =
      min (exactTotal (responses.map batchCount)) (maxCount 32) := by
  induction responses with
  | nil => rfl
  | cons response rest ih =>
    have hfirst := h response List.mem_cons_self
    have hrest := ih fun other hother => h other (List.mem_cons_of_mem _ hother)
    rw [List.flatMap_cons, List.map_append, exactTotal_append, List.map_cons, exactTotal_cons]
    omega

theorem min_statusTotal_merged {responses : List BatchResponse}
    (h : ∀ response ∈ responses,
      min (exactTotal ((countsOf response).map Prod.snd)) (maxCount 32) =
        response.batchCount.toNat) :
    min (statusTotal (responses.foldl merge aggregate).statusCounts) (maxCount 32) =
      (responses.foldl merge aggregate).batchCount.toNat := by
  have htotal := total_foldInto_raise (w := 32) .empty (responses.flatMap countsOf)
  have hcounts := min_exactTotal_flatMap h
  have hbatches := toNat_foldl_satAdd (responses.map batchCount) aggregate.batchCount
  have hzero : aggregate.batchCount.toNat = 0 := rfl
  rw [KeyedMap.total_empty, Nat.zero_add] at htotal
  rw [batchCount_foldl_merge, hbatches, hzero, Nat.zero_add, ← hcounts, ← htotal, statusTotal,
    statusCounts_foldl_merge]
  rfl

/-- Whatever was merged into it before, a response counts as many batches as it says. -/
theorem Received.counted {response : BatchResponse} (h : Received response) :
    min (exactTotal ((countsOf response).map Prod.snd)) (maxCount 32) =
      response.batchCount.toNat := by
  have hlargest := toNat_le_maxCount response.batchCount
  induction h with
  | @single response hcounts =>
    have hempty : response.statusCounts.isEmpty = true := by rw [hcounts]; rfl
    rw [countsOf, if_pos hempty]
    split
    · simp only [List.map_cons, List.map_nil, exactTotal_cons, exactTotal_nil]
      omega
    · rename_i hnone
      have hzero : response.batchCount.toNat = 0 := by
        rw [BitVec.lt_def] at hnone
        simpa using hnone
      rw [hzero]
      rfl
  | @merged responses _ ih =>
    have htotal := min_statusTotal_merged fun response hmem =>
      ih response hmem (toNat_le_maxCount _)
    generalize responses.foldl merge aggregate = merged at htotal hlargest ⊢
    rw [← htotal, statusTotal, KeyedMap.total_eq_sum_values]
    unfold countsOf
    split
    · rename_i hempty
      have hentries : merged.statusCounts.entries = [] := List.isEmpty_iff.mp hempty
      have hzero : merged.batchCount.toNat = 0 := by
        rw [← htotal, statusTotal, KeyedMap.total, hentries]
        rfl
      have hnone : ¬ 0 < merged.batchCount := by
        rw [BitVec.lt_def, hzero]
        exact Nat.not_lt_zero _
      rw [if_neg hnone, KeyedMap.values, hentries]
      rfl
    · rfl

/-- The summaries of a processor: started empty, given the responses of its batches and
merged with each other. Nothing else that is done to a summary reaches its batches. -/
inductive Collected : ProcessorSummary → Prop where
  | started {summary : ProcessorSummary} (h : summary.batch = ⟨0#32, 0#16, .empty, []⟩) :
      Collected summary
  | added {summary : ProcessorSummary} {batch : BatchResponse} (h : Collected summary)
      (hbatch : Received batch) : Collected (summary.addBatch batch)
  | merged {summary other : ProcessorSummary} (h : Collected summary) (hother : Collected other) :
      Collected (summary.merge (.ok other))
  | kept {summary changed : ProcessorSummary} (h : Collected summary)
      (hsame : changed.batch = summary.batch) : Collected changed

theorem counted_addBatch {summary : ProcessorSummary} {batch : BatchResponse}
    (h : min (statusTotal summary.batch.statusCodes) (maxCount 32) = summary.batch.count.toNat)
    (hbatch : Received batch) :
    min (statusTotal (summary.addBatch batch).batch.statusCodes) (maxCount 32) =
      (summary.addBatch batch).batch.count.toNat := by
  unfold ProcessorSummary.addBatch
  split
  · exact h
  · rw [toNat_satAdd, ← h]
    dsimp only
    split
    · have htotal := total_upsert_raise summary.batch.statusCodes batch.statusCode batch.batchCount
      rw [countStatus_eq, statusTotal, htotal, statusTotal]
      omega
    · rename_i hcounts
      have htotal := total_foldInto_raise summary.batch.statusCodes batch.statusCounts.entries
      have hcounted := hbatch.counted
      rw [countsOf, if_neg hcounts] at hcounted
      rw [foldl_countStatus, statusTotal, htotal, ← hcounted, statusTotal]
      omega

theorem Collected.counted {summary : ProcessorSummary} (h : Collected summary) :
    min (statusTotal summary.batch.statusCodes) (maxCount 32) = summary.batch.count.toNat := by
  induction h with
  | started h =>
    rw [h]
    rfl
  | added _ hbatch ih => exact counted_addBatch ih hbatch
  | @merged summary other _ _ ih ihother =>
    have htotal := total_foldInto_raise summary.batch.statusCodes other.batch.statusCodes.entries
    have hother : exactTotal (other.batch.statusCodes.entries.map Prod.snd) =
        KeyedMap.total BitVec.toNat other.batch.statusCodes := by
      simp [exactTotal, KeyedMap.total, Function.comp_def]
    have hcodes : (summary.merge (.ok other)).batch.statusCodes =
        foldInto raise summary.batch.statusCodes other.batch.statusCodes.entries :=
      foldl_countStatus _ _
    have hcount : (summary.merge (.ok other)).batch.count =
        satAdd summary.batch.count other.batch.count := rfl
    rw [hcodes, hcount, toNat_satAdd]
    simp only [statusTotal] at ih ihother ⊢
    omega
  | kept _ hsame ih => rwa [hsame]

end Conservation

section Results

/-- Two aggregates with the same counters, code and counts by key. -/
structure Alike (left right : BatchResponse) : Prop where
  batchCount : left.batchCount = right.batchCount
  docs : left.docs = right.docs
  errors : left.errors = right.errors
  retries : left.retries = right.retries
  size : left.size = right.size
  time : left.time = right.time
  statusCode : left.statusCode = right.statusCode
  statusCounts : ∀ status, left.statusCounts.find? status = right.statusCounts.find? status
  rejectedIndices : left.rejectedIndices.inOrder = right.rejectedIndices.inOrder

theorem alike_of_perm {responses order : List BatchResponse} (h : responses.Perm order) :
    Alike (responses.foldl merge aggregate) (order.foldl merge aggregate) where
  batchCount := counter_foldl_merge_perm merge_batchCount h aggregate
  docs := counter_foldl_merge_perm merge_docs h aggregate
  errors := counter_foldl_merge_perm merge_errors h aggregate
  retries := counter_foldl_merge_perm (fun _ _ => rfl) h aggregate
  size := counter_foldl_merge_perm (fun _ _ => rfl) h aggregate
  time := counter_foldl_merge_perm (fun _ _ => rfl) h aggregate
  statusCode := BitVec.eq_of_toNat_eq (codeOf_foldl_merge_perm h aggregate)
  statusCounts := by
    intro status
    rw [statusCounts_foldl_merge, statusCounts_foldl_merge]
    exact find?_foldInto_perm commutes_raise (h.flatMap_right _) _ status
  rejectedIndices := by
    apply KeyedMap.inOrder_congr
    intro index
    rw [rejectedIndices_foldl_merge, rejectedIndices_foldl_merge]
    exact find?_foldInto_perm commutes_raise (h.flatMap_right _) _ index

/-- A status code as the worst of the responses has it, and 0 without any response. -/
structure IsMaximum (responses : List BatchResponse) (code : U16) : Prop where
  upper : ∀ response ∈ responses, response.statusCode ≤ code
  reached : code = 0 ∨ ∃ response ∈ responses, response.statusCode = code
  nonzero : (∃ response ∈ responses, response.statusCode ≠ 0) → code ≠ 0

theorem isMaximum_aggregate (responses : List BatchResponse) :
    IsMaximum responses (responses.foldl merge aggregate).statusCode := by
  obtain ⟨-, hupper, hreached⟩ := codeOf_foldl_merge responses aggregate
  refine ⟨hupper, ?_, ?_⟩
  · rcases hreached with hzero | ⟨response, hmem, heq⟩
    · exact Or.inl (BitVec.eq_of_toNat_eq hzero)
    · exact Or.inr ⟨response, hmem, BitVec.eq_of_toNat_eq heq⟩
  · rintro ⟨response, hmem, hcode⟩ hzero
    have hle : response.statusCode.toNat ≤ _ := hupper response hmem
    rw [codeOf, hzero] at hle
    exact hcode (BitVec.eq_of_toNat_eq (Nat.le_zero.mp hle))

/-- The kept reasons of an aggregate: for the same indices as the responses have them,
without repetition, and up to three. -/
structure KeepsReasons (responses : List BatchResponse) (merged : BatchResponse) : Prop where
  keyed : ∀ index, (merged.rejectionReasons.find? index).isSome = true ↔
    ∃ response ∈ responses, (response.rejectionReasons.find? index).isSome = true
  nodup : ∀ index, ((merged.rejectionReasons.find? index).getD []).Nodup
  reported : ∀ index,
    (merged.rejectionReasons.find? index).getD [] ⊆ reportedReasons index responses
  length_eq : ∀ index, ((merged.rejectionReasons.find? index).getD []).length =
    min 3 (reportedReasons index responses).dedup.length
  complete : ∀ index, (reportedReasons index responses).dedup.length ≤ 3 →
    ∀ reason, reason ∈ (merged.rejectionReasons.find? index).getD [] ↔
      reason ∈ reportedReasons index responses

theorem keepsReasons_aggregate (responses : List BatchResponse) :
    KeepsReasons responses (responses.foldl merge aggregate) where
  keyed := by
    intro index
    rw [rejectionReasons_foldl_merge, find?_foldInto, foldHeld_isSome, valuesAt_reasons]
    rw [Bool.or_eq_true, Bool.not_eq_true', List.isEmpty_eq_false_iff_exists_mem]
    constructor
    · rintro (hnone | ⟨reasons, hmem⟩)
      · exact absurd hnone Bool.false_ne_true
      · obtain ⟨response, hresponse, hreasons⟩ := List.mem_flatMap.mp hmem
        rw [Option.mem_toList] at hreasons
        exact ⟨response, hresponse, Option.isSome_of_mem hreasons⟩
    · rintro ⟨response, hresponse, hsome⟩
      obtain ⟨reasons, hreasons⟩ := Option.isSome_iff_exists.mp hsome
      refine Or.inr ⟨reasons, List.mem_flatMap.mpr ⟨response, hresponse, ?_⟩⟩
      exact Option.mem_toList.mpr hreasons
  nodup index := (sampled_aggregate index responses).nodup
  reported index := (sampled_aggregate index responses).reported
  length_eq index := (sampled_aggregate index responses).length_eq
  complete index hfew := (sampled_aggregate index responses).mem_iff hfew

theorem reportedReasons_perm {responses order : List BatchResponse} (h : responses.Perm order)
    (index : String) :
    (reportedReasons index responses).Perm (reportedReasons index order) := h.flatMap_right _

theorem KeepsReasons.of_perm {responses order : List BatchResponse} (h : responses.Perm order)
    {merged : BatchResponse} (hkeeps : KeepsReasons order merged) :
    KeepsReasons responses merged where
  keyed index := by
    rw [hkeeps.keyed]
    constructor
    · rintro ⟨response, hmem, hsome⟩
      exact ⟨response, h.mem_iff.mpr hmem, hsome⟩
    · rintro ⟨response, hmem, hsome⟩
      exact ⟨response, h.mem_iff.mp hmem, hsome⟩
  nodup := hkeeps.nodup
  reported index _ hreason :=
    (reportedReasons_perm h index).mem_iff.mpr (hkeeps.reported index hreason)
  length_eq index := by
    rw [hkeeps.length_eq, (reportedReasons_perm h index).dedup.length_eq]
  complete index hfew reason := by
    rw [(reportedReasons_perm h index).dedup.length_eq] at hfew
    rw [hkeeps.complete index hfew, (reportedReasons_perm h index).mem_iff]

/-- Whatever the order of the responses, the aggregate has the same counters, code and
counts by key, keeps equally many of the same reasons, and counts every batch once. -/
theorem aggregation_in_any_order {responses order : List BatchResponse}
    (h : responses.Perm order) :
    Alike (responses.foldl merge aggregate) (order.foldl merge aggregate) ∧
      IsMaximum responses (responses.foldl merge aggregate).statusCode ∧
      (responses.foldl merge aggregate).batchCount.toNat =
        min (exactTotal (responses.map batchCount)) (maxCount 32) ∧
      KeepsReasons responses (responses.foldl merge aggregate) ∧
      KeepsReasons responses (order.foldl merge aggregate) ∧
      ((∀ response ∈ responses, Received response) →
        min (statusTotal (responses.foldl merge aggregate).statusCounts) (maxCount 32) =
          (responses.foldl merge aggregate).batchCount.toNat) ∧
      ∀ summary batch, Collected summary → Received batch →
        min (statusTotal (summary.addBatch batch).batch.statusCodes) (maxCount 32) =
          (summary.addBatch batch).batch.count.toNat := by
  have hbatches : (responses.foldl merge aggregate).batchCount.toNat =
      min (exactTotal (responses.map batchCount)) (maxCount 32) := by
    have hzero : aggregate.batchCount.toNat = 0 := rfl
    rw [batchCount_foldl_merge, toNat_foldl_satAdd, hzero, Nat.zero_add]
  refine ⟨alike_of_perm h, isMaximum_aggregate responses, hbatches,
    keepsReasons_aggregate responses, (keepsReasons_aggregate order).of_perm h, ?_, ?_⟩
  · intro hreceived
    exact min_statusTotal_merged fun response hmem => (hreceived response hmem).counted
  · intro summary batch hsummary hbatch
    exact counted_addBatch hsummary.counted hbatch

end Results

section Samples

/-- A bulk request with two of its documents rejected, for different reasons. -/
def rejectedTwice (first second : String) : BatchResponse :=
  { failed 2 200 with
    rejectedIndices := .insert .empty "logs-a" 2
    rejectionReasons := .insert .empty "logs-a" [first, second] }

/-- As many batches as a counter holds, all with one status. -/
def countedOut (batches : U32) (statusCode : U16) : BatchResponse :=
  { failed 0 statusCode with batchCount := batches }

theorem aggregation_in_any_order_rejectedTwice :
    Alike ([rejectedTwice "a" "b", rejectedTwice "c" "d"].foldl merge aggregate)
        ([rejectedTwice "c" "d", rejectedTwice "a" "b"].foldl merge aggregate) ∧
      min (statusTotal ([rejectedTwice "a" "b", rejectedTwice "c" "d"].foldl merge
        aggregate).statusCounts) (maxCount 32) =
          ([rejectedTwice "a" "b", rejectedTwice "c" "d"].foldl merge
            aggregate).batchCount.toNat := by
  have hreceived : ∀ response ∈ [rejectedTwice "a" "b", rejectedTwice "c" "d"],
      Received response := by
    intro response hmem
    apply Received.single
    simp only [List.mem_cons, List.not_mem_nil, or_false] at hmem
    rcases hmem with rfl | rfl <;> rfl
  have hresult := aggregation_in_any_order
    (List.Perm.swap (rejectedTwice "c" "d") (rejectedTwice "a" "b") [])
  exact ⟨hresult.1, hresult.2.2.2.2.2.1 hreceived⟩

/-- The kept reasons depend on the order, and counters that are full lose batches that
the counts by status still show. -/
theorem aggregation_depends_on_order :
    (([rejectedTwice "a" "b", rejectedTwice "c" "d"].foldl merge
        aggregate).rejectionReasons.find? "logs-a" = some ["a", "b", "c"] ∧
      ([rejectedTwice "c" "d", rejectedTwice "a" "b"].foldl merge
        aggregate).rejectionReasons.find? "logs-a" = some ["c", "d", "a"]) ∧
      statusTotal ([countedOut 4294967295 200, countedOut 1 404].foldl merge
        aggregate).statusCounts = 4294967296 ∧
      ([countedOut 4294967295 200, countedOut 1 404].foldl merge
        aggregate).batchCount.toNat = 4294967295 := by
  decide +kernel

end Samples

end Esdiag.BatchAggregation
