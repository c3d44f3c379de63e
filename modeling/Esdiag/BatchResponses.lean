import Esdiag.KeyedMaps
import Esdiag.SaturatingCounters
import Mathlib.Data.String.Basic

/-!
The result of one bulk request and the merge of several results into one.
Every counter saturates. The counts of rejected documents by index merge the
same way; as long as nothing saturates, merging adds the totals.
-/
namespace Esdiag.BatchResponses

open SaturatingCounters KeyedMaps

abbrev U16 := BitVec 16

abbrev U32 := BitVec 32

abbrev Rejections := KeyedMap String U32

abbrev RejectionReasons := KeyedMap String (List String)

/-- `*entry(index).or_default()` saturates upwards by a count. -/
def addRejections (target : Rejections) (index : String) (count : U32) : Rejections :=
  target.upsert index fun old => satAdd (old.getD 0#32) count

def mergeRejections (target source : Rejections) : Rejections :=
  source.inOrder.foldl (fun merged entry => addRejections merged entry.1 entry.2) target

/-- At most three different reasons are kept as samples. -/
def pushSample (samples : List String) (reason : String) : List String :=
  if samples.length < 3 ∧ ¬ reason ∈ samples then samples ++ [reason] else samples

def mergeRejectionReasons (target source : RejectionReasons) : RejectionReasons :=
  source.inOrder.foldl
    (fun merged entry =>
      merged.upsert entry.1 fun old => entry.2.foldl pushSample (old.getD []))
    target

/-- The documents a map attributes to indices, in unbounded arithmetic. -/
def attributed (rejections : Rejections) : ℕ := KeyedMap.total BitVec.toNat rejections

private theorem toNat_getD_zero (old : Option U32) :
    (old.getD 0#32).toNat = old.elim 0 BitVec.toNat := by
  cases old <;> simp

/-- Without saturation the attributed total grows by exactly the count. -/
theorem attributed_addRejections (target : Rejections) (index : String) (count : U32)
    (h : attributed target + count.toNat < 2 ^ 32) :
    attributed (addRejections target index count) = attributed target + count.toNat := by
  have htotal : attributed (addRejections target index count) +
        (target.find? index).elim 0 BitVec.toNat =
      attributed target + (satAdd ((target.find? index).getD 0#32) count).toNat :=
    KeyedMap.total_upsert BitVec.toNat target index _
  have hentry : (target.find? index).elim 0 BitVec.toNat ≤ attributed target :=
    KeyedMap.measure_find?_le_total BitVec.toNat target index
  rw [← toNat_getD_zero] at htotal hentry
  rw [toNat_satAdd_of_lt (by omega)] at htotal
  omega

theorem attributed_foldl_addRejections (entries : List (String × U32)) (target : Rejections)
    (h : attributed target + exactTotal (entries.map Prod.snd) < 2 ^ 32) :
    attributed (entries.foldl (fun m entry => addRejections m entry.1 entry.2) target) =
      attributed target + exactTotal (entries.map Prod.snd) := by
  induction entries generalizing target with
  | nil => simp
  | cons entry rest ih =>
    simp only [List.map_cons, exactTotal_cons] at h ⊢
    have hadd := attributed_addRejections target entry.1 entry.2 (by omega)
    rw [List.foldl_cons, ih _ (by omega), hadd]
    omega

theorem exactTotal_inOrder (source : Rejections) :
    exactTotal (source.inOrder.map Prod.snd) = attributed source := by
  have h := KeyedMap.sum_inOrder BitVec.toNat source
  simpa only [exactTotal, List.map_map, Function.comp_def, attributed] using h

theorem attributed_mergeRejections (target source : Rejections)
    (h : attributed target + attributed source < 2 ^ 32) :
    attributed (mergeRejections target source) = attributed target + attributed source := by
  unfold mergeRejections
  rw [attributed_foldl_addRejections _ _ (by rwa [exactTotal_inOrder]), exactTotal_inOrder]

structure BatchResponse where
  rejectedIndices : Rejections
  rejectionReasons : RejectionReasons
  batchCount : U32
  statusCounts : KeyedMap U16 U32
  docs : U32
  errors : U32
  retries : U16
  size : U32
  statusCode : U16
  time : U32

namespace BatchResponse

def new (docs : U32) : BatchResponse :=
  { rejectedIndices := .empty
    rejectionReasons := .empty
    batchCount := 1
    statusCounts := .empty
    docs := docs
    errors := 0
    retries := 0
    size := 0
    statusCode := 0
    time := 0 }

def aggregate : BatchResponse := { new 0 with batchCount := 0 }

/-- The request status of an HTTP exporter whose request never completed. -/
def httpRequestNotCompleted : U16 := 599

def failed (failedDocCount : U32) (statusCode : U16) : BatchResponse :=
  { new 0 with errors := failedDocCount, statusCode := statusCode }

def moreSevere (left right : U16) : U16 := if left ≤ right then right else left

/-- The transport verdict of an aggregate: the most severe request code, with 0
kept for exporters without HTTP. -/
def mergeStatusCode (wasEmpty : Bool) (left right : U16) (rightErrors : U32) : U16 :=
  if left = 0 ∧ wasEmpty then right
  else if right = 0 ∧ rightErrors = 0 then left
  else if left = right then left
  else if 400 ≤ left ∧ 400 ≤ right then moreSevere left right
  else if 400 ≤ left then left
  else if 400 ≤ right then right
  else moreSevere left right

def countStatus (counts : KeyedMap U16 U32) (status : U16) (count : U32) : KeyedMap U16 U32 :=
  counts.upsert status fun old => old.elim count fun existing => satAdd existing count

def mergeStatusCounts (counts : KeyedMap U16 U32) (other : BatchResponse) : KeyedMap U16 U32 :=
  if other.statusCounts.isEmpty then
    if 0 < other.batchCount then countStatus counts other.statusCode other.batchCount else counts
  else
    other.statusCounts.entries.foldl (fun merged entry => countStatus merged entry.1 entry.2)
      counts

def merge (self other : BatchResponse) : BatchResponse :=
  { rejectedIndices := mergeRejections self.rejectedIndices other.rejectedIndices
    rejectionReasons := mergeRejectionReasons self.rejectionReasons other.rejectionReasons
    batchCount := satAdd self.batchCount other.batchCount
    statusCounts := mergeStatusCounts self.statusCounts other
    docs := satAdd self.docs other.docs
    errors := satAdd self.errors other.errors
    retries := satAdd self.retries other.retries
    size := satAdd self.size other.size
    statusCode :=
      mergeStatusCode (self.batchCount == 0) self.statusCode other.statusCode other.errors
    time := satAdd self.time other.time }

@[simp] theorem merge_docs (self other : BatchResponse) :
    (self.merge other).docs = satAdd self.docs other.docs := rfl

@[simp] theorem merge_errors (self other : BatchResponse) :
    (self.merge other).errors = satAdd self.errors other.errors := rfl

@[simp] theorem merge_batchCount (self other : BatchResponse) :
    (self.merge other).batchCount = satAdd self.batchCount other.batchCount := rfl

/-- An aggregate that took in a counted response is never empty again. -/
theorem merge_batchCount_ne_zero (self other : BatchResponse) (h : other.batchCount ≠ 0) :
    (self.merge other).batchCount ≠ 0 := by
  intro hzero
  have hmerge := congrArg BitVec.toNat hzero
  rw [merge_batchCount, toNat_satAdd] at hmerge
  have hpos : 0 < other.batchCount.toNat := by
    by_contra hnot
    exact h (BitVec.eq_of_toNat_eq (by simpa using hnot))
  simp only [maxCount, BitVec.ofNat_eq_ofNat, BitVec.toNat_ofNat, Nat.zero_mod] at hmerge
  omega

end BatchResponse

end Esdiag.BatchResponses
