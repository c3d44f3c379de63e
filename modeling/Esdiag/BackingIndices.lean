import Esdiag.BulkExport

/-!
Bulk items name the backing index that a document went to. Elasticsearch joins the
name of the data stream, a date and a generation with dashes, which stream names
contain as well. Read from the right, such a name still gives back its stream, and
any other name stands for itself, so that rejections are counted by data stream.
-/
namespace Esdiag.BackingIndices

open KeyedMaps BatchResponses JsonValues BulkExport

/-- The stream names of this program. -/
def IsEsdiagStream (stream : String) : Prop :=
  Texts.endsWith stream "-esdiag" ∨ Texts.contains stream "-esdiag-"

/-- The parts of the name of a backing index. The date is one that the exporter reads,
written without a sign. -/
structure BackingParts (cfg : BulkConfig) where
  start : String
  stream : String
  date : String
  generation : String
  starts : start = ".ds-" ∨ start = ".fs-"
  named : IsEsdiagStream stream
  dated : cfg.isDate date = true
  unsigned : '-' ∉ date.toList
  long : 6 ≤ generation.toUTF8.size
  digits : generation.toList.all Char.isDigit = true

namespace BackingParts

variable {cfg : BulkConfig}

def name (parts : BackingParts cfg) : String :=
  parts.start ++ (parts.stream ++ "-" ++ parts.date ++ "-" ++ parts.generation)

theorem notMem_generation (parts : BackingParts cfg) : '-' ∉ parts.generation.toList := by
  intro hmem
  have hdigit := List.all_eq_true.mp parts.digits '-' hmem
  exact absurd hdigit (by decide)

theorem stripPrefix_name (parts : BackingParts cfg) :
    ((Texts.stripPrefix ".ds-" parts.name).orElse fun _ =>
        Texts.stripPrefix ".fs-" parts.name) =
      some (parts.stream ++ "-" ++ parts.date ++ "-" ++ parts.generation) := by
  have hown : Texts.stripPrefix parts.start parts.name = some _ :=
    Texts.stripPrefix_eq_some.mpr rfl
  rcases parts.starts with hstart | hstart
  · rw [hstart] at hown
    rw [hown]
    rfl
  · have hother : Texts.stripPrefix ".ds-" parts.name = none := by
      unfold name Texts.stripPrefix
      rw [hstart, String.toList_append]
      rfl
    rw [hstart] at hown
    rw [hother, hown]
    rfl

end BackingParts

section Streams

variable (cfg : BulkConfig)

/-- The name of a backing index gives back its data stream. -/
theorem rejectedDataStream_name (parts : BackingParts cfg) :
    rejectedDataStream cfg parts.name = parts.stream := by
  have hgeneration : Texts.rsplitOnce '-'
      (parts.stream ++ "-" ++ parts.date ++ "-" ++ parts.generation) =
        some (parts.stream ++ "-" ++ parts.date, parts.generation) :=
    Texts.rsplitOnce_eq_some.mpr ⟨rfl, parts.notMem_generation⟩
  have hdate : Texts.rsplitOnce '-' (parts.stream ++ "-" ++ parts.date) =
      some (parts.stream, parts.date) :=
    Texts.rsplitOnce_eq_some.mpr ⟨rfl, parts.unsigned⟩
  have hkept : ¬(parts.generation.toUTF8.size < 6 ∨ ¬ parts.generation.toList.all Char.isDigit ∨
      ¬ cfg.isDate parts.date ∨
      ¬(Texts.endsWith parts.stream "-esdiag" ∨ Texts.contains parts.stream "-esdiag-")) := by
    rintro (hshort | hdigits | hdated | hnamed)
    · exact Nat.not_lt.mpr parts.long hshort
    · exact hdigits parts.digits
    · exact hdated parts.dated
    · exact hnamed parts.named
  unfold rejectedDataStream
  rw [parts.stripPrefix_name]
  dsimp only
  rw [hgeneration]
  dsimp only
  rw [hdate]
  dsimp only
  rw [if_neg hkept]

/-- A stream name may itself contain what looks like a date. -/
example : rejectedDataStream ⟨"", 1, 0#64, 0#16, false, false, fun date => date == "2026.05.06"⟩
    ".fs-metrics-2026.05.06-esdiag-2026.05.06-000012" = "metrics-2026.05.06-esdiag" := by
  decide +kernel

/-- A name is left as it is, or it is that of a backing index. -/
theorem rejectedDataStream_cases (name : String) :
    rejectedDataStream cfg name = name ∨ ∃ parts : BackingParts cfg, parts.name = name := by
  unfold rejectedDataStream
  cases hstart : (Texts.stripPrefix ".ds-" name).orElse fun _ =>
      Texts.stripPrefix ".fs-" name with
  | none => exact Or.inl rfl
  | some backing =>
    dsimp only
    cases hgeneration : Texts.rsplitOnce '-' backing with
    | none => exact Or.inl rfl
    | some dated =>
      obtain ⟨datedStream, generation⟩ := dated
      dsimp only
      cases hdate : Texts.rsplitOnce '-' datedStream with
      | none => exact Or.inl rfl
      | some parts =>
        obtain ⟨stream, date⟩ := parts
        dsimp only
        split
        · exact Or.inl rfl
        · rename_i hkept
          obtain ⟨hlong, hkept⟩ := not_or.mp hkept
          obtain ⟨hdigits, hkept⟩ := not_or.mp hkept
          obtain ⟨hdated, hnamed⟩ := not_or.mp hkept
          obtain ⟨hbacking, -⟩ := Texts.rsplitOnce_eq_some.mp hgeneration
          obtain ⟨hstream, hunsigned⟩ := Texts.rsplitOnce_eq_some.mp hdate
          have hstarts : ∃ start, (start = ".ds-" ∨ start = ".fs-") ∧ name = start ++ backing := by
            cases hds : Texts.stripPrefix ".ds-" name with
            | some rest =>
              rw [hds] at hstart
              obtain rfl : rest = backing := Option.some.inj hstart
              exact ⟨".ds-", Or.inl rfl, Texts.stripPrefix_eq_some.mp hds⟩
            | none =>
              rw [hds] at hstart
              exact ⟨".fs-", Or.inr rfl, Texts.stripPrefix_eq_some.mp hstart⟩
          obtain ⟨start, hstart, hname⟩ := hstarts
          refine Or.inr ⟨⟨start, stream, date, generation, hstart, not_not.mp hnamed,
            not_not.mp hdated, hunsigned, Nat.le_of_not_lt hlong, not_not.mp hdigits⟩, ?_⟩
          rw [hname, hbacking, hstream]
          rfl

/-- The data stream that a name stands for. -/
inductive BelongsTo : String → String → Prop where
  | backing (parts : BackingParts cfg) : BelongsTo parts.name parts.stream
  | itself {name : String} (h : ∀ parts : BackingParts cfg, parts.name ≠ name) :
      BelongsTo name name

theorem rejectedDataStream_of_forall_ne {name : String}
    (h : ∀ parts : BackingParts cfg, parts.name ≠ name) : rejectedDataStream cfg name = name :=
  (rejectedDataStream_cases cfg name).resolve_right fun ⟨parts, hname⟩ => h parts hname

/-- Every name stands for exactly one data stream. -/
theorem belongsTo_iff {name stream : String} :
    BelongsTo cfg name stream ↔ rejectedDataStream cfg name = stream := by
  constructor
  · intro h
    cases h with
    | backing parts => exact rejectedDataStream_name cfg parts
    | itself hnone => exact rejectedDataStream_of_forall_ne cfg hnone
  · rintro rfl
    by_cases hbacking : ∃ parts : BackingParts cfg, parts.name = name
    · obtain ⟨parts, rfl⟩ := hbacking
      rw [rejectedDataStream_name]
      exact .backing parts
    · have hnone : ∀ parts : BackingParts cfg, parts.name ≠ name :=
        fun parts hname => hbacking ⟨parts, hname⟩
      rw [rejectedDataStream_of_forall_ne cfg hnone]
      exact .itself hnone

end Streams

section Buckets

variable (cfg : BulkConfig) (index : String)

/-- The index that an item names, or that of the request. -/
def namedIndex (item : Value) : String :=
  (((item.index "create").index "_index").asStr.filter fun name => name != "").getD index

/-- The entry under which a rejection is counted. -/
def bucketOf (item : Value) : String := rejectedDataStream cfg (namedIndex index item)

/-- A rejection is counted in its own bucket and in no other. -/
theorem find?_recordRejection (response : BatchResponse) (item : Value) (bucket : String) :
    (recordRejection cfg index response item).rejectedIndices.find? bucket =
      if bucket = bucketOf cfg index item then
        some ((response.rejectedIndices.find? bucket).getD 0#32 + 1#32)
      else response.rejectedIndices.find? bucket := by
  have hupsert : (recordRejection cfg index response item).rejectedIndices =
      response.rejectedIndices.upsert (bucketOf cfg index item) fun old =>
        old.getD 0#32 + 1#32 := rfl
  rw [hupsert]
  split
  · rename_i hbucket
    rw [hbucket, KeyedMap.find?_upsert_self]
  · rename_i hother
    exact KeyedMap.find?_upsert_of_ne _ hother _

/-- Backing index names are undone, other names are kept, and two rejections share a bucket
exactly where their indices stand for the same data stream. -/
theorem rejections_counted_by_stream :
    (∀ parts : BackingParts cfg, rejectedDataStream cfg parts.name = parts.stream) ∧
      (∀ name, (∀ parts : BackingParts cfg, parts.name ≠ name) →
        rejectedDataStream cfg name = name) ∧
      ∀ left right, bucketOf cfg index left = bucketOf cfg index right ↔
        ∃ stream, BelongsTo cfg (namedIndex index left) stream ∧
          BelongsTo cfg (namedIndex index right) stream := by
  refine ⟨rejectedDataStream_name cfg, fun name => rejectedDataStream_of_forall_ne cfg, ?_⟩
  intro left right
  simp only [belongsTo_iff]
  constructor
  · intro hbuckets
    exact ⟨_, hbuckets, rfl⟩
  · rintro ⟨stream, hleft, hright⟩
    exact hleft.trans hright.symm

end Buckets

end Esdiag.BackingIndices
