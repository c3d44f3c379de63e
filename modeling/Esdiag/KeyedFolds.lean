import Esdiag.KeyedMaps
import Esdiag.SaturatingCounters

/-!
Maps into which lists of entries are folded. What a key holds in the end depends
only on the values under that key, in their order; where two values may change
places it does not depend on the order at all. Saturating counters are such
values: every key ends at its exact sum cut off at the top, and the sum over all
keys, cut off there as well, is the sum of all counts.
-/
namespace Esdiag.KeyedFolds

open KeyedMaps SaturatingCounters

section Observations

variable {σ τ α : Type*} {run : σ → α → σ} (field : σ → τ) {step : τ → α → τ}
  (hfield : ∀ state item, field (run state item) = step (field state) item)

include hfield

theorem field_foldl (items : List α) (state : σ) :
    field (items.foldl run state) = items.foldl step (field state) :=
  (List.foldl_hom field fun state item => (hfield state item).symm).symm

/-- A field that every item changes in a step of its own is the same for every order of
the items, where the steps may change places. -/
theorem field_foldl_perm
    (hstep : ∀ held first second,
      step (step held first) second = step (step held second) first)
    {items order : List α} (h : items.Perm order) (state : σ) :
    field (items.foldl run state) = field (order.foldl run state) := by
  rw [field_foldl field hfield, field_foldl field hfield]
  exact h.foldl_eq' (fun first _ second _ held => hstep held first second) (field state)

omit hfield

/-- A list that every item only adds to. -/
theorem field_foldl_append (field : σ → List τ) {added : α → List τ}
    (hadded : ∀ state item, field (run state item) = field state ++ added item)
    (items : List α) (state : σ) :
    field (items.foldl run state) = field state ++ items.flatMap added := by
  induction items generalizing state with
  | nil => simp
  | cons item rest ih => rw [List.foldl_cons, ih, hadded, List.flatMap_cons, List.append_assoc]

theorem field_foldl_append_perm (field : σ → List τ) {added : α → List τ}
    (hadded : ∀ state item, field (run state item) = field state ++ added item)
    {items order : List α} (h : items.Perm order) (state : σ) :
    (field (items.foldl run state)).Perm (field (order.foldl run state)) := by
  rw [field_foldl_append field hadded, field_foldl_append field hadded]
  exact (h.flatMap_right added).append_left (field state)

end Observations

section Folds

variable {κ μ ν σ : Type*} [DecidableEq κ]

/-- Fold entries into a map, each into what its key holds by then. -/
def foldInto (g : μ → Option ν → ν) (m : KeyedMap κ ν) (entries : List (κ × μ)) : KeyedMap κ ν :=
  entries.foldl (fun held entry => held.upsert entry.1 (g entry.2)) m

/-- Fold values into what one key holds. -/
def foldHeld (g : μ → Option ν → ν) (held : Option ν) (values : List μ) : Option ν :=
  values.foldl (fun old value => some (g value old)) held

/-- The values that some entries have under one key. -/
def valuesAt (k : κ) (entries : List (κ × μ)) : List μ :=
  entries.filterMap fun entry => if entry.1 = k then some entry.2 else none

theorem find?_foldInto (g : μ → Option ν → ν) (m : KeyedMap κ ν) (entries : List (κ × μ))
    (k : κ) :
    (foldInto g m entries).find? k = foldHeld g (m.find? k) (valuesAt k entries) := by
  induction entries generalizing m with
  | nil => rfl
  | cons entry rest ih =>
    have hrest := ih (m.upsert entry.1 (g entry.2))
    by_cases hkey : entry.1 = k
    · have hvalues : valuesAt k (entry :: rest) = entry.2 :: valuesAt k rest :=
        List.filterMap_cons_some (by rw [if_pos hkey])
      rw [hkey, KeyedMap.find?_upsert_self] at hrest
      rw [hvalues]
      simpa only [foldInto, foldHeld, List.foldl_cons, hkey] using hrest
    · have hvalues : valuesAt k (entry :: rest) = valuesAt k rest :=
        List.filterMap_cons_none (by rw [if_neg hkey])
      rw [KeyedMap.find?_upsert_of_ne m (Ne.symm hkey)] at hrest
      rw [hvalues]
      simpa only [foldInto, List.foldl_cons] using hrest

/-- Several lists folded in one after another are one list. -/
theorem foldl_foldInto (g : μ → Option ν → ν) (entriesOf : σ → List (κ × μ)) (parts : List σ)
    (m : KeyedMap κ ν) :
    parts.foldl (fun held part => foldInto g held (entriesOf part)) m =
      foldInto g m (parts.flatMap entriesOf) := by
  rw [foldInto, List.foldl_flatMap]
  rfl

theorem valuesAt_flatMap (entriesOf : σ → List (κ × μ)) (parts : List σ) (k : κ) :
    valuesAt k (parts.flatMap entriesOf) = parts.flatMap fun part => valuesAt k (entriesOf part) :=
  List.filterMap_flatMap

theorem valuesAt_perm {left right : List (κ × μ)} (h : left.Perm right) (k : κ) :
    (valuesAt k left).Perm (valuesAt k right) := h.filterMap _

theorem valuesAt_eq_nil {k : κ} {entries : List (κ × μ)} (h : k ∉ entries.map Prod.fst) :
    valuesAt k entries = [] := by
  apply List.filterMap_eq_nil_iff.mpr
  intro entry hentry
  have hkey : entry.1 ≠ k := fun heq => h (heq ▸ List.mem_map_of_mem hentry)
  exact if_neg hkey

/-- A map has at most one value under a key. -/
theorem valuesAt_entries (m : KeyedMap κ μ) (k : κ) :
    valuesAt k m.entries = (m.find? k).toList := by
  obtain ⟨entries, hnodup⟩ := m
  change valuesAt k entries = (findEntry k entries).toList
  induction entries with
  | nil => rfl
  | cons entry rest ih =>
    obtain ⟨other, value⟩ := entry
    rw [List.map_cons, List.nodup_cons] at hnodup
    by_cases hkey : other = k
    · subst hkey
      have hrest := valuesAt_eq_nil hnodup.1
      have hvalues : valuesAt other ((other, value) :: rest) = value :: valuesAt other rest :=
        List.filterMap_cons_some (if_pos rfl)
      rw [hvalues, hrest, findEntry, if_pos rfl]
      rfl
    · have hvalues : valuesAt k ((other, value) :: rest) = valuesAt k rest :=
        List.filterMap_cons_none (if_neg hkey)
      rw [hvalues, findEntry, if_neg hkey]
      exact ih hnodup.2

theorem valuesAt_inOrder [LE κ] [DecidableLE κ] (m : KeyedMap κ μ) (k : κ) :
    valuesAt k m.inOrder = (m.find? k).toList := by
  have hperm := valuesAt_perm m.inOrder_perm k
  rw [valuesAt_entries] at hperm
  cases hfind : m.find? k with
  | none =>
    rw [hfind] at hperm
    exact hperm.eq_nil
  | some value =>
    rw [hfind] at hperm
    exact List.perm_singleton.mp hperm

/-- Two values that change places leave the same under their key. -/
def Commutes (g : μ → Option ν → ν) : Prop :=
  ∀ first second old, g first (some (g second old)) = g second (some (g first old))

theorem foldHeld_perm {g : μ → Option ν → ν} (hg : Commutes g) {left right : List μ}
    (h : left.Perm right) (held : Option ν) : foldHeld g held left = foldHeld g held right := by
  apply h.foldl_eq'
  intro first _ second _ old
  rw [hg]

/-- Where values commute, the order of the entries leaves no trace under any key. -/
theorem find?_foldInto_perm {g : μ → Option ν → ν} (hg : Commutes g)
    {left right : List (κ × μ)} (h : left.Perm right) (m : KeyedMap κ ν) (k : κ) :
    (foldInto g m left).find? k = (foldInto g m right).find? k := by
  rw [find?_foldInto, find?_foldInto, foldHeld_perm hg (valuesAt_perm h k)]

theorem foldHeld_isSome (g : μ → Option ν → ν) (held : Option ν) (values : List μ) :
    (foldHeld g held values).isSome = (held.isSome || !values.isEmpty) := by
  induction values generalizing held with
  | nil => simp [foldHeld]
  | cons value rest ih =>
    have hrest := ih (some (g value held))
    simpa [foldHeld] using hrest

/-- The values under a key come in the order of the parts. Where only one of the parts has
the key, they come in the same order whatever the order of the parts. -/
theorem valuesAt_flatMap_perm {entriesOf : σ → List (κ × μ)} {parts order : List σ}
    (h : parts.Perm order)
    (hapart : parts.Pairwise fun first second =>
      ((entriesOf first).map Prod.fst).Disjoint ((entriesOf second).map Prod.fst))
    (k : κ) :
    valuesAt k (parts.flatMap entriesOf) = valuesAt k (order.flatMap entriesOf) := by
  simp only [valuesAt_flatMap]
  induction h with
  | nil => rfl
  | cons part _ ih => rw [List.flatMap_cons, List.flatMap_cons, ih hapart.of_cons]
  | swap first second rest =>
    have hdisjoint := List.rel_of_pairwise_cons hapart List.mem_cons_self
    simp only [List.flatMap_cons, ← List.append_assoc]
    congr 1
    by_cases hkey : k ∈ (entriesOf first).map Prod.fst
    · rw [valuesAt_eq_nil fun hsecond => hdisjoint hsecond hkey, List.append_nil,
        List.nil_append]
    · rw [valuesAt_eq_nil hkey, List.append_nil, List.nil_append]
  | trans hleft _ ihleft ihright =>
    have hmiddle := hapart.perm hleft fun hdisjoint _ hsecond hfirst =>
      hdisjoint hfirst hsecond
    exact (ihleft hapart).trans (ihright hmiddle)

end Folds

section Counters

variable {κ : Type*} [DecidableEq κ] {w : ℕ}

/-- A counter raised by a count; a missing one starts at zero. -/
def raise (count : BitVec w) (old : Option (BitVec w)) : BitVec w := satAdd (old.getD 0#w) count

theorem commutes_raise : Commutes (raise (w := w)) := by
  intro first second old
  apply BitVec.eq_of_toNat_eq
  simp only [raise, Option.getD_some, toNat_satAdd]
  omega

/-- The sum of the counters, cut off at the top, after one of them is raised. -/
theorem total_upsert_raise (counts : KeyedMap κ (BitVec w)) (k : κ) (count : BitVec w) :
    min (KeyedMap.total BitVec.toNat (counts.upsert k (raise count))) (maxCount w) =
      min (KeyedMap.total BitVec.toNat counts + count.toNat) (maxCount w) := by
  have htotal := KeyedMap.total_upsert BitVec.toNat counts k (raise count)
  have hheld := KeyedMap.measure_find?_le_total BitVec.toNat counts k
  have hraised : (raise count (counts.find? k)).toNat =
      min ((counts.find? k).elim 0 BitVec.toNat + count.toNat) (maxCount w) := by
    rw [raise, toNat_satAdd]
    cases counts.find? k <;> simp
  omega

theorem total_foldInto_raise (counts : KeyedMap κ (BitVec w)) (entries : List (κ × BitVec w)) :
    min (KeyedMap.total BitVec.toNat (foldInto raise counts entries)) (maxCount w) =
      min (KeyedMap.total BitVec.toNat counts + exactTotal (entries.map Prod.snd))
        (maxCount w) := by
  induction entries generalizing counts with
  | nil => simp [foldInto]
  | cons entry rest ih =>
    have hrest := ih (counts.upsert entry.1 (raise entry.2))
    have hfirst := total_upsert_raise counts entry.1 entry.2
    simp only [foldInto, List.foldl_cons, List.map_cons, exactTotal_cons] at hrest ⊢
    omega

end Counters

end Esdiag.KeyedFolds
