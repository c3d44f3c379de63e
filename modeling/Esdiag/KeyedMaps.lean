import Mathlib.Algebra.BigOperators.Group.List.Basic
import Mathlib.Data.List.Nodup
import Mathlib.Data.List.Sort
import Mathlib.Tactic.Linarith

/-!
Finite maps with one entry for each key. Entries are stored in the order in
which their keys first arrived; a map that is iterated in key order is read
through `inOrder`. The totals of a measure over the values are what the
accounting proofs use: writing one key changes the total by the difference
between the new and the old value of that key, and by nothing else.
-/
namespace Esdiag.KeyedMaps

variable {κ ν : Type*} [DecidableEq κ]

/-- Replace the entry of a key by a function of its old value, or add it. -/
def upsertEntry (k : κ) (f : Option ν → ν) : List (κ × ν) → List (κ × ν)
  | [] => [(k, f none)]
  | (k', v) :: rest =>
    if k' = k then (k', f (some v)) :: rest else (k', v) :: upsertEntry k f rest

def findEntry (k : κ) : List (κ × ν) → Option ν
  | [] => none
  | (k', v) :: rest => if k' = k then some v else findEntry k rest

theorem mem_keys_upsertEntry (k : κ) (f : Option ν → ν) (entries : List (κ × ν)) (a : κ) :
    a ∈ (upsertEntry k f entries).map Prod.fst ↔ a = k ∨ a ∈ entries.map Prod.fst := by
  induction entries with
  | nil => simp [upsertEntry]
  | cons entry rest ih =>
    obtain ⟨k', v⟩ := entry
    by_cases hk : k' = k
    · subst hk
      simp [upsertEntry]
    · simp only [upsertEntry, if_neg hk, List.map_cons, List.mem_cons, ih]
      constructor
      · rintro (h | h | h) <;> simp [h]
      · rintro (h | h | h) <;> simp [h]

theorem nodup_upsertEntry (k : κ) (f : Option ν → ν) (entries : List (κ × ν))
    (h : (entries.map Prod.fst).Nodup) : ((upsertEntry k f entries).map Prod.fst).Nodup := by
  induction entries with
  | nil => simp [upsertEntry]
  | cons entry rest ih =>
    obtain ⟨k', v⟩ := entry
    simp only [List.map_cons, List.nodup_cons] at h
    by_cases hk : k' = k
    · simpa only [upsertEntry, if_pos hk, List.map_cons, List.nodup_cons] using h
    · simp only [upsertEntry, if_neg hk, List.map_cons, List.nodup_cons,
        mem_keys_upsertEntry]
      exact ⟨fun hmem => hmem.elim hk h.1, ih h.2⟩

theorem findEntry_upsertEntry_self (k : κ) (f : Option ν → ν) (entries : List (κ × ν)) :
    findEntry k (upsertEntry k f entries) = some (f (findEntry k entries)) := by
  induction entries with
  | nil => simp [upsertEntry, findEntry]
  | cons entry rest ih =>
    obtain ⟨k', v⟩ := entry
    by_cases hk : k' = k
    · simp [upsertEntry, findEntry, hk]
    · simp [upsertEntry, findEntry, hk, ih]

theorem findEntry_upsertEntry_of_ne {k a : κ} (hne : a ≠ k) (f : Option ν → ν)
    (entries : List (κ × ν)) :
    findEntry a (upsertEntry k f entries) = findEntry a entries := by
  induction entries with
  | nil => simp [upsertEntry, findEntry, Ne.symm hne]
  | cons entry rest ih =>
    obtain ⟨k', v⟩ := entry
    by_cases hk : k' = k
    · subst hk
      simp [upsertEntry, findEntry, Ne.symm hne]
    · simp [upsertEntry, findEntry, hk, ih]

/-- Writing one key moves the total by the change of that key alone. -/
theorem sum_upsertEntry (g : ν → ℕ) (k : κ) (f : Option ν → ν) (entries : List (κ × ν)) :
    ((upsertEntry k f entries).map (fun e => g e.2)).sum + (findEntry k entries).elim 0 g =
      (entries.map (fun e => g e.2)).sum + g (f (findEntry k entries)) := by
  induction entries with
  | nil => simp [upsertEntry, findEntry]
  | cons entry rest ih =>
    obtain ⟨k', v⟩ := entry
    by_cases hk : k' = k
    · simp only [upsertEntry, findEntry, if_pos hk, List.map_cons, List.sum_cons,
        Option.elim_some]
      omega
    · simp only [upsertEntry, findEntry, if_neg hk, List.map_cons, List.sum_cons]
      omega

theorem measure_findEntry_le_sum (g : ν → ℕ) (k : κ) (entries : List (κ × ν)) :
    (findEntry k entries).elim 0 g ≤ (entries.map (fun e => g e.2)).sum := by
  induction entries with
  | nil => simp [findEntry]
  | cons entry rest ih =>
    obtain ⟨k', v⟩ := entry
    by_cases hk : k' = k
    · simp [findEntry, hk]
    · simp only [findEntry, if_neg hk, List.map_cons, List.sum_cons]
      omega

theorem mem_values_upsertEntry {k : κ} {v w : ν} {entries : List (κ × ν)}
    (h : w ∈ (upsertEntry k (fun _ => v) entries).map Prod.snd) :
    w = v ∨ w ∈ entries.map Prod.snd := by
  induction entries with
  | nil => simpa [upsertEntry] using h
  | cons entry rest ih =>
    obtain ⟨k', v'⟩ := entry
    by_cases hk : k' = k
    · simp only [upsertEntry, if_pos hk, List.map_cons, List.mem_cons] at h
      exact h.elim Or.inl fun hrest => Or.inr (by simp [List.mem_map.mp hrest])
    · simp only [upsertEntry, if_neg hk, List.map_cons, List.mem_cons] at h ⊢
      rcases h with hhead | hrest
      · exact Or.inr (Or.inl hhead)
      · exact (ih hrest).elim Or.inl fun hmem => Or.inr (Or.inr hmem)

theorem mem_keys_of_findEntry {k : κ} {v : ν} {entries : List (κ × ν)}
    (h : findEntry k entries = some v) : k ∈ entries.map Prod.fst := by
  induction entries with
  | nil => simp [findEntry] at h
  | cons entry rest ih =>
    obtain ⟨k', v'⟩ := entry
    by_cases hk : k' = k
    · simp [hk]
    · simp only [findEntry, if_neg hk] at h
      exact List.mem_cons_of_mem _ (ih h)

theorem mem_of_findEntry {k : κ} {v : ν} {entries : List (κ × ν)}
    (h : findEntry k entries = some v) : (k, v) ∈ entries := by
  induction entries with
  | nil => simp [findEntry] at h
  | cons entry rest ih =>
    obtain ⟨k', v'⟩ := entry
    by_cases hk : k' = k
    · simp only [findEntry, if_pos hk, Option.some.injEq] at h
      simp [hk, h]
    · simp only [findEntry, if_neg hk] at h
      exact List.mem_cons_of_mem _ (ih h)

theorem findEntry_isSome_iff (k : κ) (entries : List (κ × ν)) :
    (findEntry k entries).isSome = true ↔ k ∈ entries.map Prod.fst := by
  induction entries with
  | nil => simp [findEntry]
  | cons entry rest ih =>
    obtain ⟨k', v⟩ := entry
    by_cases hk : k' = k
    · simp [findEntry, hk]
    · simp [findEntry, hk, ih, Ne.symm hk]

/-- A finite map: no key has two entries. -/
structure KeyedMap (κ ν : Type*) where
  entries : List (κ × ν)
  nodup_keys : (entries.map Prod.fst).Nodup

namespace KeyedMap

def empty : KeyedMap κ ν := ⟨[], List.nodup_nil⟩

def find? (m : KeyedMap κ ν) (k : κ) : Option ν := findEntry k m.entries

def upsert (m : KeyedMap κ ν) (k : κ) (f : Option ν → ν) : KeyedMap κ ν :=
  ⟨upsertEntry k f m.entries, nodup_upsertEntry k f m.entries m.nodup_keys⟩

def insert (m : KeyedMap κ ν) (k : κ) (v : ν) : KeyedMap κ ν := m.upsert k fun _ => v

def values (m : KeyedMap κ ν) : List ν := m.entries.map Prod.snd

def isEmpty (m : KeyedMap κ ν) : Bool := m.entries.isEmpty

omit [DecidableEq κ] in
theorem keys_filterMap_sublist {μ : Type*} (f : κ → ν → Option μ) (entries : List (κ × ν)) :
    ((entries.filterMap fun e => (f e.1 e.2).map (Prod.mk e.1)).map Prod.fst).Sublist
      (entries.map Prod.fst) := by
  induction entries with
  | nil => exact List.Sublist.slnil
  | cons entry rest ih =>
    rw [List.filterMap_cons]
    cases f entry.1 entry.2 with
    | none => exact ih.trans (List.sublist_cons_self _ _)
    | some w => exact ih.cons_cons _

/-- Keep some entries, with a new value each. -/
def filterMap {μ : Type*} (m : KeyedMap κ ν) (f : κ → ν → Option μ) : KeyedMap κ μ :=
  ⟨m.entries.filterMap fun e => (f e.1 e.2).map (Prod.mk e.1),
    (keys_filterMap_sublist f m.entries).nodup m.nodup_keys⟩

/-- The entries in key order. -/
def inOrder [LE κ] [DecidableLE κ] (m : KeyedMap κ ν) : List (κ × ν) :=
  m.entries.insertionSort fun a b => a.1 ≤ b.1

/-- The total of a measure over the values of the map. -/
def total (g : ν → ℕ) (m : KeyedMap κ ν) : ℕ := (m.entries.map fun e => g e.2).sum

omit [DecidableEq κ] in
@[simp] theorem total_empty (g : ν → ℕ) : total g (empty : KeyedMap κ ν) = 0 := rfl

theorem find?_upsert_self (m : KeyedMap κ ν) (k : κ) (f : Option ν → ν) :
    (m.upsert k f).find? k = some (f (m.find? k)) := findEntry_upsertEntry_self k f m.entries

theorem find?_upsert_of_ne (m : KeyedMap κ ν) {k a : κ} (hne : a ≠ k) (f : Option ν → ν) :
    (m.upsert k f).find? a = m.find? a := findEntry_upsertEntry_of_ne hne f m.entries

theorem find?_upsert (m : KeyedMap κ ν) (k a : κ) (f : Option ν → ν) :
    (m.upsert k f).find? a = if a = k then some (f (m.find? k)) else m.find? a := by
  split
  · rename_i heq
    rw [heq, find?_upsert_self]
  · rename_i hne
    exact m.find?_upsert_of_ne hne f

theorem find?_insert_self (m : KeyedMap κ ν) (k : κ) (v : ν) :
    (m.insert k v).find? k = some v := m.find?_upsert_self k fun _ => v

theorem find?_insert_of_ne (m : KeyedMap κ ν) {k a : κ} (hne : a ≠ k) (v : ν) :
    (m.insert k v).find? a = m.find? a := m.find?_upsert_of_ne hne fun _ => v

theorem find?_insert (m : KeyedMap κ ν) (k a : κ) (v : ν) :
    (m.insert k v).find? a = if a = k then some v else m.find? a := m.find?_upsert k a fun _ => v

/-- Entries under distinct keys that are inserted stand before what was there. -/
theorem find?_foldl_insert {added : List (κ × ν)} (hdistinct : (added.map Prod.fst).Nodup)
    (m : KeyedMap κ ν) (k : κ) :
    (added.foldl (fun m entry => m.insert entry.1 entry.2) m).find? k =
      (findEntry k added).or (m.find? k) := by
  induction added generalizing m with
  | nil => rfl
  | cons entry rest ih =>
    obtain ⟨first, value⟩ := entry
    rw [List.map_cons, List.nodup_cons] at hdistinct
    rw [List.foldl_cons, ih hdistinct.2, find?_insert, findEntry]
    by_cases hfirst : first = k
    · have hnone : findEntry k rest = none := by
        rw [← Option.not_isSome_iff_eq_none, findEntry_isSome_iff]
        exact hfirst ▸ hdistinct.1
      rw [if_pos hfirst, if_pos hfirst.symm, hnone]
      rfl
    · rw [if_neg hfirst, if_neg (Ne.symm hfirst)]

/-- What a key already has may be inserted again. -/
theorem insert_of_find? {m : KeyedMap κ ν} {k : κ} {v : ν} (h : m.find? k = some v) :
    m.insert k v = m := by
  have hentries : ∀ entries : List (κ × ν), findEntry k entries = some v →
      upsertEntry k (fun _ => v) entries = entries := by
    intro entries
    induction entries with
    | nil => exact fun hnone => absurd hnone (by simp [findEntry])
    | cons entry rest ih =>
      obtain ⟨other, w⟩ := entry
      by_cases hkey : other = k
      · intro hfound
        simp [findEntry, hkey] at hfound
        simp [upsertEntry, hkey, hfound]
      · intro hfound
        rw [findEntry, if_neg hkey] at hfound
        rw [upsertEntry, if_neg hkey, ih hfound]
  obtain ⟨entries, hnodup⟩ := m
  simp only [insert, upsert, mk.injEq]
  exact hentries entries h

theorem total_upsert (g : ν → ℕ) (m : KeyedMap κ ν) (k : κ) (f : Option ν → ν) :
    total g (m.upsert k f) + (m.find? k).elim 0 g = total g m + g (f (m.find? k)) :=
  sum_upsertEntry g k f m.entries

theorem measure_find?_le_total (g : ν → ℕ) (m : KeyedMap κ ν) (k : κ) :
    (m.find? k).elim 0 g ≤ total g m := measure_findEntry_le_sum g k m.entries

theorem mem_values_insert {m : KeyedMap κ ν} {k : κ} {v w : ν}
    (h : w ∈ (m.insert k v).values) : w = v ∨ w ∈ m.values := mem_values_upsertEntry h

theorem mem_keys_of_find? {m : KeyedMap κ ν} {k : κ} {v : ν} (h : m.find? k = some v) :
    k ∈ m.entries.map Prod.fst := mem_keys_of_findEntry h

omit [DecidableEq κ] in
theorem total_eq_sum_values (g : ν → ℕ) (m : KeyedMap κ ν) :
    total g m = (m.values.map g).sum := by
  simp [total, values, Function.comp_def]

omit [DecidableEq κ] in
theorem inOrder_perm [LE κ] [DecidableLE κ] (m : KeyedMap κ ν) :
    m.inOrder.Perm m.entries := List.perm_insertionSort _ _

omit [DecidableEq κ] in
theorem sum_inOrder [LE κ] [DecidableLE κ] (g : ν → ℕ) (m : KeyedMap κ ν) :
    (m.inOrder.map fun e => g e.2).sum = total g m :=
  ((m.inOrder_perm).map _).sum_eq

end KeyedMap

/-- Two maps with the same entries in the same order are equal. -/
theorem KeyedMap.ext_entries {κ ν : Type*} {m m' : KeyedMap κ ν} (h : m.entries = m'.entries) :
    m = m' := by
  cases m
  cases m'
  simp only at h
  subst h
  rfl

/-- Two maps with the same keys in the same order and the same values are equal. -/
theorem KeyedMap.ext_values {κ ν : Type*} {m m' : KeyedMap κ ν}
    (hkeys : m.entries.map Prod.fst = m'.entries.map Prod.fst)
    (hvalues : ∀ k v v', (k, v) ∈ m.entries → (k, v') ∈ m'.entries → v = v') : m = m' := by
  apply KeyedMap.ext_entries
  have hlength : m.entries.length = m'.entries.length := by
    simpa using congrArg List.length hkeys
  apply List.ext_getElem hlength
  intro i h h'
  have hkey : m.entries[i].1 = m'.entries[i].1 := by
    simpa [List.getElem?_map, h, h'] using congrArg (·[i]?) hkeys
  refine Prod.ext hkey (hvalues m.entries[i].1 _ _ (List.getElem_mem h) ?_)
  rw [hkey]
  exact List.getElem_mem h'

section Traversal

variable {μ ε : Type*}

/-- Replace the values one after another; the first error ends the pass. -/
def traverseEntries (f : κ → ν → Except ε μ) : List (κ × ν) → Except ε (List (κ × μ))
  | [] => .ok []
  | (k, v) :: rest =>
    match f k v with
    | .error error => .error error
    | .ok w =>
      match traverseEntries f rest with
      | .error error => .error error
      | .ok ws => .ok ((k, w) :: ws)

omit [DecidableEq κ] in
theorem traverseEntries_cons_ok {f : κ → ν → Except ε μ} {k : κ} {v : ν}
    {rest : List (κ × ν)} {out : List (κ × μ)}
    (h : traverseEntries f ((k, v) :: rest) = .ok out) :
    ∃ w ws, f k v = .ok w ∧ traverseEntries f rest = .ok ws ∧ out = (k, w) :: ws := by
  unfold traverseEntries at h
  cases hv : f k v with
  | error error => simp [hv] at h
  | ok w =>
    cases hrest : traverseEntries f rest with
    | error error => simp [hv, hrest] at h
    | ok ws =>
      refine ⟨w, ws, rfl, rfl, ?_⟩
      simpa [hv, hrest] using h.symm

omit [DecidableEq κ] in
/-- The values are the images of the old ones, under the same keys. -/
theorem map_traverseEntries {f : κ → ν → Except ε μ} {entries : List (κ × ν)}
    {out : List (κ × μ)} (h : traverseEntries f entries = .ok out) :
    out.map (fun e => (e.1, Except.ok e.2)) = entries.map fun e => (e.1, f e.1 e.2) := by
  induction entries generalizing out with
  | nil =>
    obtain rfl : [] = out := by simpa [traverseEntries] using h
    rfl
  | cons entry rest ih =>
    obtain ⟨k, v⟩ := entry
    obtain ⟨w, ws, hv, hrest, rfl⟩ := traverseEntries_cons_ok h
    rw [List.map_cons, List.map_cons, ih hrest, hv]

omit [DecidableEq κ] in
theorem keys_traverseEntries {f : κ → ν → Except ε μ} {entries : List (κ × ν)}
    {out : List (κ × μ)} (h : traverseEntries f entries = .ok out) :
    out.map Prod.fst = entries.map Prod.fst := by
  have hmap := congrArg (List.map Prod.fst) (map_traverseEntries h)
  simpa only [List.map_map, Function.comp_def] using hmap

omit [DecidableEq κ] in
theorem traverseEntries_ok_iff {f : κ → ν → Except ε μ} {entries : List (κ × ν)} :
    (∃ out, traverseEntries f entries = .ok out) ↔
      ∀ e ∈ entries, ∃ w, f e.1 e.2 = .ok w := by
  induction entries with
  | nil => simp [traverseEntries]
  | cons entry rest ih =>
    obtain ⟨k, v⟩ := entry
    rw [List.forall_mem_cons, ← ih]
    constructor
    · rintro ⟨out, hout⟩
      obtain ⟨w, ws, hv, hrest, -⟩ := traverseEntries_cons_ok hout
      exact ⟨⟨w, hv⟩, ws, hrest⟩
    · rintro ⟨⟨w, hv⟩, ws, hrest⟩
      exact ⟨(k, w) :: ws, by simp [traverseEntries, hv, hrest]⟩

omit [DecidableEq κ] in
theorem mem_of_mem_traverseEntries {f : κ → ν → Except ε μ} {entries : List (κ × ν)}
    {out : List (κ × μ)} (h : traverseEntries f entries = .ok out) {e : κ × μ} (he : e ∈ out) :
    ∃ v, (e.1, v) ∈ entries ∧ f e.1 v = .ok e.2 := by
  have hmem : (e.1, Except.ok e.2) ∈ entries.map fun e => (e.1, f e.1 e.2) := by
    rw [← map_traverseEntries h]
    exact List.mem_map_of_mem he
  obtain ⟨⟨k, v⟩, hentry, heq⟩ := List.mem_map.mp hmem
  obtain ⟨rfl, hvalue⟩ := Prod.mk.inj heq
  exact ⟨v, hentry, hvalue⟩

omit [DecidableEq κ] in
theorem traverseEntries_of_forall {f : κ → ν → Except ε μ} {g : κ → ν → μ}
    {entries : List (κ × ν)} (h : ∀ e ∈ entries, f e.1 e.2 = .ok (g e.1 e.2)) :
    traverseEntries f entries = .ok (entries.map fun e => (e.1, g e.1 e.2)) := by
  induction entries with
  | nil => rfl
  | cons entry rest ih =>
    obtain ⟨k, v⟩ := entry
    rw [List.forall_mem_cons] at h
    simp only [traverseEntries, h.1, ih h.2, List.map_cons]

namespace KeyedMap

def traverse (f : κ → ν → Except ε μ) (m : KeyedMap κ ν) : Except ε (KeyedMap κ μ) :=
  match h : traverseEntries f m.entries with
  | .error error => .error error
  | .ok out => .ok ⟨out, by rw [keys_traverseEntries h]; exact m.nodup_keys⟩

omit [DecidableEq κ] in
theorem traverse_eq_ok_iff {f : κ → ν → Except ε μ} {m : KeyedMap κ ν} {out : KeyedMap κ μ} :
    m.traverse f = .ok out ↔ traverseEntries f m.entries = .ok out.entries := by
  unfold traverse
  split
  · rename_i error herror
    simp [herror]
  · rename_i entries hentries
    constructor
    · intro h
      rw [← Except.ok.inj h]
      exact hentries
    · intro h
      exact congrArg Except.ok (ext_entries (Except.ok.inj (hentries.symm.trans h)))

omit [DecidableEq κ] in
theorem traverse_ok_iff {f : κ → ν → Except ε μ} {m : KeyedMap κ ν} :
    (∃ out, m.traverse f = .ok out) ↔ ∀ e ∈ m.entries, ∃ w, f e.1 e.2 = .ok w := by
  rw [← traverseEntries_ok_iff]
  constructor
  · rintro ⟨out, hout⟩
    exact ⟨out.entries, traverse_eq_ok_iff.mp hout⟩
  · rintro ⟨out, hout⟩
    have hnodup : (out.map Prod.fst).Nodup := by
      rw [keys_traverseEntries hout]
      exact m.nodup_keys
    exact ⟨⟨out, hnodup⟩, traverse_eq_ok_iff.mpr hout⟩

/-- Replace every value. -/
def mapValues (g : κ → ν → μ) (m : KeyedMap κ ν) : KeyedMap κ μ :=
  ⟨m.entries.map fun e => (e.1, g e.1 e.2), by
    rw [List.map_map]
    exact m.nodup_keys⟩

omit [DecidableEq κ] in
@[simp] theorem mapValues_id (m : KeyedMap κ ν) : m.mapValues (fun _ value => value) = m :=
  ext_entries (by simp [mapValues])

omit [DecidableEq κ] in
theorem traverse_of_forall {f : κ → ν → Except ε μ} {g : κ → ν → μ} {m : KeyedMap κ ν}
    (h : ∀ e ∈ m.entries, f e.1 e.2 = .ok (g e.1 e.2)) :
    m.traverse f = .ok (m.mapValues g) :=
  traverse_eq_ok_iff.mpr (traverseEntries_of_forall h)

/-- The entries as a map, unless a key has two of them. -/
def ofEntries? (entries : List (κ × ν)) : Option (KeyedMap κ ν) :=
  if h : (entries.map Prod.fst).Nodup then some ⟨entries, h⟩ else none

theorem ofEntries?_entries (m : KeyedMap κ ν) : ofEntries? m.entries = some m := by
  unfold ofEntries?
  rw [dif_pos m.nodup_keys]

theorem ofEntries?_eq_some {entries : List (κ × ν)} {m : KeyedMap κ ν}
    (h : ofEntries? entries = some m) : m.entries = entries := by
  unfold ofEntries? at h
  by_cases hnodup : (entries.map Prod.fst).Nodup
  · rw [dif_pos hnodup] at h
    rw [← Option.some.inj h]
  · rw [dif_neg hnodup] at h
    exact absurd h (by simp)

/-- Remove a key; the other entries keep their order. -/
def remove (m : KeyedMap κ ν) (k : κ) : KeyedMap κ ν :=
  m.filterMap fun k' v => if k' = k then none else some v

theorem find?_remove (m : KeyedMap κ ν) (k a : κ) :
    (m.remove k).find? a = if a = k then none else m.find? a := by
  show findEntry a (m.entries.filterMap _) = _
  unfold find?
  generalize m.entries = entries
  induction entries with
  | nil => simp [findEntry]
  | cons entry rest ih =>
    obtain ⟨k', v⟩ := entry
    by_cases hk : k' = k
    · subst hk
      by_cases ha : a = k'
      · simp [ha] at ih ⊢
        exact ih
      · simp [ha, findEntry, Ne.symm ha] at ih ⊢
        exact ih
    · by_cases ha : k' = a
      · subst ha
        simp [hk, findEntry]
      · simp [hk, findEntry, ha] at ih ⊢
        exact ih

/-- Removing a key takes its value out of the total. -/
theorem total_remove (g : ν → ℕ) (m : KeyedMap κ ν) (k : κ) :
    total g (m.remove k) + (m.find? k).elim 0 g = total g m := by
  obtain ⟨entries, hnodup⟩ := m
  have hentries : ∀ entries : List (κ × ν), (entries.map Prod.fst).Nodup →
      ((entries.filterMap fun e =>
          (if e.1 = k then none else some e.2).map (Prod.mk e.1)).map fun e => g e.2).sum +
        (findEntry k entries).elim 0 g = (entries.map fun e => g e.2).sum := by
    intro entries hnodup
    induction entries with
    | nil => rfl
    | cons entry rest ih =>
      obtain ⟨k', v⟩ := entry
      rw [List.map_cons, List.nodup_cons] at hnodup
      have hrest := ih hnodup.2
      by_cases hk : k' = k
      · have hnone : findEntry k rest = none := by
          rw [← Option.not_isSome_iff_eq_none, findEntry_isSome_iff]
          exact hk ▸ hnodup.1
        rw [hnone, Option.elim_none, Nat.add_zero] at hrest
        simp [hk, findEntry] at hrest ⊢
        omega
      · simp [hk, findEntry] at hrest ⊢
        omega
  exact hentries entries hnodup

theorem find?_eq_some_iff {m : KeyedMap κ ν} {k : κ} {v : ν} :
    m.find? k = some v ↔ (k, v) ∈ m.entries := by
  constructor
  · exact mem_of_findEntry
  · obtain ⟨entries, hnodup⟩ := m
    intro h
    show findEntry k entries = some v
    induction entries with
    | nil => cases h
    | cons entry rest ih =>
      obtain ⟨other, value⟩ := entry
      rw [List.map_cons, List.nodup_cons] at hnodup
      unfold findEntry
      by_cases hkey : other = k
      · rw [if_pos hkey]
        rcases List.mem_cons.mp h with heq | hmem
        · rw [(Prod.mk.inj heq).2]
        · exact absurd (List.mem_map_of_mem hmem) (hkey ▸ hnodup.1)
      · rw [if_neg hkey]
        rcases List.mem_cons.mp h with heq | hmem
        · exact absurd (Prod.mk.inj heq).1.symm hkey
        · exact ih hnodup.2 hmem

theorem find?_mapValues (g : κ → ν → μ) (m : KeyedMap κ ν) (k : κ) :
    (m.mapValues g).find? k = (m.find? k).map (g k) := by
  obtain ⟨entries, hnodup⟩ := m
  show findEntry k (entries.map fun e => (e.1, g e.1 e.2)) = (findEntry k entries).map (g k)
  clear hnodup
  induction entries with
  | nil => rfl
  | cons entry rest ih =>
    obtain ⟨other, value⟩ := entry
    rw [List.map_cons]
    unfold findEntry
    by_cases hkey : other = k
    · simp [hkey]
    · rw [if_neg hkey, if_neg hkey, ih]

theorem find?_filterMap (f : κ → ν → Option μ) (m : KeyedMap κ ν) (k : κ) :
    (m.filterMap f).find? k = (m.find? k).bind (f k) := by
  apply Option.ext
  intro w
  have hentries : (k, w) ∈ (m.filterMap f).entries ↔ ∃ v, (k, v) ∈ m.entries ∧ f k v = some w := by
    constructor
    · intro h
      obtain ⟨⟨other, v⟩, hmem, hw⟩ := List.mem_filterMap.mp h
      obtain ⟨w', hw', heq⟩ := Option.map_eq_some_iff.mp hw
      obtain ⟨rfl, rfl⟩ := Prod.mk.inj heq
      exact ⟨v, hmem, hw'⟩
    · rintro ⟨v, hmem, hw⟩
      exact List.mem_filterMap.mpr ⟨(k, v), hmem, by simp [hw]⟩
  rw [find?_eq_some_iff, hentries, Option.bind_eq_some_iff]
  constructor
  · rintro ⟨v, hmem, hw⟩
    exact ⟨v, find?_eq_some_iff.mpr hmem, hw⟩
  · rintro ⟨v, hfind, hw⟩
    exact ⟨v, find?_eq_some_iff.mp hfind, hw⟩

theorem find?_isSome_iff (m : KeyedMap κ ν) (k : κ) :
    (m.find? k).isSome = true ↔ k ∈ m.entries.map Prod.fst := findEntry_isSome_iff k m.entries

end KeyedMap

end Traversal

/-- Maps that find the same values have the same entries, in some order. -/
theorem KeyedMap.entries_perm {κ ν : Type*} [DecidableEq κ] {m m' : KeyedMap κ ν}
    (h : ∀ k, m.find? k = m'.find? k) : m.entries.Perm m'.entries := by
  rw [List.perm_ext_iff_of_nodup m.nodup_keys.of_map m'.nodup_keys.of_map]
  rintro ⟨k, v⟩
  rw [← find?_eq_some_iff, ← find?_eq_some_iff, h]

/-- Maps with the same keys are iterated in the same order. -/
theorem KeyedMap.keys_inOrder_congr {κ ν μ : Type*} [LinearOrder κ] {m : KeyedMap κ ν}
    {m' : KeyedMap κ μ} (h : ∀ k, (m.find? k).isSome = (m'.find? k).isSome) :
    m.inOrder.map Prod.fst = m'.inOrder.map Prod.fst := by
  have : Std.Total fun a b : κ × ν => a.1 ≤ b.1 := ⟨fun a b => le_total a.1 b.1⟩
  have : IsTrans (κ × ν) fun a b => a.1 ≤ b.1 := ⟨fun _ _ _ => le_trans⟩
  have : Std.Total fun a b : κ × μ => a.1 ≤ b.1 := ⟨fun a b => le_total a.1 b.1⟩
  have : IsTrans (κ × μ) fun a b => a.1 ≤ b.1 := ⟨fun _ _ _ => le_trans⟩
  have hkeys : (m.entries.map Prod.fst).Perm (m'.entries.map Prod.fst) := by
    rw [List.perm_ext_iff_of_nodup m.nodup_keys m'.nodup_keys]
    intro k
    rw [← find?_isSome_iff, ← find?_isSome_iff, h]
  have hperm : (m.inOrder.map Prod.fst).Perm (m'.inOrder.map Prod.fst) :=
    ((m.inOrder_perm.map _).trans hkeys).trans (m'.inOrder_perm.map _).symm
  refine List.Perm.eq_of_pairwise (fun a b _ _ => le_antisymm) ?_ ?_ hperm
  · exact List.pairwise_map.mpr (List.pairwise_insertionSort _ _)
  · exact List.pairwise_map.mpr (List.pairwise_insertionSort _ _)

/-- Maps that find the same values are iterated alike. -/
theorem KeyedMap.inOrder_congr {κ ν : Type*} [LinearOrder κ] {m m' : KeyedMap κ ν}
    (h : ∀ k, m.find? k = m'.find? k) : m.inOrder = m'.inOrder := by
  have hperm : m.inOrder.Perm m'.inOrder :=
    (m.inOrder_perm.trans (entries_perm h)).trans m'.inOrder_perm.symm
  have : Std.Total fun a b : κ × ν => a.1 ≤ b.1 := ⟨fun a b => le_total a.1 b.1⟩
  have : IsTrans (κ × ν) fun a b => a.1 ≤ b.1 := ⟨fun _ _ _ => le_trans⟩
  refine List.Perm.eq_of_pairwise ?_ (List.pairwise_insertionSort _ _)
    (List.pairwise_insertionSort _ _) hperm
  rintro ⟨k, v⟩ ⟨k', v'⟩ hentry hentry' hle hge
  obtain rfl : k = k' := le_antisymm hle hge
  have hfind := find?_eq_some_iff.mpr (m.inOrder_perm.mem_iff.mp hentry)
  have hfind' := find?_eq_some_iff.mpr (m'.inOrder_perm.mem_iff.mp hentry')
  rw [h, hfind', Option.some.injEq] at hfind
  rw [hfind]

end Esdiag.KeyedMaps
