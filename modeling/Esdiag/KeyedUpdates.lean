import Esdiag.KeyedMaps

/-!
A pass of updates over a map, each of one entry. An update may fail, and gives
notices of what it has changed. Where no two updates have one target, the entry
of each target is what its update makes of the entry before the pass, and the
others stay. If what an update makes needs no further change, a second pass
changes nothing and gives no notice.

A replacement removes some keys and inserts some entries. It keeps the entries
that are not its own exactly where none of them is under a key it touches, or
what it inserts there is the same.
-/
namespace Esdiag.KeyedUpdates

open KeyedMaps

/-- An update of one entry, from what the map has there. -/
structure Update (κ ν ε γ : Type*) where
  target : κ
  apply : Option ν → Except ε (ν × List γ)

variable {κ ν ε γ : Type*} [DecidableEq κ]

/-- One update after another, with all their notices; the first error ends the pass. -/
def applyAll : List (Update κ ν ε γ) → KeyedMap κ ν → Except ε (KeyedMap κ ν × List γ)
  | [], m => .ok (m, [])
  | update :: rest, m =>
    match update.apply (m.find? update.target) with
    | .error error => .error error
    | .ok (value, notices) =>
      (applyAll rest (m.insert update.target value)).map fun result =>
        (result.1, notices ++ result.2)

omit [DecidableEq κ] in
/-- Nothing is left to do on what the update makes. -/
def Update.Settles (update : Update κ ν ε γ) : Prop :=
  ∀ before value notices, update.apply before = .ok (value, notices) →
    update.apply (some value) = .ok (value, [])

theorem applyAll_cons_ok {update : Update κ ν ε γ} {rest : List (Update κ ν ε γ)}
    {m : KeyedMap κ ν} {result : KeyedMap κ ν × List γ}
    (h : applyAll (update :: rest) m = .ok result) :
    ∃ value notices more, update.apply (m.find? update.target) = .ok (value, notices) ∧
      applyAll rest (m.insert update.target value) = .ok (result.1, more) ∧
      result.2 = notices ++ more := by
  unfold applyAll at h
  cases happly : update.apply (m.find? update.target) with
  | error error => simp [happly] at h
  | ok made =>
    obtain ⟨value, notices⟩ := made
    cases hrest : applyAll rest (m.insert update.target value) with
    | error error => simp [happly, hrest, Except.map] at h
    | ok others =>
      simp only [happly, hrest, Except.map, Except.ok.injEq] at h
      obtain rfl := h
      exact ⟨value, notices, others.2, rfl, hrest, rfl⟩

theorem find?_applyAll_of_ne {updates : List (Update κ ν ε γ)} {m : KeyedMap κ ν}
    {result : KeyedMap κ ν × List γ} (h : applyAll updates m = .ok result) {k : κ}
    (hk : ∀ update ∈ updates, update.target ≠ k) : result.1.find? k = m.find? k := by
  induction updates generalizing m result with
  | nil =>
    obtain rfl := Except.ok.inj h
    rfl
  | cons update rest ih =>
    obtain ⟨value, notices, more, -, hrest, -⟩ := applyAll_cons_ok h
    rw [List.forall_mem_cons] at hk
    have hothers := ih hrest hk.2
    rw [hothers, KeyedMap.find?_insert_of_ne m (Ne.symm hk.1)]

/-- With distinct targets, an entry is made from the entry before the pass. -/
theorem find?_applyAll_of_mem {updates : List (Update κ ν ε γ)} {m : KeyedMap κ ν}
    {result : KeyedMap κ ν × List γ} (h : applyAll updates m = .ok result)
    (hdistinct : (updates.map Update.target).Nodup) {update : Update κ ν ε γ}
    (hupdate : update ∈ updates) :
    ∃ value notices, update.apply (m.find? update.target) = .ok (value, notices) ∧
      result.1.find? update.target = some value := by
  induction updates generalizing m result with
  | nil => exact absurd hupdate List.not_mem_nil
  | cons first rest ih =>
    obtain ⟨value, notices, more, hfirst, hrest, -⟩ := applyAll_cons_ok h
    rw [List.map_cons, List.nodup_cons] at hdistinct
    rcases List.mem_cons.mp hupdate with rfl | hmem
    · refine ⟨value, notices, hfirst, ?_⟩
      have hothers : ∀ other ∈ rest, other.target ≠ update.target := by
        intro other hother heq
        exact hdistinct.1 (heq ▸ List.mem_map_of_mem hother)
      have hkept := find?_applyAll_of_ne hrest hothers
      rw [hkept, KeyedMap.find?_insert_self]
    · have hne : update.target ≠ first.target := by
        intro heq
        exact hdistinct.1 (heq ▸ List.mem_map_of_mem hmem)
      obtain ⟨value', notices', hvalue, hfind⟩ := ih hrest hdistinct.2 hmem
      rw [KeyedMap.find?_insert_of_ne m hne] at hvalue
      exact ⟨value', notices', hvalue, hfind⟩

theorem applyAll_of_settled {updates : List (Update κ ν ε γ)} {m : KeyedMap κ ν}
    (h : ∀ update ∈ updates, ∃ value, m.find? update.target = some value ∧
      update.apply (some value) = .ok (value, [])) :
    applyAll updates m = .ok (m, []) := by
  induction updates with
  | nil => rfl
  | cons update rest ih =>
    rw [List.forall_mem_cons] at h
    obtain ⟨⟨value, hfind, happly⟩, hrest⟩ := h
    unfold applyAll
    rw [hfind, happly]
    simp only [KeyedMap.insert_of_find? hfind, ih hrest, Except.map, List.nil_append]

/-- A second pass changes nothing and gives no notice. -/
theorem applyAll_twice {updates : List (Update κ ν ε γ)} {m : KeyedMap κ ν}
    {result : KeyedMap κ ν × List γ} (h : applyAll updates m = .ok result)
    (hdistinct : (updates.map Update.target).Nodup)
    (hsettles : ∀ update ∈ updates, update.Settles) :
    applyAll updates result.1 = .ok (result.1, []) := by
  apply applyAll_of_settled
  intro update hupdate
  obtain ⟨value, notices, hvalue, hfind⟩ := find?_applyAll_of_mem h hdistinct hupdate
  exact ⟨value, hfind, hsettles update hupdate _ _ _ hvalue⟩

/-- Remove some keys, then insert some entries. -/
def replaceEntries (removed : List κ) (added : List (κ × ν)) (m : KeyedMap κ ν) : KeyedMap κ ν :=
  added.foldl (fun m entry => m.insert entry.1 entry.2) (removed.foldl KeyedMap.remove m)

theorem find?_foldl_remove (removed : List κ) (m : KeyedMap κ ν) (k : κ) :
    (removed.foldl KeyedMap.remove m).find? k = if k ∈ removed then none else m.find? k := by
  induction removed generalizing m with
  | nil => simp
  | cons first rest ih =>
    rw [List.foldl_cons, ih, KeyedMap.find?_remove]
    by_cases hrest : k ∈ rest
    · simp [hrest]
    · by_cases hfirst : k = first
      · simp [hfirst]
      · simp [hrest, hfirst]

theorem find?_replaceEntries {removed : List κ} {added : List (κ × ν)}
    (hdistinct : (added.map Prod.fst).Nodup) (m : KeyedMap κ ν) (k : κ) :
    (replaceEntries removed added m).find? k =
      (findEntry k added).or (if k ∈ removed then none else m.find? k) := by
  rw [replaceEntries, KeyedMap.find?_foldl_insert hdistinct, find?_foldl_remove]

theorem find?_replaceEntries_of_not_mem {removed : List κ} {added : List (κ × ν)}
    (hdistinct : (added.map Prod.fst).Nodup) (m : KeyedMap κ ν) {k : κ} (hremoved : k ∉ removed)
    (hadded : k ∉ added.map Prod.fst) : (replaceEntries removed added m).find? k = m.find? k := by
  have hnone : findEntry k added = none := by
    rw [← Option.not_isSome_iff_eq_none, findEntry_isSome_iff]
    exact hadded
  rw [find?_replaceEntries hdistinct, hnone, if_neg hremoved]
  rfl

/-- The entries under other keys than the own ones are kept, each as the same. -/
def KeepsOthers (same : ν → ν → Prop) (own : List κ) (m m' : KeyedMap κ ν) : Prop :=
  ∀ k v, m.find? k = some v → k ∉ own → ∃ w, m'.find? k = some w ∧ same v w

/-- No other entry stands in the way of a replacement, unless it is the one inserted. -/
def Apart (same : ν → ν → Prop) (own removed : List κ) (added : List (κ × ν))
    (m : KeyedMap κ ν) : Prop :=
  ∀ k v, m.find? k = some v → k ∉ own → k ∈ removed ∨ k ∈ added.map Prod.fst →
    ∃ w, findEntry k added = some w ∧ same v w

theorem keepsOthers_replaceEntries_iff {same : ν → ν → Prop} (hsame : ∀ v, same v v)
    {own removed : List κ} {added : List (κ × ν)} (hdistinct : (added.map Prod.fst).Nodup)
    (m : KeyedMap κ ν) :
    KeepsOthers same own m (replaceEntries removed added m) ↔ Apart same own removed added m := by
  constructor
  · intro hkeeps k v hfind hown htouched
    obtain ⟨w, hw, hvw⟩ := hkeeps k v hfind hown
    rw [find?_replaceEntries hdistinct] at hw
    refine ⟨w, ?_, hvw⟩
    cases hentry : findEntry k added with
    | some value => simpa [hentry] using hw
    | none =>
      have hremoved : k ∈ removed := by
        refine htouched.resolve_right fun hadded => ?_
        rw [← findEntry_isSome_iff, hentry] at hadded
        cases hadded
      simp [hentry, hremoved] at hw
  · intro hapart k v hfind hown
    by_cases htouched : k ∈ removed ∨ k ∈ added.map Prod.fst
    · obtain ⟨w, hw, hvw⟩ := hapart k v hfind hown htouched
      exact ⟨w, by rw [find?_replaceEntries hdistinct, hw]; rfl, hvw⟩
    · rw [not_or] at htouched
      rw [find?_replaceEntries_of_not_mem hdistinct m htouched.1 htouched.2]
      exact ⟨v, hfind, hsame v⟩

end Esdiag.KeyedUpdates
