import Mathlib.Data.Finset.Card
import Mathlib.Data.List.Nodup
import Mathlib.Logic.Relation

/-!
Depth-first closure of a list of keys under a successor function that may
fail. A key is marked as visited before its successors are, and is added to
the result after them; a visited key is not entered again, which cuts cycles.
The search needs no more fuel than there are keys with successors. What it
returns has no duplicates, is exactly what can be reached from the keys, and
on an acyclic graph lists every key after all its successors.
-/
namespace Esdiag.DepthFirstClosure

open Relation

variable {κ : Type*} {ε : Type*} [DecidableEq κ]

/-- Insertion at the end, without duplicates. -/
def insertNew (keys : List κ) (key : κ) : List κ := if key ∈ keys then keys else keys ++ [key]

@[simp] theorem mem_insertNew {keys : List κ} {key other : κ} :
    other ∈ insertNew keys key ↔ other ∈ keys ∨ other = key := by
  unfold insertNew
  by_cases h : key ∈ keys
  · rw [if_pos h]
    exact ⟨Or.inl, fun hor => hor.elim id fun heq => heq ▸ h⟩
  · rw [if_neg h, List.mem_append, List.mem_singleton]

theorem insertNew_of_notMem {keys : List κ} {key : κ} (h : key ∉ keys) :
    insertNew keys key = keys ++ [key] := if_neg h

theorem nodup_insertNew {keys : List κ} (key : κ) (h : keys.Nodup) :
    (insertNew keys key).Nodup := by
  by_cases hmem : key ∈ keys
  · rwa [insertNew, if_pos hmem]
  · rw [insertNew_of_notMem hmem, List.nodup_append]
    refine ⟨h, List.nodup_singleton key, fun a ha b hb heq => hmem ?_⟩
    rw [List.mem_singleton] at hb
    rwa [← hb, ← heq]

theorem nodup_foldl_insertNew {keys : List κ} (added : List κ) (h : keys.Nodup) :
    (added.foldl insertNew keys).Nodup := by
  induction added generalizing keys with
  | nil => exact h
  | cons first rest ih => exact ih (nodup_insertNew first h)

theorem mem_foldl_insertNew {keys added : List κ} {other : κ} :
    other ∈ added.foldl insertNew keys ↔ other ∈ keys ∨ other ∈ added := by
  induction added generalizing keys with
  | nil => simp
  | cons first rest ih => rw [List.foldl_cons, ih, mem_insertNew, List.mem_cons, or_assoc]

theorem foldl_insertNew_of_nodup {keys added : List κ} (h : (keys ++ added).Nodup) :
    added.foldl insertNew keys = keys ++ added := by
  induction added generalizing keys with
  | nil => exact (List.append_nil keys).symm
  | cons first rest ih =>
    have hnew : first ∉ keys := by
      intro hmem
      rw [List.nodup_append] at h
      exact h.2.2 first hmem first List.mem_cons_self rfl
    have hrest : ((keys ++ [first]) ++ rest).Nodup := by
      rwa [List.append_assoc]
    rw [List.foldl_cons, insertNew_of_notMem hnew, ih hrest, List.append_assoc,
      List.singleton_append]

theorem foldl_insertNew_of_subset {keys added : List κ} (h : ∀ key ∈ added, key ∈ keys) :
    added.foldl insertNew keys = keys := by
  induction added with
  | nil => rfl
  | cons first rest ih =>
    have hfirst : insertNew keys first = keys := if_pos (h first List.mem_cons_self)
    rw [List.foldl_cons, hfirst]
    exact ih fun key hkey => h key (List.mem_cons_of_mem first hkey)

/-- A successor function, with a finite list that holds every key that has
any successor. -/
structure Graph (κ ε : Type*) where
  successors : κ → Except ε (List κ)
  branching : List κ
  branching_complete : ∀ k deps, successors k = .ok deps → deps ≠ [] → k ∈ branching

def Graph.Edge (graph : Graph κ ε) (a b : κ) : Prop :=
  ∃ deps, graph.successors a = .ok deps ∧ b ∈ deps

def Graph.Acyclic (graph : Graph κ ε) : Prop := ∀ k, ¬ TransGen graph.Edge k k

structure State (κ : Type*) where
  final : List κ
  visited : List κ

/-- Visit a list of keys from left to right. -/
def visitAll (visit : State κ → κ → Option (Except ε (State κ))) :
    State κ → List κ → Option (Except ε (State κ))
  | state, [] => some (.ok state)
  | state, k :: rest =>
    match visit state k with
    | none => none
    | some (.error e) => some (.error e)
    | some (.ok next) => visitAll visit next rest

/-- Visit one key; none means that the fuel did not last. -/
def visit (graph : Graph κ ε) : ℕ → State κ → κ → Option (Except ε (State κ))
  | 0, state, k => if k ∈ state.visited then some (.ok state) else none
  | fuel + 1, state, k =>
    if k ∈ state.visited then some (.ok state)
    else
      match graph.successors k with
      | .error e => some (.error e)
      | .ok deps =>
        match visitAll (visit graph fuel)
            { state with visited := insertNew state.visited k } deps with
        | none => none
        | some (.error e) => some (.error e)
        | some (.ok next) => some (.ok { next with final := insertNew next.final k })

/-- Every key of a list has its successors before it, or in a given list. -/
def DepsFirst (edge : κ → κ → Prop) : (before : List κ) → List κ → Prop
  | _, [] => True
  | before, k :: rest => (∀ d, edge k d → d ∈ before) ∧ DepsFirst edge (before ++ [k]) rest

omit [DecidableEq κ] in
theorem depsFirst_append {edge : κ → κ → Prop} {before left right : List κ}
    (hleft : DepsFirst edge before left) (hright : DepsFirst edge (before ++ left) right) :
    DepsFirst edge before (left ++ right) := by
  induction left generalizing before with
  | nil => simpa using hright
  | cons k rest ih =>
    refine ⟨hleft.1, ih hleft.2 ?_⟩
    simpa using hright

omit [DecidableEq κ] in
theorem depsFirst_split {edge : κ → κ → Prop} {before pre post : List κ} {k d : κ}
    (h : DepsFirst edge before (pre ++ k :: post)) (hedge : edge k d) : d ∈ before ++ pre := by
  induction pre generalizing before with
  | nil => simpa using h.1 d hedge
  | cons first rest ih =>
    have hrest := ih h.2
    simpa using hrest

/-- What a visit of some roots adds to a state. -/
structure Extends (graph : Graph κ ε) (roots : List κ) (state next : State κ)
    (added : List κ) : Prop where
  final : next.final = state.final ++ added
  nodup : added.Nodup
  fresh : ∀ k ∈ added, k ∉ state.visited
  visited : ∀ k, k ∈ next.visited ↔ k ∈ state.visited ∨ k ∈ added
  reached : ∀ k ∈ added, ∃ root ∈ roots, ReflTransGen graph.Edge root k
  entered : ∀ k ∈ added, ∃ deps, graph.successors k = .ok deps
  closed : ∀ k ∈ added, ∀ d, graph.Edge k d → d ∈ next.visited
  roots_visited : ∀ root ∈ roots, root ∈ next.visited
  ordered : graph.Acyclic →
    (∀ open' ∈ state.visited, open' ∉ state.final →
      ∀ root ∈ roots, TransGen graph.Edge open' root) →
    DepsFirst graph.Edge state.final added

omit [DecidableEq κ] in
theorem extends_refl (graph : Graph κ ε) (state : State κ) : Extends graph [] state state [] where
  final := by simp
  nodup := List.nodup_nil
  fresh := by simp
  visited := by simp
  reached := by simp
  entered := by simp
  closed := by simp
  roots_visited := by simp
  ordered := fun _ _ => trivial

omit [DecidableEq κ] in
theorem extends_visited (graph : Graph κ ε) {state : State κ} {k : κ}
    (hvisited : k ∈ state.visited) : Extends graph [k] state state [] where
  final := by simp
  nodup := List.nodup_nil
  fresh := by simp
  visited := by simp
  reached := by simp
  entered := by simp
  closed := by simp
  roots_visited := by simpa using hvisited
  ordered := fun _ _ => trivial

omit [DecidableEq κ] in
/-- Visits one after the other add up. -/
theorem extends_trans {graph : Graph κ ε} {left right : List κ} {first second third : State κ}
    {added more : List κ} (h : Extends graph left first second added)
    (hmore : Extends graph right second third more) :
    Extends graph (left ++ right) first third (added ++ more) where
  final := by rw [hmore.final, h.final, List.append_assoc]
  nodup := by
    refine List.nodup_append.mpr ⟨h.nodup, hmore.nodup, fun a ha b hb heq => ?_⟩
    subst heq
    exact hmore.fresh a hb ((h.visited a).mpr (Or.inr ha))
  fresh := by
    intro k hk
    rcases List.mem_append.mp hk with hadded | hnew
    · exact h.fresh k hadded
    · intro hold
      exact hmore.fresh k hnew ((h.visited k).mpr (Or.inl hold))
  visited := by
    intro k
    rw [hmore.visited, h.visited, List.mem_append, or_assoc]
  reached := by
    intro k hk
    rcases List.mem_append.mp hk with hadded | hnew
    · obtain ⟨root, hroot, hpath⟩ := h.reached k hadded
      exact ⟨root, List.mem_append_left _ hroot, hpath⟩
    · obtain ⟨root, hroot, hpath⟩ := hmore.reached k hnew
      exact ⟨root, List.mem_append_right _ hroot, hpath⟩
  entered := by
    intro k hk
    exact (List.mem_append.mp hk).elim (h.entered k) (hmore.entered k)
  closed := by
    intro k hk d hedge
    rcases List.mem_append.mp hk with hadded | hnew
    · exact (hmore.visited d).mpr (Or.inl (h.closed k hadded d hedge))
    · exact hmore.closed k hnew d hedge
  roots_visited := by
    intro root hroot
    rcases List.mem_append.mp hroot with hleft | hright
    · exact (hmore.visited root).mpr (Or.inl (h.roots_visited root hleft))
    · exact hmore.roots_visited root hright
  ordered := by
    intro hacyclic hopen
    refine depsFirst_append (h.ordered hacyclic fun key hkey hnot root hroot =>
      hopen key hkey hnot root (List.mem_append_left _ hroot)) ?_
    rw [← h.final]
    refine hmore.ordered hacyclic fun key hkey hnot root hroot => ?_
    rw [h.final, List.mem_append, not_or] at hnot
    rcases (h.visited key).mp hkey with hold | hadded
    · exact hopen key hold hnot.1 root (List.mem_append_right _ hroot)
    · exact absurd hadded hnot.2

/-- Entering an unvisited key: its successors are visited first, then the key
itself is added. A successor that is still open would close a cycle. -/
theorem extends_enter {graph : Graph κ ε} {state next : State κ} {k : κ} {deps added : List κ}
    (hsub : ∀ x ∈ state.final, x ∈ state.visited) (hnew : k ∉ state.visited)
    (hdeps : graph.successors k = .ok deps)
    (h : Extends graph deps { state with visited := insertNew state.visited k } next added) :
    Extends graph [k] state { next with final := insertNew next.final k } (added ++ [k]) := by
  have hnotAdded : k ∉ added := fun hk => h.fresh k hk (by simp)
  have hnotFinal : k ∉ next.final := by
    rw [h.final, List.mem_append, not_or]
    exact ⟨fun hk => hnew (hsub k hk), hnotAdded⟩
  have hedge : ∀ d, graph.Edge k d ↔ d ∈ deps := by
    intro d
    constructor
    · rintro ⟨other, hother, hd⟩
      rw [hdeps, Except.ok.injEq] at hother
      rwa [hother]
    · exact fun hd => ⟨deps, hdeps, hd⟩
  refine ⟨?_, ?_, ?_, ?_, ?_, ?_, ?_, ?_, ?_⟩
  · change insertNew next.final k = _
    rw [insertNew_of_notMem hnotFinal, h.final, List.append_assoc]
  · refine List.nodup_append.mpr ⟨h.nodup, List.nodup_singleton k, fun a ha b hb heq => ?_⟩
    rw [List.mem_singleton] at hb
    exact hnotAdded (by rwa [← hb, ← heq])
  · intro x hx
    rcases List.mem_append.mp hx with hadded | hk
    · exact fun hold => h.fresh x hadded (by simp [hold])
    · rwa [List.mem_singleton.mp hk]
  · intro x
    rw [h.visited, mem_insertNew, List.mem_append, List.mem_singleton]
    tauto
  · intro x hx
    refine ⟨k, by simp, ?_⟩
    rcases List.mem_append.mp hx with hadded | hk
    · obtain ⟨d, hd, hpath⟩ := h.reached x hadded
      exact ReflTransGen.head ((hedge d).mpr hd) hpath
    · rw [List.mem_singleton.mp hk]
  · intro x hx
    rcases List.mem_append.mp hx with hadded | hk
    · exact h.entered x hadded
    · exact ⟨deps, by rwa [List.mem_singleton.mp hk]⟩
  · intro x hx d hd
    rcases List.mem_append.mp hx with hadded | hk
    · exact h.closed x hadded d hd
    · rw [List.mem_singleton.mp hk] at hd
      exact h.roots_visited d ((hedge d).mp hd)
  · intro root hroot
    rw [List.mem_singleton.mp hroot]
    exact (h.visited k).mpr (Or.inl (by simp))
  · intro hacyclic hopen
    have hadded : DepsFirst graph.Edge state.final added := by
      refine h.ordered hacyclic fun key hkey hnot d hd => ?_
      rcases mem_insertNew.mp hkey with hold | rfl
      · exact TransGen.tail (hopen key hold hnot k (by simp)) ((hedge d).mpr hd)
      · exact TransGen.single ((hedge d).mpr hd)
    refine depsFirst_append hadded ⟨fun d hd => ?_, trivial⟩
    rcases (h.visited d).mp (h.roots_visited d ((hedge d).mp hd)) with hseen | hlater
    · rcases mem_insertNew.mp hseen with hold | rfl
      · by_cases hfinal : d ∈ state.final
        · exact List.mem_append_left _ hfinal
        · exact absurd (TransGen.tail (hopen d hold hfinal k (by simp)) hd) (hacyclic d)
      · exact absurd (TransGen.single hd) (hacyclic d)
    · exact List.mem_append_right _ hlater

omit [DecidableEq κ] in
/-- A visitor that keeps the state's order of sets and extends it by each key. -/
private theorem visitAll_extends {graph : Graph κ ε}
    {step : State κ → κ → Option (Except ε (State κ))}
    (hstep : ∀ state k next, (∀ x ∈ state.final, x ∈ state.visited) →
      step state k = some (.ok next) → ∃ added, Extends graph [k] state next added)
    (keys : List κ) {state next : State κ}
    (hsub : ∀ x ∈ state.final, x ∈ state.visited)
    (hvisit : visitAll step state keys = some (.ok next)) :
    ∃ added, Extends graph keys state next added := by
  induction keys generalizing state with
  | nil =>
    simp only [visitAll, Option.some.injEq, Except.ok.injEq] at hvisit
    subst hvisit
    exact ⟨[], extends_refl graph state⟩
  | cons k rest ih =>
    unfold visitAll at hvisit
    cases hone : step state k with
    | none => simp [hone] at hvisit
    | some result =>
      cases result with
      | error e => simp [hone] at hvisit
      | ok middle =>
        simp only [hone] at hvisit
        obtain ⟨added, hadded⟩ := hstep state k middle hsub hone
        have hmiddle : ∀ x ∈ middle.final, x ∈ middle.visited := by
          intro x hx
          rw [hadded.final, List.mem_append] at hx
          rw [hadded.visited]
          exact hx.imp (hsub x) id
        obtain ⟨more, hmore⟩ := ih hmiddle hvisit
        exact ⟨added ++ more, extends_trans hadded hmore⟩

theorem visit_extends (graph : Graph κ ε) (fuel : ℕ) (state : State κ) (k : κ) (next : State κ)
    (hsub : ∀ x ∈ state.final, x ∈ state.visited)
    (hvisit : visit graph fuel state k = some (.ok next)) :
    ∃ added, Extends graph [k] state next added := by
  induction fuel generalizing state k next with
  | zero =>
    by_cases hk : k ∈ state.visited
    · simp only [visit, if_pos hk, Option.some.injEq, Except.ok.injEq] at hvisit
      subst hvisit
      exact ⟨[], extends_visited graph hk⟩
    · simp [visit, if_neg hk] at hvisit
  | succ fuel ih =>
    unfold visit at hvisit
    by_cases hk : k ∈ state.visited
    · simp only [if_pos hk, Option.some.injEq, Except.ok.injEq] at hvisit
      subst hvisit
      exact ⟨[], extends_visited graph hk⟩
    · simp only [if_neg hk] at hvisit
      cases hdeps : graph.successors k with
      | error e => simp [hdeps] at hvisit
      | ok deps =>
        cases hall : visitAll (visit graph fuel)
            { state with visited := insertNew state.visited k } deps with
        | none => simp [hdeps, hall] at hvisit
        | some result =>
          cases result with
          | error e => simp [hdeps, hall] at hvisit
          | ok middle =>
            simp only [hdeps, hall, Option.some.injEq, Except.ok.injEq] at hvisit
            subst hvisit
            have hsub' : ∀ x ∈ state.final, x ∈ insertNew state.visited k :=
              fun x hx => mem_insertNew.mpr (Or.inl (hsub x hx))
            obtain ⟨added, hadded⟩ := visitAll_extends ih deps hsub' hall
            exact ⟨added ++ [k], extends_enter hsub hk hdeps hadded⟩

/-- The keys that can still be entered and lead further. -/
def unvisited (graph : Graph κ ε) (state : State κ) : ℕ :=
  (graph.branching.toFinset \ state.visited.toFinset).card

private theorem unvisited_mono {graph : Graph κ ε} {state next : State κ}
    (hvisited : ∀ k ∈ state.visited, k ∈ next.visited) :
    unvisited graph next ≤ unvisited graph state := by
  refine Finset.card_le_card (Finset.sdiff_subset_sdiff (Finset.Subset.refl _) ?_)
  intro k hk
  rw [List.mem_toFinset] at hk ⊢
  exact hvisited k hk

private theorem unvisited_enter {graph : Graph κ ε} {state : State κ} {k : κ}
    (hbranching : k ∈ graph.branching) (hnew : k ∉ state.visited) :
    unvisited graph { state with visited := insertNew state.visited k } <
      unvisited graph state := by
  refine Finset.card_lt_card ((Finset.ssubset_iff_of_subset ?_).mpr ⟨k, ?_, ?_⟩)
  · refine Finset.sdiff_subset_sdiff (Finset.Subset.refl _) fun x hx => ?_
    rw [List.mem_toFinset] at hx ⊢
    exact mem_insertNew.mpr (Or.inl hx)
  · simp [hbranching, hnew]
  · simp

private theorem visitAll_isSome {graph : Graph κ ε} {fuel : ℕ}
    (hvisit : ∀ state k, (∀ x ∈ state.final, x ∈ state.visited) → unvisited graph state < fuel →
      (visit graph fuel state k).isSome)
    (keys : List κ) {state : State κ} (hsub : ∀ x ∈ state.final, x ∈ state.visited)
    (hfuel : unvisited graph state < fuel) :
    (visitAll (visit graph fuel) state keys).isSome := by
  induction keys generalizing state with
  | nil => rfl
  | cons k rest ih =>
    unfold visitAll
    cases hone : visit graph fuel state k with
    | none => simpa [hone] using hvisit state k hsub hfuel
    | some result =>
      cases result with
      | error e => rfl
      | ok next =>
        obtain ⟨added, hadded⟩ := visit_extends graph fuel state k next hsub hone
        refine ih ?_ (lt_of_le_of_lt (unvisited_mono fun x hx =>
          (hadded.visited x).mpr (Or.inl hx)) hfuel)
        intro x hx
        rw [hadded.final, List.mem_append] at hx
        rw [hadded.visited]
        exact hx.imp (hsub x) id

/-- The fuel lasts when it exceeds the number of unvisited branching keys. -/
theorem visit_isSome (graph : Graph κ ε) (fuel : ℕ) (state : State κ) (k : κ)
    (hsub : ∀ x ∈ state.final, x ∈ state.visited) (hfuel : unvisited graph state < fuel) :
    (visit graph fuel state k).isSome := by
  induction fuel generalizing state k with
  | zero => omega
  | succ fuel ih =>
    unfold visit
    by_cases hk : k ∈ state.visited
    · rw [if_pos hk]
      rfl
    · rw [if_neg hk]
      cases hdeps : graph.successors k with
      | error e => rfl
      | ok deps =>
        have hall : (visitAll (visit graph fuel)
            { state with visited := insertNew state.visited k } deps).isSome := by
          cases deps with
          | nil => rfl
          | cons first rest =>
            have hbranching := graph.branching_complete k _ hdeps (by simp)
            have hless := unvisited_enter hbranching hk
            exact visitAll_isSome ih _
              (fun x hx => mem_insertNew.mpr (Or.inl (hsub x hx))) (by omega)
        cases hresult : visitAll (visit graph fuel)
            { state with visited := insertNew state.visited k } deps with
        | none => simp [hresult] at hall
        | some result =>
          simp only [hresult]
          cases result <;> rfl

omit [DecidableEq κ] in
private theorem visitAll_error {graph : Graph κ ε} {e : ε}
    {step : State κ → κ → Option (Except ε (State κ))}
    (hstep : ∀ state k, step state k = some (.error e) →
      ∃ bad, ReflTransGen graph.Edge k bad ∧ graph.successors bad = .error e)
    (keys : List κ) {state : State κ} (hvisit : visitAll step state keys = some (.error e)) :
    ∃ root ∈ keys, ∃ bad, ReflTransGen graph.Edge root bad ∧
      graph.successors bad = .error e := by
  induction keys generalizing state with
  | nil => simp [visitAll] at hvisit
  | cons k rest ih =>
    unfold visitAll at hvisit
    cases hone : step state k with
    | none => simp [hone] at hvisit
    | some result =>
      cases result with
      | error other =>
        simp only [hone, Option.some.injEq, Except.error.injEq] at hvisit
        subst hvisit
        exact ⟨k, by simp, hstep state k hone⟩
      | ok next =>
        simp only [hone] at hvisit
        obtain ⟨root, hroot, hbad⟩ := ih hvisit
        exact ⟨root, List.mem_cons_of_mem k hroot, hbad⟩

/-- A visit fails only at a key that it reaches and that has no successor list. -/
theorem visit_error (graph : Graph κ ε) {e : ε} (fuel : ℕ) (state : State κ) (k : κ)
    (hvisit : visit graph fuel state k = some (.error e)) :
    ∃ bad, ReflTransGen graph.Edge k bad ∧ graph.successors bad = .error e := by
  induction fuel generalizing state k with
  | zero =>
    unfold visit at hvisit
    split at hvisit <;> simp at hvisit
  | succ fuel ih =>
    unfold visit at hvisit
    split at hvisit
    · simp at hvisit
    · cases hdeps : graph.successors k with
      | error other =>
        simp only [hdeps, Option.some.injEq, Except.error.injEq] at hvisit
        exact ⟨k, .refl, by rw [hdeps, hvisit]⟩
      | ok deps =>
        cases hall : visitAll (visit graph fuel)
            { state with visited := insertNew state.visited k } deps with
        | none => simp [hdeps, hall] at hvisit
        | some result =>
          cases result with
          | ok next => simp [hdeps, hall] at hvisit
          | error other =>
            simp only [hdeps, hall, Option.some.injEq, Except.error.injEq] at hvisit
            subst hvisit
            obtain ⟨d, hd, bad, hpath, hbad⟩ := visitAll_error ih deps hall
            exact ⟨bad, ReflTransGen.head ⟨deps, hdeps, hd⟩ hpath, hbad⟩

/-- The whole search: from nothing visited, with fuel that always lasts. -/
def search (graph : Graph κ ε) (keys : List κ) : Option (Except ε (State κ)) :=
  visitAll (visit graph (graph.branching.length + 1)) ⟨[], []⟩ keys

theorem search_isSome (graph : Graph κ ε) (keys : List κ) : (search graph keys).isSome := by
  refine visitAll_isSome (fun state k => visit_isSome graph _ state k) keys (by simp) ?_
  have hcard : unvisited graph ⟨[], []⟩ ≤ graph.branching.length := by
    unfold unvisited
    simpa using List.toFinset_card_le graph.branching
  omega

/-- The keys found from a list of keys, in the order in which they finish. -/
def closure (graph : Graph κ ε) (keys : List κ) : Except ε (List κ) :=
  ((search graph keys).get (search_isSome graph keys)).map State.final

/-- What a search returns: no duplicates, everything reachable and nothing
else, and on an acyclic graph every key after its successors. -/
theorem closure_spec {graph : Graph κ ε} {keys found : List κ}
    (hclosure : closure graph keys = .ok found) :
    found.Nodup ∧
      (∀ k, k ∈ found ↔ ∃ root ∈ keys, ReflTransGen graph.Edge root k) ∧
      (∀ k ∈ found, ∃ deps, graph.successors k = .ok deps) ∧
      (graph.Acyclic → ∀ pre k post, found = pre ++ k :: post →
        ∀ d, graph.Edge k d → d ∈ pre) := by
  unfold closure at hclosure
  obtain ⟨result, hresult⟩ := Option.isSome_iff_exists.mp (search_isSome graph keys)
  simp only [hresult, Option.get_some] at hclosure
  cases result with
  | error e => simp [Except.map] at hclosure
  | ok next =>
    simp only [Except.map, Except.ok.injEq] at hclosure
    subst hclosure
    obtain ⟨added, h⟩ := visitAll_extends (fun state k next => visit_extends graph _ state k next)
      keys (by simp) hresult
    have hfinal : next.final = added := by simpa using h.final
    have hvisited : ∀ k, k ∈ next.visited ↔ k ∈ added := fun k => by simp [h.visited k]
    rw [hfinal]
    refine ⟨h.nodup, fun k => ⟨h.reached k, ?_⟩, h.entered, ?_⟩
    · rintro ⟨root, hroot, hpath⟩
      induction hpath with
      | refl => exact (hvisited root).mp (h.roots_visited root hroot)
      | tail _ hedge ih => exact (hvisited _).mp (h.closed _ ih _ hedge)
    · intro hacyclic pre k post hsplit d hedge
      have hordered := h.ordered hacyclic (by simp)
      change DepsFirst graph.Edge [] added at hordered
      rw [hsplit] at hordered
      simpa using depsFirst_split hordered hedge

theorem visitAll_of_visited (graph : Graph κ ε) (fuel : ℕ) (state : State κ) (keys : List κ)
    (h : ∀ k ∈ keys, k ∈ state.visited) :
    visitAll (visit graph fuel) state keys = some (.ok state) := by
  induction keys with
  | nil => rfl
  | cons k rest ih =>
    have hvisited : visit graph fuel state k = some (.ok state) := by
      cases fuel with
      | zero => rw [visit, if_pos (h k List.mem_cons_self)]
      | succ fuel => rw [visit, if_pos (h k List.mem_cons_self)]
    simp only [visitAll, hvisited]
    exact ih fun d hd => h d (List.mem_cons_of_mem k hd)

theorem visitAll_of_ordered (graph : Graph κ ε) (fuel : ℕ) (state : State κ) (keys : List κ)
    (hvisited : ∀ k, k ∈ state.visited ↔ k ∈ state.final)
    (hnodup : (state.final ++ keys).Nodup)
    (hentered : ∀ k ∈ keys, ∃ deps, graph.successors k = .ok deps)
    (hordered : DepsFirst graph.Edge state.final keys) :
    ∃ visited, visitAll (visit graph (fuel + 1)) state keys =
      some (.ok ⟨state.final ++ keys, visited⟩) := by
  induction keys generalizing state with
  | nil => exact ⟨state.visited, by simp [visitAll]⟩
  | cons k rest ih =>
    obtain ⟨deps, hdeps⟩ := hentered k List.mem_cons_self
    have hfinal : k ∉ state.final := by
      intro hmem
      rw [List.nodup_append] at hnodup
      exact hnodup.2.2 k hmem k List.mem_cons_self rfl
    have hnew : k ∉ state.visited := fun hmem => hfinal ((hvisited k).mp hmem)
    have hinner := visitAll_of_visited graph fuel
      { state with visited := insertNew state.visited k } deps fun d hd =>
        mem_insertNew.mpr (.inl ((hvisited d).mpr (hordered.1 d ⟨deps, hdeps, hd⟩)))
    have hstep : visit graph (fuel + 1) state k =
        some (.ok ⟨state.final ++ [k], insertNew state.visited k⟩) := by
      simp only [visit, if_neg hnew, hdeps, hinner, insertNew_of_notMem hfinal]
    have hboth : ∀ one, one ∈ insertNew state.visited k ↔ one ∈ state.final ++ [k] := by
      intro one
      rw [mem_insertNew, hvisited, List.mem_append, List.mem_singleton]
    have hrest : ((state.final ++ [k]) ++ rest).Nodup := by
      rwa [List.append_assoc]
    obtain ⟨visited, hvisit⟩ := ih ⟨state.final ++ [k], insertNew state.visited k⟩ hboth hrest
      (fun one hone => hentered one (List.mem_cons_of_mem k hone)) hordered.2
    refine ⟨visited, ?_⟩
    simp only [visitAll, hstep, hvisit, List.append_assoc, List.singleton_append]

omit [DecidableEq κ] in
theorem depsFirst_of_split {edge : κ → κ → Prop} {before keys : List κ}
    (h : ∀ pre k post, keys = pre ++ k :: post → ∀ d, edge k d → d ∈ before ++ pre) :
    DepsFirst edge before keys := by
  induction keys generalizing before with
  | nil => trivial
  | cons k rest ih =>
    refine ⟨fun d hd => ?_, ih fun pre one post hsplit d hd => ?_⟩
    · simpa using h [] k rest rfl d hd
    · have hmem := h (k :: pre) one post (by rw [hsplit, List.cons_append]) d hd
      simpa using hmem

/-- A list that has every key after its successors is its own closure. -/
theorem closure_of_ordered {graph : Graph κ ε} {keys : List κ} (hnodup : keys.Nodup)
    (hentered : ∀ k ∈ keys, ∃ deps, graph.successors k = .ok deps)
    (hordered : ∀ pre k post, keys = pre ++ k :: post → ∀ d, graph.Edge k d → d ∈ pre) :
    closure graph keys = .ok keys := by
  obtain ⟨visited, hsearch⟩ := visitAll_of_ordered graph graph.branching.length ⟨[], []⟩ keys
    (fun _ => Iff.rfl) hnodup hentered (depsFirst_of_split hordered)
  have hresult : search graph keys = some (.ok ⟨keys, visited⟩) := hsearch
  simp only [closure, hresult, Option.get_some, Except.map]

/-- A search fails only at a key that it can reach. -/
theorem closure_error {graph : Graph κ ε} {keys : List κ} {e : ε}
    (hclosure : closure graph keys = .error e) :
    ∃ root ∈ keys, ∃ bad, ReflTransGen graph.Edge root bad ∧
      graph.successors bad = .error e := by
  unfold closure at hclosure
  obtain ⟨result, hresult⟩ := Option.isSome_iff_exists.mp (search_isSome graph keys)
  simp only [hresult, Option.get_some] at hclosure
  cases result with
  | ok next => simp [Except.map] at hclosure
  | error other =>
    simp only [Except.map, Except.error.injEq] at hclosure
    subst hclosure
    exact visitAll_error (fun state k => visit_error graph _ state k) keys hresult

end Esdiag.DepthFirstClosure
