import Mathlib.Data.List.Nodup

/-!
Interleavings of sequential traces. A schedule is a list of choices between two
traces that both have steps left; when the choices run out, the left trace goes
first. Every interleaving is the result of some schedule, so that a statement
about all schedules is one about all interleavings. A projection under which
one side is empty sees the other side alone.
-/
namespace Esdiag.Interleavings

variable {α β : Type*}

/-- `Interleaving xs ys zs`: `zs` consists of `xs` and `ys`, each in its order. -/
inductive Interleaving : List α → List α → List α → Prop
  | nil : Interleaving [] [] []
  | left {x : α} {xs ys zs : List α} :
      Interleaving xs ys zs → Interleaving (x :: xs) ys (x :: zs)
  | right {y : α} {xs ys zs : List α} :
      Interleaving xs ys zs → Interleaving xs (y :: ys) (y :: zs)

def interleave : List Bool → List α → List α → List α
  | [], xs, ys => xs ++ ys
  | true :: choices, x :: xs, ys => x :: interleave choices xs ys
  | true :: _, [], ys => ys
  | false :: choices, xs, y :: ys => y :: interleave choices xs ys
  | false :: _, xs, [] => xs

namespace Interleaving

theorem nil_left (ys : List α) : Interleaving [] ys ys := by
  induction ys with
  | nil => exact .nil
  | cons y ys ih => exact .right ih

theorem append (xs ys : List α) : Interleaving xs ys (xs ++ ys) := by
  induction xs with
  | nil => exact nil_left ys
  | cons x xs ih => exact .left ih

theorem nil_right (xs : List α) : Interleaving xs [] xs := by
  have h := append xs []
  rwa [List.append_nil] at h

theorem eq_of_nil_left {ys zs : List α} (h : Interleaving [] ys zs) : zs = ys := by
  induction ys generalizing zs with
  | nil =>
    cases h with
    | nil => rfl
  | cons y ys ih =>
    cases h with
    | right hrest => rw [ih hrest]

theorem symm {xs ys zs : List α} (h : Interleaving xs ys zs) : Interleaving ys xs zs := by
  induction h with
  | nil => exact .nil
  | left _ ih => exact .right ih
  | right _ ih => exact .left ih

theorem eq_of_nil_right {xs zs : List α} (h : Interleaving xs [] zs) : zs = xs :=
  h.symm.eq_of_nil_left

/-- Projections commute with interleaving. -/
theorem filterMap {xs ys zs : List α} (f : α → Option β) (h : Interleaving xs ys zs) :
    Interleaving (xs.filterMap f) (ys.filterMap f) (zs.filterMap f) := by
  induction h with
  | nil => exact .nil
  | @left x xs ys zs _ ih =>
    cases hx : f x with
    | none => simpa only [List.filterMap_cons_none hx] using ih
    | some value => simpa only [List.filterMap_cons_some hx] using ih.left
  | @right y xs ys zs _ ih =>
    cases hy : f y with
    | none => simpa only [List.filterMap_cons_none hy] using ih
    | some value => simpa only [List.filterMap_cons_some hy] using ih.right

theorem perm {xs ys zs : List α} (h : Interleaving xs ys zs) : zs.Perm (xs ++ ys) := by
  induction h with
  | nil => exact .refl _
  | left _ ih => exact ih.cons _
  | right _ ih => exact (ih.cons _).trans List.perm_middle.symm

end Interleaving

theorem interleave_interleaving (choices : List Bool) (xs ys : List α) :
    Interleaving xs ys (interleave choices xs ys) := by
  induction choices generalizing xs ys with
  | nil => exact .append xs ys
  | cons choice choices ih =>
    cases choice with
    | true =>
      cases xs with
      | nil => exact .nil_left ys
      | cons x xs => exact (ih xs ys).left
    | false =>
      cases ys with
      | nil => exact .nil_right xs
      | cons y ys => exact (ih xs ys).right

/-- The results of schedules are the interleavings, all of them. -/
theorem interleaving_iff_exists_schedule {xs ys zs : List α} :
    Interleaving xs ys zs ↔ ∃ choices, interleave choices xs ys = zs := by
  constructor
  · intro h
    induction h with
    | nil => exact ⟨[], rfl⟩
    | left _ ih =>
      obtain ⟨choices, rfl⟩ := ih
      exact ⟨true :: choices, rfl⟩
    | right _ ih =>
      obtain ⟨choices, rfl⟩ := ih
      exact ⟨false :: choices, by simp only [interleave]⟩
  · rintro ⟨choices, rfl⟩
    exact interleave_interleaving choices xs ys

/-- Several traces, each with the schedule that merges it into the others. -/
def interleaveAll (parts : List (List Bool × List α)) : List α :=
  parts.foldr (fun part rest => interleave part.1 part.2 rest) []

theorem interleaveAll_perm (parts : List (List Bool × List α)) :
    (interleaveAll parts).Perm (parts.map Prod.snd).flatten := by
  induction parts with
  | nil => exact .refl _
  | cons part parts ih =>
    have h := (interleave_interleaving part.1 part.2 (interleaveAll parts)).perm
    exact h.trans (ih.append_left part.2)

theorem interleave_replicate_false (xs ys : List α) {n : ℕ} (hn : ys.length ≤ n) :
    interleave (List.replicate n false) xs ys = ys ++ xs := by
  induction ys generalizing n with
  | nil =>
    cases n with
    | zero => exact List.append_nil xs
    | succ n => rw [List.replicate_succ, interleave, List.nil_append]
  | cons y ys ih =>
    rw [List.length_cons] at hn
    obtain ⟨k, rfl⟩ : ∃ k, n = k + 1 := ⟨n - 1, by omega⟩
    rw [List.replicate_succ, interleave, ih (by omega), List.cons_append]

theorem interleaveAll_in_order (traces : List (List α)) :
    interleaveAll (traces.map fun trace => ([], trace)) = traces.flatten := by
  induction traces with
  | nil => rfl
  | cons trace rest ih =>
    rw [List.flatten_cons, ← ih]
    rfl

/-- With enough choices for the others, the traces run in reverse order. -/
theorem interleaveAll_reversed (traces : List (List α)) {n : ℕ} (hn : traces.flatten.length ≤ n) :
    interleaveAll (traces.map fun trace => (List.replicate n false, trace)) =
      traces.reverse.flatten := by
  induction traces with
  | nil => rfl
  | cons trace rest ih =>
    rw [List.flatten_cons, List.length_append] at hn
    have hrest := ih (by omega)
    have hlength : rest.reverse.flatten.length = rest.flatten.length :=
      (rest.reverse_perm.flatten).length_eq
    have hmerge := interleave_replicate_false trace rest.reverse.flatten (n := n) (by omega)
    rw [List.reverse_cons, List.flatten_append, List.flatten_singleton, ← hmerge, ← hrest]
    rfl

theorem mem_interleaveAll {parts : List (List Bool × List α)} {a : α} :
    a ∈ interleaveAll parts ↔ ∃ part ∈ parts, a ∈ part.2 := by
  rw [(interleaveAll_perm parts).mem_iff, List.mem_flatten]
  constructor
  · rintro ⟨xs, hxs, ha⟩
    obtain ⟨part, hpart, rfl⟩ := List.mem_map.mp hxs
    exact ⟨part, hpart, ha⟩
  · rintro ⟨part, hpart, ha⟩
    exact ⟨part.2, List.mem_map_of_mem hpart, ha⟩

theorem filterMap_eq_nil_of_forall {f : α → Option β} {xs : List α}
    (h : ∀ a ∈ xs, f a = none) : xs.filterMap f = [] := by
  rw [List.filterMap_eq_nil_iff]
  exact h

theorem filterMap_interleave_left {f : α → Option β} (choices : List Bool) {xs ys : List α}
    (hright : ∀ a ∈ ys, f a = none) :
    (interleave choices xs ys).filterMap f = xs.filterMap f := by
  have h := (interleave_interleaving choices xs ys).filterMap f
  rw [filterMap_eq_nil_of_forall hright] at h
  exact h.eq_of_nil_right

theorem filterMap_interleave_right {f : α → Option β} (choices : List Bool) {xs ys : List α}
    (hleft : ∀ a ∈ xs, f a = none) :
    (interleave choices xs ys).filterMap f = ys.filterMap f := by
  have h := (interleave_interleaving choices xs ys).filterMap f
  rw [filterMap_eq_nil_of_forall hleft] at h
  exact h.eq_of_nil_left

/-- A projection that only one of the traces has steps of sees that trace. -/
theorem filterMap_interleaveAll {f : α → Option β} (before after : List (List Bool × List α))
    (part : List Bool × List α) (hbefore : ∀ other ∈ before, ∀ a ∈ other.2, f a = none)
    (hafter : ∀ other ∈ after, ∀ a ∈ other.2, f a = none) :
    (interleaveAll (before ++ part :: after)).filterMap f = part.2.filterMap f := by
  induction before with
  | nil =>
    refine filterMap_interleave_left part.1 ?_
    intro a ha
    obtain ⟨other, hother, hmem⟩ := mem_interleaveAll.mp ha
    exact hafter other hother a hmem
  | cons other before ih =>
    have hhead : ∀ a ∈ other.2, f a = none := hbefore other List.mem_cons_self
    have hrest : (interleaveAll (other :: (before ++ part :: after))).filterMap f =
        (interleaveAll (before ++ part :: after)).filterMap f :=
      filterMap_interleave_right other.1 hhead
    rw [List.cons_append]
    refine hrest.trans (ih ?_)
    intro one hone
    exact hbefore one (List.mem_cons_of_mem other hone)

/-- Traces with different keys: a projection that is silent off one key sees the
trace of that key, or nothing. -/
theorem filterMap_interleaveAll_of_key {ι κ : Type*} {f : α → Option β} (key : ι → κ) (k : κ)
    (part : ι → List Bool × List α) (parts : List ι) (hkeys : (parts.map key).Nodup)
    (hsilent : ∀ i ∈ parts, key i ≠ k → ∀ a ∈ (part i).2, f a = none) :
    (interleaveAll (parts.map part)).filterMap f = [] ∨
      ∃ i ∈ parts, key i = k ∧
        (interleaveAll (parts.map part)).filterMap f = (part i).2.filterMap f := by
  by_cases howner : ∃ i ∈ parts, key i = k
  · obtain ⟨i, hi, hkey⟩ := howner
    obtain ⟨before, after, rfl⟩ := List.append_of_mem hi
    rw [List.map_append, List.map_cons, List.nodup_middle, List.nodup_cons, List.mem_append,
      not_or] at hkeys
    have hbefore : ∀ other ∈ before, key other ≠ k := by
      intro other hother heq
      exact hkeys.1.1 (List.mem_map.mpr ⟨other, hother, heq.trans hkey.symm⟩)
    have hafter : ∀ other ∈ after, key other ≠ k := by
      intro other hother heq
      exact hkeys.1.2 (List.mem_map.mpr ⟨other, hother, heq.trans hkey.symm⟩)
    refine .inr ⟨i, hi, hkey, ?_⟩
    rw [List.map_append, List.map_cons]
    refine filterMap_interleaveAll _ _ _ ?_ ?_
    · intro one hone
      obtain ⟨other, hother, rfl⟩ := List.mem_map.mp hone
      exact hsilent other (List.mem_append_left _ hother) (hbefore other hother)
    · intro one hone
      obtain ⟨other, hother, rfl⟩ := List.mem_map.mp hone
      exact hsilent other (List.mem_append_right _ (List.mem_cons_of_mem i hother))
        (hafter other hother)
  · refine .inl (filterMap_eq_nil_of_forall fun a ha => ?_)
    obtain ⟨one, hone, hmem⟩ := mem_interleaveAll.mp ha
    obtain ⟨other, hother, rfl⟩ := List.mem_map.mp hone
    exact hsilent other hother (fun heq => howner ⟨other, hother, heq⟩) a hmem

end Esdiag.Interleavings
