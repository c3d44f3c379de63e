import Mathlib.Data.List.Basic
import Mathlib.Data.Nat.Notation

/-!
Items put into groups one after another. An item opens a new group where the
current one is full for it and joins the current one otherwise. The groups are the
items in their order, cut into pieces; whatever an item alone has and a group keeps
when an item joins it, every group has.
-/
namespace Esdiag.GreedyGroups

variable {α : Type*}

/-- The groups closed so far and the one that is still open. -/
structure Groups (α : Type*) where
  closed : List (List α)
  current : List α

namespace Groups

variable (full : List α → α → Bool)

def add (groups : Groups α) (item : α) : Groups α :=
  if full groups.current item then ⟨groups.closed ++ [groups.current], [item]⟩
  else ⟨groups.closed, groups.current ++ [item]⟩

def all (groups : Groups α) : List (List α) :=
  if groups.current.isEmpty then groups.closed else groups.closed ++ [groups.current]

theorem flatten_all (groups : Groups α) :
    groups.all.flatten = groups.closed.flatten ++ groups.current := by
  unfold all
  split
  · rename_i hempty
    rw [List.isEmpty_iff.mp hempty, List.append_nil]
  · rw [List.flatten_append, List.flatten_singleton]

theorem flatten_add (groups : Groups α) (item : α) :
    (groups.add full item).closed.flatten ++ (groups.add full item).current =
      groups.closed.flatten ++ groups.current ++ [item] := by
  unfold add
  split
  · rw [List.flatten_append, List.flatten_singleton]
  · rw [List.append_assoc]

theorem flatten_foldl_add (items : List α) (groups : Groups α) :
    (items.foldl (add full) groups).closed.flatten ++ (items.foldl (add full) groups).current =
      groups.closed.flatten ++ groups.current ++ items := by
  induction items generalizing groups with
  | nil => rw [List.append_nil, List.foldl_nil]
  | cons item rest ih =>
    rw [List.foldl_cons, ih, flatten_add, List.append_assoc, List.singleton_append]

/-- The closed groups have a property, and the open one has it unless it is empty. -/
def AllHave (p : List α → Prop) (groups : Groups α) : Prop :=
  (∀ group ∈ groups.closed, p group) ∧ (groups.current ≠ [] → p groups.current)

variable {full} {p : List α → Prop}

theorem AllHave.add (hstart : ∀ item, full [] item = false) (hsingle : ∀ item, p [item])
    (hgrow : ∀ group item, p group → full group item = false → p (group ++ [item]))
    {groups : Groups α} (h : groups.AllHave p) (item : α) : (groups.add full item).AllHave p := by
  unfold Groups.add
  split
  · rename_i hfull
    have hcurrent : groups.current ≠ [] := by
      intro hempty
      rw [hempty, hstart] at hfull
      exact Bool.false_ne_true hfull
    refine ⟨?_, fun _ => hsingle item⟩
    intro group hmem
    rcases List.mem_append.mp hmem with hclosed | hlast
    · exact h.1 group hclosed
    · rw [List.mem_singleton.mp hlast]
      exact h.2 hcurrent
  · rename_i hroom
    refine ⟨h.1, fun _ => ?_⟩
    by_cases hempty : groups.current = []
    · rw [hempty]
      exact hsingle item
    · exact hgrow _ item (h.2 hempty) (Bool.eq_false_iff.mpr hroom)

end Groups

/-- The items in their groups. -/
def groupsOf (full : List α → α → Bool) (items : List α) : List (List α) :=
  (items.foldl (Groups.add full) ⟨[], []⟩).all

theorem flatten_groupsOf (full : List α → α → Bool) (items : List α) :
    (groupsOf full items).flatten = items := by
  have hfold := Groups.flatten_foldl_add full items ⟨[], []⟩
  rw [groupsOf, Groups.flatten_all, hfold]
  rfl

section Invariants

variable {full : List α → α → Bool} (hstart : ∀ item, full [] item = false)

include hstart

/-- The invariant rule of greedy grouping. -/
theorem forall_groupsOf {p : List α → Prop} (hsingle : ∀ item, p [item])
    (hgrow : ∀ group item, p group → full group item = false → p (group ++ [item]))
    (items : List α) : ∀ group ∈ groupsOf full items, p group := by
  have hfold : ∀ groups : Groups α, groups.AllHave p →
      (items.foldl (Groups.add full) groups).AllHave p := by
    induction items with
    | nil => exact fun _ h => h
    | cons item rest ih => exact fun groups h => ih _ (h.add hstart hsingle hgrow item)
  obtain ⟨hclosed, hcurrent⟩ := hfold ⟨[], []⟩ ⟨by simp, fun hne => absurd rfl hne⟩
  intro group hmem
  unfold groupsOf Groups.all at hmem
  split at hmem
  · exact hclosed group hmem
  · rename_i hopen
    rcases List.mem_append.mp hmem with hmem | hlast
    · exact hclosed group hmem
    · rw [List.mem_singleton.mp hlast]
      exact hcurrent fun hempty => hopen (List.isEmpty_iff.mpr hempty)

theorem ne_nil_of_mem_groupsOf (items : List α) : ∀ group ∈ groupsOf full items, group ≠ [] :=
  forall_groupsOf hstart (fun item => List.cons_ne_nil item [])
    (fun _ _ _ _ => List.append_ne_nil_of_right_ne_nil _ (List.cons_ne_nil _ _)) items

/-- There are never more groups than items. -/
theorem length_groupsOf_le (items : List α) : (groupsOf full items).length ≤ items.length := by
  have hlength : ∀ groups : List (List α), (∀ group ∈ groups, group ≠ []) →
      groups.length ≤ groups.flatten.length := by
    intro groups hne
    induction groups with
    | nil => exact Nat.le_refl 0
    | cons group rest ih =>
      have hgroup := List.length_pos_of_ne_nil (hne group List.mem_cons_self)
      have hrest := ih fun other hother => hne other (List.mem_cons_of_mem _ hother)
      rw [List.flatten_cons, List.length_append, List.length_cons]
      omega
  have hle := hlength _ (ne_nil_of_mem_groupsOf hstart items)
  rwa [flatten_groupsOf] at hle

end Invariants

end Esdiag.GreedyGroups
