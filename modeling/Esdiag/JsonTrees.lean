import Esdiag.JsonValues
import Mathlib.Data.List.Infix

/-!
Pruning of nested objects. A place in the tree is what the names on the way to it
come to; a subtree whose place is dropped goes, and so does an object that nothing
is left of. The leaves of the tree with the names on their way describe what is
left: pruning filters them.
-/
namespace Esdiag.JsonTrees

open JsonValues

def isEmptyObject : Value → Bool
  | .object fields => fields.isEmpty
  | _ => false

mutual
/-- The values that are not objects, each with the names on the way to it. -/
def leaves : Value → List (List String × Value)
  | .object fields => fieldLeaves fields
  | value => [([], value)]

def fieldLeaves : List (String × Value) → List (List String × Value)
  | [] => []
  | (key, value) :: rest =>
    (leaves value).map (fun leaf => (key :: leaf.1, leaf.2)) ++ fieldLeaves rest
end

mutual
/-- No field below the value holds an empty object. -/
def noEmptyBelow : Value → Bool
  | .object fields => noEmptyFields fields
  | _ => true

def noEmptyFields : List (String × Value) → Bool
  | [] => true
  | (_, value) :: rest => !isEmptyObject value && noEmptyBelow value && noEmptyFields rest
end

variable {P : Type} (extend : P → String → P) (drop : P → Bool)

mutual
def prune (place : P) : Value → Value
  | .object fields => .object (pruneFields place fields)
  | value => value

def pruneFields (place : P) : List (String × Value) → List (String × Value)
  | [] => []
  | (key, value) :: rest =>
    if drop (extend place key) then pruneFields place rest
    else if isEmptyObject (prune (extend place key) value) then pruneFields place rest
    else (key, prune (extend place key) value) :: pruneFields place rest
end

/-- Some place on the way is dropped. -/
def passesDropped (place : P) (names : List String) : Bool :=
  names.inits.tail.any fun way => drop (way.foldl extend place)

variable {extend} {drop}

@[simp] theorem passesDropped_nil (place : P) : passesDropped extend drop place [] = false := rfl

@[simp] theorem passesDropped_cons (place : P) (key : String) (names : List String) :
    passesDropped extend drop place (key :: names) =
      (drop (extend place key) || passesDropped extend drop (extend place key) names) := by
  cases names with
  | nil => simp [passesDropped]
  | cons next names => simp [passesDropped, Function.comp_def]

theorem leaves_of_isEmptyObject {value : Value} (h : isEmptyObject value = true) :
    leaves value = [] := by
  cases value with
  | object fields =>
    cases fields with
    | nil => rfl
    | cons field rest => cases h
  | _ => cases h

/-- The leaves below a dropped place all pass it. -/
theorem filter_map_of_drop {place : P} {key : String} (h : drop (extend place key) = true)
    (found : List (List String × Value)) :
    (found.map fun leaf => (key :: leaf.1, leaf.2)).filter
      (fun leaf => !passesDropped extend drop place leaf.1) = [] := by
  rw [List.filter_eq_nil_iff]
  intro leaf hleaf
  obtain ⟨below, -, rfl⟩ := List.mem_map.mp hleaf
  simp [h]

theorem filter_map_of_not_drop {place : P} {key : String}
    (h : drop (extend place key) = false) (found : List (List String × Value)) :
    (found.map fun leaf => (key :: leaf.1, leaf.2)).filter
        (fun leaf => !passesDropped extend drop place leaf.1) =
      (found.filter fun leaf => !passesDropped extend drop (extend place key) leaf.1).map
        fun leaf => (key :: leaf.1, leaf.2) := by
  rw [List.filter_map]
  congr 1
  refine List.filter_congr fun leaf _ => ?_
  simp [h]

mutual
/-- Pruning keeps the leaves with no dropped place on their way, in order. -/
theorem leaves_prune (place : P) (value : Value) :
    leaves (prune extend drop place value) =
      (leaves value).filter fun leaf => !passesDropped extend drop place leaf.1 := by
  cases value with
  | object fields => exact fieldLeaves_pruneFields place fields
  | _ => rfl

theorem fieldLeaves_pruneFields (place : P) (fields : List (String × Value)) :
    fieldLeaves (pruneFields extend drop place fields) =
      (fieldLeaves fields).filter fun leaf => !passesDropped extend drop place leaf.1 := by
  match fields with
  | [] => rfl
  | (key, value) :: rest =>
    have hvalue := leaves_prune (extend place key) value
    have hrest := fieldLeaves_pruneFields place rest
    rw [fieldLeaves, List.filter_append, pruneFields]
    split_ifs with hdrop hempty
    · rw [filter_map_of_drop hdrop, hrest, List.nil_append]
    · rw [filter_map_of_not_drop (Bool.eq_false_iff.mpr hdrop), ← hvalue,
        leaves_of_isEmptyObject hempty, hrest]
      rfl
    · rw [filter_map_of_not_drop (Bool.eq_false_iff.mpr hdrop), ← hvalue, fieldLeaves, hrest]
end

mutual
theorem noEmptyBelow_prune (place : P) (value : Value) :
    noEmptyBelow (prune extend drop place value) = true := by
  cases value with
  | object fields => exact noEmptyFields_pruneFields place fields
  | _ => rfl

theorem noEmptyFields_pruneFields (place : P) (fields : List (String × Value)) :
    noEmptyFields (pruneFields extend drop place fields) = true := by
  match fields with
  | [] => rfl
  | (key, value) :: rest =>
    have hvalue := noEmptyBelow_prune (extend place key) value
    have hrest := noEmptyFields_pruneFields place rest
    rw [pruneFields]
    split_ifs with hdrop hempty
    · exact hrest
    · exact hrest
    · rw [noEmptyFields, Bool.eq_false_iff.mpr hempty, hvalue, hrest]
      rfl
end

mutual
theorem prune_prune (place : P) (value : Value) :
    prune extend drop place (prune extend drop place value) = prune extend drop place value := by
  cases value with
  | object fields => exact congrArg Value.object (pruneFields_pruneFields place fields)
  | _ => rfl

theorem pruneFields_pruneFields (place : P) (fields : List (String × Value)) :
    pruneFields extend drop place (pruneFields extend drop place fields) =
      pruneFields extend drop place fields := by
  match fields with
  | [] => rfl
  | (key, value) :: rest =>
    have hvalue := prune_prune (extend place key) value
    have hrest := pruneFields_pruneFields place rest
    rw [pruneFields]
    split_ifs with hdrop hempty
    · exact hrest
    · exact hrest
    · rw [pruneFields, if_neg hdrop, hvalue, if_neg hempty, hrest]
end

/-! ### Values at a pointer -/

section Pointers

/-- The value that a chain of field names leads to. -/
def pointer : List String → Value → Option Value
  | [], value => some value
  | name :: names, value => (value.get name).bind (pointer names)

/-- The first field of a name with its value changed. -/
def modifyField (name : String) (f : Value → Value) : List (String × Value) → List (String × Value)
  | [] => []
  | (key, value) :: rest =>
    if key = name then (key, f value) :: rest else (key, value) :: modifyField name f rest

/-- The value at a pointer changed in place, where there is one. -/
def modifyPointer (f : Value → Value) : List String → Value → Value
  | [], value => f value
  | name :: names, .object fields => .object (modifyField name (modifyPointer f names) fields)
  | _ :: _, value => value

theorem findField_modifyField (name other : String) (f : Value → Value)
    (fields : List (String × Value)) :
    Value.findField other (modifyField name f fields) =
      if other = name then (Value.findField name fields).map f
      else Value.findField other fields := by
  induction fields with
  | nil => simp [modifyField, Value.findField]
  | cons field rest ih =>
    obtain ⟨key, value⟩ := field
    by_cases hkey : key = name
    · by_cases hother : other = name
      · simp [modifyField, Value.findField, hkey, hother]
      · simp [modifyField, Value.findField, hkey, hother, Ne.symm hother]
    · rw [modifyField, if_neg hkey, Value.findField, Value.findField, Value.findField, ih,
        if_neg hkey]
      by_cases hother : other = name
      · rw [if_pos hother, if_pos hother, if_neg fun hsame => hkey (hsame.trans hother)]
      · rw [if_neg hother, if_neg hother]

theorem get_modifyPointer (f : Value → Value) (name : String) (names : List String)
    (value : Value) (other : String) :
    (modifyPointer f (name :: names) value).get other =
      if other = name then (value.get name).map (modifyPointer f names) else value.get other := by
  cases value with
  | object fields => exact findField_modifyField name other (modifyPointer f names) fields
  | _ => simp [modifyPointer, Value.get]

theorem pointer_modifyPointer_self (f : Value → Value) (names : List String) (value : Value) :
    pointer names (modifyPointer f names value) = (pointer names value).map f := by
  induction names generalizing value with
  | nil => rfl
  | cons name names ih =>
    rw [pointer, get_modifyPointer, if_pos rfl, pointer]
    cases value.get name with
    | none => rfl
    | some below => exact ih below

/-- Changes behind another field are not seen. -/
theorem pointer_modifyPointer_of_ne (f : Value → Value) {name other : String}
    (hne : other ≠ name) (common names others : List String) (value : Value) :
    pointer (common ++ other :: others) (modifyPointer f (common ++ name :: names) value) =
      pointer (common ++ other :: others) value := by
  induction common generalizing value with
  | nil => rw [List.nil_append, List.nil_append, pointer, get_modifyPointer, if_neg hne, pointer]
  | cons first common ih =>
    rw [List.cons_append, List.cons_append, pointer, get_modifyPointer, if_pos rfl, pointer]
    cases value.get first with
    | none => rfl
    | some below => exact ih below

end Pointers

end Esdiag.JsonTrees
