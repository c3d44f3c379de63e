import Esdiag.KeyedMaps
import Esdiag.Texts

/-!
Files with one assignment on each line, as a map from names to texts. A map is written
in the order of its names and read line by line; empty lines and comments are left out,
and of two lines with one name the later counts. Nothing is quoted, so a map is read
back as it was written only where its names and texts fit on a line.
-/
namespace Esdiag.EnvFiles

open KeyedMaps Texts

abbrev Values := KeyedMap String String

section Lines

def dropReturn (line : List Char) : List Char :=
  if line.getLast? = some '\r' then line.dropLast else line

/-- The lines of a text. A carriage return before the end of a line belongs to that end. -/
def lines (text : List Char) : List (List Char) :=
  let parts := splitList '\n' text
  parts.dropLast.map dropReturn ++ parts.getLast?.toList.filter fun last => !last.isEmpty

/-- A text that a line can end with. -/
def FitsLine (text : List Char) : Prop := '\n' ∉ text ∧ text.getLast? ≠ some '\r'

instance (text : List Char) : Decidable (FitsLine text) := inferInstanceAs (Decidable (_ ∧ _))

theorem lines_nil : lines [] = [] := rfl

theorem lines_append {line : List Char} (h : FitsLine line) (rest : List Char) :
    lines (line ++ '\n' :: rest) = line :: lines rest := by
  have hparts : splitList '\n' (line ++ '\n' :: rest) = line :: splitList '\n' rest :=
    splitList_append rest h.1
  have hne := splitList_ne_nil '\n' rest
  have hreturn : dropReturn line = line := if_neg h.2
  unfold lines
  rw [hparts]
  dsimp only
  rw [List.dropLast_cons_of_ne_nil hne, List.getLast?_cons_of_ne_nil hne, List.map_cons, hreturn,
    List.cons_append]

end Lines

section Assignments

def isAssignment (line : List Char) : Bool := !line.isEmpty && line.head? != some '#'

/-- Read all assignments; a line without a sign of equality is refused. -/
def parseEnv (contents : String) : Option Values :=
  let assignments := (lines contents.toList).filter isAssignment
  (assignments.mapM fun line => splitOnce '=' (String.ofList line)).map fun entries =>
    entries.foldl (fun values entry => values.insert entry.1 entry.2) .empty

def assignment (entry : String × String) : List Char :=
  entry.1.toList ++ '=' :: entry.2.toList ++ ['\n']

def envText (values : Values) : String := String.ofList (values.inOrder.flatMap assignment)

/-- An assignment that stays one on its line. -/
def Writable (name text : String) : Prop :=
  '=' ∉ name.toList ∧ '\n' ∉ name.toList ∧ name.toList.head? ≠ some '#' ∧ FitsLine text.toList

instance (name text : String) : Decidable (Writable name text) :=
  inferInstanceAs (Decidable (_ ∧ _ ∧ _ ∧ _))

theorem lines_flatMap {entries : List (String × String)}
    (h : ∀ entry ∈ entries, Writable entry.1 entry.2) :
    lines (entries.flatMap assignment) =
      entries.map fun entry => entry.1.toList ++ '=' :: entry.2.toList := by
  induction entries with
  | nil => exact lines_nil
  | cons entry rest ih =>
    obtain ⟨-, hname, -, hbreak, hreturn⟩ := h entry List.mem_cons_self
    have hline : FitsLine (entry.1.toList ++ '=' :: entry.2.toList) := by
      refine ⟨?_, ?_⟩
      · rw [List.mem_append, List.mem_cons]
        rintro (hmem | heq | hmem)
        · exact hname hmem
        · exact absurd heq (by decide)
        · exact hbreak hmem
      · intro hlast
        rw [List.getLast?_append_of_ne_nil _ (List.cons_ne_nil _ _)] at hlast
        cases htext : entry.2.toList with
        | nil =>
          rw [htext] at hlast
          exact absurd hlast (by decide)
        | cons c text =>
          rw [htext, List.getLast?_cons_of_ne_nil (List.cons_ne_nil _ _), ← htext] at hlast
          exact hreturn hlast
    have hrest := ih fun one hone => h one (List.mem_cons_of_mem _ hone)
    have hassignment : assignment entry ++ rest.flatMap assignment =
        (entry.1.toList ++ '=' :: entry.2.toList) ++ '\n' :: rest.flatMap assignment := by
      unfold assignment
      rw [List.append_assoc, List.singleton_append]
    rw [List.flatMap_cons, hassignment, lines_append hline, hrest, List.map_cons]

theorem isAssignment_of_writable {name text : String} (h : Writable name text) :
    isAssignment (name.toList ++ '=' :: text.toList) = true := by
  unfold isAssignment
  cases hname : name.toList with
  | nil => rfl
  | cons c rest =>
    have hhead := h.2.2.1
    rw [hname, List.head?_cons] at hhead
    simpa using fun heq => hhead (congrArg some heq)

theorem mapM_splitOnce {entries : List (String × String)}
    (h : ∀ entry ∈ entries, Writable entry.1 entry.2) :
    (entries.map fun entry => entry.1.toList ++ '=' :: entry.2.toList).mapM
      (fun line => splitOnce '=' (String.ofList line)) = some entries := by
  induction entries with
  | nil => rfl
  | cons entry rest ih =>
    have hsplit : splitOnce '=' (String.ofList (entry.1.toList ++ '=' :: entry.2.toList)) =
        some entry := by
      unfold splitOnce
      rw [String.toList_ofList, splitOnceList_append _ (h entry List.mem_cons_self).1]
      simp
    rw [List.map_cons, List.mapM_cons, hsplit,
      ih fun one hone => h one (List.mem_cons_of_mem _ hone)]
    rfl

/-- A map whose names and texts fit on lines is read back as it was written. -/
theorem parseEnv_envText {values : Values}
    (h : ∀ name text, values.find? name = some text → Writable name text) :
    ∃ read, parseEnv (envText values) = some read ∧ ∀ name, read.find? name = values.find? name := by
  have hwritable : ∀ entry ∈ values.inOrder, Writable entry.1 entry.2 := by
    intro entry hentry
    exact h _ _ (KeyedMap.find?_eq_some_iff.mpr (values.inOrder_perm.mem_iff.mp hentry))
  have hfilter : (values.inOrder.map fun entry => entry.1.toList ++ '=' :: entry.2.toList).filter
      isAssignment = values.inOrder.map fun entry => entry.1.toList ++ '=' :: entry.2.toList := by
    rw [List.filter_eq_self]
    intro line hline
    obtain ⟨entry, hentry, rfl⟩ := List.mem_map.mp hline
    exact isAssignment_of_writable (hwritable entry hentry)
  have hsplit := mapM_splitOnce hwritable
  refine ⟨values.inOrder.foldl (fun values entry => values.insert entry.1 entry.2) .empty, ?_, ?_⟩
  · unfold parseEnv envText
    rw [String.toList_ofList, lines_flatMap hwritable]
    dsimp only
    rw [hfilter, hsplit]
    rfl
  · intro name
    have hnodup : (values.inOrder.map Prod.fst).Nodup :=
      (values.inOrder_perm.map Prod.fst).nodup_iff.mpr values.nodup_keys
    have hempty : (KeyedMap.empty : Values).find? name = none := rfl
    rw [KeyedMap.find?_foldl_insert hnodup, hempty, Option.or_none]
    apply Option.ext
    intro text
    have hmem := values.inOrder_perm.mem_iff (a := (name, text))
    rw [KeyedMap.find?_eq_some_iff, ← hmem]
    exact KeyedMap.find?_eq_some_iff (m := ⟨values.inOrder, hnodup⟩)

end Assignments

end Esdiag.EnvFiles
