import Esdiag.WebUrls

/-!
The viewer that Agent Builder is reached through. A space at the end of its path is taken
off and kept apart, so that the paths made from a location name the space themselves.
-/
namespace Esdiag.AgentLocations

open Texts WebUrls

variable {Url : Type}

structure AgentBuilderLocation (Url : Type) where
  viewer : Url
  space : Option String

def trimEndSlashes (text : String) : String := String.ofList (text.toList.rdropWhile (· == '/'))

def trimStartSlashes (text : String) : String := String.ofList (text.toList.dropWhile (· == '/'))

/-- The spellings of the default space. -/
def isDefaultSpace (space : String) : Bool :=
  space == "" || space == "_default" || space == "default"

/-- The segments before a space at the end of a path, and the space. -/
def splitSpace : List String → Option (List String × String)
  | [] => none
  | [_] => none
  | [mark, space] => if mark = "s" then some ([], space) else none
  | segment :: next :: rest =>
    (splitSpace (next :: rest)).map fun parts => (segment :: parts.1, parts.2)

theorem splitSpace_append (start : List String) (space : String) :
    splitSpace (start ++ ["s", space]) = some (start, space) := by
  induction start with
  | nil => exact if_pos rfl
  | cons segment start ih =>
    cases start with
    | nil => rfl
    | cons next rest =>
      rw [List.cons_append, List.cons_append, splitSpace, ← List.cons_append, ih]
      · rfl
      · simp

namespace AgentBuilderLocation

variable (lib : Library Url)

def new (viewer : Url) (space : Option String) : AgentBuilderLocation Url :=
  let viewer := lib.setFragment (lib.setQuery viewer none) none
  let pathSegments := ((lib.pathSegments viewer).getD []).filter (· != "")
  let parts := splitSpace pathSegments
  { viewer :=
      match parts with
      | some (start, _) => lib.setPath viewer (pathOf start)
      | none => viewer
    space := (space.or (parts.map (·.2))).filter fun space => !isDefaultSpace space }

def apiPath (location : AgentBuilderLocation Url) (endpoint : String) : String :=
  let base := trimEndSlashes (lib.path location.viewer)
  let endpoint := trimStartSlashes endpoint
  match location.space with
  | some space =>
    if space != "" then base ++ "/s/" ++ urlencode space ++ "/" ++ endpoint
    else base ++ "/" ++ endpoint
  | none => base ++ "/" ++ endpoint

def conversationUrl (location : AgentBuilderLocation Url) (conversationId : String) : Url :=
  lib.setPath location.viewer
    (location.apiPath lib ("app/agent_builder/conversations/" ++ urlencode conversationId))

def resolveLink (location : AgentBuilderLocation Url) (path : String) : String :=
  let viewerPath := trimEndSlashes (lib.path location.viewer)
  let parts := (splitOnce '#' (trimStartSlashes path)).getD (path, "")
  let path :=
    if viewerPath = "" ∨ viewerPath = "/" then "/" ++ parts.1
    else viewerPath ++ "/" ++ parts.1
  let url := lib.setPath location.viewer path
  lib.display (if parts.2 != "" then lib.setFragment url (some parts.2) else url)

end AgentBuilderLocation

section Bases

theorem trimEndSlashes_append {text : String} : trimEndSlashes (text ++ "/") =
    trimEndSlashes text := by
  have hchars : (text ++ "/").toList = text.toList ++ ['/'] := by simp
  rw [trimEndSlashes, hchars, List.rdropWhile_concat_pos _ _ _ (by decide), trimEndSlashes]

theorem trimEndSlashes_eq_self {text : String} (h : text.toList.getLast? ≠ some '/') :
    trimEndSlashes text = text := by
  have hchars : text.toList.rdropWhile (· == '/') = text.toList := by
    refine List.rdropWhile_eq_self_iff.mpr fun hne hslash => h ?_
    rw [List.getLast?_eq_some_getLast hne, beq_iff_eq.mp hslash]
  rw [trimEndSlashes, hchars, String.ofList_toList]

theorem trimEndSlashes_idempotent (text : String) :
    trimEndSlashes (trimEndSlashes text) = trimEndSlashes text := by
  simp only [trimEndSlashes, String.toList_ofList, List.rdropWhile_idempotent]

theorem mem_of_mem_trimEndSlashes {text : String} {c : Char}
    (h : c ∈ (trimEndSlashes text).toList) : c ∈ text.toList := by
  rw [trimEndSlashes, String.toList_ofList] at h
  exact (List.rdropWhile_prefix _ _).subset h

theorem trimEndSlashes_ne_slash (text : String) : trimEndSlashes text ≠ "/" := by
  intro heq
  have hlist : text.toList.rdropWhile (· == '/') = ['/'] := by
    rw [← String.toList_ofList (l := text.toList.rdropWhile (· == '/')), ← trimEndSlashes, heq]
    rfl
  have hlast := List.rdropWhile_last_not (· == '/') text.toList (by rw [hlist]; simp)
  simp [hlist] at hlast

/-- A path text ends with its last segment. -/
theorem exists_pathOf_concat (init : List String) (segment : String) :
    ∃ start, pathOf (init ++ [segment]) = start ++ segment ∧
      (init ≠ [] → start = pathOf init ++ "/") := by
  rcases eq_or_ne init [] with rfl | hne
  · exact ⟨"/", by rw [List.nil_append, pathOf, join_singleton], fun h => absurd rfl h⟩
  · refine ⟨pathOf init ++ "/", ?_, fun _ => rfl⟩
    rw [pathOf, join_append hne (List.cons_ne_nil _ _), join_singleton, pathOf]
    simp only [String.append_assoc]

theorem pathOf_append {start rest : List String} (hstart : start ≠ []) (hrest : rest ≠ []) :
    pathOf start ++ "/" ++ join "/" rest = pathOf (start ++ rest) := by
  rw [pathOf, pathOf, join_append hstart hrest]
  simp only [String.append_assoc]

/-- A path without its last slashes has the segments before the empty ones at its end. -/
theorem exists_trimmed {host : String} (hhost : host.toList.getLast? ≠ some '/')
    (segments : List String) (h : ∀ segment ∈ segments, '/' ∉ segment.toList) :
    ∃ kept, kept ⊆ segments ∧ kept.filter (· != "") = segments.filter (· != "") ∧
      trimEndSlashes (host ++ pathOf segments) =
        host ++ (if kept = [] then "" else pathOf kept) := by
  have hroot : trimEndSlashes (host ++ "/") = host := by
    rw [trimEndSlashes_append, trimEndSlashes_eq_self hhost]
  induction segments using List.reverseRecOn with
  | nil =>
    refine ⟨[], List.Subset.refl _, rfl, ?_⟩
    rw [if_pos rfl, String.append_empty]
    exact hroot
  | append_singleton init segment ih =>
    obtain ⟨before, hpath, hbefore⟩ := exists_pathOf_concat init segment
    by_cases hempty : segment = ""
    · obtain ⟨kept, hsubset, hfilter, htrim⟩ :=
        ih fun other hother => h other (List.mem_append_left _ hother)
      refine ⟨kept, fun other hother => List.mem_append_left _ (hsubset hother), ?_, ?_⟩
      · rw [hfilter, hempty, List.filter_append]
        exact (List.append_nil _).symm
      · rw [← htrim]
        rcases eq_or_ne init [] with rfl | hne
        · rw [hempty]
          rfl
        · rw [hpath, hempty, String.append_empty, hbefore hne, ← String.append_assoc,
            trimEndSlashes_append]
    · refine ⟨init ++ [segment], List.Subset.refl _, rfl, ?_⟩
      have hchars : segment.toList ≠ [] := by simpa using hempty
      have hlast : (host ++ pathOf (init ++ [segment])).toList.getLast? =
          some (segment.toList.getLast hchars) := by
        rw [hpath, ← String.append_assoc, String.toList_append,
          List.getLast?_append_of_ne_nil _ hchars, List.getLast?_eq_some_getLast hchars]
      have hslash : segment.toList.getLast hchars ≠ '/' := by
        intro heq
        exact h segment (by simp) (heq ▸ List.getLast_mem hchars)
      rw [if_neg (by simp), trimEndSlashes_eq_self]
      rw [hlast]
      exact fun heq => hslash (Option.some.inj heq)

/-- What is appended to a path without its last slashes goes on with its segments. -/
theorem exists_base (segments : List String) (h : ∀ segment ∈ segments, '/' ∉ segment.toList) :
    ∃ start, start ⊆ segments ∧ start.filter (· != "") = segments.filter (· != "") ∧
      ∀ rest, rest ≠ [] →
        trimEndSlashes (pathOf segments) ++ "/" ++ join "/" rest = pathOf (start ++ rest) := by
  obtain ⟨kept, hsubset, hfilter, htrim⟩ := @exists_trimmed "" (by decide) segments h
  refine ⟨kept, hsubset, hfilter, fun rest hrest => ?_⟩
  rw [String.empty_append, String.empty_append] at htrim
  rw [htrim]
  split
  · rename_i hnil
    rw [hnil, List.nil_append, String.empty_append, pathOf]
  · rename_i hne
    exact pathOf_append hne hrest

end Bases

section Locations

variable {lib : Library Url} (lawful : Lawful lib) (viewer : Url) (space : Option String)
include lawful

theorem query_new : lib.query (AgentBuilderLocation.new lib viewer space).viewer = none := by
  unfold AgentBuilderLocation.new
  simp only
  split
  · rw [lawful.query_setPath, lawful.query_setFragment, lawful.query_setQuery_none]
  · rw [lawful.query_setFragment, lawful.query_setQuery_none]

theorem fragment_new : lib.fragment (AgentBuilderLocation.new lib viewer space).viewer = none := by
  unfold AgentBuilderLocation.new
  simp only
  split
  · rw [lawful.fragment_setPath, lawful.fragment_setFragment_none]
  · rw [lawful.fragment_setFragment_none]

end Locations

/-- A viewer at the root of its host. -/
def rootViewer : PlainUrl := ⟨"kb.example", "", none, none, by decide⟩

end Esdiag.AgentLocations
