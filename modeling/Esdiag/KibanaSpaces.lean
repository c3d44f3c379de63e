import Esdiag.AgentLocations

/-!
The space of a Kibana URL. Setting a space goes by the segments of the path: the last
mark with a segment behind it is taken for the space that there is, and where there is
none the space goes before the part of the path that is Kibana's own. Where the mark
stands once, setting a space is replacing it, and what was set before is forgotten.
-/
namespace Esdiag.KibanaSpaces

open Texts WebUrls AgentLocations

variable {Url : Type}

def defaultKibanaSpace : String := "esdiag"

def kibanaSpaceSetting (value : Option String) : Option String :=
  match value with
  | some space => if isDefaultSpace (trim space) then none else some (trim space)
  | none => some defaultKibanaSpace

/-- The space that a URL is to have: none where it is the default one. -/
def scopingSpace (space : Option String) : Option String :=
  (space.map trim).filter fun space => !isDefaultSpace space

/-- The segments around the space behind the last mark. -/
def splitLastPair : List String → Option (List String × String × List String)
  | [] => none
  | [_] => none
  | mark :: space :: rest =>
    match splitLastPair (space :: rest) with
    | some (before, found, after) => some (mark :: before, found, after)
    | none => if mark = "s" then some ([], space, rest) else none

/-- The segments that Kibana's own part of a path begins with. -/
def isAnchor (segment : String) : Bool :=
  segment == "app" || segment == "api" || segment == "internal"

def putSpace (space : String) (segments : List String) : List String :=
  match splitLastPair segments with
  | some (before, _, after) => before ++ "s" :: space :: after
  | none =>
    if segments.getLast? = some "s" then segments ++ [space]
    else
      segments.takeWhile (fun segment => !isAnchor segment) ++
        "s" :: space :: segments.dropWhile fun segment => !isAnchor segment

/-- The segments without a space, where they had one or a mark at their end. -/
def dropSpace (segments : List String) : Option (List String) :=
  match splitLastPair segments with
  | some (before, _, after) => some (before ++ after)
  | none => if segments.getLast? = some "s" then some segments.dropLast else none

def nonEmptySegments (lib : Library Url) (url : Url) : Option (List String) :=
  (lib.pathSegments url).map fun segments => segments.filter (· != "")

def kibanaUrlWithSpace (lib : Library Url) (kibanaUrl : String) (space : Option String) :
    String :=
  let kibanaUrl := trimEndSlashes kibanaUrl
  match scopingSpace space with
  | some space =>
    match lib.parse kibanaUrl with
    | some url =>
      match nonEmptySegments lib url with
      | some segments => lib.display (lib.setPath url (pathOf (putSpace space segments)))
      | none => kibanaUrl ++ "/s/" ++ space
    | none => kibanaUrl ++ "/s/" ++ space
  | none =>
    match lib.parse kibanaUrl with
    | some url =>
      match dropSpace ((nonEmptySegments lib url).getD []) with
      | some segments => lib.display (lib.setPath url (pathOf segments))
      | none => kibanaUrl
    | none => kibanaUrl

/-- `setting` is the value of the environment variable, where it is declared. -/
def appendKibanaSpace (lib : Library Url) (setting : Option String) (kibanaUrl : String) : String :=
  kibanaUrlWithSpace lib kibanaUrl (kibanaSpaceSetting setting)

/-- The setting is read as the space of a URL is; where it is not declared, there is another one. -/
theorem scopingSpace_kibanaSpaceSetting (setting : Option String) :
    scopingSpace (kibanaSpaceSetting setting) =
      scopingSpace (some (setting.getD defaultKibanaSpace)) := by
  cases setting with
  | none => rfl
  | some space =>
    unfold kibanaSpaceSetting
    cases hdefault : isDefaultSpace (trim space) with
    | true => simp [scopingSpace, hdefault, Option.filter]
    | false => simp [scopingSpace, hdefault, Option.filter]

theorem appendKibanaSpace_eq (lib : Library Url) (setting : Option String) (kibanaUrl : String) :
    appendKibanaSpace lib setting kibanaUrl =
      kibanaUrlWithSpace lib kibanaUrl (some (setting.getD defaultKibanaSpace)) := by
  unfold appendKibanaSpace kibanaUrlWithSpace
  rw [scopingSpace_kibanaSpaceSetting]

section Pairs

/-- The segments of a space. -/
def pairOf : Option String → List String
  | none => []
  | some space => ["s", space]

/-- Where Kibana's own part of a path begins. -/
def OwnPart (before after : List String) : Prop :=
  (∀ segment ∈ before, isAnchor segment = false) ∧ ∀ segment ∈ after.head?, isAnchor segment = true

/-- The segments before and behind the place of the space. -/
inductive Around : List String → List String → List String → Prop
  | pair {before after : List String} {space : String} :
      "s" ∉ before → "s" ∉ space :: after → Around (before ++ "s" :: space :: after) before after
  | mark {before : List String} : "s" ∉ before → Around (before ++ ["s"]) before []
  | none {before after : List String} :
      "s" ∉ before ++ after → OwnPart before after → Around (before ++ after) before after

theorem splitLastPair_cons_of_some {mark : String} {segments : List String}
    {parts : List String × String × List String} (h : splitLastPair segments = some parts) :
    splitLastPair (mark :: segments) = some (mark :: parts.1, parts.2) := by
  cases segments with
  | nil => cases h
  | cons space rest => rw [splitLastPair, h]

theorem splitLastPair_cons_of_none {mark : String} {segments : List String} (hmark : mark ≠ "s")
    (h : splitLastPair segments = none) : splitLastPair (mark :: segments) = none := by
  cases segments with
  | nil => rfl
  | cons space rest =>
    rw [splitLastPair, h]
    exact if_neg hmark

theorem splitLastPair_of_notMem {segments : List String} (h : "s" ∉ segments) :
    splitLastPair segments = none := by
  induction segments with
  | nil => rfl
  | cons mark rest ih =>
    rw [List.mem_cons, not_or] at h
    exact splitLastPair_cons_of_none (Ne.symm h.1) (ih h.2)

theorem splitLastPair_append {before after : List String} {space : String}
    (h : "s" ∉ space :: after) :
    splitLastPair (before ++ "s" :: space :: after) = some (before, space, after) := by
  induction before with
  | nil =>
    rw [List.nil_append, splitLastPair, splitLastPair_of_notMem h]
    rfl
  | cons mark before ih => exact splitLastPair_cons_of_some ih

theorem splitLastPair_concat_mark {before : List String} (h : "s" ∉ before) :
    splitLastPair (before ++ ["s"]) = none := by
  induction before with
  | nil => rfl
  | cons mark before ih =>
    rw [List.mem_cons, not_or] at h
    exact splitLastPair_cons_of_none (Ne.symm h.1) (ih h.2)

theorem getLast?_ne_mark {segments : List String} (h : "s" ∉ segments) :
    segments.getLast? ≠ some "s" := fun hlast => h (List.mem_of_getLast? hlast)

theorem takeWhile_of_ownPart {before after : List String} (h : OwnPart before after) :
    (before ++ after).takeWhile (fun segment => !isAnchor segment) = before ∧
      (before ++ after).dropWhile (fun segment => !isAnchor segment) = after := by
  have hbefore : ∀ segment ∈ before, (!isAnchor segment) = true := fun segment hmem => by
    rw [h.1 segment hmem]
    rfl
  rw [List.takeWhile_append_of_pos hbefore, List.dropWhile_append_of_pos hbefore]
  cases after with
  | nil => exact ⟨List.append_nil before, rfl⟩
  | cons anchor after =>
    have hanchor : (!isAnchor anchor) = false := by rw [h.2 anchor rfl]; rfl
    rw [List.takeWhile_cons_of_neg (by simp [hanchor]), List.dropWhile_cons_of_neg
      (by simp [hanchor])]
    exact ⟨List.append_nil before, rfl⟩

variable {segments before after : List String}

/-- A path with one mark at most has one place for the space. -/
theorem exists_around (h : segments.count "s" ≤ 1) :
    ∃ before after, Around segments before after := by
  by_cases hmem : "s" ∈ segments
  · obtain ⟨before, rest, rfl⟩ := List.append_of_mem hmem
    rw [List.count_append, List.count_cons_self] at h
    have hbefore : "s" ∉ before := List.count_eq_zero.mp (by omega)
    have hrest : "s" ∉ rest := List.count_eq_zero.mp (by omega)
    cases rest with
    | nil => exact ⟨before, [], Around.mark hbefore⟩
    | cons space after => exact ⟨before, after, Around.pair hbefore hrest⟩
  · have hsplit := List.takeWhile_append_dropWhile (p := fun segment => !isAnchor segment)
      (l := segments)
    refine ⟨segments.takeWhile fun segment => !isAnchor segment,
      segments.dropWhile fun segment => !isAnchor segment, ?_⟩
    have hown : OwnPart (segments.takeWhile fun segment => !isAnchor segment)
        (segments.dropWhile fun segment => !isAnchor segment) := by
      refine ⟨fun segment hsegment => by simpa using List.mem_takeWhile_imp hsegment,
        fun segment hsegment => ?_⟩
      have hhead := List.head?_dropWhile_not (fun segment => !isAnchor segment) segments
      rw [Option.mem_def.mp hsegment] at hhead
      simpa using hhead
    have hplace := Around.none (by rwa [hsplit]) hown
    rwa [hsplit] at hplace

theorem Around.mem (h : Around segments before after) {segment : String}
    (hmem : segment ∈ before ++ after) : segment ∈ segments := by
  cases h with
  | pair =>
    simp only [List.mem_append, List.mem_cons] at hmem ⊢
    exact hmem.imp_right fun hafter => Or.inr (Or.inr hafter)
  | mark =>
    rw [List.append_nil] at hmem
    exact List.mem_append_left _ hmem
  | none => exact hmem

theorem Around.mark_notMem (h : Around segments before after) : "s" ∉ before ++ after := by
  cases h with
  | pair hbefore hafter =>
    rw [List.mem_append, not_or]
    exact ⟨hbefore, fun hmem => hafter (List.mem_cons_of_mem _ hmem)⟩
  | mark hbefore => rwa [List.append_nil]
  | none hnone => exact hnone

theorem putSpace_of_around (h : Around segments before after) (space : String) :
    putSpace space segments = before ++ "s" :: space :: after := by
  unfold putSpace
  cases h with
  | pair hbefore hafter => rw [splitLastPair_append hafter]
  | mark hbefore =>
    rw [splitLastPair_concat_mark hbefore]
    simp only [List.getLast?_concat, if_true, List.append_assoc]
    rfl
  | none hnone hown =>
    obtain ⟨htake, hdrop⟩ := takeWhile_of_ownPart hown
    rw [splitLastPair_of_notMem hnone]
    simp only [htake, hdrop]
    exact if_neg (getLast?_ne_mark hnone)

theorem dropSpace_of_notMem (h : "s" ∉ segments) : dropSpace segments = none := by
  rw [dropSpace, splitLastPair_of_notMem h]
  exact if_neg (getLast?_ne_mark h)

theorem dropSpace_of_around (h : Around segments before after) :
    (dropSpace segments).getD segments = before ++ after := by
  cases h with
  | pair hbefore hafter => rw [dropSpace, splitLastPair_append hafter, Option.getD_some]
  | mark hbefore =>
    rw [dropSpace, splitLastPair_concat_mark hbefore]
    simp
  | none hnone hown => rw [dropSpace_of_notMem hnone, Option.getD_none]

end Pairs

section Reading

/-- The parts of a URL, its path by the segments that are not empty. -/
structure Parts where
  beforePath : String
  segments : List String
  query : Option String
  fragment : Option String
  deriving DecidableEq

def partsOf (lib : Library Url) (url : Url) : Parts where
  beforePath := lib.beforePath url
  segments := (nonEmptySegments lib url).getD []
  query := lib.query url
  fragment := lib.fragment url

def reads (lib : Library Url) (text : String) : Option Parts := (lib.parse text).map (partsOf lib)

/-- The text is a URL of these parts, and is one of them without its last slashes. -/
def ReadsAs (lib : Library Url) (text : String) (parts : Parts) : Prop :=
  reads lib text = some parts ∧ reads lib (trimEndSlashes text) = some parts

/-- No slash ends the query or the fragment. -/
def EndsPlain (parts : Parts) : Prop :=
  (withMark "?" parts.query ++ withMark "#" parts.fragment).toList.getLast? ≠ some '/'

variable {lib : Library Url} {url : Url} {segments : List String} {text : String} {parts : Parts}

theorem nonEmptySegments_of_path (hpath : lib.path url = pathOf segments)
    (h : ∀ segment ∈ segments, '/' ∉ segment.toList) :
    nonEmptySegments lib url = some (segments.filter (· != "")) := by
  rcases eq_or_ne segments [] with rfl | hne
  · rw [nonEmptySegments, Library.pathSegments, hpath, stripPrefix_pathOf]
    rfl
  · rw [nonEmptySegments, pathSegments_of_path hpath hne h, Option.map_some]

theorem isDefaultSpace_of_scopingSpace {space : Option String} {name : String}
    (h : scopingSpace space = some name) : isDefaultSpace name = false := by
  have hkept := (Option.filter_eq_some_iff.mp h).2
  simpa using hkept

theorem percentEncode_ne_empty {encoded : Char → Bool} (h : text ≠ "") :
    percentEncode encoded text ≠ "" := by
  intro hempty
  have hself := @percentEncode_eq_self encoded text (by simp [hempty])
  exact h (hself.symm.trans hempty)

section Laws

variable (lawful : Lawful lib)
include lawful

/-- The segments of a path are kept by a path that is made of them. -/
theorem exists_segments (url : Url) : ∃ segments, lib.path url = pathOf segments ∧
    nonEmptySegments lib url = some (segments.filter (· != "")) ∧
      ∀ segment ∈ segments, isSegment segment = true ∧
        percentEncode lib.encodedInPath segment = segment := by
  obtain ⟨segments, -, hpath, hsegments⟩ := lawful.path_kept url
  exact ⟨segments, hpath, nonEmptySegments_of_path hpath fun segment hmem =>
    slash_notMem_of_isSegment (hsegments segment hmem).1, fun segment hmem =>
      ⟨(hsegments segment hmem).1, percentEncode_of_kept (hsegments segment hmem).2⟩⟩

theorem mem_segments {segment : String} (hmem : segment ∈ (partsOf lib url).segments) :
    (isSegment segment = true ∧ percentEncode lib.encodedInPath segment = segment) ∧
      segment ≠ "" := by
  obtain ⟨segments, -, hsegments, hkept⟩ := exists_segments lawful url
  rw [partsOf, hsegments, Option.getD_some, List.mem_filter, bne_iff_ne] at hmem
  exact ⟨hkept segment hmem.1, hmem.2⟩

theorem partsOf_setPath (h : ∀ segment ∈ segments, isSegment segment = true)
    (hne : "" ∉ segments) : partsOf lib (lib.setPath url (pathOf segments)) =
      { partsOf lib url with segments := segments.map (percentEncode lib.encodedInPath) } := by
  have hpath := lawful.path_setPath url segments h
  have hnonempty := nonEmptySegments_of_path hpath fun segment hmem => by
    obtain ⟨original, horiginal, rfl⟩ := List.mem_map.mp hmem
    exact slash_notMem_percentEncode (h original horiginal)
  have hfilter : (segments.map (percentEncode lib.encodedInPath)).filter (· != "") =
      segments.map (percentEncode lib.encodedInPath) := by
    refine List.filter_eq_self.mpr fun segment hmem => ?_
    obtain ⟨original, horiginal, rfl⟩ := List.mem_map.mp hmem
    exact bne_iff_ne.mpr (percentEncode_ne_empty (ne_of_mem_of_not_mem horiginal hne))
  rw [partsOf, hnonempty, hfilter, lawful.beforePath_setPath, lawful.query_setPath,
    lawful.fragment_setPath]
  rfl

/-- A text with a part of the path has the parts of the URL, if only empty segments are left out. -/
theorem reads_path {kept : List String} (hquery : lib.query url = none)
    (hfragment : lib.fragment url = none)
    (hkept : ∀ segment ∈ kept, isSegment segment = true ∧
      percentEncode lib.encodedInPath segment = segment)
    (hsegments : nonEmptySegments lib url = some (kept.filter (· != ""))) :
    reads lib (lib.beforePath url ++ (if kept = [] then "" else pathOf kept)) =
      some (partsOf lib url) := by
  have hpath : lib.path (lib.setPath url (pathOf kept)) = pathOf kept := by
    rw [lawful.path_setPath url kept fun segment hmem => (hkept segment hmem).1,
      List.map_congr_left fun segment hmem => (hkept segment hmem).2, List.map_id']
  have hparse : lib.parse (lib.beforePath url ++ (if kept = [] then "" else pathOf kept)) =
      some (lib.setPath url (pathOf kept)) := by
    rw [← lawful.query_setPath url (pathOf kept)] at hquery
    rw [← lawful.fragment_setPath url (pathOf kept)] at hfragment
    split
    · rename_i hnil
      rw [String.append_empty, ← lawful.beforePath_setPath url (pathOf kept)]
      exact lawful.parse_beforePath _ (by rw [hpath, hnil]; rfl) hquery hfragment
    · have hdisplay := lawful.parse_display (lib.setPath url (pathOf kept))
      rwa [lawful.display_eq, hquery, hfragment, withMark, withMark, String.append_empty,
        String.append_empty, hpath, lawful.beforePath_setPath] at hdisplay
  have hnonempty := nonEmptySegments_of_path hpath fun segment hmem =>
    slash_notMem_of_isSegment (hkept segment hmem).1
  rw [reads, hparse, Option.map_some, partsOf, partsOf, hnonempty, hsegments,
    lawful.beforePath_setPath, lawful.query_setPath, lawful.fragment_setPath]

/-- The text of a URL is of the same parts without its last slashes. -/
theorem reads_trimmed (hend : EndsPlain (partsOf lib url)) :
    reads lib (trimEndSlashes (lib.display url)) = some (partsOf lib url) := by
  obtain ⟨segments, hpath, hsegments, hkept⟩ := exists_segments lawful url
  by_cases htail : withMark "?" (lib.query url) ++ withMark "#" (lib.fragment url) = ""
  · have hquery : lib.query url = none := by
      cases hquery : lib.query url with
      | none => rfl
      | some query => simp [hquery, withMark] at htail
    have hfragment : lib.fragment url = none := by
      cases hfragment : lib.fragment url with
      | none => rfl
      | some fragment => simp [hfragment, withMark] at htail
    have hhost : (lib.beforePath url).toList.getLast? ≠ some '/' := by
      obtain ⟨c, hlast, hc⟩ := lawful.host url
      rw [hlast]
      exact fun heq => hc (Option.some.inj heq)
    obtain ⟨kept, hsubset, hfilter, htrim⟩ := exists_trimmed hhost segments
      fun segment hmem => slash_notMem_of_isSegment (hkept segment hmem).1
    have hdisplay : lib.display url = lib.beforePath url ++ pathOf segments := by
      rw [lawful.display_eq, String.append_assoc, htail, String.append_empty, hpath]
    rw [hdisplay, htrim]
    exact reads_path lawful hquery hfragment (fun segment hmem => hkept segment (hsubset hmem))
      (by rw [hsegments, hfilter])
  · have hchars :
        (withMark "?" (lib.query url) ++ withMark "#" (lib.fragment url)).toList ≠ [] := by
      simpa only [ne_eq, String.toList_eq_nil_iff] using htail
    have hlast : (lib.display url).toList.getLast? ≠ some '/' := by
      rw [lawful.display_eq, String.append_assoc, String.toList_append,
        List.getLast?_append_of_ne_nil _ hchars]
      exact hend
    rw [trimEndSlashes_eq_self hlast, reads, lawful.parse_display, Option.map_some]

theorem readsAs_display (hend : EndsPlain (partsOf lib url)) :
    ReadsAs lib (lib.display url) (partsOf lib url) :=
  ⟨by rw [reads, lawful.parse_display, Option.map_some], reads_trimmed lawful hend⟩

theorem readsAs_setPath (hend : EndsPlain (partsOf lib url))
    (h : ∀ segment ∈ segments, isSegment segment = true) (hne : "" ∉ segments) :
    ReadsAs lib (lib.display (lib.setPath url (pathOf segments)))
      { partsOf lib url with segments := segments.map (percentEncode lib.encodedInPath) } := by
  have hparts : partsOf lib (lib.setPath url (pathOf segments)) = _ :=
    partsOf_setPath lawful h hne
  rw [← hparts]
  refine readsAs_display lawful ?_
  rw [hparts]
  exact hend

variable {before after : List String} {b : Option String}
variable (hend : EndsPlain parts) (hreads : ReadsAs lib text parts)
include hend hreads

/-- Setting a space puts its segments in the place that the path has for it. -/
theorem readsAs_put (haround : Around parts.segments before after) {space : String}
    (hspace : scopingSpace b = some space) (hsegment : isSegment space = true) :
    ReadsAs lib (kibanaUrlWithSpace lib text b) { parts with
      segments := before ++ "s" :: percentEncode lib.encodedInPath space :: after } := by
  obtain ⟨url, hparse, rfl⟩ := Option.map_eq_some_iff.mp hreads.2
  obtain ⟨segments, -, hsegments, -⟩ := exists_segments lawful url
  have hpartSegments : (partsOf lib url).segments = segments.filter (· != "") := by
    rw [partsOf, hsegments, Option.getD_some]
  have hne : "" ≠ space := by
    rintro rfl
    exact absurd (isDefaultSpace_of_scopingSpace hspace) (by decide)
  have hmark : percentEncode lib.encodedInPath "s" = "s" :=
    percentEncode_of_kept fun c hc => lawful.not_encoded c (Or.inl (by
      rw [List.mem_singleton.mp hc]
      decide))
  have hkept : ∀ segment ∈ before ++ after, (isSegment segment = true ∧
      percentEncode lib.encodedInPath segment = segment) ∧ segment ≠ "" := fun segment hmem =>
    mem_segments lawful (haround.mem hmem)
  simp only [List.forall_mem_append] at hkept
  have hmapped : (before ++ "s" :: space :: after).map (percentEncode lib.encodedInPath) =
      before ++ "s" :: percentEncode lib.encodedInPath space :: after := by
    rw [List.map_append, List.map_cons, List.map_cons, hmark,
      List.map_congr_left fun segment hmem => (hkept.1 segment hmem).1.2,
      List.map_congr_left fun segment hmem => (hkept.2 segment hmem).1.2, List.map_id',
      List.map_id']
  have hput : kibanaUrlWithSpace lib text b =
      lib.display (lib.setPath url (pathOf (before ++ "s" :: space :: after))) := by
    unfold kibanaUrlWithSpace
    simp only [hspace, hparse, hsegments]
    rw [← hpartSegments, putSpace_of_around haround]
  rw [hput, ← hmapped]
  refine readsAs_setPath lawful hend (fun segment hmem => ?_) ?_
  · simp only [List.mem_append, List.mem_cons] at hmem
    rcases hmem with hmem | rfl | rfl | hmem
    · exact (hkept.1 segment hmem).1.1
    · decide
    · exact hsegment
    · exact (hkept.2 segment hmem).1.1
  · simp only [List.mem_append, List.mem_cons, not_or]
    exact ⟨fun hmem => (hkept.1 "" hmem).2 rfl, by decide, hne, fun hmem => (hkept.2 "" hmem).2 rfl⟩

/-- Setting the default space takes away what stands in the place for one. -/
theorem readsAs_drop (hrest : (dropSpace parts.segments).getD parts.segments = segments)
    (hsubset : segments ⊆ parts.segments) (hspace : scopingSpace b = none) :
    ReadsAs lib (kibanaUrlWithSpace lib text b) { parts with segments := segments } := by
  obtain ⟨url, hparse, rfl⟩ := Option.map_eq_some_iff.mp hreads.2
  cases hdrop : dropSpace (partsOf lib url).segments with
  | none =>
    have htext : kibanaUrlWithSpace lib text b = trimEndSlashes text := by
      unfold kibanaUrlWithSpace
      simp only [hspace, hparse]
      rw [show (nonEmptySegments lib url).getD [] = (partsOf lib url).segments from rfl, hdrop]
    rw [hdrop, Option.getD_none] at hrest
    rw [htext, ← hrest]
    exact ⟨hreads.2, by rw [trimEndSlashes_idempotent]; exact hreads.2⟩
  | some rest =>
    have htext : kibanaUrlWithSpace lib text b = lib.display (lib.setPath url (pathOf rest)) := by
      unfold kibanaUrlWithSpace
      simp only [hspace, hparse]
      rw [show (nonEmptySegments lib url).getD [] = (partsOf lib url).segments from rfl, hdrop]
    rw [hdrop, Option.getD_some] at hrest
    subst hrest
    have hkept : ∀ segment ∈ rest, (isSegment segment = true ∧
        percentEncode lib.encodedInPath segment = segment) ∧ segment ≠ "" := fun segment hmem =>
      mem_segments lawful (hsubset hmem)
    have hset := readsAs_setPath lawful hend (fun segment hmem => (hkept segment hmem).1.1)
      fun hmem => (hkept "" hmem).2 rfl
    rwa [← htext, List.map_congr_left fun segment hmem => (hkept segment hmem).1.2,
      List.map_id'] at hset

/-- The space stands in its place, and the rest of the URL is as it was. -/
theorem readsAs_scoped (haround : Around parts.segments before after)
    (hb : ∀ space, scopingSpace b = some space → isSegment space = true) :
    ReadsAs lib (kibanaUrlWithSpace lib text b) { parts with
      segments := before ++ pairOf ((scopingSpace b).map (percentEncode lib.encodedInPath)) ++
        after } := by
  cases hspace : scopingSpace b with
  | none =>
    rw [Option.map_none, pairOf, List.append_nil]
    exact readsAs_drop lawful hend hreads (dropSpace_of_around haround)
      (fun segment hmem => haround.mem hmem) hspace
  | some space =>
    rw [Option.map_some, pairOf, List.append_assoc]
    exact readsAs_put lawful hend hreads haround hspace (hb space hspace)

/-- A space that was set before leaves nothing behind. -/
theorem readsAs_absorbed {a : Option String} (haround : Around parts.segments before after)
    (ha : ∀ space, scopingSpace a = some space → isSegment space = true)
    (hb : ∀ space, scopingSpace b = some space → isSegment space = true)
    (hmark : scopingSpace a ≠ some "s")
    (hplace : scopingSpace a = none → scopingSpace b = none ∨ OwnPart before after) :
    ReadsAs lib (kibanaUrlWithSpace lib (kibanaUrlWithSpace lib text a) b) { parts with
      segments := before ++ pairOf ((scopingSpace b).map (percentEncode lib.encodedInPath)) ++
        after } := by
  have hfirst := readsAs_scoped lawful hend hreads haround ha
  cases hspace : scopingSpace a with
  | some space =>
    rw [hspace, Option.map_some, pairOf, List.append_assoc] at hfirst
    have hencoded : percentEncode lib.encodedInPath space ≠ "s" := by
      intro heq
      have hself := @percentEncode_eq_self lib.encodedInPath space (by rw [heq]; decide)
      exact hmark (by rw [hspace, ← hself, heq])
    have hnot := haround.mark_notMem
    rw [List.mem_append, not_or] at hnot
    have hplace := Around.pair hnot.1
      (List.not_mem_cons_of_ne_of_not_mem hencoded.symm hnot.2)
    have hsecond := readsAs_scoped lawful (by exact hend) hfirst hplace hb
    exact hsecond
  | none =>
    rw [hspace, Option.map_none, pairOf, List.append_nil] at hfirst
    rcases hplace hspace with hdefault | hown
    · rw [hdefault, Option.map_none, pairOf, List.append_nil]
      have hrest : (dropSpace (before ++ after)).getD (before ++ after) = before ++ after := by
        rw [dropSpace_of_notMem haround.mark_notMem, Option.getD_none]
      have hsecond := readsAs_drop lawful (by exact hend) hfirst hrest (List.Subset.refl _) hdefault
      exact hsecond
    · have hsecond := readsAs_scoped lawful (by exact hend) hfirst
        (Around.none haround.mark_notMem hown) hb
      exact hsecond

omit hend hreads

/-- The location of a viewer in a space is the viewer's without it, and the space. -/
theorem new_of_pair {viewer : Url} {start : List String} {space : String}
    (hsegments : nonEmptySegments lib viewer = some (start ++ ["s", space]))
    (hdefault : isDefaultSpace space = false) :
    AgentBuilderLocation.new lib viewer none =
      { viewer := lib.setPath (lib.setFragment (lib.setQuery viewer none) none) (pathOf start)
        space := some space } := by
  have hpath : lib.path (lib.setFragment (lib.setQuery viewer none) none) = lib.path viewer := by
    rw [lawful.path_setFragment, lawful.path_setQuery]
  have hstripped : ((lib.pathSegments (lib.setFragment (lib.setQuery viewer none) none)).getD
      []).filter (· != "") = start ++ ["s", space] := by
    obtain ⟨segments, hall, hfilter⟩ := Option.map_eq_some_iff.mp hsegments
    rw [Library.pathSegments, hpath, ← Library.pathSegments, hall, Option.getD_some, hfilter]
  unfold AgentBuilderLocation.new
  simp only [hstripped, splitSpace_append, Option.map_some, Option.none_or]
  rw [Option.filter_some_pos (by simp [hdefault])]

/-- The paths from the location of a viewer in a space name the space again. -/
theorem apiPath_of_pair {viewer : Url} {start : List String} {space : String}
    (hsegments : nonEmptySegments lib viewer = some (start ++ ["s", space]))
    (hdefault : isDefaultSpace space = false) (endpoint : String) :
    (AgentBuilderLocation.new lib viewer none).apiPath lib endpoint =
      pathOf (start ++ ["s", urlencode space]) ++ "/" ++ trimStartSlashes endpoint := by
  have hkept : ∀ segment ∈ start, (isSegment segment = true ∧
      percentEncode lib.encodedInPath segment = segment) ∧ segment ≠ "" := by
    intro segment hmem
    have hviewer : segment ∈ (partsOf lib viewer).segments := by
      rw [partsOf, hsegments, Option.getD_some]
      exact List.mem_append_left _ hmem
    exact mem_segments lawful hviewer
  have hpath := lawful.path_setPath (lib.setFragment (lib.setQuery viewer none) none) start
    fun segment hmem => (hkept segment hmem).1.1
  rw [List.map_congr_left fun segment hmem => (hkept segment hmem).1.2, List.map_id'] at hpath
  obtain ⟨base, hsubset, hfilter, hbase⟩ := exists_base start fun segment hmem =>
    slash_notMem_of_isSegment (hkept segment hmem).1.1
  have hsame : base = start := by
    rwa [List.filter_eq_self.mpr fun segment hmem =>
        bne_iff_ne.mpr (hkept segment (hsubset hmem)).2,
      List.filter_eq_self.mpr fun segment hmem => bne_iff_ne.mpr (hkept segment hmem).2] at hfilter
  have hname := hbase ["s", urlencode space] (List.cons_ne_nil _ _)
  rw [hsame] at hname
  have hne : space != "" := by
    refine bne_iff_ne.mpr ?_
    rintro rfl
    exact absurd hdefault (by decide)
  rw [new_of_pair lawful hsegments hdefault, AgentBuilderLocation.apiPath]
  simp only [hpath, hne, if_true]
  rw [← hname, join_cons (List.cons_ne_nil _ _), join_singleton,
    show "/s/" = "/" ++ ("s" ++ "/") from rfl]
  simp only [String.append_assoc]

end Laws

end Reading

section Scoping

variable (lib : Library Url)

/-- The URL has the space that is set between the segments of its path, and has no other. -/
structure ScopedAt (text : String) (parts : Parts) (a b : Option String)
    (before after : List String) : Prop where
  around : Around parts.segments before after
  inPlace : reads lib (kibanaUrlWithSpace lib text b) = some { parts with
    segments := before ++ pairOf ((scopingSpace b).map (percentEncode lib.encodedInPath)) ++ after }
  absorbed : scopingSpace a ≠ some "s" →
    (scopingSpace a = none → scopingSpace b = none ∨ OwnPart before after) →
      reads lib (kibanaUrlWithSpace lib (kibanaUrlWithSpace lib text a) b) =
        reads lib (kibanaUrlWithSpace lib text b)

/-- The location of a viewer in the space has the space, and its paths name it. -/
def RecoversSpace (space : String) : Prop :=
  ∀ viewer start, nonEmptySegments lib viewer = some (start ++ ["s", space]) →
    (AgentBuilderLocation.new lib viewer none).space = some space ∧
      ∀ endpoint, (AgentBuilderLocation.new lib viewer none).apiPath lib endpoint =
        pathOf (start ++ ["s", urlencode space]) ++ "/" ++ trimStartSlashes endpoint

variable {lib} {text : String} {parts : Parts} {a b : Option String}

/-- A URL with one mark at most has the one space that is set last, and is found in it. -/
theorem kibanaUrl_scoped_once (lawful : Lawful lib) (hreads : ReadsAs lib text parts)
    (hend : EndsPlain parts) (honce : parts.segments.count "s" ≤ 1)
    (ha : ∀ space, scopingSpace a = some space → isSegment space = true)
    (hb : ∀ space, scopingSpace b = some space → isSegment space = true) :
    (∃ before after, ScopedAt lib text parts a b before after) ∧
      ∀ space, scopingSpace b = some space → percentEncode lib.encodedInPath space = space →
        RecoversSpace lib space := by
  constructor
  · obtain ⟨before, after, haround⟩ := exists_around honce
    have hscoped := readsAs_scoped lawful hend hreads haround hb
    refine ⟨before, after, haround, hscoped.1, fun hmark hplace => ?_⟩
    have habsorbed := readsAs_absorbed lawful hend hreads haround ha hb hmark hplace
    exact habsorbed.1.trans hscoped.1.symm
  · intro space hspace hkept viewer start hsegments
    have hdefault := isDefaultSpace_of_scopingSpace hspace
    refine ⟨?_, apiPath_of_pair lawful hsegments hdefault⟩
    rw [new_of_pair lawful hsegments hdefault]

theorem readsAs_plain (url : PlainUrl) (hend : EndsPlain parts)
    (hdisplay : plainLibrary.display url = text) (hparts : partsOf plainLibrary url = parts) :
    ReadsAs plainLibrary text parts := by
  rw [← hparts] at hend ⊢
  rw [← hdisplay]
  exact readsAs_display plainLibrary_lawful hend

/-- A space behind the path of a proxy. -/
def proxyParts : Parts where
  beforePath := "https://kb.example"
  segments := ["proxy", "s", "ops", "app", "home"]
  query := some "x=1"
  fragment := none

theorem kibanaUrl_scoped_once_proxy :
    (∃ before after, ScopedAt plainLibrary "https://kb.example/proxy/s/ops/app/home?x=1" proxyParts
      (some "dev") (some "support") before after) ∧
      ∀ space, scopingSpace (some "support") = some space →
        percentEncode plainLibrary.encodedInPath space = space →
          RecoversSpace plainLibrary space := by
  have hspace : ∀ name, scopingSpace (some name) = some name → isSegment name = true →
      ∀ space, scopingSpace (some name) = some space → isSegment space = true := by
    intro name hname hsegment space hspace
    rw [hname] at hspace
    rwa [← Option.some.inj hspace]
  have hend : EndsPlain proxyParts := by
    unfold EndsPlain
    decide
  have hreads : ReadsAs plainLibrary "https://kb.example/proxy/s/ops/app/home?x=1" proxyParts :=
    readsAs_plain ⟨"kb.example", "proxy/s/ops/app/home", some "x=1", none, by decide⟩ hend
      (by decide +kernel) (by decide +kernel)
  exact kibanaUrl_scoped_once plainLibrary_lawful hreads hend (by decide +kernel)
    (hspace "dev" (by decide +kernel) (by decide))
    (hspace "support" (by decide +kernel) (by decide))

variable (lib) in
/-- The segments are those of before but for a space in a pair, and the pair that is set. -/
def KeepsRest (text : String) (parts : Parts) (b : Option String) : Prop :=
  ∃ before after, (before ++ after = parts.segments ∨
    ∃ space, before ++ "s" :: space :: after = parts.segments) ∧
      reads lib (kibanaUrlWithSpace lib text b) = some { parts with
        segments := before ++ pairOf ((scopingSpace b).map (percentEncode lib.encodedInPath)) ++
          after }

def markedParts : Parts := ⟨"https://kb.example", ["proxy", "s"], none, none⟩

theorem endsPlain_of_none (hquery : parts.query = none) (hfragment : parts.fragment = none) :
    EndsPlain parts := by
  unfold EndsPlain
  rw [hquery, hfragment]
  decide

theorem readsAs_marked : ReadsAs plainLibrary "https://kb.example/proxy/s" markedParts :=
  readsAs_plain ⟨"kb.example", "proxy/s", none, none, by decide⟩ (endsPlain_of_none rfl rfl)
    (by decide +kernel) (by decide +kernel)

/-- A mark at the end of a path goes with the space that it has none of. -/
theorem lastMark_dropped : ¬KeepsRest plainLibrary "https://kb.example/proxy/s" markedParts
    (some "default") := by
  rintro ⟨before, after, hrest, hkept⟩
  have haround : Around markedParts.segments ["proxy"] [] :=
    @Around.mark ["proxy"] (by decide)
  have hspace : scopingSpace (some "default") = none := by decide +kernel
  have hdropped := readsAs_scoped plainLibrary_lawful (endsPlain_of_none rfl rfl)
    readsAs_marked haround
    (b := some "default") (by rw [hspace]; exact nofun)
  rw [hdropped.1, hspace, Option.some.injEq, Parts.mk.injEq] at hkept
  have hlength := congrArg List.length hkept.2.1
  rcases hrest with hsame | ⟨space, hpair⟩
  · have hsegments := congrArg List.length hsame
    simp [pairOf, markedParts] at hlength hsegments
    omega
  · have hsegments := congrArg List.length hpair
    simp [pairOf, markedParts] at hlength hsegments
    omega

/-- A pair before the path of a proxy. -/
def aheadParts : Parts := ⟨"https://kb.example", ["s", "ops", "proxy", "app"], none, none⟩

theorem readsAs_ahead : ReadsAs plainLibrary "https://kb.example/s/ops/proxy/app" aheadParts :=
  readsAs_plain ⟨"kb.example", "s/ops/proxy/app", none, none, by decide⟩
    (endsPlain_of_none rfl rfl) (by decide +kernel) (by decide +kernel)

/-- Where a pair was taken out, the next one is put elsewhere than where it stood. -/
theorem pair_moved :
    reads plainLibrary (kibanaUrlWithSpace plainLibrary (kibanaUrlWithSpace plainLibrary
        "https://kb.example/s/ops/proxy/app" (some "default")) (some "dev")) ≠
      reads plainLibrary (kibanaUrlWithSpace plainLibrary "https://kb.example/s/ops/proxy/app"
        (some "dev")) := by
  have hdefault : scopingSpace (some "default") = none := by decide +kernel
  have hdev : scopingSpace (some "dev") = some "dev" := by decide +kernel
  have hencoded : percentEncode plainLibrary.encodedInPath "dev" = "dev" := by decide +kernel
  have hsegment : ∀ space, scopingSpace (some "dev") = some space → isSegment space = true := by
    intro space hspace
    rw [hdev] at hspace
    obtain rfl := Option.some.inj hspace
    decide
  have hpair : Around aheadParts.segments [] ["proxy", "app"] :=
    @Around.pair [] ["proxy", "app"] "ops" (by decide) (by decide)
  have hset := readsAs_scoped plainLibrary_lawful (endsPlain_of_none rfl rfl) readsAs_ahead hpair
    hsegment
  have hdropped := readsAs_scoped plainLibrary_lawful (endsPlain_of_none rfl rfl) readsAs_ahead
    hpair (b := some "default") (by rw [hdefault]; exact nofun)
  rw [hdefault] at hdropped
  have hown : Around ["proxy", "app"] ["proxy"] ["app"] :=
    @Around.none ["proxy"] ["app"] (by decide) ⟨by decide, by decide⟩
  have hmoved := readsAs_scoped plainLibrary_lawful (endsPlain_of_none rfl rfl) hdropped hown
    hsegment
  rw [hmoved.1, hset.1, hdev, Option.map_some, hencoded, ne_eq, Option.some.injEq, Parts.mk.injEq]
  decide

/-- A mark at the end of a path is not kept; and where a pair was taken out, the next one is put
elsewhere than where it stood. -/
theorem places_not_kept :
    (ReadsAs plainLibrary "https://kb.example/proxy/s" markedParts ∧
      ¬KeepsRest plainLibrary "https://kb.example/proxy/s" markedParts (some "default")) ∧
    ReadsAs plainLibrary "https://kb.example/s/ops/proxy/app" aheadParts ∧
      reads plainLibrary (kibanaUrlWithSpace plainLibrary (kibanaUrlWithSpace plainLibrary
          "https://kb.example/s/ops/proxy/app" (some "default")) (some "dev")) ≠
        reads plainLibrary (kibanaUrlWithSpace plainLibrary "https://kb.example/s/ops/proxy/app"
          (some "dev")) :=
  ⟨⟨readsAs_marked, lastMark_dropped⟩, readsAs_ahead, pair_moved⟩

end Scoping

end Esdiag.KibanaSpaces
