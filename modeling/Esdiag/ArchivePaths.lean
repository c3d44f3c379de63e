import Esdiag.KibanaCollection
import Esdiag.TextParts

/-!
Where a collected file is placed: the name of its entry in a zip archive, and its
path below the directory of an export. Paths are taken apart as the standard
library of the platform does it, so a backslash separates on Windows only, while
the name of an archive entry is split at slashes and backslashes everywhere. The
collection, which makes its paths from components, places its files the same way.
-/

namespace Esdiag.ArchivePaths

/-- A text by its characters. -/
abbrev Chars := List Char

inductive Platform
  | unix
  | windows
  deriving DecidableEq, Repr

def Platform.isSeparator (platform : Platform) (c : Char) : Bool :=
  c == '/' || (platform == .windows && c == '\\')

inductive Component
  | pathPrefix
  | rootDir
  | curDir
  | parentDir
  | normal (segment : Chars)
  deriving DecidableEq, Repr

def dot : Chars := ['.']

def dotDot : Chars := ['.', '.']

/-- A drive letter and a colon in front. -/
def hasDrive : Chars → Bool
  | letter :: ':' :: _ => letter.isAlpha
  | _ => false

def componentOf (segment : Chars) : Option Component :=
  if segment = [] ∨ segment = dot then none
  else if segment = dotDot then some .parentDir
  else some (.normal segment)

/-- The components behind a drive: the root or a dot in front count, other dots and empty
segments do not. -/
def bodyComponents (platform : Platform) (path : Chars) : List Component :=
  let segments := path.splitOnP platform.isSeparator
  let start :=
    if path.head?.any platform.isSeparator then [.rootDir]
    else if segments.head? = some dot then [.curDir]
    else []
  start ++ segments.filterMap componentOf

/-- Two separators in front begin a prefix on Windows, unless no server and share follow; that
prefix stands here for a root, which is refused like it. -/
def components (platform : Platform) (path : Chars) : List Component :=
  if platform = .windows ∧ hasDrive path = true then
    .pathPrefix :: bodyComponents platform (path.drop 2)
  else bodyComponents platform path

def parentError (path : Chars) : String :=
  "Archive path cannot contain parent directory components: " ++ String.ofList path

def driveError (path : Chars) : String :=
  "Archive path cannot contain drive prefixes: " ++ String.ofList path

def rootError (path : Chars) : String :=
  "Archive path must be relative and without root/prefix: " ++ String.ofList path

def emptyError (path : Chars) : String := "Archive path is empty: " ++ String.ofList path

/-- The inner loop, over the parts of one component. -/
def pushPart (path : Chars) (parts : List Chars) (part : Chars) : Except String (List Chars) :=
  if part = [] ∨ part = dot then .ok parts
  else if part = dotDot then .error (parentError path)
  else if part.getLast? = some ':' then .error (driveError path)
  else .ok (parts ++ [part])

def slashed (segment : Chars) : Chars := segment.map fun c => if c = '\\' then '/' else c

def pushComponent (path : Chars) (parts : List Chars) : Component → Except String (List Chars)
  | .normal segment => ((slashed segment).splitOnP (· == '/')).foldlM (pushPart path) parts
  | .curDir => .ok parts
  | .parentDir => .error (parentError path)
  | .rootDir => .error (rootError path)
  | .pathPrefix => .error (rootError path)

def normalizeArchivePath (platform : Platform) (path : Chars) : Except String Chars := do
  let parts ← (components platform path).foldlM (pushComponent path) []
  if parts.isEmpty then .error (emptyError path) else return ['/'].intercalate parts

def Component.leavesRoot : Component → Bool
  | .pathPrefix | .rootDir | .parentDir => true
  | .curDir | .normal _ => false

def validateRelativeOutputPath (platform : Platform) (path : Chars) : Except String Unit :=
  if (components platform path).any Component.leavesRoot then
    .error ("Output path must be relative and remain within the destination directory: " ++
      String.ofList path)
  else .ok ()

def Component.name? : Component → Option Chars
  | .normal segment => some segment
  | _ => none

/-- The path below the directory of an export, by its names; `none` where the path is refused. -/
def directoryPlace (platform : Platform) (path : Chars) : Option (List Chars) :=
  if (validateRelativeOutputPath platform path).isOk then
    some ((components platform path).filterMap Component.name?)
  else none

/-- The names by which an archive entry is placed below the root of the archive. -/
def entryPlace (entry : Chars) : List Chars := entry.splitOnP (· == '/')

/-! ### What is accepted -/

def separates (c : Char) : Bool := c == '/' || c == '\\'

def isProper (segment : Chars) : Bool := segment ≠ [] ∧ segment ≠ dot

/-- The names in a path, whichever way it is separated. -/
def segments (path : Chars) : List Chars := (path.splitOnP separates).filter isProper

/-- A root or a drive in front. -/
def isRooted (platform : Platform) (path : Chars) : Bool :=
  path.head?.any platform.isSeparator || (platform == .windows && hasDrive path)

/-- The paths with a name, that stay below a relative root and name no drive. -/
structure Accepted (platform : Platform) (path : Chars) : Prop where
  relative : isRooted platform path = false
  named : segments path ≠ []
  noParent : dotDot ∉ segments path
  noDrive : ∀ segment ∈ segments path, segment.getLast? ≠ some ':'

/-- What one component adds to the parts. -/
def partsOf : Component → List Chars
  | .normal segment => segments segment
  | _ => []

theorem slashed_split (segment : Chars) :
    (slashed segment).splitOnP (· == '/') = segment.splitOnP separates := by
  have hclass : ((fun c : Char => c == '/') ∘ fun c => if c = '\\' then '/' else c) =
      separates := by
    funext c
    simp only [Function.comp_apply, separates]
    split_ifs with hc <;> simp [hc]
  rw [slashed, Texts.splitOnP_map, hclass]
  -- No backslash is left in a part.
  rw [List.map_congr_left (g := id), List.map_id]
  intro part hpart
  have hkept : ∀ c ∈ part, (if c = '\\' then '/' else c) = id c := by
    intro c hc
    have hsep := (Texts.exists_mem_splitOnP_iff.1 ⟨part, hpart, hc⟩).2
    rw [if_neg]
    · rfl
    · rintro rfl
      simp [separates] at hsep
  rw [List.map_congr_left hkept, List.map_id]
  rfl

theorem foldlM_pushPart_eq_ok_iff {path : Chars} {pieces parts out : List Chars} :
    pieces.foldlM (pushPart path) parts = .ok out ↔
      (∀ part ∈ pieces.filter isProper, part ≠ dotDot ∧ part.getLast? ≠ some ':') ∧
        out = parts ++ pieces.filter isProper := by
  induction pieces generalizing parts with
  | nil =>
    simp only [List.foldlM_nil, List.filter_nil, List.append_nil, List.not_mem_nil,
      false_imp_iff, implies_true, true_and]
    exact ⟨fun h => (Except.ok.inj h).symm, fun h => congrArg Except.ok h.symm⟩
  | cons part pieces ih =>
    rw [List.foldlM_cons]
    by_cases hproper : part = [] ∨ part = dot
    · have hskip : isProper part = false := by
        simp only [isProper, decide_eq_false_iff_not]
        tauto
      rw [List.filter_cons_of_neg (by simp [hskip]), ← ih, pushPart, if_pos hproper]
      rfl
    · have hkeep : isProper part = true := by
        simp only [isProper, decide_eq_true_eq]
        tauto
      rw [List.filter_cons_of_pos hkeep, pushPart, if_neg hproper, List.forall_mem_cons]
      by_cases hparent : part = dotDot
      · rw [if_pos hparent]
        exact ⟨nofun, fun h => absurd hparent h.1.1.1⟩
      · by_cases hdrive : part.getLast? = some ':'
        · rw [if_neg hparent, if_pos hdrive]
          exact ⟨nofun, fun h => absurd hdrive h.1.1.2⟩
        · rw [if_neg hparent, if_neg hdrive]
          change pieces.foldlM (pushPart path) (parts ++ [part]) = .ok out ↔ _
          rw [ih, List.append_assoc, List.singleton_append]
          exact and_congr_left fun _ => ⟨fun h => ⟨⟨hparent, hdrive⟩, h⟩, fun h => h.2⟩

/-- A part that is neither the parent directory nor ends like a drive. -/
def IsSafe (part : Chars) : Prop := part ≠ dotDot ∧ part.getLast? ≠ some ':'

theorem pushComponent_eq_ok_iff {path : Chars} {parts out : List Chars} {component : Component} :
    pushComponent path parts component = .ok out ↔
      component.leavesRoot = false ∧ (∀ part ∈ partsOf component, IsSafe part) ∧
        out = parts ++ partsOf component := by
  cases component with
  | normal segment =>
    rw [pushComponent, slashed_split, foldlM_pushPart_eq_ok_iff]
    simp only [Component.leavesRoot, true_and]
    rfl
  | curDir =>
    simp only [pushComponent, Component.leavesRoot, partsOf, List.append_nil, List.not_mem_nil,
      false_imp_iff, implies_true, true_and, Except.ok.injEq]
    exact eq_comm
  | parentDir | rootDir | pathPrefix => exact ⟨nofun, fun h => (Bool.noConfusion h.1)⟩

theorem foldlM_pushComponent_eq_ok_iff {path : Chars} {all : List Component}
    {parts out : List Chars} :
    all.foldlM (pushComponent path) parts = .ok out ↔
      (∀ component ∈ all, component.leavesRoot = false) ∧
      (∀ part ∈ all.flatMap partsOf, IsSafe part) ∧ out = parts ++ all.flatMap partsOf := by
  induction all generalizing parts with
  | nil =>
    simp only [List.foldlM_nil, List.flatMap_nil, List.append_nil, List.not_mem_nil,
      false_imp_iff, implies_true, true_and]
    exact ⟨fun h => (Except.ok.inj h).symm, fun h => congrArg Except.ok h.symm⟩
  | cons component all ih =>
    rw [List.foldlM_cons, List.flatMap_cons]
    cases hpush : pushComponent path parts component with
    | error message =>
      constructor
      · exact nofun
      · rintro ⟨hinside, hsafe, -⟩
        have hok : pushComponent path parts component = .ok (parts ++ partsOf component) :=
          pushComponent_eq_ok_iff.2 ⟨hinside component List.mem_cons_self,
            fun part hpart => hsafe part (List.mem_append_left _ hpart), rfl⟩
        rw [hpush] at hok
        cases hok
    | ok middle =>
      obtain ⟨hinside, hsafe, rfl⟩ := pushComponent_eq_ok_iff.1 hpush
      change all.foldlM (pushComponent path) (parts ++ partsOf component) = .ok out ↔ _
      rw [ih, List.append_assoc, List.forall_mem_cons]
      simp only [List.mem_append, or_imp, forall_and]
      tauto

theorem separates_of_isSeparator {platform : Platform} (c : Char)
    (h : platform.isSeparator c = true) : separates c = true := by
  unfold Platform.isSeparator at h
  unfold separates
  grind

theorem segments_eq_flatMap (platform : Platform) (path : Chars) :
    segments path = (path.splitOnP platform.isSeparator).flatMap segments := by
  unfold segments
  rw [← Texts.splitOnP_flatMap separates_of_isSeparator path, List.filter_flatMap]

theorem partsOf_componentOf {piece : Chars} (h : piece ≠ dotDot) :
    (componentOf piece).toList.flatMap partsOf = segments piece := by
  unfold componentOf
  split_ifs with hskip
  · rcases hskip with rfl | rfl <;> decide
  · exact List.flatMap_singleton partsOf _

/-- Component by component or at once, a path without parent components has the same parts. -/
theorem flatMap_partsOf_body {platform : Platform} {path : Chars}
    (h : dotDot ∉ path.splitOnP platform.isSeparator) :
    (bodyComponents platform path).flatMap partsOf = segments path := by
  have hstart (all : List Component) (hall : all = [.rootDir] ∨ all = [.curDir] ∨ all = []) :
      all.flatMap partsOf = [] := by
    rcases hall with rfl | rfl | rfl <;> rfl
  unfold bodyComponents
  dsimp only
  rw [List.flatMap_append, hstart _ (by split_ifs <;> simp), List.nil_append,
    List.filterMap_eq_flatMap_toList, List.flatMap_assoc, segments_eq_flatMap platform]
  apply List.flatMap_congr
  intro piece hpiece
  exact partsOf_componentOf fun heq => h (heq ▸ hpiece)

theorem inside_body_iff {platform : Platform} {path : Chars} :
    (∀ component ∈ bodyComponents platform path, component.leavesRoot = false) ↔
      path.head?.any platform.isSeparator = false ∧
        dotDot ∉ path.splitOnP platform.isSeparator := by
  unfold bodyComponents
  simp only [List.forall_mem_append]
  apply and_congr
  · split_ifs with hroot hdot
    · simp [hroot, Component.leavesRoot]
    · simp [hroot, Component.leavesRoot]
    · simp [hroot]
  · constructor
    · intro h hmem
      have hparent := h .parentDir (List.mem_filterMap.2 ⟨dotDot, hmem, by decide⟩)
      cases hparent
    · intro h component hcomponent
      obtain ⟨piece, hpiece, hof⟩ := List.mem_filterMap.1 hcomponent
      unfold componentOf at hof
      split_ifs at hof with hskip hparent
      · exact absurd (hparent ▸ hpiece) h
      · cases hof
        rfl

theorem components_of_not_drive {platform : Platform} {path : Chars}
    (h : isRooted platform path = false) :
    components platform path = bodyComponents platform path := by
  unfold isRooted at h
  unfold components
  rw [if_neg]
  rintro ⟨rfl, hdrive⟩
  simp [hdrive] at h

theorem inside_components_iff {platform : Platform} {path : Chars} :
    (∀ component ∈ components platform path, component.leavesRoot = false) ↔
      isRooted platform path = false ∧ dotDot ∉ path.splitOnP platform.isSeparator := by
  by_cases hrooted : isRooted platform path = false
  · rw [components_of_not_drive hrooted, inside_body_iff]
    have hhead : path.head?.any platform.isSeparator = false := (Bool.or_eq_false_iff.1 hrooted).1
    simp only [hrooted, hhead, true_and]
  · refine iff_of_false ?_ fun h => hrooted h.1
    unfold components
    split_ifs with hdrive
    · exact fun h => Bool.noConfusion (h .pathPrefix List.mem_cons_self)
    · intro h
      apply hrooted
      unfold isRooted
      rw [(inside_body_iff.1 h).1, Bool.false_or, Bool.and_eq_false_iff]
      grind

/-- A parent component is a segment too. -/
theorem dotDot_notMem_pieces {platform : Platform} {path : Chars} (h : dotDot ∉ segments path) :
    dotDot ∉ path.splitOnP platform.isSeparator := by
  intro hmem
  apply h
  rw [segments_eq_flatMap platform]
  exact List.mem_flatMap.2 ⟨dotDot, hmem, by decide⟩

theorem normalizeArchivePath_eq_ok_iff {platform : Platform} {path entry : Chars} :
    normalizeArchivePath platform path = .ok entry ↔
      Accepted platform path ∧ entry = ['/'].intercalate (segments path) := by
  unfold normalizeArchivePath
  constructor
  · intro h
    cases hparts : (components platform path).foldlM (pushComponent path) [] with
    | error message =>
      rw [hparts] at h
      cases h
    | ok parts =>
      obtain ⟨hinside, hsafe, hout⟩ := foldlM_pushComponent_eq_ok_iff.1 hparts
      obtain ⟨hrooted, hpieces⟩ := inside_components_iff.1 hinside
      rw [components_of_not_drive hrooted, flatMap_partsOf_body hpieces] at hsafe hout
      rw [List.nil_append] at hout
      subst hout
      rw [hparts] at h
      change (if (segments path).isEmpty then .error (emptyError path)
        else .ok (['/'].intercalate (segments path))) = Except.ok entry at h
      split_ifs at h with hempty
      refine ⟨⟨hrooted, ?_, fun hmem => (hsafe _ hmem).1 rfl, fun s hs => (hsafe s hs).2⟩,
        (Except.ok.inj h).symm⟩
      simpa [List.isEmpty_iff] using hempty
  · rintro ⟨⟨hrooted, hnamed, hparent, hdrive⟩, rfl⟩
    have hpieces := @dotDot_notMem_pieces platform path hparent
    have hparts : (components platform path).foldlM (pushComponent path) [] =
        .ok (segments path) := by
      refine foldlM_pushComponent_eq_ok_iff.2
        ⟨inside_components_iff.2 ⟨hrooted, hpieces⟩, ?_, ?_⟩ <;>
      rw [components_of_not_drive hrooted, flatMap_partsOf_body hpieces]
      · exact fun part hpart => ⟨fun heq => hparent (heq ▸ hpart), hdrive part hpart⟩
      · rfl
    rw [hparts]
    change (if (segments path).isEmpty then _ else _) = _
    rw [if_neg (by simpa [List.isEmpty_iff] using hnamed)]
    rfl

/-! ### Segments and entries -/

theorem segment_chars {path segment : Chars} (h : segment ∈ segments path) :
    ∀ c ∈ segment, c ∈ path ∧ separates c = false := by
  intro c hc
  exact Texts.exists_mem_splitOnP_iff.1 ⟨segment, (List.mem_filter.1 h).1, hc⟩

theorem segment_proper {path segment : Chars} (h : segment ∈ segments path) :
    segment ≠ [] ∧ segment ≠ dot := by
  simpa [isProper] using (List.mem_filter.1 h).2

theorem segments_intercalate {parts : List Chars} (hne : parts ≠ [])
    (hproper : ∀ part ∈ parts, part ≠ [] ∧ part ≠ dot)
    (hparts : ∀ part ∈ parts, ∀ c ∈ part, separates c = false) :
    segments (['/'].intercalate parts) = parts := by
  rw [segments, Texts.splitOnP_intercalate rfl hne hparts, List.filter_eq_self]
  intro part hpart
  simpa [isProper] using hproper part hpart

theorem entryPlace_intercalate {parts : List Chars} (hne : parts ≠ [])
    (hparts : ∀ part ∈ parts, ∀ c ∈ part, separates c = false) :
    entryPlace (['/'].intercalate parts) = parts := by
  apply Texts.splitOnP_intercalate rfl hne
  intro part hpart c hc
  exact (Bool.or_eq_false_iff.1 (hparts part hpart c hc)).1

theorem hasDrive_intercalate {first : Chars} (rest : List Chars) (hfirst : first ≠ []) :
    hasDrive (['/'].intercalate (first :: rest)) = hasDrive first := by
  obtain ⟨tail, htail, hslash⟩ := Texts.exists_intercalate_eq '/' first rest
  rw [htail]
  match first, tail with
  | [], _ => exact absurd rfl hfirst
  | [letter], [] => rfl
  | [letter], c :: tail =>
    have hc : c = '/' := by simpa using hslash
    subst hc
    rfl
  | letter :: second :: more, tail =>
    by_cases hcolon : second = ':'
    · subst hcolon
      rfl
    · unfold hasDrive
      grind

theorem head_intercalate {first : Chars} (rest : List Chars) (hfirst : first ≠ []) :
    (['/'].intercalate (first :: rest)).head? = first.head? := by
  obtain ⟨tail, htail, -⟩ := Texts.exists_intercalate_eq '/' first rest
  obtain ⟨letter, more, rfl⟩ := List.exists_cons_of_ne_nil hfirst
  rw [htail]
  rfl

/-! ### Places -/

theorem validate_eq_ok_iff {platform : Platform} {path : Chars} :
    validateRelativeOutputPath platform path = .ok () ↔
      ∀ component ∈ components platform path, component.leavesRoot = false := by
  unfold validateRelativeOutputPath
  split_ifs with hany
  · refine iff_of_false nofun fun h => ?_
    obtain ⟨component, hmem, hleaves⟩ := List.any_eq_true.1 hany
    rw [h component hmem] at hleaves
    cases hleaves
  · refine iff_of_true rfl fun component hmem => ?_
    rw [List.any_eq_true] at hany
    exact eq_false_of_ne_true fun hleaves => hany ⟨component, hmem, hleaves⟩

theorem name_componentOf {piece : Chars} (h : piece ≠ dotDot) :
    (componentOf piece).bind Component.name? = if isProper piece then some piece else none := by
  unfold componentOf
  by_cases hskip : piece = [] ∨ piece = dot
  · have himproper : isProper piece = false := by
      rcases hskip with rfl | rfl <;> rfl
    rw [if_pos hskip, himproper]
    rfl
  · have hproper : isProper piece = true := by
      simp only [isProper, decide_eq_true_eq]
      tauto
    rw [if_neg hskip, if_neg h, hproper]
    rfl

/-- A path that is not refused is placed by its proper pieces. -/
theorem directoryPlace_eq {platform : Platform} {path : Chars}
    (hrooted : isRooted platform path = false)
    (hpieces : dotDot ∉ path.splitOnP platform.isSeparator) :
    directoryPlace platform path =
      some ((path.splitOnP platform.isSeparator).filter isProper) := by
  have hvalid := validate_eq_ok_iff.2 (inside_components_iff.2 ⟨hrooted, hpieces⟩)
  have hstart (all : List Component) (hall : all = [.rootDir] ∨ all = [.curDir] ∨ all = []) :
      all.filterMap Component.name? = [] := by
    rcases hall with rfl | rfl | rfl <;> rfl
  unfold directoryPlace
  rw [hvalid, components_of_not_drive hrooted]
  change some _ = some _
  rw [bodyComponents, List.filterMap_append, List.filterMap_filterMap,
    hstart _ (by split_ifs <;> simp), List.nil_append, ← List.filterMap_eq_filter]
  congr 1
  apply List.filterMap_congr
  intro piece hpiece
  rw [name_componentOf fun heq => hpieces (heq ▸ hpiece)]
  rfl

/-- What a good entry is: a relative name of proper parts, a fixed point, and placed where the
directory exporter places the path. -/
structure Contained (platform : Platform) (path entry : Chars) : Prop where
  nonempty : entry ≠ []
  relative : isRooted platform entry = false
  names : ∀ name ∈ entryPlace entry, name ≠ [] ∧ name ≠ dot ∧ name ≠ dotDot
  noDrive : hasDrive entry = false
  normal : normalizeArchivePath platform entry = .ok entry
  valid : validateRelativeOutputPath platform entry = .ok ()
  samePlace : directoryPlace platform path = some (entryPlace entry)
  entryPlaced : directoryPlace platform entry = some (entryPlace entry)

/-- No segment begins with a drive, and on Unix no backslash stands in a name. -/
structure Portable (platform : Platform) (path : Chars) : Prop where
  noBackslash : platform = .unix → '\\' ∉ path
  noDrive : (segments path).head?.any hasDrive = false

section Entries

variable {platform : Platform} {path : Chars}

theorem accepted_entry (h : Accepted platform path) :
    segments (['/'].intercalate (segments path)) = segments path ∧
      entryPlace (['/'].intercalate (segments path)) = segments path :=
  ⟨segments_intercalate h.named (fun _ hpart => segment_proper hpart)
      fun _ hpart c hc => (segment_chars hpart c hc).2,
    entryPlace_intercalate h.named fun _ hpart c hc => (segment_chars hpart c hc).2⟩

/-- The drive of an entry is that of its first segment, and nothing else could root it. -/
theorem isRooted_entry (h : Accepted platform path)
    (hdrive : (segments path).head?.any hasDrive = false) :
    hasDrive (['/'].intercalate (segments path)) = false ∧
      isRooted platform (['/'].intercalate (segments path)) = false := by
  obtain ⟨first, rest, hsegments⟩ := List.exists_cons_of_ne_nil h.named
  have hmem : first ∈ segments path := hsegments ▸ List.mem_cons_self
  have hfirst := (segment_proper hmem).1
  have hletter : first.head?.any platform.isSeparator = false := by
    obtain ⟨c, more, rfl⟩ := List.exists_cons_of_ne_nil hfirst
    by_contra hsep
    have hc := (segment_chars hmem c List.mem_cons_self).2
    rw [separates_of_isSeparator c (by simpa using hsep)] at hc
    cases hc
  rw [hsegments] at hdrive ⊢
  have hdriveFirst : hasDrive first = false := hdrive
  unfold isRooted
  rw [hasDrive_intercalate rest hfirst, head_intercalate rest hfirst, hletter, hdriveFirst]
  exact ⟨rfl, by rw [Bool.and_false, Bool.or_false]⟩

theorem pieces_eq_segments (h : platform = .unix → '\\' ∉ path) :
    (path.splitOnP platform.isSeparator).filter isProper = segments path := by
  unfold segments
  congr 1
  apply Texts.splitOnP_congr
  intro c hc
  cases platform with
  | windows => rfl
  | unix =>
    have hbackslash : (c == '\\') = false := by
      rw [beq_eq_false_iff_ne]
      exact fun heq => h rfl (heq ▸ hc)
    rw [Platform.isSeparator, separates, hbackslash, Bool.and_false]

theorem contained_of_portable (h : Accepted platform path) (hportable : Portable platform path) :
    Contained platform path (['/'].intercalate (segments path)) := by
  obtain ⟨hsegments, hplace⟩ := accepted_entry h
  obtain ⟨hdrive, hrooted⟩ := isRooted_entry h hportable.noDrive
  have haccepted : Accepted platform (['/'].intercalate (segments path)) := by
    refine ⟨hrooted, ?_, ?_, ?_⟩ <;> rw [hsegments]
    · exact h.named
    · exact h.noParent
    · exact h.noDrive
  have hpieces := @dotDot_notMem_pieces platform _ haccepted.noParent
  have hclean : platform = .unix → '\\' ∉ ['/'].intercalate (segments path) := by
    rintro - hmem
    obtain ⟨part, hpart, hc⟩ :=
      (@Texts.exists_mem_splitOnP_iff _ (· == '/') _ '\\').2 ⟨hmem, rfl⟩
    have hseparates := (segment_chars (hplace ▸ hpart : part ∈ segments path) _ hc).2
    cases hseparates
  constructor
  · intro hempty
    rw [hempty] at hsegments
    exact h.named hsegments.symm
  · exact hrooted
  · rw [hplace]
    intro name hname
    obtain ⟨hnil, hdot⟩ := segment_proper hname
    exact ⟨hnil, hdot, fun heq => h.noParent (heq ▸ hname)⟩
  · exact hdrive
  · rw [normalizeArchivePath_eq_ok_iff, hsegments]
    exact ⟨haccepted, rfl⟩
  · exact validate_eq_ok_iff.2 (inside_components_iff.2 ⟨hrooted, hpieces⟩)
  · rw [directoryPlace_eq h.relative (dotDot_notMem_pieces h.noParent),
      pieces_eq_segments hportable.noBackslash, hplace]
  · rw [directoryPlace_eq hrooted hpieces, pieces_eq_segments hclean, hsegments, hplace]

theorem portable_of_contained (h : Accepted platform path)
    (hcontained : Contained platform path (['/'].intercalate (segments path))) :
    Portable platform path := by
  obtain ⟨-, hplace⟩ := accepted_entry h
  constructor
  · rintro rfl hmem
    -- A piece with the backslash would be a name of the directory, and no segment has one.
    have hsame := hcontained.samePlace
    rw [directoryPlace_eq h.relative (dotDot_notMem_pieces h.noParent), hplace] at hsame
    obtain ⟨piece, hpiece, hc⟩ := Texts.exists_mem_splitOnP_iff.2
      ⟨hmem, (rfl : Platform.unix.isSeparator '\\' = false)⟩
    have hproper : isProper piece = true := by
      simp only [isProper, decide_eq_true_eq]
      constructor <;> rintro rfl
      · cases hc
      · exact absurd hc (by decide)
    have hsegment : piece ∈ segments path :=
      Option.some.inj hsame ▸ List.mem_filter.2 ⟨hpiece, hproper⟩
    have hseparates := (segment_chars hsegment _ hc).2
    cases hseparates
  · have hdrive := hcontained.noDrive
    obtain ⟨first, rest, hsegments⟩ := List.exists_cons_of_ne_nil h.named
    have hfirst := (segment_proper (hsegments ▸ List.mem_cons_self : first ∈ segments path)).1
    rw [hsegments, hasDrive_intercalate rest hfirst] at hdrive
    rw [hsegments]
    exact hdrive

/-- The entries of the archive are contained, and placed where the directory exporter places
them, exactly for paths that are refused or portable. -/
theorem entries_contained_iff (platform : Platform) (path : Chars) :
    (∀ entry, normalizeArchivePath platform path = .ok entry → Contained platform path entry) ↔
      (Accepted platform path → Portable platform path) := by
  constructor
  · intro h haccepted
    exact portable_of_contained haccepted
      (h _ (normalizeArchivePath_eq_ok_iff.2 ⟨haccepted, rfl⟩))
  · intro h entry hentry
    obtain ⟨haccepted, rfl⟩ := normalizeArchivePath_eq_ok_iff.1 hentry
    exact contained_of_portable haccepted (h haccepted)

end Entries

/-- A drive-relative name passes where drives are refused, and a name with a backslash is one
file in a directory and two levels in the archive. -/
theorem drive_relative_passes :
    normalizeArchivePath .unix "C:nodes.json".toList = .ok "C:nodes.json".toList ∧
    normalizeArchivePath .windows "./C:nodes.json".toList = .ok "C:nodes.json".toList ∧
    normalizeArchivePath .windows "C:nodes.json".toList = .error (rootError "C:nodes.json".toList) ∧
    normalizeArchivePath .unix "api\\stats.json".toList = .ok "api/stats.json".toList ∧
    directoryPlace .unix "api\\stats.json".toList = some ["api\\stats.json".toList] := by
  decide +kernel

/-! ### The paths of a collection -/

section Collection

open KibanaCollection (Path)

/-- A path as it is written, from its components. -/
def written (path : Path) : Chars := ['/'].intercalate (path.map String.toList)

variable {path : Path}

theorem pieces_written (hplain : ∀ segment ∈ path, '/' ∉ segment.toList) (hne : path ≠ []) :
    (written path).splitOnP Platform.unix.isSeparator = path.map String.toList := by
  apply Texts.splitOnP_intercalate rfl (by simpa using hne)
  intro part hpart c hc
  obtain ⟨segment, hsegment, rfl⟩ := List.mem_map.mp hpart
  have hslash : c ≠ '/' := fun heq => hplain segment hsegment (heq ▸ hc)
  simp [Platform.isSeparator, hslash]

theorem isProper_toList (segment : String) :
    isProper segment.toList = decide (segment ≠ "" ∧ segment ≠ ".") := by
  have hdot : dot = ".".toList := rfl
  simp only [isProper, hdot, ne_eq, String.toList_eq_nil_iff, String.toList_inj]

theorem map_components (path : Path) :
    (KibanaCollection.components path).map String.toList =
      (path.map String.toList).filter isProper := by
  rw [KibanaCollection.components, List.filter_map]
  congr 1
  apply List.filter_congr
  intro segment _
  exact (isProper_toList segment).symm

theorem segments_toList (segment : String) :
    (KibanaCollection.components
        (Texts.split '/' (String.ofList (slashed segment.toList)))).map String.toList =
      segments segment.toList := by
  have hid : String.toList ∘ String.ofList = id := funext fun _ => String.toList_ofList
  rw [map_components, Texts.split, String.toList_ofList, Texts.splitList_eq_splitOnP, slashed_split,
    List.map_map, hid, List.map_id, segments]

theorem segments_written (hplain : ∀ segment ∈ path, '/' ∉ segment.toList) :
    segments (written path) =
      (KibanaCollection.components (path.flatMap fun segment =>
        Texts.split '/' (String.ofList (slashed segment.toList)))).map String.toList := by
  rcases eq_or_ne path [] with rfl | hne
  · rfl
  · rw [segments_eq_flatMap .unix, pieces_written hplain hne, List.flatMap_map, map_components,
      List.map_flatMap, List.filter_flatMap]
    apply List.flatMap_congr
    intro segment _
    rw [← segments_toList, map_components]

theorem getLast?_eq_colon_iff (part : String) :
    part.toList.getLast? = some ':' ↔ Texts.endsWith part ":" = true := by
  rw [Texts.endsWith, List.isSuffixOf_iff_suffix, List.getLast?_eq_some_iff]
  constructor
  · rintro ⟨before, hbefore⟩
    exact ⟨before, hbefore.symm⟩
  · rintro ⟨before, hbefore⟩
    exact ⟨before, hbefore.symm⟩

theorem dotDot_mem_map (path : Path) : dotDot ∈ path.map String.toList ↔ ".." ∈ path := by
  have hdot : dotDot = "..".toList := rfl
  rw [hdot]
  exact List.mem_map_of_injective fun _ _ => String.toList_inj.mp

theorem accepted_iff {parts : Path} (hrelative : isRooted .unix (written path) = false)
    (hsegments : segments (written path) = parts.map String.toList) :
    Accepted .unix (written path) ↔
      ".." ∉ parts ∧ parts ≠ [] ∧ ∀ part ∈ parts, Texts.endsWith part ":" = false := by
  have hparent : dotDot ∈ segments (written path) ↔ ".." ∈ parts := by
    rw [hsegments, dotDot_mem_map]
  have hdrive : (∀ segment ∈ segments (written path), segment.getLast? ≠ some ':') ↔
      ∀ part ∈ parts, Texts.endsWith part ":" = false := by
    rw [hsegments, List.forall_mem_map]
    simp only [ne_eq, getLast?_eq_colon_iff, Bool.not_eq_true]
  have hnamed : segments (written path) ≠ [] ↔ parts ≠ [] := by
    rw [hsegments, ne_eq, List.map_eq_nil_iff]
  constructor
  · intro h
    exact ⟨fun hmem => h.noParent (hparent.mpr hmem), hnamed.mp h.named, hdrive.mp h.noDrive⟩
  · rintro ⟨hnot, hne, hplain⟩
    exact ⟨hrelative, hnamed.mpr hne, fun hmem => hnot (hparent.mp hmem), hdrive.mpr hplain⟩

/-- On relative paths the collection names an entry as the archive does. -/
theorem normalizeArchivePath_written (hplain : ∀ segment ∈ path, '/' ∉ segment.toList)
    (hrelative : isRooted .unix (written path) = false) :
    (normalizeArchivePath .unix (written path)).toOption =
      (KibanaCollection.normalizeArchivePath path).map written := by
  have hsegments := segments_written hplain
  have haccepted := accepted_iff hrelative hsegments
  unfold KibanaCollection.normalizeArchivePath
  dsimp only
  split_ifs with hrefused
  · cases hresult : normalizeArchivePath .unix (written path) with
    | error message => rfl
    | ok entry =>
      obtain ⟨hparent, hne, hdrive⟩ := haccepted.mp (normalizeArchivePath_eq_ok_iff.mp hresult).1
      rcases hrefused with hmem | hnil | hany
      · exact absurd hmem hparent
      · exact absurd hnil hne
      · obtain ⟨part, hpart, hends⟩ := List.any_eq_true.mp hany
        rw [hdrive part hpart] at hends
        cases hends
  · simp only [not_or] at hrefused
    obtain ⟨hparent, hne, hdrive⟩ := hrefused
    have hok : normalizeArchivePath .unix (written path) =
        .ok (['/'].intercalate (segments (written path))) := by
      refine normalizeArchivePath_eq_ok_iff.mpr ⟨haccepted.mpr ⟨hparent, hne, ?_⟩, rfl⟩
      exact fun part hpart => eq_false_of_ne_true fun hends =>
        hdrive (List.any_eq_true.mpr ⟨part, hpart, hends⟩)
    rw [hok, hsegments]
    rfl

/-- On relative paths the collection places a file where the directory export does. -/
theorem directoryPlace_written (hplain : ∀ segment ∈ path, '/' ∉ segment.toList)
    (hrelative : isRooted .unix (written path) = false) :
    directoryPlace .unix (written path) =
      (KibanaCollection.validateRelativeOutputPath path).map (List.map String.toList) := by
  rcases eq_or_ne path [] with rfl | hne
  · rfl
  have hpieces := pieces_written hplain hne
  have hparent := dotDot_mem_map path
  unfold KibanaCollection.validateRelativeOutputPath
  split_ifs with hmem
  · have hinvalid : (validateRelativeOutputPath .unix (written path)).isOk = false := by
      cases hvalid : validateRelativeOutputPath .unix (written path) with
      | error message => rfl
      | ok _ =>
        refine absurd (hpieces ▸ hparent.mpr hmem) ?_
        exact (inside_components_iff.mp (validate_eq_ok_iff.mp hvalid)).2
    rw [directoryPlace, hinvalid]
    rfl
  · rw [directoryPlace_eq hrelative (hpieces ▸ fun h => hmem (hparent.mp h)), hpieces,
      ← map_components]
    rfl

end Collection

end Esdiag.ArchivePaths
