import Esdiag.AgentLocations
import Esdiag.DelimitedSpans

/-!
The links of an answer, whose targets are relative to the root of the viewer. The text
between the targets is kept, and a target that is rewritten is absolute afterwards. A
target is taken apart at its number sign only, and without one it keeps its slash: which
targets come out with their own path, query and fragment is read off the target.
-/
namespace Esdiag.RelativeLinks

open Texts WebUrls AgentLocations DelimitedSpans

variable {Url : Type} (lib : Library Url) (location : AgentBuilderLocation Url)

/-- What opens the target of a link. -/
def linkStart : List Char := [']', '(']

/-- A target without the angle brackets around it. -/
def unbracketed (target : List Char) : List Char :=
  match target with
  | '<' :: rest => if rest.getLast? = some '>' then rest.dropLast else target
  | _ => target

def resolveTarget (target : List Char) : List Char :=
  if (unbracketed target).head? = some '/' then
    (location.resolveLink lib (String.ofList (unbracketed target))).toList
  else target

/-- The text that the loop adds from a remainder on. -/
def resolveFrom (remainder : List Char) : List Char :=
  match _hopen : splitAtPart linkStart remainder with
  | none => remainder
  | some (before, after) =>
    match _hclose : splitOnceList ')' after with
    | none => remainder
    | some (target, rest) =>
      before ++ (linkStart ++ (resolveTarget lib location target ++ ')' :: resolveFrom rest))
termination_by remainder.length
decreasing_by exact length_rest_lt _hopen _hclose

def resolveRelativeLinks (message : String) : String :=
  String.ofList (resolveFrom lib location message.toList)

/-- The loop rewrites the targets and keeps the text between them. -/
theorem resolveFrom_eq (message : List Char) :
    resolveFrom lib location message =
      rewriteSpans linkStart ')' (resolveTarget lib location) message := by
  rw [rewriteSpans]
  refine spansOf_induct (motive := fun text found => resolveFrom lib location text =
    textOf linkStart ')' (found.1.map (Span.map (resolveTarget lib location))) found.2)
    ?finished ?found message
  case finished =>
    intro text hnone
    unfold resolveFrom
    split
    · rfl
    · rename_i hopen
      split
      · rfl
      · rename_i hclose
        rw [hnone _ _ hopen] at hclose
        cases hclose
  case found =>
    intro text before after target rest hopen hclose ih
    rw [List.map_cons, textOf, ← ih, resolveFrom.eq_def]
    split
    · rename_i hfound
      rw [hopen] at hfound
      cases hfound
    · rename_i hfound
      obtain ⟨rfl, rfl⟩ := Prod.mk.inj (Option.some.inj (hopen.symm.trans hfound))
      split
      · rename_i hrest
        rw [hclose] at hrest
        cases hrest
      · rename_i hrest
        obtain ⟨rfl, rfl⟩ := Prod.mk.inj (Option.some.inj (hclose.symm.trans hrest))
        rfl

section Targets

/-- The URL on the viewer's origin and base path with the path, query and fragment of a target. -/
def absoluteUrl (target : String) : Url :=
  let marked := splitMark '#' target
  let parts := splitMark '?' marked.1
  let base := trimEndSlashes (lib.path location.viewer)
  lib.setFragment (lib.setQuery (lib.setPath location.viewer (base ++ parts.1)) parts.2) marked.2

/-- One slash begins a path from the root, two begin another host. -/
def isRootRelative : List Char → Bool
  | '/' :: '/' :: _ => false
  | '/' :: _ => true
  | _ => false

def absoluteTarget (target : List Char) : List Char :=
  if isRootRelative (unbracketed target) then
    (lib.display (absoluteUrl lib location (String.ofList (unbracketed target)))).toList
  else target

def linkTargets (message : String) : List (List Char) :=
  (spansOf linkStart ')' message.toList).1.map Span.content

structure LinksExact (message : String) : Prop where
  rewritten : (resolveRelativeLinks lib location message).toList =
    rewriteSpans linkStart ')' (absoluteTarget lib location) message.toList
  again : resolveRelativeLinks lib location (resolveRelativeLinks lib location message) =
    resolveRelativeLinks lib location message

/-- One slash, a path without a query and a fragment that is not empty. -/
def SplitsExactly (target : List Char) : Prop :=
  ∃ path fragment, target = '/' :: (path ++ '#' :: fragment) ∧ path.head? ≠ some '/' ∧
    '#' ∉ path ∧ '?' ∉ path ∧ fragment ≠ []

structure Rewritable (message : String) : Prop where
  targets : ∀ target ∈ linkTargets message, (unbracketed target).head? = some '/' →
    SplitsExactly (unbracketed target)
  viewer : (∃ target ∈ linkTargets message, (unbracketed target).head? = some '/') →
    ')' ∉ (lib.display location.viewer).toList

/-- The targets from the root have no segments that a path would change. -/
def SettledTargets (message : String) : Prop :=
  ∀ target ∈ linkTargets message, (unbracketed target).head? = some '/' →
    ∀ segment ∈ split '/' (String.ofList (unbracketed target)), isSegment segment = true

variable {lib location} (lawful : Lawful lib) {target : List Char}

theorem subset_of_unbracketed (target : List Char) : unbracketed target ⊆ target := by
  unfold unbracketed
  split
  · split
    · exact fun c hc => List.mem_cons_of_mem _ (List.dropLast_subset _ hc)
    · exact List.Subset.refl _
  · exact List.Subset.refl _

variable (lib location) in
/-- The path that a link is resolved to, without its base. -/
theorem resolveLink_eq (path : String) :
    ∃ parts, (splitOnce '#' (trimStartSlashes path)).getD (path, "") = parts ∧
      location.resolveLink lib path =
        lib.display
          (if parts.2 != "" then
            lib.setFragment (lib.setPath location.viewer
              (trimEndSlashes (lib.path location.viewer) ++ "/" ++ parts.1)) (some parts.2)
          else lib.setPath location.viewer
            (trimEndSlashes (lib.path location.viewer) ++ "/" ++ parts.1)) := by
  refine ⟨_, rfl, ?_⟩
  unfold AgentBuilderLocation.resolveLink
  simp only
  by_cases hbase : trimEndSlashes (lib.path location.viewer) = ""
  · rw [if_pos (Or.inl hbase), hbase, String.empty_append]
  · rw [if_neg (not_or.mpr ⟨hbase, trimEndSlashes_ne_slash _⟩)]

theorem notMem_linkParts {path : String} {c : Char} (h : c ∉ path.toList) :
    c ∉ ((splitOnce '#' (trimStartSlashes path)).getD (path, "")).1.toList ∧
      c ∉ ((splitOnce '#' (trimStartSlashes path)).getD (path, "")).2.toList := by
  have htrimmed : c ∉ (trimStartSlashes path).toList := by
    rw [trimStartSlashes, String.toList_ofList]
    exact fun hmem => h ((List.dropWhile_sublist _).subset hmem)
  unfold splitOnce
  cases hsplit : splitOnceList '#' (trimStartSlashes path).toList with
  | none => exact ⟨h, by simp⟩
  | some parts =>
    rw [(splitOnceList_eq_some hsplit).1, List.mem_append, List.mem_cons, not_or, not_or]
      at htrimmed
    exact ⟨by simpa using htrimmed.1, by simpa using htrimmed.2.2⟩

theorem trimStartSlashes_cons {path : List Char} (h : path.head? ≠ some '/') :
    trimStartSlashes (String.ofList ('/' :: path)) = String.ofList path := by
  rw [trimStartSlashes, String.toList_ofList, List.dropWhile_cons_of_pos (by decide)]
  cases path with
  | nil => rfl
  | cons c rest =>
    rw [List.dropWhile_cons_of_neg (by simpa using h)]

include lawful

/-- A target that splits exactly comes out with its own path and fragment. -/
theorem resolveLink_of_splits (hquery : lib.query location.viewer = none)
    (h : SplitsExactly target) :
    location.resolveLink lib (String.ofList target) =
      lib.display (absoluteUrl lib location (String.ofList target)) := by
  obtain ⟨path, fragment, rfl, hhead, hmark, hquestion, hne⟩ := h
  have hstart : (path ++ '#' :: fragment).head? ≠ some '/' := by
    cases path with
    | nil => simp
    | cons c rest => simpa using hhead
  obtain ⟨parts, hparts, hresolved⟩ := resolveLink_eq lib location
    (String.ofList ('/' :: (path ++ '#' :: fragment)))
  rw [trimStartSlashes_cons hstart, splitOnce, String.toList_ofList,
    splitOnceList_append _ hmark] at hparts
  obtain rfl : (String.ofList path, String.ofList fragment) = parts := hparts
  have hfragment : (String.ofList fragment != "") = true := by
    simpa [← String.toList_inj] using hne
  have hpath : ∀ base : String, base ++ String.ofList ('/' :: path) =
      base ++ "/" ++ String.ofList path := by
    intro base
    apply String.toList_inj.mp
    simp
  have hmarked := splitMark_ofList_append fragment
    (show '#' ∉ '/' :: path by simpa using hmark)
  have hparted := splitMark_ofList_of_notMem (show '?' ∉ '/' :: path by simpa using hquestion)
  rw [List.cons_append] at hmarked
  rw [hresolved, absoluteUrl, hmarked]
  simp only [hparted, hfragment, if_true, hpath]
  rw [lawful.setQuery_none (by rw [lawful.query_setPath, hquery])]

/-- A URL set on the viewer has no closing bracket that neither the viewer nor the parts have. -/
theorem paren_notMem_display (hviewer : ')' ∉ (lib.display location.viewer).toList)
    {path : String} (hpath : ')' ∉ path.toList) {url : Url}
    (hbefore : lib.beforePath url = lib.beforePath location.viewer)
    (hset : lib.path url = lib.path (lib.setPath location.viewer
      (trimEndSlashes (lib.path location.viewer) ++ path)))
    (hurlQuery : ∀ query, lib.query url = some query → ')' ∉ query.toList)
    (hurlFragment : ∀ fragment, lib.fragment url = some fragment → ')' ∉ fragment.toList) :
    ')' ∉ (lib.display url).toList := by
  obtain ⟨hviewerBefore, hviewerPath⟩ := lawful.notMem_of_notMem_display hviewer
  refine lawful.notMem_display (by decide) (hbefore ▸ hviewerBefore) ?_ hurlQuery hurlFragment
  rw [hset]
  intro hmem
  rcases lawful.mem_path_setPath _ _ _ hmem with htext | hslash | hpercent
  · rw [String.toList_append, List.mem_append] at htext
    rcases htext with hbase | hrest
    · exact hviewerPath (mem_of_mem_trimEndSlashes hbase)
    · exact hpath hrest
  · exact absurd hslash (by decide)
  · exact absurd hpercent (by decide)

section Brackets

variable (hviewer : ')' ∉ (lib.display location.viewer).toList)
  (hquery : lib.query location.viewer = none) (hfragment : lib.fragment location.viewer = none)
include hviewer hquery hfragment

theorem paren_notMem_resolveTarget (h : ')' ∉ target) :
    ')' ∉ resolveTarget lib location target := by
  unfold resolveTarget
  split
  · have hpath : ')' ∉ (String.ofList (unbracketed target)).toList := by
      rw [String.toList_ofList]
      exact fun hmem => h (subset_of_unbracketed target hmem)
    obtain ⟨parts, hparts, hresolved⟩ := resolveLink_eq lib location
      (String.ofList (unbracketed target))
    have hnot := notMem_linkParts hpath
    rw [hparts] at hnot
    have hrest : ')' ∉ ("/" ++ parts.1).toList := by simpa using hnot.1
    rw [hresolved, String.append_assoc]
    split
    · refine paren_notMem_display lawful hviewer hrest ?_
        (lawful.path_setFragment _ _) ?_ ?_
      · rw [lawful.beforePath_setFragment, lawful.beforePath_setPath]
      · intro query hset
        rw [lawful.query_setFragment, lawful.query_setPath, hquery] at hset
        cases hset
      · intro fragment hset hmem
        rcases lawful.mem_fragment_setFragment _ _ _ hset _ hmem with htext | hpercent
        · exact hnot.2 htext
        · exact absurd hpercent (by decide)
    · refine paren_notMem_display lawful hviewer hrest
        (lawful.beforePath_setPath _ _) rfl ?_ ?_
      · intro query hset
        rw [lawful.query_setPath, hquery] at hset
        cases hset
      · intro fragment hset
        rw [lawful.fragment_setPath, hfragment] at hset
        cases hset
  · exact h

omit hquery hfragment in
theorem paren_notMem_absoluteTarget (h : ')' ∉ target) :
    ')' ∉ absoluteTarget lib location target := by
  unfold absoluteTarget
  split
  · have hpath : ')' ∉ (String.ofList (unbracketed target)).toList := by
      rw [String.toList_ofList]
      exact fun hmem => h (subset_of_unbracketed target hmem)
    obtain ⟨hmarked, hafter⟩ := @notMem_splitMark '#' _ _ hpath
    obtain ⟨hparted, hquestion⟩ := @notMem_splitMark '?' _ _ hmarked
    refine paren_notMem_display lawful hviewer hparted ?_ ?_ ?_ ?_
    · rw [absoluteUrl, lawful.beforePath_setFragment, lawful.beforePath_setQuery,
        lawful.beforePath_setPath]
    · rw [absoluteUrl, lawful.path_setFragment, lawful.path_setQuery]
    · intro query hset hmem
      rw [absoluteUrl, lawful.query_setFragment] at hset
      cases hpart : (splitMark '?' (splitMark '#'
          (String.ofList (unbracketed target))).1).2 with
      | none =>
        rw [hpart, lawful.query_setQuery_none] at hset
        cases hset
      | some text =>
        rw [hpart] at hset
        rcases lawful.mem_query_setQuery _ _ _ hset _ hmem with htext | hpercent
        · exact hquestion text hpart htext
        · exact absurd hpercent (by decide)
    · intro fragment hset hmem
      rw [absoluteUrl] at hset
      cases hpart : (splitMark '#' (String.ofList (unbracketed target))).2 with
      | none =>
        rw [hpart, lawful.fragment_setFragment_none] at hset
        cases hset
      | some text =>
        rw [hpart] at hset
        rcases lawful.mem_fragment_setFragment _ _ _ hset _ hmem with htext | hpercent
        · exact hafter text hpart htext
        · exact absurd hpercent (by decide)
  · exact h

end Brackets

/-- A target that was resolved is left alone. -/
theorem resolveTarget_display (url : Url) :
    resolveTarget lib location (lib.display url).toList = (lib.display url).toList := by
  obtain ⟨c, rest, hhead, hc⟩ := lawful.head_display url
  have hletter : c ≠ '/' ∧ c ≠ '<' := by
    constructor <;> rintro rfl <;> exact absurd hc (by decide)
  have hplain : unbracketed (c :: rest) = c :: rest := by
    unfold unbracketed
    split
    · rename_i heq
      exact absurd (List.cons.inj heq).1 hletter.2
    · rfl
  rw [hhead, resolveTarget, hplain, if_neg (by simpa using hletter.1)]

/-- Resolving a target once is resolving it for good. -/
theorem resolveTarget_again (target : List Char) :
    resolveTarget lib location (resolveTarget lib location target) =
      resolveTarget lib location target := by
  by_cases hroot : (unbracketed target).head? = some '/'
  · obtain ⟨parts, -, hresolved⟩ := resolveLink_eq lib location
      (String.ofList (unbracketed target))
    rw [show resolveTarget lib location target = (location.resolveLink lib
      (String.ofList (unbracketed target))).toList from if_pos hroot, hresolved]
    exact resolveTarget_display lawful _
  · have hkept : resolveTarget lib location target = target := if_neg hroot
    rw [hkept, hkept]

omit lawful in
theorem isRootRelative_of_splits (h : SplitsExactly target) : isRootRelative target = true := by
  obtain ⟨path, fragment, rfl, hhead, -, -, -⟩ := h
  cases path with
  | nil => rfl
  | cons c rest =>
    rw [List.cons_append]
    unfold isRootRelative
    split
    · rename_i heq
      have hc := (List.cons.inj (List.cons.inj heq).2).1
      exact absurd (by rw [hc]; rfl) hhead
    · rfl
    · rename_i hnone
      exact absurd rfl (hnone _)

omit lawful in
theorem head_of_isRootRelative (h : isRootRelative target = true) :
    target.head? = some '/' := by
  unfold isRootRelative at h
  split at h
  · cases h
  · rfl
  · cases h

variable {message : String}

omit lawful in
theorem toList_resolveRelativeLinks (message : String) :
    (resolveRelativeLinks lib location message).toList =
      rewriteSpans linkStart ')' (resolveTarget lib location) message.toList := by
  rw [resolveRelativeLinks, String.toList_ofList, resolveFrom_eq]

omit lawful in
/-- A message without a target from the root is kept. -/
theorem resolveRelativeLinks_eq_self
    (h : ∀ target ∈ linkTargets message, (unbracketed target).head? ≠ some '/') :
    resolveRelativeLinks lib location message = message := by
  refine String.toList_inj.mp ?_
  rw [toList_resolveRelativeLinks]
  refine rewriteSpans_eq_self fun span hspan => ?_
  exact if_neg (h span.content (List.mem_map_of_mem hspan))

theorem exact_of_rewritable (hquery : lib.query location.viewer = none)
    (hfragment : lib.fragment location.viewer = none)
    (h : Rewritable lib location message) : LinksExact lib location message := by
  have hcontent : ∀ span ∈ (spansOf linkStart ')' message.toList).1,
      span.content ∈ linkTargets message := fun span hspan => List.mem_map_of_mem hspan
  constructor
  case rewritten =>
    rw [toList_resolveRelativeLinks]
    refine rewriteSpans_congr fun span hspan => ?_
    unfold resolveTarget absoluteTarget
    by_cases hroot : (unbracketed span.content).head? = some '/'
    · have hsplits := h.targets span.content (hcontent span hspan) hroot
      rw [if_pos hroot, if_pos (isRootRelative_of_splits hsplits),
        resolveLink_of_splits lawful hquery hsplits]
    · rw [if_neg hroot, if_neg fun hrelative => hroot (head_of_isRootRelative hrelative)]
  case again =>
    apply String.toList_inj.mp
    rw [toList_resolveRelativeLinks, toList_resolveRelativeLinks]
    refine rewriteSpans_rewriteSpans (by decide) fun span hspan => ?_
    refine ⟨?_, resolveTarget_again lawful span.content⟩
    have hclosed := (of_mem_spansOf (by decide) message.toList span hspan).2
    by_cases hroot : (unbracketed span.content).head? = some '/'
    · have hviewer := h.viewer ⟨span.content, hcontent span hspan, hroot⟩
      exact paren_notMem_resolveTarget lawful hviewer hquery hfragment hclosed
    · rwa [show resolveTarget lib location span.content = span.content from if_neg hroot]

omit lawful in
theorem head_of_unbracketed (h : (unbracketed target).head? = some '/') :
    target.head? = some '/' ∨ target.head? = some '<' := by
  unfold unbracketed at h
  split at h
  · exact Or.inr rfl
  · exact Or.inl h

variable (location) in
/-- A slash more makes another path, as long as the segments are settled. -/
theorem path_setPath_ne (rest : String)
    (hsettled : ∀ segment ∈ split '/' rest, isSegment segment = true) :
    lib.path (lib.setPath location.viewer
        (trimEndSlashes (lib.path location.viewer) ++ "/" ++ ("/" ++ rest))) ≠
      lib.path (lib.setPath location.viewer
        (trimEndSlashes (lib.path location.viewer) ++ "/" ++ rest)) := by
  obtain ⟨segments, -, hpath, hkept⟩ := lawful.path_kept location.viewer
  obtain ⟨start, hstart, -, hbase⟩ := exists_base segments fun segment hsegment =>
    slash_notMem_of_isSegment (hkept segment hsegment).1
  have hne := split_ne_nil '/' rest
  have hjoin : join "/" (split '/' rest) = rest := join_split '/' rest
  have hdouble : "/" ++ rest = join "/" ("" :: split '/' rest) := by
    rw [join_cons hne, hjoin, String.empty_append]
  have hsegments : ∀ segment ∈ start, isSegment segment = true := fun segment hmem =>
    (hkept segment (hstart hmem)).1
  have hshort : ∀ segment ∈ start ++ split '/' rest, isSegment segment = true := by
    intro segment hmem
    exact (List.mem_append.mp hmem).elim (hsegments segment) (hsettled segment)
  have hlong : ∀ segment ∈ start ++ "" :: split '/' rest, isSegment segment = true := by
    intro segment hmem
    rcases List.mem_append.mp hmem with hmem | hmem
    · exact hsegments segment hmem
    rcases List.mem_cons.mp hmem with rfl | hmem
    · decide
    · exact hsettled segment hmem
  have hshortText := hbase (split '/' rest) hne
  rw [hjoin] at hshortText
  rw [hpath, hdouble, hbase _ (List.cons_ne_nil _ _), hshortText, lawful.path_setPath _ _ hlong,
    lawful.path_setPath _ _ hshort]
  intro heq
  have hlists := pathOf_injective (by simp) (by simp [hne]) ?_ ?_ heq
  · have hlengths := congrArg List.length hlists
    simp at hlengths
  · intro segment hmem
    obtain ⟨original, horiginal, rfl⟩ := List.mem_map.mp hmem
    exact slash_notMem_percentEncode (hlong original horiginal)
  · intro segment hmem
    obtain ⟨original, horiginal, rfl⟩ := List.mem_map.mp hmem
    exact slash_notMem_percentEncode (hshort original horiginal)

variable (location) in
/-- The parts of an absolute target that show which parts the target has. -/
theorem absoluteUrl_parts {chars : List Char} {path : List Char} {fragment : Option String}
    (hmark : splitMark '#' (String.ofList chars) = (String.ofList path, fragment)) :
    (fragment.isSome → (lib.fragment (absoluteUrl lib location (String.ofList chars))).isSome) ∧
      ('?' ∈ path → (lib.query (absoluteUrl lib location (String.ofList chars))).isSome) ∧
      ('?' ∉ path → lib.path (absoluteUrl lib location (String.ofList chars)) =
        lib.path (lib.setPath location.viewer
          (trimEndSlashes (lib.path location.viewer) ++ String.ofList path))) := by
  refine ⟨fun hsome => ?_, fun hquestion => ?_, fun hquestion => ?_⟩
  · obtain ⟨text, rfl⟩ := Option.isSome_iff_exists.mp hsome
    rw [absoluteUrl, hmark]
    exact lawful.fragment_setFragment_some _ _
  · obtain ⟨before, after, rfl, hbefore⟩ := List.eq_append_cons_of_mem hquestion
    rw [absoluteUrl, hmark]
    simp only [splitMark_ofList_append after hbefore]
    rw [lawful.query_setFragment]
    exact lawful.query_setQuery_some _ _
  · rw [absoluteUrl, hmark]
    simp only [splitMark_ofList_of_notMem hquestion]
    rw [lawful.path_setFragment, lawful.path_setQuery]

/-- A resolved target has no query, and a fragment only with a text. -/
theorem resolved_parts (hquery : lib.query location.viewer = none)
    (hfragment : lib.fragment location.viewer = none) (path fragment : String) {url : Url}
    (hurl : (if fragment != "" then lib.setFragment (lib.setPath location.viewer path)
        (some fragment) else lib.setPath location.viewer path) = url) :
    lib.query url = none ∧ (fragment = "" → lib.fragment url = none) := by
  subst hurl
  constructor
  · split
    · rw [lawful.query_setFragment, lawful.query_setPath, hquery]
    · rw [lawful.query_setPath, hquery]
  · rintro rfl
    rw [if_neg (by simp), lawful.fragment_setPath, hfragment]

/-- A target from the root does not stay, since the text of a URL begins with a letter. -/
theorem resolveTarget_ne_self (hroot : (unbracketed target).head? = some '/') :
    resolveTarget lib location target ≠ target := by
  intro h
  rw [resolveTarget, if_pos hroot] at h
  obtain ⟨parts, -, hresolved⟩ := resolveLink_eq lib location (String.ofList (unbracketed target))
  obtain ⟨c, tail, hletter, hc⟩ := lawful.head_display
    (if parts.2 != "" then lib.setFragment (lib.setPath location.viewer
      (trimEndSlashes (lib.path location.viewer) ++ "/" ++ parts.1)) (some parts.2)
    else lib.setPath location.viewer
      (trimEndSlashes (lib.path location.viewer) ++ "/" ++ parts.1))
  rw [hresolved, hletter] at h
  rcases head_of_unbracketed hroot with hslash | hbracket
  · rw [← h, List.head?_cons, Option.some.injEq] at hslash
    rw [hslash] at hc
    exact absurd hc (by decide)
  · rw [← h, List.head?_cons, Option.some.injEq] at hbracket
    rw [hbracket] at hc
    exact absurd hc (by decide)

/-- A target with a mark has no query, and a text behind the mark. -/
theorem splits_of_marked (hquery : lib.query location.viewer = none)
    (hfragment : lib.fragment location.viewer = none) {path fragment : List Char} {base : String}
    (hpath : '#' ∉ path)
    (hurl : (if String.ofList fragment != "" then
        lib.setFragment (lib.setPath location.viewer base) (some (String.ofList fragment))
      else lib.setPath location.viewer base) =
        absoluteUrl lib location (String.ofList ('/' :: (path ++ '#' :: fragment)))) :
    '?' ∉ path ∧ fragment ≠ [] := by
  have habsolute := absoluteUrl_parts location lawful
    (splitMark_ofList_append fragment (show '#' ∉ '/' :: path by simpa using hpath))
  rw [List.cons_append] at habsolute
  obtain ⟨hfragmentSome, hquerySome, -⟩ := habsolute
  obtain ⟨hnoQuery, hnoFragment⟩ := resolved_parts lawful hquery hfragment _ _ hurl
  constructor
  · intro hmem
    have hsome := hquerySome (List.mem_cons_of_mem _ hmem)
    rw [hnoQuery] at hsome
    cases hsome
  · rintro rfl
    have hsome := hfragmentSome rfl
    rw [hnoFragment rfl] at hsome
    cases hsome

/-- Without a mark the base and the target meet in two slashes, which is another path. -/
theorem setPath_ne_absoluteUrl (hquery : lib.query location.viewer = none) {rest : List Char}
    (hmark : '#' ∉ rest)
    (hsettled : ∀ segment ∈ split '/' (String.ofList ('/' :: rest)), isSegment segment = true) :
    lib.setPath location.viewer
        (trimEndSlashes (lib.path location.viewer) ++ "/" ++ String.ofList ('/' :: rest)) ≠
      absoluteUrl lib location (String.ofList ('/' :: rest)) := by
  intro hurl
  obtain ⟨-, hquerySome, hpath⟩ := absoluteUrl_parts location lawful
    (splitMark_ofList_of_notMem (show '#' ∉ '/' :: rest by simpa using hmark))
  rw [← hurl] at hquerySome hpath
  by_cases hquestion : '?' ∈ rest
  · have hsome := hquerySome (List.mem_cons_of_mem _ hquestion)
    rw [lawful.query_setPath, hquery] at hsome
    cases hsome
  · have hslash : String.ofList ('/' :: rest) = "/" ++ String.ofList rest := by
      apply String.toList_inj.mp
      simp
    have hsplit : split '/' ("/" ++ String.ofList rest) = "" :: split '/' (String.ofList rest) :=
      @split_append '/' "" _ (by simp)
    rw [hslash, hsplit] at hsettled
    have hne := path_setPath_ne location lawful (String.ofList rest)
      fun segment hmem => hsettled segment (List.mem_cons_of_mem _ hmem)
    have hsame := hpath (by simpa using hquestion)
    rw [hslash] at hsame
    simp only [String.append_assoc] at hsame hne
    exact hne hsame

/-- A target that is resolved to its absolute URL splits exactly. -/
theorem splits_of_resolved (hquery : lib.query location.viewer = none)
    (hfragment : lib.fragment location.viewer = none)
    (hroot : (unbracketed target).head? = some '/')
    (hsettled : ∀ segment ∈ split '/' (String.ofList (unbracketed target)),
      isSegment segment = true)
    (h : resolveTarget lib location target = absoluteTarget lib location target) :
    SplitsExactly (unbracketed target) := by
  have hrelative : isRootRelative (unbracketed target) = true := by
    by_contra hnot
    rw [absoluteTarget, if_neg hnot] at h
    exact resolveTarget_ne_self lawful hroot h
  rw [resolveTarget, if_pos hroot, absoluteTarget, if_pos hrelative] at h
  obtain ⟨parts, hparts, hresolved⟩ := resolveLink_eq lib location
    (String.ofList (unbracketed target))
  have hurl := lawful.display_injective (hresolved.symm.trans (String.toList_inj.mp h))
  obtain ⟨rest, hrest⟩ : ∃ rest, unbracketed target = '/' :: rest := by
    cases htarget : unbracketed target with
    | nil => simp [htarget] at hroot
    | cons c rest => exact ⟨rest, by rw [htarget] at hroot; rw [Option.some.inj hroot]⟩
  rw [hrest] at hparts hurl hsettled hrelative ⊢
  have hhead : rest.head? ≠ some '/' := by
    intro hslash
    cases rest with
    | nil => simp at hslash
    | cons c rest =>
      rw [Option.some.inj hslash] at hrelative
      simp [isRootRelative] at hrelative
  rw [trimStartSlashes_cons hhead, splitOnce, String.toList_ofList] at hparts
  by_cases hmark : '#' ∈ rest
  · obtain ⟨path, fragment, rfl, hpath⟩ := List.eq_append_cons_of_mem hmark
    rw [splitOnceList_append _ hpath] at hparts
    obtain rfl : (String.ofList path, String.ofList fragment) = parts := hparts
    obtain ⟨hquestion, hne⟩ := splits_of_marked lawful hquery hfragment hpath hurl
    refine ⟨path, fragment, rfl, ?_, hpath, hquestion, hne⟩
    cases path with
    | nil => simp
    | cons c path => simpa using hhead
  · rw [splitOnceList_of_notMem hmark] at hparts
    obtain rfl : (String.ofList ('/' :: rest), "") = parts := hparts
    rw [if_neg (by simp)] at hurl
    exact absurd hurl (setPath_ne_absoluteUrl lawful hquery hmark hsettled)

theorem rewritable_of_exact (hviewer : ')' ∉ (lib.display location.viewer).toList)
    (hquery : lib.query location.viewer = none) (hfragment : lib.fragment location.viewer = none)
    (hsettled : SettledTargets message) (h : LinksExact lib location message) :
    Rewritable lib location message := by
  have hsame := h.rewritten
  rw [toList_resolveRelativeLinks] at hsame
  have hclosed := fun span hspan =>
    (@of_mem_spansOf _ _ linkStart ')' (by decide) message.toList span hspan).2
  have htargets := content_eq_of_rewriteSpans_eq (by decide)
    (fun span hspan => paren_notMem_resolveTarget lawful hviewer hquery hfragment
      (hclosed span hspan))
    (fun span hspan => paren_notMem_absoluteTarget lawful hviewer (hclosed span hspan)) hsame
  refine ⟨fun target htarget hroot => ?_, fun _ => hviewer⟩
  obtain ⟨span, hspan, rfl⟩ := List.mem_map.mp htarget
  exact splits_of_resolved lawful hquery hfragment hroot (hsettled _ htarget hroot)
    (htargets span hspan)

/-- Links are rewritten exactly where their targets split exactly and the viewer has no closing
bracket; of settled targets and such a viewer nothing else is. -/
theorem links_exact (viewer : Url) (space : Option String) (message : String) :
    (Rewritable lib (.new lib viewer space) message →
        LinksExact lib (.new lib viewer space) message) ∧
      (')' ∉ (lib.display (AgentBuilderLocation.new lib viewer space).viewer).toList →
        SettledTargets message → LinksExact lib (.new lib viewer space) message →
          Rewritable lib (.new lib viewer space) message) := by
  have hquery := query_new lawful viewer space
  have hfragment := fragment_new lawful viewer space
  exact ⟨exact_of_rewritable lawful hquery hfragment, fun hviewer hsettled =>
    rewritable_of_exact lawful hviewer hquery hfragment hsettled⟩

end Targets

section Samples

def dashboardLink : String := "[Dashboard](</s/esdiag/app/dashboards#/view/report>)"

theorem spansOf_dashboardLink : spansOf linkStart ')' dashboardLink.toList =
    ([⟨"[Dashboard".toList, "</s/esdiag/app/dashboards#/view/report>".toList⟩], []) := by
  have hopen : splitAtPart linkStart dashboardLink.toList =
      some ("[Dashboard".toList, "</s/esdiag/app/dashboards#/view/report>)".toList) := by
    decide +kernel
  have hclose : splitOnceList ')' "</s/esdiag/app/dashboards#/view/report>)".toList =
      some ("</s/esdiag/app/dashboards#/view/report>".toList, []) := by decide +kernel
  rw [spansOf_cons hopen hclose, spansOf_of_noSpan fun _ _ hopen => by cases hopen]

theorem dashboardLink_exact :
    LinksExact plainLibrary (.new plainLibrary rootViewer none) dashboardLink := by
  refine (links_exact plainLibrary_lawful rootViewer none dashboardLink).1
    ⟨fun target htarget _ => ?_, fun _ => by decide +kernel⟩
  rw [linkTargets, spansOf_dashboardLink] at htarget
  obtain rfl := List.mem_singleton.mp htarget
  exact ⟨"s/esdiag/app/dashboards".toList, "/view/report".toList, by decide, by decide, by decide,
    by decide, by decide⟩

def homeLink : String := "[Home](/app/home)"

/-- A target without a fragment keeps its slash behind the one of the base. -/
theorem homeLink_not_exact :
    ¬LinksExact plainLibrary (.new plainLibrary rootViewer none) homeLink := by
  intro hexact
  have hspans : spansOf linkStart ')' homeLink.toList =
      ([⟨"[Home".toList, "/app/home".toList⟩], []) := by
    have hopen : splitAtPart linkStart homeLink.toList =
        some ("[Home".toList, "/app/home)".toList) := by decide +kernel
    have hclose : splitOnceList ')' "/app/home)".toList = some ("/app/home".toList, []) := by
      decide +kernel
    rw [spansOf_cons hopen hclose, spansOf_of_noSpan fun _ _ hopen => by cases hopen]
  have hsame := hexact.rewritten
  rw [toList_resolveRelativeLinks, rewriteSpans, rewriteSpans, hspans] at hsame
  exact absurd hsame (by decide +kernel)

end Samples

end Esdiag.RelativeLinks
