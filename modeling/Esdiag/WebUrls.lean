import Esdiag.TextParts

/-!
URLs of a special scheme, as a library gives access to their parts. The text of a URL
is what stands before the path, the path and, where there are any, the query and the
fragment; setting one part leaves the others. A path text is read segment by segment:
what a segment cannot hold is percent-encoded, and a segment that is settled stays one.
-/
namespace Esdiag.WebUrls

open Texts

section Encoding

/-- A hexadecimal digit in upper case. -/
def hexDigit (n : ℕ) : Char := Char.ofNat (if n < 10 then 48 + n else 55 + n)

def percentByte (byte : UInt8) : List Char :=
  ['%', hexDigit (byte.toNat / 16), hexDigit (byte.toNat % 16)]

/-- The text with the bytes of some characters percent-encoded. -/
def percentEncode (encoded : Char → Bool) (text : String) : String :=
  String.ofList (text.toList.flatMap fun c =>
    if encoded c then (String.utf8EncodeChar c).flatMap percentByte else [c])

/-- The characters that percent-encoding writes. -/
def isPercentChar (c : Char) : Bool :=
  c == '%' || (48 ≤ c.toNat && c.toNat ≤ 57) || (65 ≤ c.toNat && c.toNat ≤ 70)

def isUnreserved (c : Char) : Bool :=
  c.isAlphanum || c == '-' || c == '_' || c == '.' || c == '~'

/-- `urlencoding::encode`. -/
def urlencode (text : String) : String := percentEncode (fun c => !isUnreserved c) text

theorem isPercentChar_hexDigit : ∀ n < 16, isPercentChar (hexDigit n) = true := by decide

theorem isPercentChar_of_mem_percentByte {c : Char} {byte : UInt8} (h : c ∈ percentByte byte) :
    isPercentChar c = true := by
  have hbyte := byte.toNat_lt
  simp only [percentByte, List.mem_cons, List.not_mem_nil, or_false] at h
  rcases h with rfl | rfl | rfl
  · decide
  · exact isPercentChar_hexDigit _ (by omega)
  · exact isPercentChar_hexDigit _ (by omega)

variable {encoded : Char → Bool} {text : String}

theorem percentEncode_of_kept (h : ∀ c ∈ text.toList, encoded c = false) :
    percentEncode encoded text = text := by
  have hsame : text.toList.flatMap (fun c =>
      if encoded c then (String.utf8EncodeChar c).flatMap percentByte else [c]) =
        text.toList.flatMap fun c => [c] :=
    List.flatMap_congr fun c hc => by rw [h c hc]; rfl
  rw [percentEncode, hsame, List.flatMap_singleton', String.ofList_toList]

/-- Encoding leaves characters of the text, and writes its own. -/
theorem mem_percentEncode {c : Char} (h : c ∈ (percentEncode encoded text).toList) :
    c ∈ text.toList ∧ encoded c = false ∨ isPercentChar c = true := by
  rw [percentEncode, String.toList_ofList, List.mem_flatMap] at h
  obtain ⟨d, hd, hc⟩ := h
  split at hc
  · obtain ⟨byte, -, hbyte⟩ := List.mem_flatMap.mp hc
    exact Or.inr (isPercentChar_of_mem_percentByte hbyte)
  · rename_i hkept
    rw [List.mem_singleton.mp hc]
    exact Or.inl ⟨hd, by simpa using hkept⟩

/-- A text with a character that is encoded has a percent sign once it is. -/
theorem percent_mem_percentEncode {c : Char} (hc : c ∈ text.toList) (h : encoded c = true) :
    '%' ∈ (percentEncode encoded text).toList := by
  rw [percentEncode, String.toList_ofList, List.mem_flatMap]
  refine ⟨c, hc, ?_⟩
  rw [if_pos h]
  obtain ⟨byte, bytes, hbytes⟩ :=
    List.exists_cons_of_ne_nil (String.utf8EncodeChar_ne_nil (c := c))
  rw [hbytes, List.flatMap_cons]
  exact List.mem_append_left _ List.mem_cons_self

theorem percentEncode_eq_self (h : '%' ∉ (percentEncode encoded text).toList) :
    percentEncode encoded text = text := by
  refine percentEncode_of_kept fun c hc => ?_
  cases hencoded : encoded c with
  | false => rfl
  | true => exact absurd (percent_mem_percentEncode hc hencoded) h

end Encoding

section Libraries

variable {Url : Type}

/-- The access to the parts of a URL. -/
structure Library (Url : Type) where
  parse : String → Option Url
  display : Url → String
  beforePath : Url → String
  path : Url → String
  query : Url → Option String
  fragment : Url → Option String
  setPath : Url → String → Url
  setQuery : Url → Option String → Url
  setFragment : Url → Option String → Url
  /-- The characters that a path percent-encodes. -/
  encodedInPath : Char → Bool

/-- The segments `.` and `..`, also where their dots are percent-encoded. -/
def isDotSegment (segment : String) : Bool :=
  [".", "..", "%2e", ".%2e", "%2e.", "%2e%2e"].contains (toAsciiLowercase segment)

/-- A character that ends a segment, or that a path passes over. -/
def endsSegment (c : Char) : Bool :=
  c == '/' || c == '\\' || c == '\t' || c == '\n' || c == '\r'

/-- A text that a path takes as one segment. -/
def isSegment (text : String) : Bool := !text.toList.any endsSegment && !isDotSegment text

theorem slash_notMem_of_isSegment {segment : String} (h : isSegment segment = true) :
    '/' ∉ segment.toList := by
  intro hmem
  simp only [isSegment, Bool.and_eq_true, Bool.not_eq_true', List.any_eq_false] at h
  exact h.1 '/' hmem (by decide)

theorem split_join_segments {segments : List String} (hne : segments ≠ [])
    (h : ∀ segment ∈ segments, isSegment segment = true) :
    split '/' (join "/" segments) = segments :=
  split_join '/' hne fun segment hmem => slash_notMem_of_isSegment (h segment hmem)

/-- The path text of segments. -/
def pathOf (segments : List String) : String := "/" ++ join "/" segments

def withMark (mark : String) : Option String → String
  | none => ""
  | some text => mark ++ text

namespace Library

/-- `Url::path_segments`. -/
def pathSegments (lib : Library Url) (url : Url) : Option (List String) :=
  (stripPrefix "/" (lib.path url)).map (split '/')

end Library

/-- What the documentation of the library and the standard that it follows say. -/
structure Lawful (lib : Library Url) : Prop where
  parse_display : ∀ url, lib.parse (lib.display url) = some url
  display_eq : ∀ url, lib.display url = lib.beforePath url ++ lib.path url ++
    withMark "?" (lib.query url) ++ withMark "#" (lib.fragment url)
  /-- A scheme begins with a letter, and there is a host behind it. -/
  scheme : ∀ url, ∃ c rest, (lib.beforePath url).toList = c :: rest ∧ c.isAlpha = true
  host : ∀ url, ∃ c, (lib.beforePath url).toList.getLast? = some c ∧ c ≠ '/'
  path_kept : ∀ url, ∃ segments, segments ≠ [] ∧ lib.path url = pathOf segments ∧
    ∀ segment ∈ segments, isSegment segment = true ∧
      ∀ c ∈ segment.toList, lib.encodedInPath c = false
  path_setPath : ∀ url segments, (∀ segment ∈ segments, isSegment segment = true) →
    lib.path (lib.setPath url (pathOf segments)) =
      pathOf (segments.map (percentEncode lib.encodedInPath))
  mem_path_setPath : ∀ url text, ∀ c ∈ (lib.path (lib.setPath url text)).toList,
    c ∈ text.toList ∨ c = '/' ∨ isPercentChar c = true
  beforePath_setPath : ∀ url text, lib.beforePath (lib.setPath url text) = lib.beforePath url
  query_setPath : ∀ url text, lib.query (lib.setPath url text) = lib.query url
  fragment_setPath : ∀ url text, lib.fragment (lib.setPath url text) = lib.fragment url
  beforePath_setQuery : ∀ url query, lib.beforePath (lib.setQuery url query) = lib.beforePath url
  path_setQuery : ∀ url query, lib.path (lib.setQuery url query) = lib.path url
  query_setQuery_none : ∀ url, lib.query (lib.setQuery url none) = none
  query_setQuery_some : ∀ url text, (lib.query (lib.setQuery url (some text))).isSome
  mem_query_setQuery : ∀ url text query, lib.query (lib.setQuery url (some text)) = some query →
    ∀ c ∈ query.toList, c ∈ text.toList ∨ isPercentChar c = true
  fragment_setQuery : ∀ url query, lib.fragment (lib.setQuery url query) = lib.fragment url
  beforePath_setFragment : ∀ url fragment,
    lib.beforePath (lib.setFragment url fragment) = lib.beforePath url
  path_setFragment : ∀ url fragment, lib.path (lib.setFragment url fragment) = lib.path url
  query_setFragment : ∀ url fragment, lib.query (lib.setFragment url fragment) = lib.query url
  fragment_setFragment_none : ∀ url, lib.fragment (lib.setFragment url none) = none
  fragment_setFragment_some : ∀ url text, (lib.fragment (lib.setFragment url (some text))).isSome
  mem_fragment_setFragment : ∀ url text fragment,
    lib.fragment (lib.setFragment url (some text)) = some fragment →
      ∀ c ∈ fragment.toList, c ∈ text.toList ∨ isPercentChar c = true
  /-- A URL without a path text has the root as its path. -/
  parse_beforePath : ∀ url, lib.path url = "/" → lib.query url = none → lib.fragment url = none →
    lib.parse (lib.beforePath url) = some url
  not_encoded : ∀ c, isUnreserved c = true ∨ c = '%' → lib.encodedInPath c = false

variable {lib : Library Url} {url other : Url}

namespace Lawful

/-- A URL is known by its parts. -/
theorem eq_of_parts (lawful : Lawful lib) (hbefore : lib.beforePath url = lib.beforePath other)
    (hpath : lib.path url = lib.path other) (hquery : lib.query url = lib.query other)
    (hfragment : lib.fragment url = lib.fragment other) : url = other := by
  have hdisplay : lib.display url = lib.display other := by
    rw [lawful.display_eq, lawful.display_eq, hbefore, hpath, hquery, hfragment]
  have hparse := lawful.parse_display url
  rw [hdisplay, lawful.parse_display] at hparse
  exact (Option.some.inj hparse).symm

theorem setQuery_none (lawful : Lawful lib) (h : lib.query url = none) :
    lib.setQuery url none = url :=
  lawful.eq_of_parts (lawful.beforePath_setQuery url none) (lawful.path_setQuery url none)
    (by rw [lawful.query_setQuery_none, h]) (lawful.fragment_setQuery url none)

theorem display_injective (lawful : Lawful lib) (h : lib.display url = lib.display other) :
    url = other := by
  have hparse := lawful.parse_display url
  rw [h, lawful.parse_display] at hparse
  exact (Option.some.inj hparse).symm

/-- The text of a URL begins with the letter of its scheme. -/
theorem head_display (lawful : Lawful lib) (url : Url) :
    ∃ c rest, (lib.display url).toList = c :: rest ∧ c.isAlpha = true := by
  obtain ⟨c, rest, hbefore, hc⟩ := lawful.scheme url
  refine ⟨c, rest ++ (lib.path url ++ withMark "?" (lib.query url) ++
    withMark "#" (lib.fragment url)).toList, ?_, hc⟩
  rw [lawful.display_eq]
  simp only [String.toList_append, hbefore, List.cons_append, List.append_assoc]

/-- A character is not in the text of a URL when it is in no part of it. -/
theorem notMem_display (lawful : Lawful lib) {c : Char} (hmark : c ≠ '?' ∧ c ≠ '#')
    (hbefore : c ∉ (lib.beforePath url).toList) (hpath : c ∉ (lib.path url).toList)
    (hquery : ∀ query, lib.query url = some query → c ∉ query.toList)
    (hfragment : ∀ fragment, lib.fragment url = some fragment → c ∉ fragment.toList) :
    c ∉ (lib.display url).toList := by
  have hpart : ∀ (mark : Char) (part : Option String), c ≠ mark →
      (∀ text, part = some text → c ∉ text.toList) →
      c ∉ (withMark (String.singleton mark) part).toList := by
    intro mark part hne hpart
    cases part with
    | none => simp [withMark]
    | some text => simp [withMark, hne, hpart text rfl]
  rw [lawful.display_eq]
  simp only [String.toList_append, List.mem_append, not_or]
  exact ⟨⟨⟨hbefore, hpath⟩, hpart '?' _ hmark.1 hquery⟩, hpart '#' _ hmark.2 hfragment⟩

theorem notMem_of_notMem_display (lawful : Lawful lib) {c : Char}
    (h : c ∉ (lib.display url).toList) :
    c ∉ (lib.beforePath url).toList ∧ c ∉ (lib.path url).toList := by
  rw [lawful.display_eq] at h
  simp only [String.toList_append, List.mem_append, not_or] at h
  exact h.1.1

end Lawful

theorem stripPrefix_pathOf (segments : List String) :
    stripPrefix "/" (pathOf segments) = some (join "/" segments) :=
  stripPrefix_eq_some.mpr rfl

theorem slash_notMem_percentEncode {encoded : Char → Bool} {segment : String}
    (h : isSegment segment = true) : '/' ∉ (percentEncode encoded segment).toList := by
  intro hmem
  rcases mem_percentEncode hmem with ⟨hslash, -⟩ | hpercent
  · exact slash_notMem_of_isSegment h hslash
  · exact absurd hpercent (by decide)

/-- Path texts of segments are the same for the same segments only. -/
theorem pathOf_injective {segments others : List String} (hne : segments ≠ [])
    (hothers : others ≠ []) (h : ∀ segment ∈ segments, '/' ∉ segment.toList)
    (hother : ∀ segment ∈ others, '/' ∉ segment.toList)
    (heq : pathOf segments = pathOf others) : segments = others := by
  have hjoin : join "/" segments = join "/" others := by
    have hstrip := congrArg (stripPrefix "/") heq
    rw [stripPrefix_pathOf, stripPrefix_pathOf] at hstrip
    exact Option.some.inj hstrip
  have hsplit := congrArg (split '/') hjoin
  have hsegments := split_join '/' hne h
  have hrest := split_join '/' hothers hother
  exact hsegments.symm.trans (hsplit.trans hrest)

theorem pathSegments_of_path {segments : List String} (hpath : lib.path url = pathOf segments)
    (hne : segments ≠ []) (h : ∀ segment ∈ segments, '/' ∉ segment.toList) :
    lib.pathSegments url = some segments := by
  have hsplit := split_join '/' hne h
  rw [Library.pathSegments, hpath, stripPrefix_pathOf, Option.map_some]
  exact congrArg some hsplit

end Libraries

section Plain

/-- The characters that would end the path. -/
def endsPath (c : Char) : Bool := c == '?' || c == '#'

def isPlain (host rest : String) (query : Option String) : Bool :=
  host != "" && !host.toList.any (fun c => c == '/' || endsPath c) &&
    (split '/' rest).all (fun segment => isSegment segment && !segment.toList.any endsPath) &&
    !(query.getD "").toList.contains '#'

/-- A URL of a host on its default port, with the path behind its first slash. -/
structure PlainUrl where
  host : String
  rest : String
  query : Option String
  fragment : Option String
  plain : isPlain host rest query = true

/-- The text before a mark, and the one behind it, if there is one. -/
def splitMark (mark : Char) (text : String) : String × Option String :=
  match splitOnce mark text with
  | some (before, after) => (before, some after)
  | none => (text, none)

def parsePlain (text : String) : Option PlainUrl := do
  let text ← stripPrefix "https://" text
  let (text, fragment) := splitMark '#' text
  let (text, query) := splitMark '?' text
  let (host, rest) := splitMark '/' text
  if h : isPlain host (rest.getD "") query = true then some ⟨host, rest.getD "", query, fragment, h⟩
  else none

/-- The path behind its first slash as a setter takes it; what is no path becomes the root. -/
def plainRest (text : String) : String :=
  let segments := split '/' ((stripPrefix "/" text).getD text)
  if segments.all isSegment then join "/" (segments.map (percentEncode endsPath)) else ""

theorem isPlain_iff {host rest : String} {query : Option String} :
    isPlain host rest query = true ↔
      (host ≠ "" ∧ ∀ c ∈ host.toList, c ≠ '/' ∧ endsPath c = false) ∧
        (∀ segment ∈ split '/' rest, isSegment segment = true ∧
          ∀ c ∈ segment.toList, endsPath c = false) ∧
        '#' ∉ (query.getD "").toList := by
  simp [isPlain, and_assoc]

/-- An encoded segment is one still: the bytes that are written make no dots. -/
theorem isSegment_percentEncode {segment : String} (h : isSegment segment = true) :
    isSegment (percentEncode endsPath segment) = true := by
  by_cases hkept : ∀ c ∈ segment.toList, endsPath c = false
  · rwa [percentEncode_of_kept hkept]
  simp only [isSegment, Bool.and_eq_true, Bool.not_eq_true', List.any_eq_false] at h ⊢
  constructor
  · intro c hc
    rcases mem_percentEncode hc with ⟨hmem, -⟩ | hpercent
    · exact h.1 c hmem
    · simp only [isPercentChar, Bool.or_eq_true, Bool.and_eq_true, decide_eq_true_eq] at hpercent
      simp only [endsSegment, Bool.or_eq_true, beq_iff_eq]
      rintro ((((rfl | rfl) | rfl) | rfl) | rfl) <;> revert hpercent <;> decide
  · simp only [not_forall, Bool.not_eq_false] at hkept
    obtain ⟨c, hc, hends⟩ := hkept
    have hthree : '3' ∈ (toAsciiLowercase (percentEncode endsPath segment)).toList := by
      rw [toAsciiLowercase, String.toList_ofList, List.mem_map]
      refine ⟨'3', ?_, by decide⟩
      rw [percentEncode, String.toList_ofList, List.mem_flatMap]
      refine ⟨c, hc, ?_⟩
      rw [if_pos hends]
      simp only [endsPath, Bool.or_eq_true, beq_iff_eq] at hends
      rcases hends with rfl | rfl <;> decide
    rw [isDotSegment, Bool.eq_false_iff, Ne, List.contains_iff_mem]
    intro hdot
    have hno : ∀ text ∈ [".", "..", "%2e", ".%2e", "%2e.", "%2e%2e"], '3' ∉ text.toList := by
      decide
    exact hno _ hdot hthree

theorem isPlain_plainRest (url : PlainUrl) (text : String) :
    isPlain url.host (plainRest text) url.query = true := by
  obtain ⟨hhost, -, hquery⟩ := isPlain_iff.mp url.plain
  refine isPlain_iff.mpr ⟨hhost, ?_, hquery⟩
  by_cases hsegments : (split '/' ((stripPrefix "/" text).getD text)).all isSegment = true
  · rw [show plainRest text = join "/" ((split '/' ((stripPrefix "/" text).getD text)).map
      (percentEncode endsPath)) from if_pos hsegments]
    have hencoded : ∀ segment ∈ (split '/' ((stripPrefix "/" text).getD text)).map
        (percentEncode endsPath), isSegment segment = true ∧
          ∀ c ∈ segment.toList, endsPath c = false := by
      intro segment hmem
      obtain ⟨original, horiginal, rfl⟩ := List.mem_map.mp hmem
      have hsegment := List.all_eq_true.mp hsegments original horiginal
      refine ⟨isSegment_percentEncode hsegment, fun c hc => ?_⟩
      rcases mem_percentEncode hc with ⟨-, hnot⟩ | hpercent
      · exact hnot
      · rw [Bool.eq_false_iff]
        intro hends
        simp only [endsPath, Bool.or_eq_true, beq_iff_eq] at hends
        rcases hends with rfl | rfl <;> revert hpercent <;> decide
    rw [split_join_segments (by simpa using split_ne_nil '/' _) fun segment hmem =>
      (hencoded segment hmem).1]
    exact hencoded
  · rw [show plainRest text = "" from if_neg hsegments, show split '/' "" = [""] from rfl]
    intro segment hmem
    rw [List.mem_singleton.mp hmem]
    exact ⟨by decide, nofun⟩

def plainQuery (query : Option String) : Option String := query.map (percentEncode (· == '#'))

theorem isPlain_plainQuery (url : PlainUrl) (query : Option String) :
    isPlain url.host url.rest (plainQuery query) = true := by
  obtain ⟨hhost, hrest, -⟩ := isPlain_iff.mp url.plain
  refine isPlain_iff.mpr ⟨hhost, hrest, ?_⟩
  cases query with
  | none => decide
  | some text =>
    intro hmem
    rcases mem_percentEncode hmem with ⟨-, hkept⟩ | hpercent
    · exact absurd hkept (by decide)
    · exact absurd hpercent (by decide)

def plainLibrary : Library PlainUrl where
  parse := parsePlain
  display url := "https://" ++ url.host ++ ("/" ++ url.rest) ++ withMark "?" url.query ++
    withMark "#" url.fragment
  beforePath url := "https://" ++ url.host
  path url := "/" ++ url.rest
  query := PlainUrl.query
  fragment := PlainUrl.fragment
  setPath url text := { url with rest := plainRest text, plain := isPlain_plainRest url text }
  setQuery url query :=
    { url with query := plainQuery query, plain := isPlain_plainQuery url query }
  setFragment url fragment := { url with fragment := fragment }
  encodedInPath := endsPath

theorem splitMark_append {mark : Char} {text : String} (h : mark ∉ text.toList)
    (tail : Option String) :
    splitMark mark (text ++ withMark (String.singleton mark) tail) = (text, tail) := by
  unfold splitMark splitOnce
  cases tail with
  | none =>
    rw [withMark, String.append_empty, splitOnceList_of_notMem h]
    rfl
  | some after =>
    have htext : (text ++ withMark (String.singleton mark) (some after)).toList =
        text.toList ++ mark :: after.toList := by
      simp [withMark]
    rw [htext, splitOnceList_append _ h]
    simp

theorem splitMark_ofList_append {mark : Char} {before : List Char} (after : List Char)
    (h : mark ∉ before) : splitMark mark (String.ofList (before ++ mark :: after)) =
      (String.ofList before, some (String.ofList after)) := by
  rw [splitMark, splitOnce, String.toList_ofList, splitOnceList_append _ h]
  rfl

theorem splitMark_ofList_of_notMem {mark : Char} {chars : List Char} (h : mark ∉ chars) :
    splitMark mark (String.ofList chars) = (String.ofList chars, none) := by
  rw [splitMark, splitOnce, String.toList_ofList, splitOnceList_of_notMem h]
  rfl

theorem notMem_splitMark {mark c : Char} {text : String} (h : c ∉ text.toList) :
    c ∉ (splitMark mark text).1.toList ∧
      ∀ after, (splitMark mark text).2 = some after → c ∉ after.toList := by
  unfold splitMark splitOnce
  cases hsplit : splitOnceList mark text.toList with
  | none => exact ⟨h, nofun⟩
  | some parts =>
    rw [(splitOnceList_eq_some hsplit).1, List.mem_append, List.mem_cons, not_or, not_or] at h
    refine ⟨by simpa using h.1, fun after hafter => ?_⟩
    obtain rfl := Option.some.inj hafter
    simpa using h.2.2

theorem notMem_rest {url : PlainUrl} {c : Char} (hc : endsPath c = true) :
    c ∉ url.rest.toList := by
  obtain ⟨-, hrest, -⟩ := isPlain_iff.mp url.plain
  intro hmem
  rw [← join_split '/' url.rest] at hmem
  rcases mem_join hmem with rfl | ⟨segment, hsegment, hmem⟩
  · exact absurd hc (by decide)
  · rw [(hrest segment hsegment).2 c hmem] at hc
    cases hc

theorem notMem_host {url : PlainUrl} {c : Char} (hc : c = '/' ∨ endsPath c = true) :
    c ∉ url.host.toList := by
  obtain ⟨⟨-, hhost⟩, -, -⟩ := isPlain_iff.mp url.plain
  intro hmem
  obtain ⟨hslash, hends⟩ := hhost c hmem
  rcases hc with rfl | hc
  · exact hslash rfl
  · rw [hends] at hc
    cases hc

theorem parsePlain_append (url : PlainUrl) :
    parsePlain ("https://" ++ url.host ++ ("/" ++ url.rest) ++ withMark "?" url.query ++
      withMark "#" url.fragment) = some url := by
  obtain ⟨-, -, hquery⟩ := isPlain_iff.mp url.plain
  have hbefore : ∀ c, endsPath c = true → c ∉ (url.host ++ ("/" ++ url.rest)).toList := by
    intro c hc
    have hslash : c ≠ '/' := by
      rintro rfl
      exact absurd hc (by decide)
    simp [notMem_host (Or.inr hc), notMem_rest hc, hslash]
  have hfragment : '#' ∉ (url.host ++ ("/" ++ url.rest) ++ withMark "?" url.query).toList := by
    rw [String.toList_append, List.mem_append, not_or]
    refine ⟨hbefore '#' (by decide), ?_⟩
    cases hq : url.query with
    | none => simp [withMark]
    | some text =>
      rw [hq] at hquery
      simpa [withMark] using hquery
  have hstrip : stripPrefix "https://" ("https://" ++ url.host ++ ("/" ++ url.rest) ++
      withMark "?" url.query ++ withMark "#" url.fragment) =
        some (url.host ++ ("/" ++ url.rest) ++ withMark "?" url.query ++
          withMark "#" url.fragment) := by
    refine stripPrefix_eq_some.mpr ?_
    simp only [String.append_assoc]
  have hmark := splitMark_append hfragment url.fragment
  have hquestion := splitMark_append (hbefore '?' (by decide)) url.query
  have hslash := splitMark_append (@notMem_host url '/' (Or.inl rfl))
    (some url.rest)
  rw [parsePlain, hstrip]
  simp only [Option.bind_eq_bind, Option.bind_some]
  rw [show withMark "#" url.fragment = withMark (String.singleton '#') url.fragment from rfl, hmark]
  simp only
  rw [show withMark "?" url.query = withMark (String.singleton '?') url.query from rfl, hquestion]
  simp only
  rw [show "/" ++ url.rest = withMark (String.singleton '/') (some url.rest) from rfl, hslash]
  simp only [Option.getD_some]
  rw [dif_pos url.plain]

/-- A host alone has the root as its path. -/
theorem parsePlain_host {url : PlainUrl} (hrest : url.rest = "") (hquery : url.query = none)
    (hfragment : url.fragment = none) : parsePlain ("https://" ++ url.host) = some url := by
  have hmark : ∀ mark, mark = '/' ∨ endsPath mark = true → splitMark mark url.host =
      (url.host, none) := by
    intro mark hmark
    have hnone := splitMark_append (@notMem_host url mark hmark) none
    rwa [withMark, String.append_empty] at hnone
  have hstrip : stripPrefix "https://" ("https://" ++ url.host) = some url.host :=
    stripPrefix_eq_some.mpr rfl
  obtain ⟨host, rest, query, fragment, hplain⟩ := url
  obtain ⟨rfl, rfl, rfl⟩ : rest = "" ∧ query = none ∧ fragment = none :=
    ⟨hrest, hquery, hfragment⟩
  rw [parsePlain, hstrip]
  simp only [Option.bind_eq_bind, Option.bind_some, hmark '#' (Or.inr (by decide)),
    hmark '?' (Or.inr (by decide)), hmark '/' (Or.inl rfl), Option.getD_none]
  rw [dif_pos hplain]

theorem plainRest_pathOf {segments : List String}
    (h : ∀ segment ∈ segments, isSegment segment = true) :
    plainRest (pathOf segments) = join "/" (segments.map (percentEncode endsPath)) := by
  rcases eq_or_ne segments [] with rfl | hne
  · decide
  have hsplit : split '/' ((stripPrefix "/" (pathOf segments)).getD (pathOf segments)) =
      segments := by
    rw [stripPrefix_pathOf, Option.getD_some, split_join_segments hne h]
  simp only [plainRest, hsplit]
  exact if_pos (List.all_eq_true.mpr h)

theorem mem_plainRest {text : String} {c : Char} (h : c ∈ (plainRest text).toList) :
    c ∈ text.toList ∨ c = '/' ∨ isPercentChar c = true := by
  unfold plainRest at h
  simp only at h
  split at h
  · rcases @mem_join '/' _ _ h with rfl | ⟨part, hpart, hc⟩
    · exact Or.inr (Or.inl rfl)
    · obtain ⟨segment, hsegment, rfl⟩ := List.mem_map.mp hpart
      rcases mem_percentEncode hc with ⟨hmem, -⟩ | hpercent
      · left
        have htext := mem_of_mem_split hsegment hmem
        cases hstrip : stripPrefix "/" text with
        | none => rwa [hstrip] at htext
        | some rest =>
          rw [hstrip] at htext
          rw [stripPrefix_eq_some.mp hstrip, String.toList_append]
          exact List.mem_append_right _ htext
      · exact Or.inr (Or.inr hpercent)
  · simp at h

theorem plainLibrary_lawful : Lawful plainLibrary where
  parse_display := parsePlain_append
  display_eq _ := rfl
  scheme url := ⟨'h', "ttps://".toList ++ url.host.toList, by simp [plainLibrary], by decide⟩
  host url := by
    obtain ⟨⟨hne, -⟩, -, -⟩ := isPlain_iff.mp url.plain
    have hchars : url.host.toList ≠ [] := by simpa using hne
    refine ⟨url.host.toList.getLast hchars, ?_, fun hslash => ?_⟩
    · simp only [plainLibrary]
      rw [String.toList_append, List.getLast?_append_of_ne_nil _ hchars,
        List.getLast?_eq_some_getLast hchars]
    · exact notMem_host (Or.inl rfl) (hslash ▸ List.getLast_mem hchars)
  path_kept url := by
    obtain ⟨-, hrest, -⟩ := isPlain_iff.mp url.plain
    refine ⟨split '/' url.rest, split_ne_nil '/' url.rest, ?_, hrest⟩
    have hjoin := join_split '/' url.rest
    exact congrArg ("/" ++ ·) hjoin.symm
  path_setPath url segments hsegments := by
    simp only [plainLibrary, plainRest_pathOf hsegments]
    rw [pathOf]
  mem_path_setPath url text c hc := by
    simp only [plainLibrary, String.toList_append, List.mem_append] at hc
    rcases hc with hslash | hrest
    · exact Or.inr (Or.inl (by simpa using hslash))
    · exact mem_plainRest hrest
  beforePath_setPath _ _ := by simp only [plainLibrary]
  query_setPath _ _ := by simp only [plainLibrary]
  fragment_setPath _ _ := by simp only [plainLibrary]
  beforePath_setQuery _ _ := by simp only [plainLibrary]
  path_setQuery _ _ := by simp only [plainLibrary]
  query_setQuery_none _ := rfl
  query_setQuery_some _ _ := rfl
  mem_query_setQuery url text query hquery c hc := by
    obtain rfl := Option.some.inj hquery
    exact (mem_percentEncode hc).imp_left And.left
  fragment_setQuery _ _ := by simp only [plainLibrary]
  beforePath_setFragment _ _ := by simp only [plainLibrary]
  path_setFragment _ _ := by simp only [plainLibrary]
  query_setFragment _ _ := by simp only [plainLibrary]
  fragment_setFragment_none _ := rfl
  fragment_setFragment_some _ _ := rfl
  mem_fragment_setFragment url text fragment hfragment c hc := by
    obtain rfl := Option.some.inj hfragment
    exact Or.inl hc
  parse_beforePath url hpath hquery hfragment := by
    simp only [plainLibrary] at hpath
    have hrest : url.rest = "" := by
      have hlists := congrArg String.toList hpath
      simpa using hlists
    exact parsePlain_host hrest hquery hfragment
  not_encoded c hc := by
    simp only [plainLibrary]
    rw [Bool.eq_false_iff]
    intro hends
    simp only [endsPath, Bool.or_eq_true, beq_iff_eq] at hends
    rcases hends with rfl | rfl <;> revert hc <;> decide

end Plain

end Esdiag.WebUrls
