import Esdiag.HostBuilders
import Esdiag.SecretReferences
import Esdiag.TextParts

/-!
Template hosts and the references to them. A template is a sequence of letters and
placeholders, and a reference fills all of them at once, while the code replaces one
placeholder after the other in the text. A reference has the name of its host for a
scheme, so the URL parser and the list of handled schemes decide which names and which
ids it can have.
-/
namespace Esdiag.TemplateReferences

open KnownHosts HostBuilders HostFiles SecretReferences

abbrev Chars := List Char

/-! ### Templates -/

/-- What a template is made of; no letter of it is a brace. -/
inductive Piece where
  | letter (c : Char) (plain : c ≠ '\x7b' ∧ c ≠ '\x7d')
  | id
  | product
  deriving DecidableEq

def Piece.chars (id product : Chars) : Piece → Chars
  | letter c _ => [c]
  | .id => id
  | .product => product

/-- All placeholders filled at once. -/
def fill (id product : Chars) (pieces : List Piece) : Chars :=
  pieces.flatMap (Piece.chars id product)

def idMark : Chars := "\x7bid\x7d".toList

def productMark : Chars := "\x7bproduct\x7d".toList

def placeholder (name : String) : Option Piece :=
  if name = "id" then some .id
  else if name = "product" then some .product
  else none

/-- The pieces of a template, read character by character. -/
def piecesOf : Option Chars → Chars → Option (List Piece)
  | none, [] => some []
  | some _, [] => none
  | none, c :: rest =>
    if hopen : c = '\x7b' then piecesOf (some []) rest
    else if hclose : c = '\x7d' then none
    else (piecesOf none rest).map (Piece.letter c ⟨hopen, hclose⟩ :: ·)
  | some current, c :: rest =>
    if c = '\x7d' then
      (placeholder (String.ofList current.reverse)).bind fun piece =>
        (piecesOf none rest).map (piece :: ·)
    else piecesOf (some (c :: current)) rest

/-- A template with the id and the product in the positions of their placeholders. -/
def filledTemplate (template id product : String) : Option String :=
  (piecesOf none template.toList).map fun pieces =>
    String.ofList (fill id.toList product.toList pieces)

/-- The text that `renderUrlTemplateUrl` has parsed. -/
def renderedText (template id product : String) : String :=
  Texts.replace "\x7bproduct\x7d" product (Texts.replace "\x7bid\x7d" id template)

@[simp] theorem fill_cons (id product : Chars) (piece : Piece) (pieces : List Piece) :
    fill id product (piece :: pieces) = piece.chars id product ++ fill id product pieces := rfl

/-- The name of a placeholder that is being read, with its brace. -/
def opened : Option Chars → Chars
  | none => []
  | some current => '\x7b' :: current.reverse

theorem placeholder_chars {name : Chars} {piece : Piece}
    (h : placeholder (String.ofList name) = some piece) :
    piece.chars idMark productMark = '\x7b' :: (name ++ ['\x7d']) := by
  unfold placeholder at h
  split_ifs at h with hid hproduct
  · obtain rfl := Option.some.inj h
    rw [← @String.toList_ofList name, hid]
    rfl
  · obtain rfl := Option.some.inj h
    rw [← @String.toList_ofList name, hproduct]
    rfl

/-- The text of a template is its pieces with the placeholders left in. -/
theorem piecesOf_eq_some {current : Option Chars} {text : Chars} {pieces : List Piece}
    (h : piecesOf current text = some pieces) :
    opened current ++ text = fill idMark productMark pieces := by
  induction current, text using piecesOf.induct generalizing pieces with
  | case1 =>
    obtain rfl := Option.some.inj h
    rfl
  | case2 => cases h
  | case3 rest ih =>
    rw [piecesOf, dif_pos rfl] at h
    exact ih h
  | case4 rest hopen =>
    rw [piecesOf, dif_neg (by decide), dif_pos rfl] at h
    cases h
  | case5 c rest hopen hclose ih =>
    rw [piecesOf, dif_neg hopen, dif_neg hclose] at h
    obtain ⟨others, hothers, rfl⟩ := Option.map_eq_some_iff.1 h
    rw [fill_cons, ← ih hothers]
    rfl
  | case6 current rest ih =>
    rw [piecesOf, if_pos rfl] at h
    obtain ⟨piece, hpiece, h⟩ := Option.bind_eq_some_iff.1 h
    obtain ⟨others, hothers, rfl⟩ := Option.map_eq_some_iff.1 h
    rw [fill_cons, ← ih hothers, placeholder_chars hpiece]
    simp [opened]
  | case7 current c rest hclose ih =>
    rw [piecesOf, if_neg hclose] at h
    rw [← ih h]
    simp [opened]

/-- A text whose placeholders are all known has pieces. -/
theorem exists_pieces {current : Option Chars} {text : Chars} {names : List String}
    (h : placeholdersOf current text = .ok names)
    (hnames : ∀ name ∈ names, name = "id" ∨ name = "product") :
    ∃ pieces, piecesOf current text = some pieces := by
  induction current, text using piecesOf.induct generalizing names with
  | case1 => exact ⟨[], rfl⟩
  | case2 => cases h
  | case3 rest ih =>
    rw [placeholdersOf, if_pos rfl] at h
    rw [piecesOf, dif_pos rfl]
    exact ih h hnames
  | case4 rest hopen =>
    rw [placeholdersOf, if_neg hopen, if_pos rfl] at h
    cases h
  | case5 c rest hopen hclose ih =>
    rw [placeholdersOf, if_neg hopen, if_neg hclose] at h
    obtain ⟨pieces, hpieces⟩ := ih h hnames
    exact ⟨_, by rw [piecesOf, dif_neg hopen, dif_neg hclose, hpieces, Option.map_some]⟩
  | case6 current rest ih =>
    rw [placeholdersOf, if_neg (by decide), if_pos rfl] at h
    cases hrest : placeholdersOf none rest with
    | error message =>
      rw [hrest] at h
      cases h
    | ok others =>
      rw [hrest] at h
      obtain rfl := Except.ok.inj h
      obtain ⟨pieces, hpieces⟩ :=
        ih hrest fun name hname => hnames name (List.mem_cons_of_mem _ hname)
      obtain ⟨piece, hpiece⟩ : ∃ piece, placeholder (String.ofList current.reverse) = some piece := by
        rcases hnames _ List.mem_cons_self with hname | hname
        · exact ⟨.id, by rw [hname]; rfl⟩
        · exact ⟨.product, by rw [hname]; rfl⟩
      exact ⟨piece :: pieces, by
        rw [piecesOf, if_pos rfl, hpiece, Option.bind_some, hpieces, Option.map_some]⟩
  | case7 current c rest hclose ih =>
    rw [placeholdersOf] at h
    split_ifs at h with hopen
    rw [piecesOf, if_neg hclose]
    exact ih h hnames

/-- A template that passes the validation has pieces, an id among them. -/
theorem pieces_of_validateUrlTemplate {Url : Type} {lib : UrlLibrary Url} {template : String}
    (h : validateUrlTemplate lib template = .ok ()) :
    ∃ pieces, piecesOf none template.toList = some pieces := by
  unfold validateUrlTemplate at h
  cases hnames : placeholdersOf none template.toList with
  | error message =>
    rw [hnames] at h
    cases h
  | ok names =>
    rw [hnames] at h
    dsimp only at h
    cases hfind : names.find? fun one => one ≠ "id" ∧ one ≠ "product" with
    | some unknown =>
      rw [hfind] at h
      cases h
    | none =>
      refine exists_pieces hnames fun name hname => ?_
      have hknown := List.find?_eq_none.1 hfind name hname
      simpa [or_iff_not_imp_left] using hknown

/-! ### Filling by replacing -/

/-- Replacing the placeholder of the id fills the id alone. -/
theorem replace_id (id : Chars) (pieces : List Piece) :
    Texts.replaceList idMark id 0 (fill idMark productMark pieces) = fill id productMark pieces := by
  induction pieces with
  | nil => rfl
  | cons piece rest ih =>
    rw [fill_cons, fill_cons, ← ih]
    cases piece with
    | letter c plain =>
      have hplain : '\x7b' ∉ [c] := by simpa using plain.1.symm
      exact Texts.replaceList_append_left hplain id _
    | id => exact Texts.replaceList_append_part (by decide) id _
    | product =>
      have hbrace : Texts.replaceList idMark id 0 (productMark ++ fill idMark productMark rest) =
          '\x7b' :: Texts.replaceList idMark id 0
            ("product\x7d".toList ++ fill idMark productMark rest) := rfl
      exact hbrace.trans (congrArg (List.cons '\x7b')
        (Texts.replaceList_append_left (by decide) id _))

/-- Where the filled template has no placeholder of the product, replacing it fills the product. -/
theorem replace_product {id product : Chars} {pieces : List Piece} (before : Chars)
    (h : ¬productMark <:+: before ++ fill id product pieces) :
    Texts.replaceList productMark product 0 (before ++ fill id productMark pieces) =
      before ++ fill id product pieces := by
  induction pieces generalizing before with
  | nil => exact Texts.replaceList_of_not_infix (by decide) product h
  | cons piece rest ih =>
    rw [fill_cons] at h
    cases piece with
    | product =>
      have hbefore : ¬productMark <:+: before := fun hfound =>
        h (hfound.trans (List.prefix_append _ _).isInfix)
      have hrest : ¬productMark <:+: [] ++ fill id product rest := fun hfound =>
        h ((hfound.trans (List.suffix_append product _).isInfix).trans
          (List.suffix_append before _).isInfix)
      have hreplace := @Texts.replaceList_append_cons _ _ "product\x7d".toList before '\x7b'
        (by decide) hbefore product (fill id productMark rest)
      exact hreplace.trans (congrArg (fun filled => before ++ (product ++ filled)) (ih [] hrest))
    | _ =>
      rw [← List.append_assoc] at h
      rw [fill_cons, fill_cons, ← List.append_assoc, ← List.append_assoc]
      exact ih _ h

/-- Replacing the placeholders one after the other fills the template exactly where no placeholder
of the product comes of the id. -/
theorem renderedText_eq_iff {template id product : String} {pieces : List Piece}
    (hpieces : piecesOf none template.toList = some pieces) {a : Char} {tail : Chars}
    (hproduct : product.toList = a :: tail) (ha : a ∉ productMark) (htail : '\x7b' ∉ tail) :
    renderedText template id product = String.ofList (fill id.toList product.toList pieces) ↔
      ¬productMark <:+: fill id.toList product.toList pieces := by
  have htext : template.toList = fill idMark productMark pieces := piecesOf_eq_some hpieces
  have hrendered : renderedText template id product = String.ofList
      (Texts.replaceList productMark product.toList 0 (fill id.toList productMark pieces)) := by
    rw [renderedText, Texts.replace, Texts.replace, String.toList_ofList, htext]
    exact congrArg (fun text => String.ofList (Texts.replaceList productMark product.toList 0 text))
      (String.toList_ofList.trans (replace_id id.toList pieces))
  rw [hrendered, String.ofList_inj]
  constructor
  · intro heq
    rw [← heq, hproduct]
    exact @Texts.not_infix_replaceList _ _ "product\x7d".toList tail a '\x7b' ha htail _
  · exact replace_product []

/-! ### Hosts of addresses -/

/-- The schemes for which a URL parser reads a host as a domain or an address. -/
def specialSchemes : List String := ["http", "https", "ws", "wss", "ftp", "file"]

/-- A letter that a URL parser leaves as it is in the host of any other scheme. -/
def isHostChar (c : Char) : Bool :=
  '!' ≤ c && c ≤ '~' && c ∉ ['#', '/', ':', '<', '>', '?', '@', '[', '\\', ']', '^', '|']

/-- The forms in which a URL parser writes addresses in brackets, and domains. -/
structure HostForms where
  isAddress : String → Prop
  isDomain : String → Prop
  domain_not_blank : ∀ domain, isDomain domain → Texts.isBlank domain = false

/-- The hosts of a scheme, in the form in which they are read from an address. -/
inductive IsHost (forms : HostForms) (scheme : String) : String → Prop
  | special (host : String) (hscheme : scheme ∈ specialSchemes) (h : forms.isDomain host) :
    IsHost forms scheme host
  | plain (host : String) (hscheme : scheme ∉ specialSchemes) (hne : host.toList ≠ [])
    (h : ∀ c ∈ host.toList, isHostChar c = true) : IsHost forms scheme host
  | bracketed (address : String) (hscheme : scheme ∉ specialSchemes)
    (h : forms.isAddress address) : IsHost forms scheme ("[" ++ address ++ "]")

/-- What the URL parser makes of an address with nothing but a scheme and a host, and which hosts
it ever reads. -/
structure ReadsHosts (parseUrl : String → Option UrlParts) (forms : HostForms) : Prop where
  reads : ∀ scheme host, validateTemplateHostName scheme = .ok () → scheme ≠ "file" →
    IsHost forms scheme host → ∃ segments,
      parseUrl (scheme ++ "://" ++ host) = some ⟨scheme, some host, segments⟩ ∧
        ∀ segment ∈ segments, segment = ""
  hosts : ∀ text url host, parseUrl text = some url → url.hostStr = some host →
    IsHost forms url.scheme host

theorem isWhitespace_of_isHostChar {c : Char} (h : isHostChar c = true) :
    Texts.isWhitespace c = false := by
  simp only [isHostChar, Bool.and_eq_true, decide_eq_true_eq] at h
  exact Texts.isWhitespace_of_printable h.1.1 h.1.2

theorem IsHost.not_blank {forms : HostForms} {scheme host : String}
    (h : IsHost forms scheme host) : Texts.isBlank host = false := by
  cases h with
  | special _ _ h => exact forms.domain_not_blank host h
  | plain _ _ hne h =>
    obtain ⟨c, rest, htext⟩ := List.exists_cons_of_ne_nil hne
    have hc : c ∈ host.toList := htext ▸ List.mem_cons_self
    exact Texts.isBlank_eq_false hc (isWhitespace_of_isHostChar (h c hc))
  | bracketed address _ _ =>
    have hc : '[' ∈ ("[" ++ address ++ "]").toList := by simp
    exact Texts.isBlank_eq_false hc (by decide)

/-- What the parser read of a reference to a template without a product. -/
theorem read_of_parseTemplateReference {parseUrl : String → Option UrlParts}
    {reference name id : String}
    (h : parseTemplateReference parseUrl reference = .ok (some ⟨name, id, none⟩)) :
    name ∉ ["http", "https", "file", "stdin", "stdio"] ∧
      ∃ url, parseUrl reference = some url ∧ url.scheme = name ∧ url.hostStr = some id := by
  unfold parseTemplateReference at h
  cases hurl : parseUrl reference with
  | none =>
    rw [hurl] at h
    cases h
  | some url =>
    rw [hurl] at h
    dsimp only at h
    split_ifs at h with hscheme
    · cases h
    · cases hhost : url.hostStr with
      | none =>
        rw [hhost] at h
        cases h
      | some host =>
        rw [hhost] at h
        dsimp only at h
        split_ifs at h with hblank
        split at h
        · cases h
          exact ⟨hscheme, url, rfl, rfl, hhost⟩
        · cases h
        · cases h

/-- A reference names a template by its scheme exactly when the scheme is not handled elsewhere
and the id is a host. -/
theorem parseTemplateReference_eq_iff {parseUrl : String → Option UrlParts} {forms : HostForms}
    (hreads : ReadsHosts parseUrl forms) {name id : String}
    (hname : validateTemplateHostName name = .ok ()) :
    parseTemplateReference parseUrl (name ++ "://" ++ id) = .ok (some ⟨name, id, none⟩) ↔
      name ∉ ["http", "https", "file", "stdin", "stdio"] ∧ IsHost forms name id := by
  constructor
  · intro h
    obtain ⟨hscheme, url, hurl, rfl, hhost⟩ := read_of_parseTemplateReference h
    exact ⟨hscheme, hreads.hosts _ url id hurl hhost⟩
  · rintro ⟨hscheme, hhost⟩
    have hfile : name ≠ "file" := by
      rintro rfl
      exact hscheme (by decide)
    obtain ⟨segments, hurl, hsegments⟩ := hreads.reads name id hname hfile hhost
    have hnone : segments.filter (fun segment => !Texts.isBlank segment) = [] := by
      rw [List.filter_eq_nil_iff]
      intro segment hsegment
      rw [hsegments segment hsegment]
      decide
    unfold parseTemplateReference
    rw [hurl]
    dsimp only
    rw [if_neg hscheme, if_neg (by simp [hhost.not_blank]), hnone]

/-! ### Names of templates -/

theorem exists_of_valid {name : String} (h : validateTemplateHostName name = .ok ()) :
    ∃ first rest, name.toList = first :: rest ∧ isSchemeStart first = true ∧
      ∀ c ∈ rest, isSchemeChar c = true := by
  unfold validateTemplateHostName at h
  cases htext : name.toList with
  | nil =>
    rw [htext] at h
    cases h
  | cons first rest =>
    rw [htext] at h
    dsimp only at h
    split_ifs at h with hfirst hrest
    simp only [Bool.not_eq_true, Bool.not_eq_false'] at hfirst hrest
    exact ⟨first, rest, rfl, hfirst, List.all_eq_true.1 hrest⟩

theorem isSchemeChar_of_valid {name : String} (h : validateTemplateHostName name = .ok ()) :
    ∀ c ∈ name.toList, isSchemeChar c = true := by
  obtain ⟨first, rest, htext, hfirst, hrest⟩ := exists_of_valid h
  rw [htext]
  intro c hc
  rcases List.mem_cons.1 hc with rfl | hc
  · simp [isSchemeChar, hfirst]
  · exact hrest c hc

theorem isWhitespace_of_isSchemeChar {c : Char} (h : isSchemeChar c = true) :
    Texts.isWhitespace c = false := by
  simp only [isSchemeChar, isSchemeStart, Bool.or_eq_true, Bool.and_eq_true,
    decide_eq_true_eq] at h
  rcases h with (((⟨hlow, hhigh⟩ | ⟨hlow, hhigh⟩) | rfl) | rfl) | rfl
  · have hlow : 97 ≤ c.toNat := hlow
    have hhigh : c.toNat ≤ 122 := hhigh
    exact Texts.isWhitespace_of_printable (by omega) (by omega)
  · have hlow : 48 ≤ c.toNat := hlow
    have hhigh : c.toNat ≤ 57 := hhigh
    exact Texts.isWhitespace_of_printable (by omega) (by omega)
  · decide
  · decide
  · decide

/-- The check of reserved names accepts every name of a template. -/
theorem isReservedName_of_valid {name : String} (h : validateTemplateHostName name = .ok ()) :
    isReservedName name = false := by
  have hplain : ∀ c ∈ name.toList, Texts.isWhitespace c = false := fun c hc =>
    isWhitespace_of_isSchemeChar (isSchemeChar_of_valid h c hc)
  have htrim : Texts.trim name = name := by
    rw [Texts.trim, Texts.trimList_eq_self, String.ofList_toList]
    · exact fun c hc => hplain c (List.mem_of_mem_head? hc)
    · exact fun c hc => hplain c (List.mem_of_mem_getLast? hc)
  obtain ⟨first, rest, htext, hfirst, -⟩ := exists_of_valid h
  have hdot : '.' ≠ first := by
    rintro rfl
    exact absurd hfirst (by decide)
  have hstrip : Texts.stripPrefix "." name = none := by
    rw [Texts.stripPrefix, htext, Option.map_eq_none_iff]
    exact if_neg hdot
  rw [isReservedName, htrim, isContextReference, hstrip]

/-! ### Reaching a template -/

section Reaching

variable {Url : Type} (lib : UrlLibrary Url) (parseUrl : String → Option UrlParts)

/-- A reference names a template host and an id, and the address that is made of them is the
template with the id in its position. -/
structure Reached (name id template : String) : Prop where
  reference : parseTemplateReference parseUrl (name ++ "://" ++ id) = .ok (some ⟨name, id, none⟩)
  filled : filledTemplate template id defaultTemplateProduct =
    some (renderedText template id defaultTemplateProduct)
  address : (renderUrlTemplateUrl lib template id defaultTemplateProduct).isSome = true

/-- The filled template is an address, and the id did not bring a placeholder of the product. -/
def FillsToAddress (template id : String) : Prop :=
  ∃ text, filledTemplate template id defaultTemplateProduct = some text ∧
    Texts.contains text "\x7bproduct\x7d" = false ∧ (lib.parse text).isSome = true

variable {lib parseUrl}

/-- The template is filled and is an address exactly where its filled text is one. -/
theorem rendered_iff {template : String} (id : String)
    (htemplate : validateUrlTemplate lib template = .ok ()) :
    (filledTemplate template id defaultTemplateProduct =
        some (renderedText template id defaultTemplateProduct) ∧
      (renderUrlTemplateUrl lib template id defaultTemplateProduct).isSome = true) ↔
      FillsToAddress lib template id := by
  obtain ⟨pieces, hpieces⟩ := pieces_of_validateUrlTemplate htemplate
  have hfilled : filledTemplate template id defaultTemplateProduct =
      some (String.ofList (fill id.toList defaultTemplateProduct.toList pieces)) := by
    rw [filledTemplate, hpieces, Option.map_some]
  have hrendered := @renderedText_eq_iff template id defaultTemplateProduct pieces hpieces 'e'
    "lasticsearch".toList rfl (by decide) (by decide)
  have hcontains : Texts.contains
      (String.ofList (fill id.toList defaultTemplateProduct.toList pieces)) "\x7bproduct\x7d" =
        false ↔ ¬productMark <:+: fill id.toList defaultTemplateProduct.toList pieces := by
    rw [Texts.contains, @String.toList_ofList (fill _ _ pieces)]
    exact Texts.containsList_eq_false
  constructor
  · rintro ⟨heq, haddress⟩
    rw [hfilled, Option.some_inj] at heq
    refine ⟨_, hfilled, hcontains.2 (hrendered.1 heq.symm), ?_⟩
    rw [heq]
    exact haddress
  · rintro ⟨text, htext, hplain, haddress⟩
    obtain rfl := Option.some.inj (hfilled.symm.trans htext)
    have heq := hrendered.2 (hcontains.1 hplain)
    refine ⟨hfilled.trans (congrArg some heq.symm), ?_⟩
    rw [← heq] at haddress
    exact haddress

/-- A template host that can be saved is reached by a reference exactly when its name is no scheme
that is handled elsewhere, the id is a host, and the template with the id is an address. -/
theorem template_host_reached_iff {forms : HostForms} (hreads : ReadsHosts parseUrl forms)
    {name template : String} (id : String) (hname : validateTemplateHostName name = .ok ())
    (htemplate : validateUrlTemplate lib template = .ok ()) :
    Reached lib parseUrl name id template ↔
      name ∉ ["http", "https", "file", "stdin", "stdio"] ∧ IsHost forms name id ∧
        FillsToAddress lib template id := by
  rw [← rendered_iff id htemplate, ← and_assoc, ← parseTemplateReference_eq_iff hreads hname]
  constructor
  · rintro ⟨hreference, hfilled, haddress⟩
    exact ⟨hreference, hfilled, haddress⟩
  · rintro ⟨hreference, hfilled, haddress⟩
    exact ⟨hreference, hfilled, haddress⟩

end Reaching

section Samples

open HostRoundTrip

/-- A parser of addresses that have nothing but a scheme and a host: a domain of lowercase letters
behind a special scheme, and behind any other one what may stand for a host. -/
def sampleParser (text : String) : Option UrlParts :=
  match Texts.splitAtPart "://".toList text.toList with
  | none => none
  | some (scheme, host) =>
    if String.ofList scheme ∈ specialSchemes then
      if !host.isEmpty && host.all isSchemeStart then
        some ⟨String.ofList scheme, some (String.ofList host), [""]⟩
      else none
    else if !host.isEmpty && host.all isHostChar then
      some ⟨String.ofList scheme, some (String.ofList host), []⟩
    else none

def sampleForms : HostForms where
  isAddress _ := False
  isDomain domain := domain.toList ≠ [] ∧ ∀ c ∈ domain.toList, isSchemeStart c = true
  domain_not_blank domain h := by
    obtain ⟨c, rest, htext⟩ := List.exists_cons_of_ne_nil h.1
    have hc : c ∈ domain.toList := htext ▸ List.mem_cons_self
    refine Texts.isBlank_eq_false hc (isWhitespace_of_isSchemeChar ?_)
    simp [isSchemeChar, h.2 c hc]

/-- The first scheme's end of an address is behind its scheme. -/
theorem splitAtPart_address {scheme : String} (host : String)
    (hscheme : validateTemplateHostName scheme = .ok ()) :
    Texts.splitAtPart "://".toList (scheme ++ "://" ++ host).toList =
      some (scheme.toList, host.toList) := by
  have hcolon : ':' ∉ scheme.toList := fun hmem =>
    absurd (isSchemeChar_of_valid hscheme _ hmem) (by decide)
  have hnot : ¬ ':' :: "//".toList <:+: scheme.toList := fun hfound =>
    hcolon (hfound.mem List.mem_cons_self)
  have htext : (scheme ++ "://" ++ host).toList =
      scheme.toList ++ (':' :: "//".toList ++ host.toList) := by simp
  rw [htext]
  exact Texts.splitAtPart_append_cons (by decide) hnot host.toList

theorem sampleParser_reads : ReadsHosts sampleParser sampleForms where
  reads scheme host hscheme _ hhost := by
    unfold sampleParser
    rw [splitAtPart_address host hscheme]
    dsimp only
    rw [String.ofList_toList, String.ofList_toList]
    cases hhost with
    | special _ hspecial h =>
      have hdomain : (!host.toList.isEmpty && host.toList.all isSchemeStart) = true := by
        simpa [sampleForms] using h
      rw [if_pos hspecial, if_pos hdomain]
      exact ⟨_, rfl, by simp⟩
    | plain _ hother hne h =>
      have hplain : (!host.toList.isEmpty && host.toList.all isHostChar) = true := by
        simpa using And.intro (by simpa using hne) h
      rw [if_neg hother, if_pos hplain]
      exact ⟨_, rfl, by simp⟩
    | bracketed _ _ h => exact h.elim
  hosts text url host hurl hhost := by
    unfold sampleParser at hurl
    split at hurl
    · cases hurl
    · split_ifs at hurl with hspecial hdomain hplain
      · cases hurl
        cases hhost
        exact .special _ hspecial (by simpa [sampleForms] using hdomain)
      · cases hurl
        cases hhost
        rw [Bool.and_eq_true, List.all_eq_true] at hplain
        exact .plain _ hspecial (by simpa using hplain.1) (by simpa using hplain.2)

theorem template_host_reached_sample :
    Reached sampleUrls sampleParser "elastic-cloud" "prod" "https://\x7bid\x7d.example.com/" :=
  (template_host_reached_iff sampleParser_reads "prod" (by decide +kernel) (by decide +kernel)).2
    ⟨by decide +kernel, .plain "prod" (by decide +kernel) (by decide +kernel)
      (List.all_eq_true.1 (by decide +kernel)),
      "https://prod.example.com/", by decide +kernel, by decide +kernel, by decide +kernel⟩

/-- A template host with the name of a handled scheme passes all checks and is never reached. -/
theorem https_template_not_reached :
    validateTemplateHostName "https" = .ok () ∧ isReservedName "https" = false ∧
      validateUrlTemplate sampleUrls "https://\x7bid\x7d.example.com/" = .ok () ∧
      parseTemplateReference sampleParser "https://prod" = .ok none ∧
      ¬Reached sampleUrls sampleParser "https" "prod" "https://\x7bid\x7d.example.com/" := by
  refine ⟨by decide +kernel, by decide +kernel, by decide +kernel, by rfl, ?_⟩
  rintro ⟨hreference, -, -⟩
  cases hreference

end Samples

end Esdiag.TemplateReferences
