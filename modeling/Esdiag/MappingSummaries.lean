import Esdiag.JsonValues
import Esdiag.KeyedFolds

/-!
The summary of an index mapping. A mapping is a tree: a field may have properties
and multi-fields below it. The summary counts the fields of each type and lists the
fields that have multi-fields by their dotted paths, which are put together in one
buffer on the way down. The maps of a mapping have no order of their own: the counts
are the same for every order, and the names are the same up to their order.
-/
namespace Esdiag.MappingSummaries

open KeyedMaps KeyedFolds

/-- A field, with the fields below it in the order in which their maps are read. -/
inductive FieldDefinition where
  | mk (fieldType : Option String) (properties fields : Option (List (String × FieldDefinition)))

abbrev FieldMap := Option (List (String × FieldDefinition))

structure MultiFieldSummary where
  total : ℕ
  names : List String

/-- The path buffer and the counters. A counter has 64 bits, which is more than there can
be fields. -/
structure Walk where
  path : String
  fields : KeyedMap String ℕ
  multiFields : MultiFieldSummary

/-- One more of a kind. -/
def bump (fields : KeyedMap String ℕ) (kind : String) : KeyedMap String ℕ :=
  fields.upsert kind fun held => held.elim 1 (· + 1)

namespace Walk

def pushStr (walk : Walk) (text : String) : Walk := { walk with path := walk.path ++ text }

/-- Shorten the buffer to a byte length, which has to be the end of a character. -/
def truncate (walk : Walk) (length : ℕ) : Option Walk :=
  (Texts.splitAt length walk.path).map fun parts => { walk with path := parts.1 }

/-- Count a field of the given kind, and list it under a path if it has multi-fields. -/
def count (walk : Walk) (path : String) (kind : Option String) (isMultiField : Bool) : Walk :=
  { walk with
    fields := (kind.toList).foldl bump (bump walk.fields "total")
    multiFields :=
      if isMultiField then ⟨walk.multiFields.total + 1, walk.multiFields.names ++ [path]⟩
      else walk.multiFields }

end Walk

/-- The kind that a field is counted as: its type, or an object where it has properties only. -/
def kindOf (fieldType : Option String) (properties : FieldMap) : Option String :=
  match fieldType with
  | some fieldType => some fieldType
  | none => if properties.isSome then some "object" else none

def hasMultiFields (fields : FieldMap) : Bool := fields.any fun entries => !entries.isEmpty

mutual
/-- `FieldDefinition::summarize`; none is the panic of a buffer that is cut within a character. -/
def summarizeField (walk : Walk) : FieldDefinition → Option Walk
  | .mk fieldType properties fields =>
    match summarizeBelow
      (walk.count walk.path (kindOf fieldType properties) (hasMultiFields fields)) properties with
    | none => none
    | some walk => summarizeBelow walk fields

/-- The loop over the properties of a field, or over its multi-fields. -/
def summarizeBelow (walk : Walk) : FieldMap → Option Walk
  | none => some walk
  | some entries =>
    match summarizeEntries (walk.pushStr ".").path.utf8ByteSize (walk.pushStr ".") entries with
    | none => none
    | some below => below.truncate walk.path.utf8ByteSize

def summarizeEntries (dotLen : ℕ) (walk : Walk) : List (String × FieldDefinition) → Option Walk
  | [] => some walk
  | (name, field) :: rest =>
    match summarizeField (walk.pushStr name) field with
    | none => none
    | some below =>
      match below.truncate dotLen with
      | none => none
      | some walk => summarizeEntries dotLen walk rest
end

structure Mappings where
  dynamic : Option String
  dateDetection : Option Bool
  numericDetection : Option Bool
  dynamicDateFormats : Option (List String)
  dynamicTemplates : Option ℕ
  dataStreamTimestamp : Option Bool
  source : Option (Option String)
  metaText : Option String
  properties : FieldMap

structure MappingSummary where
  dynamic : Option String
  dateDetection : Option Bool
  numericDetection : Option Bool
  dynamicDateFormats : Option (List String)
  dynamicTemplates : Option ℕ
  dataStreamTimestamp : Option Bool
  source : Option (Option String)
  metaText : Option String
  fields : KeyedMap String ℕ
  multiFields : MultiFieldSummary

/-- The raw value of `dynamic`, without the quotes of a string. -/
def dynamicText (readJson : String → Option JsonValues.Value) (raw : String) : String :=
  match readJson raw with
  | some (.string text) => text
  | some value => JsonValues.render value
  | none => raw

/-- The loop over the fields at the top, which empties the buffer after each. -/
def summarizeTop (walk : Walk) : List (String × FieldDefinition) → Option Walk
  | [] => some walk
  | (name, field) :: rest =>
    match summarizeField (walk.pushStr name) field with
    | none => none
    | some below => summarizeTop { below with path := "" } rest

def emptyWalk : Walk := ⟨"", .empty, ⟨0, []⟩⟩

/-- `IndexMapping::summarize`. -/
def summarize (readJson : String → Option JsonValues.Value) (mappings : Mappings) :
    Option MappingSummary :=
  (summarizeTop emptyWalk (mappings.properties.getD [])).map fun walk =>
    { dynamic := mappings.dynamic.map (dynamicText readJson)
      dateDetection := mappings.dateDetection
      numericDetection := mappings.numericDetection
      dynamicDateFormats := mappings.dynamicDateFormats
      dynamicTemplates := mappings.dynamicTemplates
      dataStreamTimestamp := mappings.dataStreamTimestamp
      source := mappings.source
      metaText := mappings.metaText
      fields := walk.fields
      multiFields := walk.multiFields }

section Nodes

/-- A field of the tree: its dotted path, its kind, and whether it has multi-fields. -/
structure Node where
  path : String
  kind : Option String
  isMultiField : Bool

mutual
/-- A field and all fields below it. -/
def nodesOf (path : String) : FieldDefinition → List Node
  | .mk fieldType properties fields =>
    ⟨path, kindOf fieldType properties, hasMultiFields fields⟩ ::
      (nodesBelow path properties ++ nodesBelow path fields)

def nodesBelow (path : String) : FieldMap → List Node
  | none => []
  | some entries => nodesIn (path ++ ".") entries

def nodesIn (start : String) : List (String × FieldDefinition) → List Node
  | [] => []
  | (name, field) :: rest => nodesOf (start ++ name) field ++ nodesIn start rest
end

/-- All fields of a mapping. -/
def nodes (mappings : Mappings) : List Node := nodesIn "" (mappings.properties.getD [])

def Walk.countNode (walk : Walk) (node : Node) : Walk :=
  walk.count node.path node.kind node.isMultiField

@[simp] theorem Walk.countNode_path (walk : Walk) (node : Node) :
    (walk.countNode node).path = walk.path := rfl

theorem Walk.foldl_countNode_path (listed : List Node) (walk : Walk) :
    (listed.foldl Walk.countNode walk).path = walk.path := by
  induction listed generalizing walk with
  | nil => rfl
  | cons node rest ih => rw [List.foldl_cons, ih, Walk.countNode_path]

/-- The buffer does not matter to what is counted. -/
theorem Walk.foldl_countNode_withPath (listed : List Node) (walk : Walk) (path : String) :
    listed.foldl Walk.countNode { walk with path } =
      { listed.foldl Walk.countNode walk with path } := by
  induction listed generalizing walk with
  | nil => rfl
  | cons node rest ih =>
    rw [List.foldl_cons, List.foldl_cons, ← ih]
    rfl

theorem Walk.withPath_self {walk : Walk} {path : String} (h : walk.path = path) :
    { walk with path } = walk := by
  subst h
  rfl

/-- What was put on the buffer before some fields were counted is cut off again. -/
theorem Walk.truncate_foldl (walk : Walk) (text : String) (listed : List Node) :
    (listed.foldl Walk.countNode (walk.pushStr text)).truncate walk.path.utf8ByteSize =
      some (listed.foldl Walk.countNode walk) := by
  have hpath : (listed.foldl Walk.countNode walk).path = walk.path :=
    Walk.foldl_countNode_path listed walk
  have hsplit : Texts.splitAt walk.path.utf8ByteSize (walk.path ++ text) =
      some (walk.path, text) := Texts.splitAt_eq_some.mpr ⟨rfl, rfl⟩
  rw [Walk.pushStr, Walk.foldl_countNode_withPath, Walk.truncate]
  simp only [hsplit, Option.map_some]
  exact congrArg some (Walk.withPath_self hpath)

mutual
/-- Below a field its nodes are counted one after another, and the buffer is as before. -/
theorem summarizeField_eq (walk : Walk) (field : FieldDefinition) :
    summarizeField walk field = some ((nodesOf walk.path field).foldl Walk.countNode walk) := by
  obtain ⟨fieldType, properties, fields⟩ := field
  rw [summarizeField, nodesOf, List.foldl_cons, List.foldl_append,
    summarizeBelow_eq _ properties]
  dsimp only
  rw [summarizeBelow_eq _ fields, Walk.foldl_countNode_path]
  rfl

theorem summarizeBelow_eq (walk : Walk) (entries : FieldMap) :
    summarizeBelow walk entries =
      some ((nodesBelow walk.path entries).foldl Walk.countNode walk) := by
  cases entries with
  | none => rfl
  | some entries =>
    rw [summarizeBelow, summarizeEntries_eq (walk.pushStr ".") entries, nodesBelow]
    exact Walk.truncate_foldl walk "." _

theorem summarizeEntries_eq (walk : Walk) (entries : List (String × FieldDefinition)) :
    summarizeEntries walk.path.utf8ByteSize walk entries =
      some ((nodesIn walk.path entries).foldl Walk.countNode walk) := by
  cases entries with
  | nil => rfl
  | cons entry rest =>
    obtain ⟨name, field⟩ := entry
    have hfield := Walk.foldl_countNode_path (nodesOf (walk.path ++ name) field) walk
    have hrest := summarizeEntries_eq
      ((nodesOf (walk.path ++ name) field).foldl Walk.countNode walk) rest
    rw [hfield] at hrest
    rw [summarizeEntries, summarizeField_eq (walk.pushStr name) field, nodesIn, List.foldl_append,
      ← hrest]
    simp only [Walk.truncate_foldl walk name]
    rfl
end

theorem summarizeTop_eq (walk : Walk) (h : walk.path = "")
    (entries : List (String × FieldDefinition)) :
    summarizeTop walk entries = some ((nodesIn "" entries).foldl Walk.countNode walk) := by
  induction entries generalizing walk with
  | nil => rfl
  | cons entry rest ih =>
    obtain ⟨name, field⟩ := entry
    have hpath : ((nodesOf ("" ++ name) field).foldl Walk.countNode walk).path = "" := by
      rw [Walk.foldl_countNode_path, h]
    have hcounted := summarizeField_eq (walk.pushStr name) field
    simp only [Walk.pushStr, h, Walk.foldl_countNode_withPath] at hcounted
    rw [summarizeTop, nodesIn, List.foldl_append, ← ih _ hpath]
    simp only [Walk.pushStr, h, hcounted]
    exact congrArg (fun walk => summarizeTop walk rest) (Walk.withPath_self hpath)

end Nodes

section Counts

def countOf (fields : KeyedMap String ℕ) (kind : String) : ℕ := (fields.find? kind).getD 0

/-- What one field is counted under. -/
def Node.kinds (node : Node) : List String := "total" :: node.kind.toList

theorem bump_eq (fields : KeyedMap String ℕ) (kind : String) :
    (bump fields kind).find? kind = some (countOf fields kind + 1) := by
  rw [bump, KeyedMap.find?_upsert_self, countOf]
  cases fields.find? kind with
  | none => rfl
  | some held => rfl

theorem find?_foldl_bump (kinds : List String) (fields : KeyedMap String ℕ) (kind : String) :
    (kinds.foldl bump fields).find? kind =
      if kind ∈ kinds then some (countOf fields kind + kinds.count kind)
      else fields.find? kind := by
  induction kinds generalizing fields with
  | nil => simp
  | cons first rest ih =>
    rw [List.foldl_cons, ih]
    by_cases hfirst : first = kind
    · subst hfirst
      have hcount : countOf (bump fields first) first = countOf fields first + 1 := by
        rw [countOf, bump_eq, Option.getD_some]
      rw [bump_eq, hcount, if_pos List.mem_cons_self, List.count_cons_self]
      split_ifs with hrest
      · rw [Nat.add_assoc, Nat.add_comm 1]
      · rw [List.count_eq_zero.mpr hrest]
    · have hfind : (bump fields first).find? kind = fields.find? kind :=
        KeyedMap.find?_upsert_of_ne fields (Ne.symm hfirst) _
      have hcount : countOf (bump fields first) kind = countOf fields kind := by
        rw [countOf, hfind, countOf]
      rw [hfind, hcount, List.count_cons_of_ne hfirst]
      simp only [List.mem_cons, Ne.symm hfirst, false_or]

theorem total_foldl_bump (kinds : List String) (fields : KeyedMap String ℕ) :
    (kinds.foldl bump fields).total id = fields.total id + kinds.length := by
  induction kinds generalizing fields with
  | nil => rfl
  | cons first rest ih =>
    have hbump := KeyedMap.total_upsert id fields first fun held => held.elim 1 (· + 1)
    rw [List.foldl_cons, ih, List.length_cons, bump]
    cases hheld : fields.find? first with
    | none =>
      simp only [hheld, Option.elim_none, id_eq] at hbump
      omega
    | some held =>
      simp only [hheld, Option.elim_some, id_eq] at hbump
      omega

theorem fields_foldl_countNode (listed : List Node) (walk : Walk) :
    (listed.foldl Walk.countNode walk).fields =
      (listed.flatMap Node.kinds).foldl bump walk.fields := by
  rw [List.foldl_flatMap]
  exact field_foldl Walk.fields (fun _ _ => rfl) listed walk

theorem names_foldl_countNode (listed : List Node) (walk : Walk) :
    (listed.foldl Walk.countNode walk).multiFields.names =
      walk.multiFields.names ++ (listed.filter (·.isMultiField)).map Node.path := by
  induction listed generalizing walk with
  | nil => simp
  | cons node rest ih =>
    rw [List.foldl_cons, ih]
    cases hmulti : node.isMultiField with
    | false => simp [Walk.countNode, Walk.count, hmulti]
    | true => simp [Walk.countNode, Walk.count, hmulti]

theorem multiTotal_foldl_countNode (listed : List Node) (walk : Walk) :
    (listed.foldl Walk.countNode walk).multiFields.total =
      walk.multiFields.total + listed.countP (·.isMultiField) := by
  induction listed generalizing walk with
  | nil => rfl
  | cons node rest ih =>
    rw [List.foldl_cons, ih]
    cases hmulti : node.isMultiField with
    | false => simp [Walk.countNode, Walk.count, hmulti]
    | true =>
      simp [Walk.countNode, Walk.count, hmulti]
      omega

/-- Every kind that is not the total is counted once for each field of that kind. -/
theorem count_kinds {kind : String} (hkind : kind ≠ "total") (listed : List Node) :
    (listed.flatMap Node.kinds).count kind = listed.countP fun node => node.kind = some kind := by
  induction listed with
  | nil => rfl
  | cons node rest ih =>
    rw [List.flatMap_cons, List.count_append, ih, List.countP_cons, Node.kinds,
      List.count_cons_of_ne (Ne.symm hkind)]
    cases hnode : node.kind with
    | none => simp
    | some found =>
      by_cases hfound : found = kind
      · simp [hfound, Nat.add_comm]
      · simp [hfound]

theorem count_total {listed : List Node} (h : ∀ node ∈ listed, node.kind ≠ some "total") :
    (listed.flatMap Node.kinds).count "total" = listed.length := by
  induction listed with
  | nil => rfl
  | cons node rest ih =>
    rw [List.forall_mem_cons] at h
    rw [List.flatMap_cons, List.count_append, ih h.2, Node.kinds, List.count_cons_self,
      List.length_cons]
    cases hnode : node.kind with
    | none => simp [Nat.add_comm]
    | some found =>
      have hfound : found ≠ "total" := fun heq => h.1 (by rw [hnode, heq])
      simp [hfound, Nat.add_comm]

theorem length_kinds (listed : List Node) :
    (listed.flatMap Node.kinds).length = listed.length + listed.countP (·.kind.isSome) := by
  induction listed with
  | nil => rfl
  | cons node rest ih =>
    rw [List.flatMap_cons, List.length_append, ih, List.countP_cons, Node.kinds,
      List.length_cons, List.length_cons]
    cases node.kind with
    | none =>
      simp
      omega
    | some found =>
      simp
      omega

end Counts

section Orders

mutual
/-- Two fields that differ in the order of the fields below them. -/
inductive SameField : FieldDefinition → FieldDefinition → Prop
  | mk {fieldType : Option String} {properties properties' fields fields' : FieldMap} :
    SameMap properties properties' → SameMap fields fields' →
      SameField (.mk fieldType properties fields) (.mk fieldType properties' fields')

inductive SameMap : FieldMap → FieldMap → Prop
  | none : SameMap none none
  | some {entries entries' : List (String × FieldDefinition)} :
    SameEntries entries entries' → SameMap (some entries) (some entries')

/-- The entries of one map, read in two orders. -/
inductive SameEntries : List (String × FieldDefinition) → List (String × FieldDefinition) → Prop
  | nil : SameEntries [] []
  | cons {name : String} {field field' : FieldDefinition}
    {entries entries' : List (String × FieldDefinition)} :
    SameField field field' → SameEntries entries entries' →
      SameEntries ((name, field) :: entries) ((name, field') :: entries')
  | swap (first second : String × FieldDefinition) (entries : List (String × FieldDefinition)) :
    SameEntries (first :: second :: entries) (second :: first :: entries)
  | trans {left middle right : List (String × FieldDefinition)} :
    SameEntries left middle → SameEntries middle right → SameEntries left right
end

theorem SameEntries.isEmpty_eq {entries entries' : List (String × FieldDefinition)} :
    SameEntries entries entries' → entries.isEmpty = entries'.isEmpty
  | .nil => rfl
  | .cons _ _ => rfl
  | .swap _ _ _ => rfl
  | .trans left right => left.isEmpty_eq.trans right.isEmpty_eq

theorem SameMap.kindOf_eq {fieldType : Option String} {map map' : FieldMap}
    (h : SameMap map map') : kindOf fieldType map = kindOf fieldType map' := by
  cases h <;> rfl

theorem SameMap.hasMultiFields_eq {map map' : FieldMap} (h : SameMap map map') :
    hasMultiFields map = hasMultiFields map' := by
  cases h with
  | none => rfl
  | some hentries =>
    unfold hasMultiFields
    rw [Option.any_some, Option.any_some, hentries.isEmpty_eq]

mutual
/-- The order of siblings changes the order of the fields of a tree, and nothing else. -/
theorem SameField.nodesOf_perm {field field' : FieldDefinition} (path : String) :
    SameField field field' → (nodesOf path field).Perm (nodesOf path field')
  | .mk hproperties hfields => by
    rw [nodesOf, nodesOf, hproperties.kindOf_eq, hfields.hasMultiFields_eq]
    exact ((hproperties.nodesBelow_perm path).append (hfields.nodesBelow_perm path)).cons _

theorem SameMap.nodesBelow_perm {map map' : FieldMap} (path : String) :
    SameMap map map' → (nodesBelow path map).Perm (nodesBelow path map')
  | .none => .refl _
  | .some hentries => hentries.nodesIn_perm (path ++ ".")

theorem SameEntries.nodesIn_perm {entries entries' : List (String × FieldDefinition)}
    (start : String) :
    SameEntries entries entries' → (nodesIn start entries).Perm (nodesIn start entries')
  | .nil => .refl _
  | .cons hfield hentries =>
    (hfield.nodesOf_perm _).append (hentries.nodesIn_perm start)
  | .swap first second entries => by
    rw [nodesIn, nodesIn, nodesIn, nodesIn, ← List.append_assoc, ← List.append_assoc]
    exact List.perm_append_comm.append_right _
  | .trans left right => (left.nodesIn_perm start).trans (right.nodesIn_perm start)
end

theorem SameMap.nodesIn_getD_perm {map map' : FieldMap} (h : SameMap map map') :
    (nodesIn "" (map.getD [])).Perm (nodesIn "" (map'.getD [])) := by
  cases h with
  | none => exact .refl _
  | some hentries => exact hentries.nodesIn_perm ""

end Orders

section Results

/-- What a summary counts of the fields that a mapping has. -/
structure CountsFields (listed : List Node) (summary : MappingSummary) : Prop where
  total : countOf summary.fields "total" = listed.length
  kinds : ∀ kind, kind ≠ "total" →
    countOf summary.fields kind = listed.countP fun node => node.kind = some kind
  typed : (summary.fields.remove "total").total id = listed.countP (·.kind.isSome)
  multiTotal : summary.multiFields.total = summary.multiFields.names.length
  names : summary.multiFields.names = (listed.filter (·.isMultiField)).map Node.path

/-- Two summaries that differ in the order of the listed names only. -/
structure SameCounts (summary summary' : MappingSummary) : Prop where
  fields : ∀ kind, summary.fields.find? kind = summary'.fields.find? kind
  multiTotal : summary.multiFields.total = summary'.multiFields.total
  names : summary.multiFields.names.Perm summary'.multiFields.names
  rest : { summary' with fields := summary.fields, multiFields := summary.multiFields } = summary

variable {readJson : String → Option JsonValues.Value}

theorem summarize_eq_some (mappings : Mappings) :
    ∃ summary, summarize readJson mappings = some summary ∧
      summary.fields = ((nodes mappings).flatMap Node.kinds).foldl bump .empty ∧
      summary.multiFields.total = (nodes mappings).countP (·.isMultiField) ∧
      summary.multiFields.names = ((nodes mappings).filter (·.isMultiField)).map Node.path := by
  unfold summarize
  rw [summarizeTop_eq emptyWalk rfl]
  refine ⟨_, rfl, ?_, ?_, ?_⟩
  · exact fields_foldl_countNode (nodes mappings) emptyWalk
  · exact (multiTotal_foldl_countNode (nodes mappings) emptyWalk).trans (Nat.zero_add _)
  · exact names_foldl_countNode (nodes mappings) emptyWalk

theorem countsFields_of_summarize {mappings : Mappings} {summary : MappingSummary}
    (hkinds : ∀ node ∈ nodes mappings, node.kind ≠ some "total")
    (h : summarize readJson mappings = some summary) : CountsFields (nodes mappings) summary := by
  obtain ⟨found, hfound, hfields, htotal, hnames⟩ := @summarize_eq_some readJson mappings
  obtain rfl := Option.some.inj (h.symm.trans hfound)
  have hcount : ∀ kind, countOf summary.fields kind =
      ((nodes mappings).flatMap Node.kinds).count kind := by
    intro kind
    rw [countOf, hfields, find?_foldl_bump]
    split_ifs with hmem
    · rw [Option.getD_some]
      exact Nat.zero_add _
    · exact (List.count_eq_zero.mpr hmem).symm
  have hall := total_foldl_bump ((nodes mappings).flatMap Node.kinds) .empty
  rw [← hfields, length_kinds, KeyedMap.total_empty, Nat.zero_add] at hall
  have hremove := KeyedMap.total_remove id summary.fields "total"
  have htotalCount := (hcount "total").trans (count_total hkinds)
  refine ⟨htotalCount, ?_, ?_, ?_, hnames⟩
  · intro kind hkind
    rw [hcount, count_kinds hkind]
  · have hfind : (summary.fields.find? "total").elim 0 id = (nodes mappings).length := by
      rw [← htotalCount, countOf]
      cases summary.fields.find? "total" <;> rfl
    omega
  · rw [htotal, hnames, List.length_map, List.countP_eq_length_filter]

theorem sameCounts_of_sameMap {mappings : Mappings} {properties : FieldMap}
    {summary summary' : MappingSummary} (hsame : SameMap mappings.properties properties)
    (h : summarize readJson mappings = some summary)
    (h' : summarize readJson { mappings with properties } = some summary') :
    SameCounts summary summary' := by
  have hrest : { summary' with fields := summary.fields, multiFields := summary.multiFields } =
      summary := by
    unfold summarize at h h'
    obtain ⟨walk, -, rfl⟩ := Option.map_eq_some_iff.mp h
    obtain ⟨walk', -, rfl⟩ := Option.map_eq_some_iff.mp h'
    rfl
  have hperm : (nodes mappings).Perm (nodes { mappings with properties }) := by
    exact hsame.nodesIn_getD_perm
  obtain ⟨found, hfound, hfields, htotal, hnames⟩ := @summarize_eq_some readJson mappings
  obtain rfl := Option.some.inj (h.symm.trans hfound)
  obtain ⟨found', hfound', hfields', htotal', hnames'⟩ :=
    @summarize_eq_some readJson { mappings with properties }
  obtain rfl := Option.some.inj (h'.symm.trans hfound')
  have hkinds := hperm.flatMap_right Node.kinds
  refine ⟨fun kind => ?_, ?_, ?_, hrest⟩
  · rw [hfields, hfields', find?_foldl_bump, find?_foldl_bump, hkinds.count_eq]
    simp only [hkinds.mem_iff]
  · rw [htotal, htotal']
    exact hperm.countP_eq _
  · rw [hnames, hnames']
    exact (hperm.filter _).map _

/-- A summary counts every field once, in whatever order the maps are read, and every field
leaves the buffer as it was. -/
theorem mapping_summary_counts (readJson : String → Option JsonValues.Value)
    (mappings : Mappings) (hkinds : ∀ node ∈ nodes mappings, node.kind ≠ some "total") :
    (∃ summary, summarize readJson mappings = some summary ∧
      CountsFields (nodes mappings) summary ∧
      ∀ properties, SameMap mappings.properties properties →
        ∃ summary', summarize readJson { mappings with properties } = some summary' ∧
          SameCounts summary summary') ∧
      ∀ walk field, ∃ after, summarizeField walk field = some after ∧
        after.path = walk.path := by
  obtain ⟨summary, hsummary, -⟩ := @summarize_eq_some readJson mappings
  refine ⟨⟨summary, hsummary, countsFields_of_summarize hkinds hsummary, ?_⟩, ?_⟩
  · intro properties hsame
    obtain ⟨summary', hsummary', -⟩ := @summarize_eq_some readJson { mappings with properties }
    exact ⟨summary', hsummary', sameCounts_of_sameMap hsame hsummary hsummary'⟩
  · intro walk field
    exact ⟨_, summarizeField_eq walk field, Walk.foldl_countNode_path _ walk⟩

/-- A text with a keyword below it. -/
def textWithKeyword : FieldDefinition :=
  .mk (some "text") none (some [("keyword", .mk (some "keyword") none none)])

/-- A mapping with nothing but its fields. -/
def mappingOf (entries : List (String × FieldDefinition)) : Mappings :=
  { dynamic := none
    dateDetection := none
    numericDetection := none
    dynamicDateFormats := none
    dynamicTemplates := none
    dataStreamTimestamp := none
    source := none
    metaText := none
    properties := some entries }

theorem mapping_summary_counts_sample :
    (∃ summary, summarize (fun _ => none) (mappingOf [("a", textWithKeyword)]) = some summary ∧
      CountsFields (nodes (mappingOf [("a", textWithKeyword)])) summary ∧
      ∀ properties, SameMap (mappingOf [("a", textWithKeyword)]).properties properties →
        ∃ summary', summarize (fun _ => none)
            { mappingOf [("a", textWithKeyword)] with properties } = some summary' ∧
          SameCounts summary summary') ∧
      ∀ walk field, ∃ after, summarizeField walk field = some after ∧ after.path = walk.path :=
  mapping_summary_counts (fun _ => none) (mappingOf [("a", textWithKeyword)]) (by decide +kernel)

/-- Two orders of the same fields, and the names of the multi-fields in each. -/
theorem names_follow_order :
    SameMap (some [("a", textWithKeyword), ("b", textWithKeyword)])
        (some [("b", textWithKeyword), ("a", textWithKeyword)]) ∧
      (summarize (fun _ => none) (mappingOf [("a", textWithKeyword), ("b", textWithKeyword)])).map
        (fun summary => summary.multiFields.names) = some ["a", "b"] ∧
      (summarize (fun _ => none) (mappingOf [("b", textWithKeyword), ("a", textWithKeyword)])).map
        (fun summary => summary.multiFields.names) = some ["b", "a"] := by
  refine ⟨.some (.swap _ _ _), ?_, ?_⟩
  · decide +kernel
  · decide +kernel

end Results

end Esdiag.MappingSummaries
