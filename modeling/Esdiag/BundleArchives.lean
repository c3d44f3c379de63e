import Esdiag.BundleReceivers

/-!
Archives of a bundle with a single root directory, and the directory that they
unpack to. The names of an archive are those of the bundle's files below the root,
with directories in entries of their own or not. Where the first entry leads to
the root, a plain path is looked up in the archive and below the root alike.
-/
namespace Esdiag.BundleArchives

open BundleReceivers

variable {β α : Type}

section Bundles

/-- A name that can stand in a path. -/
structure IsSegment (name : String) : Prop where
  component : isComponent name = true
  notParent : name ≠ ".."
  noSlash : '/' ∉ name.toList
  noBackslash : '\\' ∉ name.toList

instance (name : String) : Decidable (IsSegment name) :=
  decidable_of_iff (isComponent name = true ∧ name ≠ ".." ∧ '/' ∉ name.toList ∧ '\\' ∉ name.toList)
    ⟨fun h => ⟨h.1, h.2.1, h.2.2.1, h.2.2.2⟩,
      fun h => ⟨h.component, h.notParent, h.noSlash, h.noBackslash⟩⟩

/-- A file below the root, or a directory that has an entry of its own. -/
structure Entry (β : Type) where
  path : List String
  content : Option β

structure Bundle (β : Type) where
  root : String
  entries : List (Entry β)
  rootSegment : IsSegment root
  segments : ∀ entry ∈ entries, ∀ name ∈ entry.path, IsSegment name
  distinct : (entries.map Entry.path).Nodup
  below : ∀ entry ∈ entries, entry.content.isSome = true → entry.path ≠ []
  leaves : ∀ entry ∈ entries, entry.content.isSome = true →
    ∀ other ∈ entries, entry.path <+: other.path → other.path = entry.path

def zipEntry (root : String) (entry : Entry β) : PathText × Node β :=
  match entry.content with
  | some content => (root :: entry.path, .file content)
  | none => (root :: (entry.path ++ [""]), .directory)

/-- The archive of some entries, in their order. -/
def zip (root : String) (order : List (Entry β)) : ZipArchive β := order.map (zipEntry root)

def fileAt (entries : List (Entry β)) (path : List String) : Option β :=
  (entries.find? fun entry => entry.path == path && entry.content.isSome).bind Entry.content

/-- The directory that is the root, unpacked. -/
def unpack (entries : List (Entry β)) : FileTree β := fun path =>
  match fileAt entries path with
  | some content => some (.file content)
  | none =>
    if path = [] ∨ entries.any fun entry => path.isPrefixOf entry.path then some .directory
    else none

/-- A first entry from whose name the root is found: the root itself, a file in the root or in
one of the known subdirectories, or such a subdirectory. -/
def LeadsToRoot (root : String) (path : List String) : Prop :=
  match path with
  | [] => hasExtension root = false ∧ root ∉ knownSubdirectories
  | [name] => hasExtension name = true ∧ root ∉ knownSubdirectories ∨ name ∈ knownSubdirectories
  | [dir, name] => dir ∈ knownSubdirectories ∧ hasExtension name = true
  | _ => False

/-- A path of names between single slashes. -/
def IsPlain (path : PathText) : Prop := path ≠ [] ∧ ∀ name ∈ path, IsSegment name

/-- A subdirectory of plain names, with a slash at the end or not. -/
def IsPlainSubdir (subDir : String) : Prop :=
  ∃ names, IsPlain names ∧ (parts subDir = names ∨ parts subDir = names ++ [""])

end Bundles

section Paths

theorem components_of_plain {path : PathText} (h : ∀ name ∈ path, IsSegment name) :
    components path = path :=
  List.filter_eq_self.mpr fun name hname => (h name hname).component

theorem split_of_segment {name : String} (h : '\\' ∉ name.toList) :
    Texts.split '\\' name = [name] := by
  rw [Texts.split, Texts.splitList_of_notMem h, List.map_singleton, String.ofList_toList]

theorem normalize_of_plain {path : PathText} (h : ∀ name ∈ path, '\\' ∉ name.toList) :
    normalizeArchiveSeparators path = path := by
  induction path with
  | nil => rfl
  | cons name rest ih =>
    rw [List.forall_mem_cons] at h
    rw [normalizeArchiveSeparators, List.flatMap_cons, split_of_segment h.1]
    exact congrArg (name :: ·) (ih h.2)

theorem ne_empty_of_segment {name : String} (h : IsSegment name) : name ≠ "" := by
  rintro rfl
  exact absurd h.component (by decide)

theorem not_isAbsolute_of_plain {path : PathText} (h : IsPlain path) :
    isAbsolute path = false := by
  obtain ⟨hne, hnames⟩ := h
  cases path with
  | nil => exact absurd rfl hne
  | cons name rest =>
    have hname := ne_empty_of_segment (hnames name List.mem_cons_self)
    simp [isAbsolute, hname]

/-- A path behind a base that ends in no slash, or in one. -/
theorem join_of_names {base path : PathText} (hbase : ∀ name ∈ base, name ≠ "")
    (hpath : isAbsolute path = false) :
    join base path = base ++ path ∧ join (base ++ [""]) path = base ++ path := by
  constructor
  · unfold join
    rw [hpath]
    have hlast : base.getLast? ≠ some "" := fun h => hbase "" (List.mem_of_getLast? h) rfl
    simp [hlast]
  · unfold join
    rw [hpath]
    simp

theorem isSegment_of_known {name : String} (h : name ∈ knownSubdirectories) :
    hasExtension name = false ∧ isComponent name = true ∧ name ≠ ".." := by
  simp only [knownSubdirectories, List.mem_cons, List.not_mem_nil, or_false] at h
  rcases h with rfl | rfl | rfl | rfl | rfl | rfl <;> decide

theorem trimRight_concat {base : PathText} {name : String} (h : isComponent name = true) :
    trimRight (base ++ [name]) = base ++ [name] := by
  rw [trimRight, List.rdropWhile_concat_neg]
  simp [h]

theorem trimRight_slash (path : PathText) : trimRight (path ++ [""]) = trimRight path := by
  rw [trimRight, List.rdropWhile_concat_pos]
  · rfl
  · decide

/-- The last name of a path goes, with the slash behind it. -/
theorem pop_concat (base : PathText) {last name : String} (hlast : isComponent last = true)
    (hname : isComponent name = true) :
    pop (base ++ [last] ++ [name]) = base ++ [last] ∧
      pop (base ++ [last] ++ [name] ++ [""]) = base ++ [last] := by
  have htrim : trimRight (base ++ [last] ++ [name]) = base ++ [last] ++ [name] :=
    trimRight_concat hname
  have hparent : trimRight (base ++ [last]) = base ++ [last] := trimRight_concat hlast
  have hpop : ∀ path, trimRight path = base ++ [last] ++ [name] → pop path = base ++ [last] := by
    intro path hpath
    unfold pop
    simp only [hpath, List.dropLast_concat, hparent]
    split
    · rename_i hnil
      exact absurd hnil (by simp)
    · rfl
  exact ⟨hpop _ htrim, hpop _ (by rw [trimRight_slash, htrim])⟩

theorem fileName_concat (base : PathText) {name : String} (hname : isComponent name = true)
    (hparent : name ≠ "..") :
    fileName (base ++ [name]) = some name ∧ fileName (base ++ [name] ++ [""]) = some name := by
  have hslash : components (base ++ [name] ++ [""]) = components (base ++ [name]) := by
    simp only [components, List.filter_append]
    simp [isComponent]
  have hlast : (components (base ++ [name])).getLast? = some name := by
    simp [components, List.filter_append, hname]
  unfold fileName
  rw [hslash, hlast]
  simp [hparent]

/-- What is trimmed from a name in whole components, with a slash at its end or not. -/
theorem trim_concat (base : PathText) {last name : String} (slash : PathText)
    (hslash : slash = [] ∨ slash = [""]) (hlast : IsSegment last) (hname : IsSegment name) :
    trimToWorkingDirectory (base ++ [last] ++ [name] ++ slash) =
      if hasExtension name then
        if last ∈ knownSubdirectories then pop (base ++ [last]) else base ++ [last]
      else if name ∈ knownSubdirectories then base ++ [last]
      else base ++ [last] ++ [name] ++ slash := by
  have hfile := fileName_concat (base ++ [last]) hname.component hname.notParent
  have hpop := pop_concat base hlast.component hname.component
  have hlastName : (components (base ++ [last])).getLast? = some last := by
    simp [components, List.filter_append, hlast.component]
  have hnames : (components (base ++ [last] ++ [name] ++ slash)).getLast? = some name := by
    rcases hslash with rfl | rfl
    · simp [components, List.filter_append, hname.component]
    · simp [components, List.filter_append, hname.component, show isComponent "" = false from rfl]
  have hfile' : fileName (base ++ [last] ++ [name] ++ slash) = some name := by
    rcases hslash with rfl | rfl
    · rw [List.append_nil]
      exact hfile.1
    · exact hfile.2
  have hpop' : pop (base ++ [last] ++ [name] ++ slash) = base ++ [last] := by
    rcases hslash with rfl | rfl
    · rw [List.append_nil]
      exact hpop.1
    · exact hpop.2
  unfold trimToWorkingDirectory
  rw [hfile', Option.any_some]
  cases hasExtension name with
  | true => simp only [if_true, hpop', hlastName, Option.any_some, decide_eq_true_eq]
  | false =>
    simp only [Bool.false_eq_true, if_false, hpop', hnames, Option.any_some, decide_eq_true_eq]

/-- The working directory is the root, with a slash behind it or not. -/
def IsRoot (root : String) (path : PathText) : Prop := path = [root] ∨ path = [root, ""]

theorem isRoot_of_leadsToRoot {bundle : Bundle β} {entry : Entry β} (hentry : entry ∈ bundle.entries)
    (h : LeadsToRoot bundle.root entry.path) :
    IsRoot bundle.root (trimToWorkingDirectory (zipEntry bundle.root entry).1) := by
  have hroot := bundle.rootSegment
  have hnames := bundle.segments entry hentry
  obtain ⟨slash, hslash, hname⟩ : ∃ slash, (slash = [] ∨ slash = [""]) ∧
      (zipEntry bundle.root entry).1 = bundle.root :: (entry.path ++ slash) := by
    unfold zipEntry
    cases entry.content with
    | some content => exact ⟨[], Or.inl rfl, by rw [List.append_nil]⟩
    | none => exact ⟨[""], Or.inr rfl, rfl⟩
  rw [hname]
  rcases hpath : entry.path with _ | ⟨first, _ | ⟨second, _ | ⟨third, rest⟩⟩⟩
  · rw [hpath] at h
    obtain ⟨hextension, hunknown⟩ := h
    have hfile := fileName_concat [] hroot.component hroot.notParent
    have hlast : ∀ slash, slash = [] ∨ slash = [""] →
        (components (bundle.root :: slash)).getLast? = some bundle.root := by
      rintro slash (rfl | rfl)
      · simp [components, hroot.component]
      · simp [components, hroot.component, show isComponent "" = false from rfl]
    have hfile' : fileName (bundle.root :: slash) = some bundle.root := by
      rcases hslash with rfl | rfl
      · exact hfile.1
      · exact hfile.2
    have htrim : trimToWorkingDirectory (bundle.root :: slash) = bundle.root :: slash := by
      unfold trimToWorkingDirectory
      rw [hfile', Option.any_some, hextension]
      simp [hlast slash hslash, hunknown]
    rw [List.nil_append, htrim]
    rcases hslash with rfl | rfl
    · exact Or.inl rfl
    · exact Or.inr rfl
  · rw [hpath] at h hnames
    have hfirst := hnames first List.mem_cons_self
    have htrim := trim_concat [] slash hslash hroot hfirst
    simp only [List.nil_append, List.cons_append] at htrim
    rw [List.singleton_append, htrim]
    rcases h with ⟨hextension, hunknown⟩ | hknown
    · rw [if_pos hextension, if_neg hunknown]
      exact Or.inl rfl
    · rw [(isSegment_of_known hknown).1, if_neg Bool.false_ne_true, if_pos hknown]
      exact Or.inl rfl
  · rw [hpath] at h hnames
    obtain ⟨hknown, hextension⟩ := h
    have hfirst := hnames first List.mem_cons_self
    have hsecond := hnames second (List.mem_cons_of_mem _ List.mem_cons_self)
    have htrim := trim_concat [bundle.root] slash hslash hfirst hsecond
    simp only [List.cons_append, List.nil_append] at htrim
    rw [List.cons_append, List.singleton_append, htrim, if_pos hextension, if_pos hknown]
    have hpop := pop_concat [] hroot.component hfirst.component
    exact Or.inl hpop.1
  · rw [hpath] at h
    cases h

end Paths

section Lookups

theorem fileAt_eq_some_iff {entries : List (Entry β)} (hdistinct : (entries.map Entry.path).Nodup)
    {path : List String} {content : β} :
    fileAt entries path = some content ↔
      ∃ entry ∈ entries, entry.path = path ∧ entry.content = some content := by
  unfold fileAt
  constructor
  · intro h
    obtain ⟨entry, hfound, hcontent⟩ := Option.bind_eq_some_iff.mp h
    have hpath := List.find?_some hfound
    rw [Bool.and_eq_true, beq_iff_eq] at hpath
    exact ⟨entry, List.mem_of_find?_eq_some hfound, hpath.1, hcontent⟩
  · rintro ⟨entry, hentry, hpath, hcontent⟩
    cases hfound : entries.find? fun entry => entry.path == path && entry.content.isSome with
    | none =>
      have hnone := List.find?_eq_none.mp hfound entry hentry
      rw [hcontent, hpath] at hnone
      simp at hnone
    | some other =>
      have hother := List.find?_some hfound
      rw [Bool.and_eq_true, beq_iff_eq] at hother
      have hsame : other = entry :=
        List.inj_on_of_nodup_map hdistinct (List.mem_of_find?_eq_some hfound) hentry
          (hother.1.trans hpath.symm)
      rw [Option.bind_some, hsame, hcontent]

theorem fileAt_perm {entries order : List (Entry β)} (hdistinct : (entries.map Entry.path).Nodup)
    (hperm : order.Perm entries) (path : List String) : fileAt order path = fileAt entries path := by
  have hdistinct' : (order.map Entry.path).Nodup := (hperm.map _).nodup_iff.mpr hdistinct
  apply Option.ext
  intro content
  rw [fileAt_eq_some_iff hdistinct, fileAt_eq_some_iff hdistinct']
  simp only [hperm.mem_iff]

/-- A name without a slash at its end is that of a file. -/
theorem byName_zip (root : String) (order : List (Entry β)) {path : List String}
    (hpath : "" ∉ path) :
    (zip root order).byName (root :: path) = (fileAt order path).map .file := by
  induction order with
  | nil => rfl
  | cons entry rest ih =>
    unfold ZipArchive.byName fileAt at ih ⊢
    rw [zip, List.map_cons, List.find?_cons, List.find?_cons]
    cases hcontent : entry.content with
    | some content =>
      have hname : (zipEntry root entry) = (root :: entry.path, .file content) := by
        rw [zipEntry, hcontent]
      by_cases hsame : entry.path = path
      · simp [hname, hsame, hcontent]
      · simp only [hname, Option.isSome_some, Bool.and_true]
        rw [beq_false_of_ne (a := root :: entry.path) (by simpa using hsame),
          beq_false_of_ne hsame]
        exact ih
    | none =>
      have hname : (zipEntry root entry) = (root :: (entry.path ++ [""]), .directory) := by
        rw [zipEntry, hcontent]
      have hdiffers : root :: (entry.path ++ [""]) ≠ root :: path := by
        intro h
        apply hpath
        rw [← (List.cons.inj h).2]
        exact List.mem_append_right _ (List.mem_singleton_self _)
      simp only [hname, Option.isSome_none, Bool.and_false]
      rw [beq_false_of_ne hdiffers]
      exact ih

end Lookups

end Esdiag.BundleArchives
