import Esdiag.BundleArchives
import Mathlib.Data.List.Infix

/-!
A zipped bundle reads like its unpacked directory, where the first entry of the
archive leads to the root and the subdirectory is written in plain names. Reads of
sources and of bundle files come to the same then, whatever the order of the other
entries. A directory is found in the archive at any depth below the subdirectory,
which counts at the top of the archive or directly beneath its root.
-/
namespace Esdiag.ArchiveReading

open BundleReceivers BundleArchives

variable {β α : Type}

section Statements

/-- What a read comes to, apart from the texts of its errors. -/
inductive Kind where
  | unknownSource
  | absent
  | blank
  | failed
  | unparsable
  deriving DecidableEq

def kindOf : ReadError → Kind
  | .noSourceContext | .noSourceConfiguration => .unknownSource
  | .noCandidates | .archiveEntry _ | .notFound _ => .absent
  | .empty _ => .blank
  | .failed _ => .failed
  | .unparsable _ => .unparsable

def outcome (result : Except ReadError α) : Except Kind α := result.mapError kindOf

/-- The names of a subdirectory. -/
def scopeOf (subDir : Option String) : List String :=
  (subDir.map fun subDir => components (parts subDir)).getD []

/-- A plain path at which there is a file, or nothing at all. -/
structure IsFilePath (tree : FileTree β) (scope : List String) (path : String) : Prop where
  plain : IsPlain (parts path)
  notDirectory : isDirectory (tree (scope ++ parts path)) = false
  notBelowFile : ∀ above, above <+: scope ++ parts path → above ≠ scope ++ parts path →
    isFile (tree above) = false

/-- Every read of the archive comes to the same as in the directory. -/
structure ReadsLike (root : String) (scope : List String) (archive : ArchiveReceiver β)
    (directory : DirectoryReceiver β) : Prop where
  sources : ∀ (α : Type) (sources : SourceFiles) (source : DataSource) (format : Format β α),
    (∀ product paths, directory.sourceProduct = some product →
        candidateSourceFilePaths sources source product = some paths →
        ∀ path ∈ paths, IsFilePath directory.tree scope path) →
      outcome (archive.get sources source format) = outcome (directory.get sources source format)
  bundleFiles : ∀ (α : Type) (format : Format β α) (filename : String), IsPlain (parts filename) →
    (archive.readBundleJson format filename).toOption =
      (directory.readBundleJson format filename).toOption
  directories : ∀ dir, archive.hasBundleDir dir = true ↔
    ∃ path above, isDirectory (directory.tree path) = true ∧ root :: path = above ++ [dir] ∧
      (scope <+: above ∨ root :: scope <+: above)
  directory : ∀ dir, parts dir = [dir] → IsSegment dir → directory.hasBundleDir dir = true →
    archive.hasBundleDir dir = true

end Statements

section Files

variable {bundle : Bundle β} {order : List (Entry β)} {subDir : Option String}

theorem scopeOf_some {subDir : String} {names : List String} (hnames : IsPlain names)
    (h : parts subDir = names ∨ parts subDir = names ++ [""]) : scopeOf (some subDir) = names := by
  have hself := components_of_plain hnames.2
  unfold scopeOf
  rw [Option.map_some, Option.getD_some]
  rcases h with h | h
  · rw [h, hself]
  · rw [h, components, List.filter_append]
    have hslash : [""].filter isComponent = [] := by decide
    rw [hslash, List.append_nil]
    exact hself

theorem scopeOf_segments (hplain : ∀ s, subDir = some s → IsPlainSubdir s) :
    ∀ name ∈ scopeOf subDir, IsSegment name := by
  cases subDir with
  | none => exact nofun
  | some subDir =>
    obtain ⟨names, hnames, hparts⟩ := hplain subDir rfl
    rw [scopeOf_some hnames hparts]
    exact hnames.2

/-- A path that is not absolute is looked up below the root of the archive. -/
theorem join_workdir {workdir : PathText} (hroot : IsSegment bundle.root)
    (hworkdir : IsRoot bundle.root workdir) {path : PathText} (habsolute : isAbsolute path = false) :
    join workdir path = bundle.root :: path := by
  have hbase : ∀ name ∈ [bundle.root], name ≠ "" := by
    intro name hname
    rw [List.mem_singleton.mp hname]
    exact ne_empty_of_segment hroot
  have hjoin := join_of_names hbase habsolute
  rcases hworkdir with rfl | rfl
  · exact hjoin.1
  · exact hjoin.2

theorem not_isAbsolute_parts {subDir : String} {names : List String} (hnames : IsPlain names)
    (h : parts subDir = names ∨ parts subDir = names ++ [""]) : isAbsolute (parts subDir) = false := by
  obtain ⟨name, others, rfl⟩ := List.exists_cons_of_ne_nil hnames.1
  have hname := ne_empty_of_segment (hnames.2 name List.mem_cons_self)
  rcases h with h | h
  · rw [h]
    simp [isAbsolute, hname]
  · rw [h]
    simp [isAbsolute, hname]

theorem join_scope {subDir : String} {names : List String} (hnames : IsPlain names)
    (h : parts subDir = names ∨ parts subDir = names ++ [""]) {path : PathText}
    (hpath : IsPlain path) (above : List String) (habove : ∀ name ∈ above, name ≠ "") :
    join (above ++ parts subDir) path = above ++ names ++ path := by
  have hbase : ∀ name ∈ above ++ names, name ≠ "" := by
    intro name hname
    rcases List.mem_append.mp hname with hname | hname
    · exact habove name hname
    · exact ne_empty_of_segment (hnames.2 name hname)
  have hjoin := join_of_names hbase (not_isAbsolute_of_plain hpath)
  rcases h with h | h
  · rw [h]
    exact hjoin.1
  · rw [h, ← List.append_assoc]
    exact hjoin.2

theorem noBackslash_of_plain {names : List String} (hroot : IsSegment bundle.root)
    (hnames : ∀ name ∈ names, IsSegment name) :
    ∀ name ∈ bundle.root :: names, '\\' ∉ name.toList := by
  intro name hname
  rcases List.mem_cons.mp hname with rfl | hname
  · exact hroot.noBackslash
  · exact (hnames name hname).noBackslash

theorem byName_eq_none {root : String} (hroot : root ≠ "")
    (hsegments : ∀ entry ∈ order, ∀ name ∈ entry.path, name ≠ "") {name : PathText}
    (hslash : "" ∈ name.dropLast) : (zip root order).byName name = none := by
  unfold ZipArchive.byName
  rw [Option.map_eq_none_iff, List.find?_eq_none]
  intro named hnamed
  obtain ⟨entry, hentry, rfl⟩ := List.mem_map.mp hnamed
  rw [beq_iff_eq]
  rintro rfl
  have hpath : "" ∉ root :: entry.path := by
    rw [List.mem_cons, not_or]
    exact ⟨hroot.symm, fun hmem => hsegments entry hentry "" hmem rfl⟩
  unfold zipEntry at hslash
  cases hcontent : entry.content with
  | some content =>
    rw [hcontent] at hslash
    exact hpath (List.dropLast_subset _ hslash)
  | none =>
    rw [hcontent] at hslash
    simp only at hslash
    rw [← List.cons_append, List.dropLast_concat] at hslash
    exact hpath hslash

/-- The name with two slashes, which is tried behind the plain one, is no entry's. -/
theorem byName_doubled (hperm : order.Perm bundle.entries) (dir : PathText) {path : PathText}
    (hpath : IsPlain path) : (zip bundle.root order).byName (dir ++ "" :: path) = none := by
  refine byName_eq_none (ne_empty_of_segment bundle.rootSegment)
    (fun entry hentry name hname => ?_) ?_
  · exact ne_empty_of_segment (bundle.segments entry (hperm.mem_iff.mp hentry) name hname)
  · obtain ⟨name, others, rfl⟩ := List.exists_cons_of_ne_nil hpath.1
    rw [List.dropLast_append_of_ne_nil (List.cons_ne_nil _ _),
      List.dropLast_cons_of_ne_nil (List.cons_ne_nil _ _)]
    exact List.mem_append_right _ List.mem_cons_self

/-- A name is resolved below the root and the subdirectory, if there is a file. -/
theorem exists_resolveArchivePath (hperm : order.Perm bundle.entries) {first : Entry β}
    {rest : List (Entry β)} (horder : order = first :: rest)
    (hleads : LeadsToRoot bundle.root first.path)
    (hplain : ∀ s, subDir = some s → IsPlainSubdir s) {path : PathText} (hpath : IsPlain path)
    (hbyName : (zip bundle.root order).byName (bundle.root :: (scopeOf subDir ++ path)) =
      (fileAt bundle.entries (scopeOf subDir ++ path)).map .file) :
    ∃ missing, resolveArchivePath (subDir.map parts) (zip bundle.root order) path =
      if (fileAt bundle.entries (scopeOf subDir ++ path)).isSome then
        .ok (bundle.root :: (scopeOf subDir ++ path)) else .error (.archiveEntry missing) := by
  have hmem : first ∈ bundle.entries := by
    rw [← hperm.mem_iff, horder]
    exact List.mem_cons_self
  have hworkdir := isRoot_of_leadsToRoot hmem hleads
  have hscope := scopeOf_segments hplain
  have hnormal := normalize_of_plain (noBackslash_of_plain bundle.rootSegment
    (List.forall_mem_append.mpr ⟨hscope, hpath.2⟩))
  have hzip : zip bundle.root order =
      zipEntry bundle.root first :: zip bundle.root rest := by rw [horder]; rfl
  cases subDir with
  | none =>
    refine ⟨bundle.root :: path, ?_⟩
    have hjoin := join_workdir bundle.rootSegment hworkdir (not_isAbsolute_of_plain hpath)
    rw [hzip, Option.map_none, resolveArchivePath]
    simp only [hjoin]
    change normalizeArchiveSeparators (bundle.root :: path) = bundle.root :: path at hnormal
    rw [hnormal, ← hzip]
    change (zip bundle.root order).byName (bundle.root :: path) = _ at hbyName
    rw [hbyName, Option.isSome_map]
    rfl
  | some subDir =>
    obtain ⟨names, hplainNames, hparts⟩ := hplain subDir rfl
    rw [scopeOf_some hplainNames hparts] at hnormal hbyName ⊢
    have hdir := join_workdir bundle.rootSegment hworkdir (not_isAbsolute_parts hplainNames hparts)
    have hjoin : join (bundle.root :: parts subDir) path = bundle.root :: (names ++ path) :=
      join_scope hplainNames hparts hpath [bundle.root] fun name hname => by
        rw [List.mem_singleton.mp hname]
        exact ne_empty_of_segment bundle.rootSegment
    refine ⟨normalizeArchiveSeparators (bundle.root :: parts subDir) ++ "" :: path, ?_⟩
    rw [hzip, Option.map_some, resolveArchivePath]
    simp only [hdir, hjoin]
    rw [hnormal, ← hzip, hbyName, Option.isSome_map, byName_doubled hperm _ hpath]
    rfl

/-- An archive that leads to the root finds a file where there is one below the root. -/
theorem find_archive (hperm : order.Perm bundle.entries)
    (hfirst : ∃ first, order.head? = some first ∧ LeadsToRoot bundle.root first.path)
    (hplain : ∀ s, subDir = some s → IsPlainSubdir s) (product : Option String) {path : PathText}
    (hpath : IsPlain path) :
    (∃ content, fileAt bundle.entries (scopeOf subDir ++ path) = some content ∧
        ArchiveReceiver.find ⟨zip bundle.root order, subDir.map parts, product⟩ path =
          .file (bundle.root :: (scopeOf subDir ++ path)) content) ∨
      fileAt bundle.entries (scopeOf subDir ++ path) = none ∧
        ∃ missing, ArchiveReceiver.find ⟨zip bundle.root order, subDir.map parts, product⟩ path =
          .absent (.archiveEntry missing) := by
  obtain ⟨first, hhead, hleads⟩ := hfirst
  obtain ⟨rest, horder⟩ := List.head?_eq_some_iff.mp hhead
  have hslash : "" ∉ scopeOf subDir ++ path := by
    intro hmem
    have hsegment := List.forall_mem_append.mpr ⟨scopeOf_segments hplain, hpath.2⟩ "" hmem
    exact ne_empty_of_segment hsegment rfl
  have hbyName := byName_zip bundle.root order hslash
  rw [fileAt_perm bundle.distinct hperm] at hbyName
  obtain ⟨missing, hresolve⟩ :=
    exists_resolveArchivePath hperm horder hleads hplain hpath hbyName
  unfold ArchiveReceiver.find
  simp only
  rw [hresolve]
  cases hfile : fileAt bundle.entries (scopeOf subDir ++ path) with
  | some content =>
    rw [hfile] at hbyName
    refine Or.inl ⟨content, rfl, ?_⟩
    simp [hbyName]
  | none => exact Or.inr ⟨rfl, missing, by simp⟩

theorem unpack_eq_file_iff {entries : List (Entry β)} {path : List String} {content : β} :
    unpack entries path = some (.file content) ↔ fileAt entries path = some content := by
  unfold unpack
  cases hfile : fileAt entries path with
  | some other => simp
  | none =>
    simp only [reduceCtorEq, iff_false]
    split <;> exact nofun

theorem components_join (hplain : ∀ s, subDir = some s → IsPlainSubdir s) {path : PathText}
    (hpath : IsPlain path) :
    components (join ((subDir.map parts).getD [""]) path) = scopeOf subDir ++ path := by
  have hnames : ∀ name ∈ scopeOf subDir ++ path, IsSegment name := by
    intro name hname
    rcases List.mem_append.mp hname with hname | hname
    · exact scopeOf_segments hplain name hname
    · exact hpath.2 name hname
  have hjoin : join ((subDir.map parts).getD [""]) path = scopeOf subDir ++ path := by
    cases subDir with
    | none => exact (@join_of_names [] _ nofun (not_isAbsolute_of_plain hpath)).2
    | some subDir =>
      obtain ⟨names, hplainNames, hparts⟩ := hplain subDir rfl
      rw [scopeOf_some hplainNames hparts]
      exact join_scope hplainNames hparts hpath [] nofun
  rw [hjoin]
  exact components_of_plain hnames

/-- The directory finds the same file, where nothing but a file can be at the path. -/
theorem find_directory (hplain : ∀ s, subDir = some s → IsPlainSubdir s)
    (product : Option String) {path : String} (hpath : IsPlain (parts path)) :
    (∃ content filename, fileAt bundle.entries (scopeOf subDir ++ parts path) = some content ∧
        DirectoryReceiver.find ⟨unpack bundle.entries, (subDir.map parts).getD [""], product⟩
          (parts path) = .file filename content) ∨
      fileAt bundle.entries (scopeOf subDir ++ parts path) = none ∧ ∃ error,
        (DirectoryReceiver.find ⟨unpack bundle.entries, (subDir.map parts).getD [""], product⟩
            (parts path) = .absent error ∨
          DirectoryReceiver.find ⟨unpack bundle.entries, (subDir.map parts).getD [""], product⟩
            (parts path) = .failed error) ∧
        (IsFilePath (unpack bundle.entries) (scopeOf subDir) path →
          DirectoryReceiver.find ⟨unpack bundle.entries, (subDir.map parts).getD [""], product⟩
            (parts path) = .absent error ∧ kindOf error = .absent) := by
  have hcomponents := components_join hplain hpath
  unfold DirectoryReceiver.find
  simp only [hcomponents]
  cases hfile : fileAt bundle.entries (scopeOf subDir ++ parts path) with
  | some content =>
    have htree := unpack_eq_file_iff.mpr hfile
    simp only [htree]
    exact Or.inl ⟨content, _, rfl, rfl⟩
  | none =>
    refine Or.inr ⟨rfl, ?_⟩
    cases htree : unpack bundle.entries (scopeOf subDir ++ parts path) with
    | some node =>
      cases node with
      | file content =>
        rw [unpack_eq_file_iff, hfile] at htree
        cases htree
      | directory =>
        refine ⟨_, Or.inr rfl, fun hregular => ?_⟩
        have hdirectory := hregular.notDirectory
        rw [htree] at hdirectory
        cases hdirectory
    | none =>
      by_cases hbelow : ((scopeOf subDir ++ parts path).inits.any fun above =>
          isFile (unpack bundle.entries above)) = true
      · simp only [if_pos hbelow]
        refine ⟨_, Or.inr rfl, fun hregular => ?_⟩
        obtain ⟨above, habove, hmatches⟩ := List.any_eq_true.mp hbelow
        have hstart := (List.mem_inits _ _).mp habove
        have hne : above ≠ scopeOf subDir ++ parts path := by
          rintro rfl
          rw [htree] at hmatches
          cases hmatches
        rw [hregular.notBelowFile above hstart hne] at hmatches
        cases hmatches
      · simp only [if_neg hbelow]
        exact ⟨_, Or.inl rfl, fun _ => ⟨rfl, rfl⟩⟩

end Files

section Reads

theorem kindOf_getD {lastError lastError' : Option ReadError}
    (h : lastError.map kindOf = lastError'.map kindOf) :
    kindOf (lastError.getD .noCandidates) = kindOf (lastError'.getD .noCandidates) := by
  cases lastError with
  | none =>
    cases lastError' with
    | none => rfl
    | some error' => cases h
  | some error =>
    cases lastError' with
    | none => cases h
    | some error' => exact Option.some.inj h

/-- Two ways to look files up that agree on the candidates. -/
theorem outcome_readCandidates {find find' : PathText → Found β} {format : Format β α}
    {paths : List PathText} {lastError lastError' : Option ReadError}
    (hlast : lastError.map kindOf = lastError'.map kindOf)
    (h : ∀ path ∈ paths,
      (∃ filename filename' content,
          find path = .file filename content ∧ find' path = .file filename' content) ∨
        ∃ error error', find path = .absent error ∧ find' path = .absent error' ∧
          kindOf error = kindOf error') :
    outcome (readCandidates find format lastError paths) =
      outcome (readCandidates find' format lastError' paths) := by
  induction paths generalizing lastError lastError' with
  | nil => exact congrArg Except.error (kindOf_getD hlast)
  | cons path rest ih =>
    have hrest := fun other hother => h other (List.mem_cons_of_mem path hother)
    unfold readCandidates
    rcases h path List.mem_cons_self with
      ⟨filename, filename', content, hfind, hfind'⟩ | ⟨error, error', hfind, hfind', hkind⟩
    · simp only [hfind, hfind']
      by_cases hjson : format.hasJson content = true
      · simp only [if_pos hjson]
        cases format.parse content <;> rfl
      · simp only [if_neg hjson]
        exact ih rfl hrest
    · simp only [hfind, hfind']
      exact ih (congrArg some hkind) hrest

end Reads

section Directories

theorem namesDir_iff (dir : String) (explicitDirEntry : Bool) (names : List String) :
    namesDir dir explicitDirEntry names = true ↔
      ∃ above below, names = above ++ dir :: below ∧
        (below ≠ [] ∨ explicitDirEntry = true) := by
  induction names with
  | nil => simp [namesDir]
  | cons name rest ih =>
    rw [namesDir, Bool.or_eq_true, ih]
    constructor
    · rintro (h | ⟨above, below, rfl, hbelow⟩)
      · simp only [Bool.and_eq_true, beq_iff_eq, Bool.or_eq_true, Bool.not_eq_true',
          List.isEmpty_eq_false_iff] at h
        exact ⟨[], rest, by rw [h.1]; rfl, h.2⟩
      · exact ⟨name :: above, below, rfl, hbelow⟩
    · rintro ⟨above, below, hnames, hbelow⟩
      cases above with
      | nil =>
        obtain ⟨rfl, rfl⟩ := List.cons.inj hnames
        left
        simpa using hbelow
      | cons first others =>
        obtain ⟨-, rfl⟩ := List.cons.inj hnames
        exact Or.inr ⟨others, below, rfl, hbelow⟩

theorem windowPosition_zero {window names : List String} (hne : window ≠ []) :
    windowPosition window names = some 0 ↔ window <+: names := by
  cases names with
  | nil => simpa [windowPosition] using hne
  | cons name rest =>
    unfold windowPosition
    by_cases hstart : window.isPrefixOf (name :: rest) = true
    · rw [if_pos hstart]
      exact ⟨fun _ => List.isPrefixOf_iff_prefix.mp hstart, fun _ => rfl⟩
    · rw [if_neg hstart, ← List.isPrefixOf_iff_prefix]
      simp [hstart]

theorem windowPosition_one {window rest : List String} (hne : window ≠ []) (name : String) :
    windowPosition window (name :: rest) = some 1 ↔
      ¬ window <+: name :: rest ∧ window <+: rest := by
  rw [← windowPosition_zero hne, ← @windowPosition_zero window rest hne]
  rw [windowPosition]
  by_cases hstart : window.isPrefixOf (name :: rest) = true
  · simp [hstart]
  · simp [hstart]

/-- The names behind the subdirectory, which stands at the top or beneath the root. -/
theorem scopeStart_iff (scope : List String) (root dir : String) (explicitDirEntry : Bool)
    (path : List String) :
    (match scopeStart scope (root :: path) with
      | some start => namesDir dir explicitDirEntry ((root :: path).drop start)
      | none => false) = true ↔
      ∃ above below, root :: path = above ++ dir :: below ∧
        (below ≠ [] ∨ explicitDirEntry = true) ∧
        (scope <+: above ∨ root :: scope <+: above) := by
  by_cases hscope : scope = []
  · subst hscope
    simp only [scopeStart, if_true, List.drop_zero, namesDir_iff]
    simp only [List.nil_prefix, true_or, and_true]
  · have hdrop : ∀ start, namesDir dir explicitDirEntry ((root :: path).drop start) = true →
        ∃ above below, root :: path = above ++ dir :: below ∧
          (below ≠ [] ∨ explicitDirEntry = true) ∧ (root :: path).take start <+: above := by
      intro start hnames
      obtain ⟨above, below, heq, hbelow⟩ := (namesDir_iff _ _ _).mp hnames
      refine ⟨(root :: path).take start ++ above, below, ?_, hbelow, List.prefix_append _ _⟩
      rw [List.append_assoc, ← heq, List.take_append_drop]
    have hback : ∀ start above below, root :: path = above ++ dir :: below →
        (below ≠ [] ∨ explicitDirEntry = true) → start ≤ above.length →
        namesDir dir explicitDirEntry ((root :: path).drop start) = true := by
      intro start above below heq hbelow hlength
      refine (namesDir_iff _ _ _).mpr ⟨above.drop start, below, ?_, hbelow⟩
      rw [heq, List.drop_append_of_le_length hlength]
    constructor
    · intro h
      unfold scopeStart at h
      rw [if_neg hscope] at h
      cases hposition : windowPosition scope (root :: path) with
      | none => simp [hposition] at h
      | some position =>
        by_cases hdepth : position ≤ 1
        · simp only [hposition, if_pos hdepth] at h
          obtain ⟨above, below, heq, hbelow, habove⟩ := hdrop _ h
          refine ⟨above, below, heq, hbelow, ?_⟩
          rcases Nat.le_one_iff_eq_zero_or_eq_one.mp hdepth with rfl | rfl
          · left
            obtain ⟨rest, hrest⟩ := (windowPosition_zero hscope).mp hposition
            rw [← hrest, Nat.zero_add, List.take_left] at habove
            exact habove
          · right
            obtain ⟨-, rest, hrest⟩ := (windowPosition_one hscope root).mp hposition
            rw [← hrest, Nat.add_comm, List.take_succ_cons, List.take_left] at habove
            exact habove
        · simp [hposition, if_neg hdepth] at h
    · rintro ⟨above, below, heq, hbelow, hscoped⟩
      unfold scopeStart
      rw [if_neg hscope]
      by_cases htop : scope <+: root :: path
      · rw [(windowPosition_zero hscope).mpr htop]
        simp only [Nat.zero_le, if_true]
        refine hback _ above below heq hbelow ?_
        rcases hscoped with h | h
        · have := h.length_le
          omega
        · have := h.length_le
          rw [List.length_cons] at this
          omega
      · have hbeneath : root :: scope <+: above := by
          refine hscoped.resolve_left fun h => htop ?_
          rw [heq]
          exact h.trans (List.prefix_append _ _)
        have hpath : scope <+: path := by
          have h := hbeneath.trans (List.prefix_append above (dir :: below))
          rw [← heq] at h
          exact (List.cons_prefix_cons.mp h).2
        rw [(windowPosition_one hscope root).mpr ⟨htop, hpath⟩]
        simp only [Nat.le_refl, if_true]
        refine hback _ above below heq hbelow ?_
        have := hbeneath.length_le
        rw [List.length_cons] at this
        omega

variable {bundle : Bundle β} {order : List (Entry β)} {subDir : Option String}

/-- The directories of a bundle are those above its entries, and those with an entry. -/
theorem isDirectory_unpack (hne : bundle.entries ≠ []) (path : List String) :
    isDirectory (unpack bundle.entries path) = true ↔
      ∃ entry ∈ bundle.entries, ∃ below, entry.path = path ++ below ∧
        (below ≠ [] ∨ entry.content.isNone = true) := by
  unfold unpack
  constructor
  · intro h
    cases hfile : fileAt bundle.entries path with
    | some content => simp [hfile, isDirectory] at h
    | none =>
      obtain ⟨entry, hentry, below, hbelow⟩ : ∃ entry ∈ bundle.entries, path <+: entry.path := by
        simp only [hfile] at h
        split at h
        · rename_i habove
          rcases habove with rfl | habove
          · obtain ⟨entry, rest, hentries⟩ := List.exists_cons_of_ne_nil hne
            exact ⟨entry, hentries ▸ List.mem_cons_self, List.nil_prefix⟩
          · obtain ⟨entry, hentry, hstart⟩ := List.any_eq_true.mp habove
            exact ⟨entry, hentry, List.isPrefixOf_iff_prefix.mp hstart⟩
        · cases h
      refine ⟨entry, hentry, below, hbelow.symm, ?_⟩
      by_cases hnil : below = []
      · right
        subst hnil
        rw [List.append_nil] at hbelow
        cases hcontent : entry.content with
        | none => rfl
        | some content =>
          have hsome := (fileAt_eq_some_iff bundle.distinct).mpr
            ⟨entry, hentry, hbelow.symm, hcontent⟩
          rw [hfile] at hsome
          cases hsome
      · exact Or.inl hnil
  · rintro ⟨entry, hentry, below, hpath, hbelow⟩
    have hstart : path <+: entry.path := ⟨below, hpath.symm⟩
    have hany : (bundle.entries.any fun entry => path.isPrefixOf entry.path) = true :=
      List.any_eq_true.mpr ⟨entry, hentry, List.isPrefixOf_iff_prefix.mpr hstart⟩
    cases hfile : fileAt bundle.entries path with
    | none => simp [hany, isDirectory]
    | some content =>
      obtain ⟨other, hother, rfl, hcontent⟩ := (fileAt_eq_some_iff bundle.distinct).mp hfile
      have hsome : other.content.isSome = true := by rw [hcontent]; rfl
      have hsame := bundle.leaves other hother hsome entry hentry hstart
      have heq : entry = other := List.inj_on_of_nodup_map bundle.distinct hentry hother hsame
      rw [hsame] at hpath
      have hnil : below = [] := List.append_right_eq_self.mp hpath.symm
      rcases hbelow with hne | hnone
      · exact absurd hnil hne
      · rw [heq, hcontent] at hnone
        cases hnone

theorem zipEntry_names {root : String} (hroot : IsSegment root) {entry : Entry β}
    (hpath : ∀ name ∈ entry.path, IsSegment name) :
    normalizeArchiveSeparators (zipEntry root entry).1 = (zipEntry root entry).1 ∧
      (zipEntry root entry).1.filter (· != "") = root :: entry.path ∧
      ((zipEntry root entry).1.getLast? == some "") = entry.content.isNone := by
  have hnames : ∀ name ∈ root :: entry.path, IsSegment name := by
    rw [List.forall_mem_cons]
    exact ⟨hroot, hpath⟩
  have hfilter : (root :: entry.path).filter (· != "") = root :: entry.path := by
    refine List.filter_eq_self.mpr fun name hname => ?_
    simpa using ne_empty_of_segment (hnames name hname)
  unfold zipEntry
  cases entry.content with
  | some content =>
    refine ⟨normalize_of_plain fun name hname => (hnames name hname).noBackslash, hfilter, ?_⟩
    have hlast : (root :: entry.path).getLast? ≠ some "" := fun h =>
      ne_empty_of_segment (hnames "" (List.mem_of_getLast? h)) rfl
    simpa using hlast
  | none =>
    simp only [← List.cons_append]
    refine ⟨normalize_of_plain ?_, ?_, ?_⟩
    · intro name hname
      rcases List.mem_append.mp hname with hname | hname
      · exact (hnames name hname).noBackslash
      · rw [List.mem_singleton.mp hname]
        decide
    · rw [List.filter_append, hfilter]
      simp
    · rw [List.getLast?_concat]
      rfl

theorem subdirComponents_eq (hplain : ∀ s, subDir = some s → IsPlainSubdir s) :
    (((subDir.map parts).map fun subdir =>
      (normalizeArchiveSeparators subdir).filter (· != "")).getD []) = scopeOf subDir := by
  cases subDir with
  | none => rfl
  | some subDir =>
    obtain ⟨names, hnames, hparts⟩ := hplain subDir rfl
    have hfilter : names.filter (· != "") = names := by
      refine List.filter_eq_self.mpr fun name hname => ?_
      simpa using ne_empty_of_segment (hnames.2 name hname)
    rw [scopeOf_some hnames hparts, Option.map_some, Option.map_some, Option.getD_some]
    rcases hparts with h | h
    · rw [h, normalize_of_plain fun name hname => (hnames.2 name hname).noBackslash, hfilter]
    · rw [h, normalize_of_plain, List.filter_append, hfilter]
      · simp
      · intro name hname
        rcases List.mem_append.mp hname with hname | hname
        · exact (hnames.2 name hname).noBackslash
        · rw [List.mem_singleton.mp hname]
          decide

/-- The archive answers for a directory of the name at any depth below the subdirectory. -/
theorem hasBundleDir_iff (hperm : order.Perm bundle.entries) (hne : bundle.entries ≠ [])
    (hplain : ∀ s, subDir = some s → IsPlainSubdir s) (product : Option String) (dir : String) :
    ArchiveReceiver.hasBundleDir ⟨zip bundle.root order, subDir.map parts, product⟩ dir = true ↔
      ∃ path above, isDirectory (unpack bundle.entries path) = true ∧
        bundle.root :: path = above ++ [dir] ∧
        (scopeOf subDir <+: above ∨ bundle.root :: scopeOf subDir <+: above) := by
  unfold ArchiveReceiver.hasBundleDir archiveHasDir
  simp only [subdirComponents_eq hplain, List.any_eq_true, zip, List.map_map, List.mem_map]
  constructor
  · rintro ⟨name, ⟨entry, hentry, rfl⟩, h⟩
    have hmem := hperm.mem_iff.mp hentry
    obtain ⟨hnormal, hfilter, hlast⟩ :=
      zipEntry_names bundle.rootSegment (bundle.segments entry hmem)
    simp only [Function.comp_apply, hnormal, hfilter, hlast] at h
    obtain ⟨above, below, heq, hbelow, hscope⟩ := (scopeStart_iff _ _ _ _ _).mp h
    obtain ⟨path, hpath⟩ : ∃ path, bundle.root :: path = above ++ [dir] := by
      cases above with
      | nil =>
        obtain ⟨rfl, -⟩ := List.cons.inj heq
        exact ⟨[], rfl⟩
      | cons first others =>
        obtain ⟨rfl, -⟩ := List.cons.inj heq
        exact ⟨others ++ [dir], rfl⟩
    refine ⟨path, above, (isDirectory_unpack hne path).mpr ⟨entry, hmem, below, ?_, hbelow⟩, hpath,
      hscope⟩
    rw [← List.append_cancel_left_eq [bundle.root], List.singleton_append, heq,
      ← List.append_assoc, List.singleton_append, hpath, List.append_assoc]
    rfl
  · rintro ⟨path, above, hdirectory, hpath, hscope⟩
    obtain ⟨entry, hmem, below, hentry, hbelow⟩ := (isDirectory_unpack hne path).mp hdirectory
    obtain ⟨hnormal, hfilter, hlast⟩ :=
      zipEntry_names bundle.rootSegment (bundle.segments entry hmem)
    refine ⟨_, ⟨entry, hperm.mem_iff.mpr hmem, rfl⟩, ?_⟩
    simp only [Function.comp_apply, hnormal, hfilter, hlast]
    refine (scopeStart_iff _ _ _ _ _).mpr ⟨above, below, ?_, hbelow, hscope⟩
    rw [hentry, ← List.cons_append, hpath, List.append_assoc]
    rfl

end Directories

section Results

/-- In every order of a bundle's entries that leads to its root, the archive reads like the
directory that it unpacks to, below every plain subdirectory. -/
theorem archive_reads_like_directory (bundle : Bundle β) {order : List (Entry β)}
    (hperm : order.Perm bundle.entries)
    (hfirst : ∃ first, order.head? = some first ∧ LeadsToRoot bundle.root first.path)
    {subDir : Option String} (hplain : ∀ s, subDir = some s → IsPlainSubdir s)
    (product : Option String) :
    ReadsLike bundle.root (scopeOf subDir) ⟨zip bundle.root order, subDir.map parts, product⟩
      ⟨unpack bundle.entries, (subDir.map parts).getD [""], product⟩ := by
  have hne : bundle.entries ≠ [] := by
    rintro hnil
    obtain ⟨first, hhead, -⟩ := hfirst
    rw [hnil] at hperm
    rw [hperm.eq_nil] at hhead
    cases hhead
  refine ⟨?_, ?_, fun dir => hasBundleDir_iff hperm hne hplain product dir, ?_⟩
  · intro α sources source format hregular
    unfold ArchiveReceiver.get DirectoryReceiver.get readSource
    cases hpaths : sourcePaths sources source product with
    | error error => rfl
    | ok paths =>
      simp only
      refine outcome_readCandidates rfl fun path hpath => ?_
      obtain ⟨known, written, hknown, hcandidates, hwritten⟩ :
          ∃ known written, product = some known ∧
            candidateSourceFilePaths sources source known = some written ∧
            paths = written.map parts := by
        unfold sourcePaths at hpaths
        cases product with
        | none => cases hpaths
        | some known =>
          cases hcandidates : candidateSourceFilePaths sources source known with
          | none => simp [hcandidates] at hpaths
          | some written =>
            simp only [hcandidates, Except.ok.injEq] at hpaths
            exact ⟨known, written, rfl, hcandidates, hpaths.symm⟩
      rw [hwritten] at hpath
      obtain ⟨text, htext, rfl⟩ := List.mem_map.mp hpath
      have hfilePath := hregular _ _ hknown hcandidates text htext
      rcases find_archive hperm hfirst hplain product hfilePath.plain with
        ⟨content, hfile, hfound⟩ | ⟨hnone, missing, hfound⟩
      · rcases find_directory hplain product hfilePath.plain with
          ⟨content', filename, hfile', hfound'⟩ | ⟨hnone', -⟩
        · rw [hfile] at hfile'
          cases hfile'
          exact Or.inl ⟨_, filename, content, hfound, hfound'⟩
        · rw [hfile] at hnone'
          cases hnone'
      · rcases find_directory hplain product hfilePath.plain with
          ⟨content', filename, hfile', -⟩ | ⟨-, error, -, hfound'⟩
        · rw [hnone] at hfile'
          cases hfile'
        · obtain ⟨hfound', hkind⟩ := hfound' hfilePath
          exact Or.inr ⟨_, error, hfound, hfound', hkind.symm⟩
  · intro α format filename hfilename
    unfold ArchiveReceiver.readBundleJson DirectoryReceiver.readBundleJson
    rcases find_archive hperm hfirst hplain product hfilename with
      ⟨content, hfile, hfound⟩ | ⟨hnone, missing, hfound⟩
    · rcases find_directory hplain product hfilename with
        ⟨content', path, hfile', hfound'⟩ | ⟨hnone', -⟩
      · rw [hfile] at hfile'
        cases hfile'
        simp only [hfound, hfound']
        cases format.parse content <;> rfl
      · rw [hfile] at hnone'
        cases hnone'
    · rcases find_directory hplain product hfilename with
        ⟨content', path, hfile', -⟩ | ⟨-, error, hfound', -⟩
      · rw [hnone] at hfile'
        cases hfile'
      · rw [hfound]
        rcases hfound' with hfound' | hfound' <;> rw [hfound'] <;> rfl
  · intro dir hparts hdir h
    refine (hasBundleDir_iff hperm hne hplain product dir).mpr
      ⟨scopeOf subDir ++ [dir], bundle.root :: scopeOf subDir, ?_, rfl, Or.inr (List.prefix_refl _)⟩
    have hsingle : IsPlain [dir] := by
      refine ⟨List.cons_ne_nil _ _, fun name hname => ?_⟩
      rw [List.mem_singleton.mp hname]
      exact hdir
    rw [← hparts] at hsingle ⊢
    unfold DirectoryReceiver.hasBundleDir at h
    rwa [components_join hplain hsingle] at h

/-- A bundle with a log file two directories deep, and an included diagnostic. -/
def includingBundle : Bundle String where
  root := "api-diagnostics"
  entries :=
    [⟨["version.json"], some "9.3.3"⟩, ⟨["logs", "gc", "gc.log"], some "pause"⟩,
      ⟨["child", "syscalls", "top.txt"], some "load"⟩]
  rootSegment := by decide
  segments := by decide
  distinct := by decide
  below := by decide
  leaves := by decide

def wholeFile : Format String String := ⟨fun _ => true, some⟩

theorem includingBundle_reads :
    ReadsLike "api-diagnostics" ["child"]
      ⟨zip "api-diagnostics" includingBundle.entries, some (parts "child"), some "elasticsearch"⟩
      ⟨unpack includingBundle.entries, parts "child", some "elasticsearch"⟩ := by
  refine @archive_reads_like_directory String includingBundle _ (List.Perm.refl _) ⟨_, rfl, ?_⟩
    (some "child") ?_ (some "elasticsearch")
  · exact Or.inl ⟨by decide, by decide⟩
  · intro subDir hsubDir
    cases hsubDir
    exact ⟨["child"], ⟨List.cons_ne_nil _ _, by decide⟩, Or.inl (by decide)⟩

/-- With the log file first, no file of the bundle is found; and the parent has the directory of
the included diagnostic. -/
theorem order_decides_root :
    (∃ order, order.Perm includingBundle.entries ∧
      ((ArchiveReceiver.ofArchive (zip includingBundle.root order)).readBundleJson wholeFile
          "version.json").toOption ≠
        ((DirectoryReceiver.ofTree (unpack includingBundle.entries)).readBundleJson wholeFile
          "version.json").toOption) ∧
      (ArchiveReceiver.ofArchive (zip includingBundle.root includingBundle.entries)).hasBundleDir
          "syscalls" ≠
        (DirectoryReceiver.ofTree (unpack includingBundle.entries)).hasBundleDir "syscalls" := by
  refine ⟨⟨_, List.Perm.swap (⟨["version.json"], some "9.3.3"⟩ : Entry String)
    (⟨["logs", "gc", "gc.log"], some "pause"⟩ : Entry String)
    [(⟨["child", "syscalls", "top.txt"], some "load"⟩ : Entry String)], ?_⟩, ?_⟩
  · decide
  · decide

end Results

end Esdiag.ArchiveReading
