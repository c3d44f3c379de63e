import Esdiag.SourceRegistry

/-!
Receivers of a collected bundle, in a directory or in a zip archive. A path is
taken apart at its slashes. A directory is asked for the path below it; an archive
finds its working directory from the name of its first entry, and looks for an
entry of exactly the name it makes up. Reading a source tries its candidate paths
in turn: a file that is absent or blank leaves the next one to be tried.
-/
namespace Esdiag.BundleReceivers

open KeyedMaps

section Paths

/-- A path as it is written, by its parts between slashes. -/
abbrev PathText := List String

def parts (text : String) : PathText := Texts.split '/' text

def isComponent (part : String) : Bool := part != "" && part != "."

def components (path : PathText) : List String := path.filter isComponent

def isAbsolute (path : PathText) : Bool := path.head? == some "" && 1 < path.length

/-- A path below another one; there is no second slash after one that ends the base. -/
def join (base path : PathText) : PathText :=
  if isAbsolute path then path
  else if base.getLast? = some "" then base.dropLast ++ path
  else base ++ path

def fileName (path : PathText) : Option String :=
  (components path).getLast?.filter fun name => name != ".."

/-- A name with a dot that does not begin it. -/
def hasExtension (name : String) : Bool := '.' ∈ name.toList.tail

def trimRight (path : PathText) : PathText := path.rdropWhile fun part => !isComponent part

/-- The path without its last component; a root or a current directory in front stays. -/
def pop (path : PathText) : PathText :=
  let parent := (trimRight path).dropLast
  match trimRight parent with
  | [] => if parent.head? = some "" then ["", ""] else parent.take 1
  | trimmed => trimmed

def knownSubdirectories : List String :=
  ["cat", "commercial", "docker", "syscalls", "java", "logs"]

def trimToWorkingDirectory (path : PathText) : PathText :=
  let path := if (fileName path).any hasExtension then pop path else path
  if (components path).getLast?.any fun name => name ∈ knownSubdirectories then pop path else path

def normalizeArchiveSeparators (path : PathText) : PathText := path.flatMap (Texts.split '\\')

/-- The check on the path of an included diagnostic. -/
def validateRelativeSubdir (subDir : String) : Bool :=
  subDir != "" && !isAbsolute (parts subDir) && !(parts subDir).contains ".."

end Paths

section Sources

/-- What of a source decides on the name of its file. -/
structure SourceFile where
  extension : Option String
  filename : Option String
  subdir : Option String

namespace SourceFile

def inSubdir (source : SourceFile) (filename : String) : String :=
  match source.subdir with
  | some subdir => subdir ++ "/" ++ filename
  | none => filename

def derivedFilename (source : SourceFile) (name : String) : String :=
  name ++ source.extension.getD ".json"

def getFilePath (source : SourceFile) (name : String) : String :=
  source.inSubdir (source.filename.getD (source.derivedFilename name))

def getDerivedFilePath (source : SourceFile) (name : String) : String :=
  source.inSubdir (source.derivedFilename name)

end SourceFile

abbrev SourceFiles := KeyedMap String (KeyedMap String SourceFile)

structure DataSource where
  name : String
  aliases : List String

def getSource (sources : SourceFiles) (product name : String) (aliases : List String) :
    Option (String × SourceFile) := do
  let productSources ← sources.find? product
  match productSources.find? name with
  | some source => some (name, source)
  | none => aliases.findSome? fun other => (productSources.find? other).map fun source =>
      (other, source)

/-- The files of a registry are found as its sources are. -/
theorem getSource_mapValues (registry : SourceRegistry.Registry)
    (fileOf : SourceRegistry.Source → SourceFile) (product name : String) :
    getSource (registry.mapValues fun _ sources => sources.mapValues fun _ => fileOf) product name
        [] =
      (registry.getSource product name).map fun source => (name, fileOf source) := by
  rw [getSource, KeyedMap.find?_mapValues, SourceRegistry.Registry.getSource,
    SourceRegistry.Registry.getProductSources]
  cases registry.find? product with
  | none => rfl
  | some sources =>
    cases hname : sources.find? name <;> simp [KeyedMap.find?_mapValues, hname]

def resolveSourceFilePath (sources : SourceFiles) (source : DataSource) (product : String) :
    Option String :=
  (getSource sources product source.name source.aliases).map fun (matchedName, sourceConf) =>
    sourceConf.getFilePath matchedName

def pushNew (paths : List String) (path : String) : List String :=
  if path ∈ paths then paths else paths ++ [path]

/-- An alias has an entry of its own, or is an older name of the file. -/
def aliasFilePath (sources : SourceFiles) (product : String) (sourceConf : SourceFile)
    (other : String) : String :=
  match getSource sources product other [] with
  | some (matchedName, aliasConf) => aliasConf.getFilePath matchedName
  | none => sourceConf.getFilePath other

def candidateSourceFilePaths (sources : SourceFiles) (source : DataSource) (product : String) :
    Option (List String) :=
  (getSource sources product source.name source.aliases).map fun (matchedName, sourceConf) =>
    (source.aliases.map (aliasFilePath sources product sourceConf)).foldl pushNew
      (pushNew [sourceConf.getFilePath matchedName] (sourceConf.getDerivedFilePath matchedName))

end Sources

section Reading

inductive ReadError where
  | noSourceContext
  | noSourceConfiguration
  | noCandidates
  | archiveEntry (path : PathText)
  | empty (path : PathText)
  | notFound (path : PathText)
  | failed (path : PathText)
  | unparsable (path : PathText)

/-- `missing_source_error`: the source is absent, or its file has no value. -/
def ReadError.isMissingSource : ReadError → Bool
  | noCandidates | archiveEntry _ | empty _ | notFound _ => true
  | noSourceContext | noSourceConfiguration | failed _ | unparsable _ => false

variable {β α : Type}

/-- How a file is probed for a value, and parsed. -/
structure Format (β α : Type) where
  hasJson : β → Bool
  parse : β → Option α

/-- What stands at a path: a file, nothing that could be read, or a failure that ends a read. -/
inductive Found (β : Type) where
  | file (path : PathText) (content : β)
  | absent (error : ReadError)
  | failed (error : ReadError)

/-- The loop over the candidate paths. -/
def readCandidates (find : PathText → Found β) (format : Format β α)
    (lastError : Option ReadError) : List PathText → Except ReadError α
  | [] => .error (lastError.getD .noCandidates)
  | sourcePath :: rest =>
    match find sourcePath with
    | .absent error => readCandidates find format (some error) rest
    | .failed error => .error error
    | .file filename content =>
      if format.hasJson content then
        match format.parse content with
        | some data => .ok data
        | none => .error (.unparsable filename)
      else readCandidates find format (some (.empty filename)) rest

/-- The candidates of a source, as far as the product is known and has the source. -/
def sourcePaths (sources : SourceFiles) (source : DataSource) (sourceProduct : Option String) :
    Except ReadError (List PathText) :=
  match sourceProduct with
  | none => .error .noSourceContext
  | some product =>
    match candidateSourceFilePaths sources source product with
    | none => .error .noSourceConfiguration
    | some paths => .ok (paths.map parts)

def readSource (find : PathText → Found β) (sources : SourceFiles) (source : DataSource)
    (sourceProduct : Option String) (format : Format β α) : Except ReadError α :=
  match sourcePaths sources source sourceProduct with
  | .error error => .error error
  | .ok paths => readCandidates find format none paths

end Reading

section Directories

variable {β α : Type}

inductive Node (β : Type) where
  | file (content : β)
  | directory

def isFile : Option (Node β) → Bool
  | some (.file _) => true
  | some .directory | none => false

def isDirectory : Option (Node β) → Bool
  | some .directory => true
  | some (.file _) | none => false

/-- What stands below a directory, by components. -/
abbrev FileTree (β : Type) := List String → Option (Node β)

structure DirectoryReceiver (β : Type) where
  tree : FileTree β
  workDir : PathText
  sourceProduct : Option String

namespace DirectoryReceiver

def ofTree (tree : FileTree β) : DirectoryReceiver β := ⟨tree, [""], none⟩

def cloneForSubdir (receiver : DirectoryReceiver β) (subDir : String) :
    Option (DirectoryReceiver β) :=
  if validateRelativeSubdir subDir then
    some { receiver with workDir := parts subDir, sourceProduct := none }
  else none

variable (receiver : DirectoryReceiver β)

/-- Open a file. A path through a file fails in another way than one to nothing, and a
directory can be opened, but not read. -/
def find (path : PathText) : Found β :=
  let filename := join receiver.workDir path
  match receiver.tree (components filename) with
  | some (.file content) => .file filename content
  | some .directory => .failed (.failed filename)
  | none =>
    if (components filename).inits.any fun above => isFile (receiver.tree above) then
      .failed (.failed filename)
    else .absent (.notFound filename)

def get (sources : SourceFiles) (source : DataSource) (format : Format β α) :
    Except ReadError α :=
  readSource receiver.find sources source receiver.sourceProduct format

def readBundleJson (format : Format β α) (filename : String) : Except ReadError α :=
  match receiver.find (parts filename) with
  | .file path content =>
    match format.parse content with
    | some data => .ok data
    | none => .error (.unparsable path)
  | .absent error | .failed error => .error error

def hasBundleDir (dir : String) : Bool :=
  isDirectory (receiver.tree (components (join receiver.workDir (parts dir))))

end DirectoryReceiver

end Directories

section Archives

variable {β α : Type}

/-- The entries of an archive in their order; one of a directory ends in a slash. -/
abbrev ZipArchive (β : Type) := List (PathText × Node β)

def ZipArchive.byName (archive : ZipArchive β) (name : PathText) : Option (Node β) :=
  (archive.find? fun entry => entry.1 == name).map Prod.snd

def resolveArchivePath (subdir : Option PathText) (archive : ZipArchive β)
    (filename : PathText) : Except ReadError PathText :=
  match archive with
  | [] => .error (.failed filename)
  | (first, _) :: _ =>
    let workdir := trimToWorkingDirectory first
    match subdir with
    | some dir =>
      let path := normalizeArchiveSeparators (join (join workdir dir) filename)
      if (archive.byName path).isSome then .ok path
      else
        -- bundles of ECK with two slashes behind the subdirectory
        let path := normalizeArchiveSeparators (join workdir dir) ++ "" :: filename
        if (archive.byName path).isSome then .ok path else .error (.archiveEntry path)
    | none =>
      let path := normalizeArchiveSeparators (join workdir filename)
      if (archive.byName path).isSome then .ok path else .error (.archiveEntry path)

/-- The first place of some names among others. -/
def windowPosition (window : List String) : List String → Option ℕ
  | [] => none
  | name :: rest =>
    if window.isPrefixOf (name :: rest) then some 0
    else (windowPosition window rest).map fun position => position + 1

/-- Where the components behind the subdirectory begin in the name of an entry. -/
def scopeStart (subdirComponents names : List String) : Option ℕ :=
  if subdirComponents = [] then some 0
  else
    match windowPosition subdirComponents names with
    | some position => if position ≤ 1 then some (position + subdirComponents.length) else none
    | none => none

/-- A name that is not the last one is a directory's; the last one only in an entry of its own. -/
def namesDir (dir : String) (explicitDirEntry : Bool) : List String → Bool
  | [] => false
  | name :: rest =>
    (name == dir && (!rest.isEmpty || explicitDirEntry)) || namesDir dir explicitDirEntry rest

def archiveHasDir (fileNames : List PathText) (subdir : Option PathText) (dir : String) : Bool :=
  let subdirComponents :=
    (subdir.map fun subdir => (normalizeArchiveSeparators subdir).filter (· != "")).getD []
  fileNames.any fun name =>
    let name := normalizeArchiveSeparators name
    let names := name.filter (· != "")
    match scopeStart subdirComponents names with
    | some start => namesDir dir (name.getLast? == some "") (names.drop start)
    | none => false

structure ArchiveReceiver (β : Type) where
  archive : ZipArchive β
  subdir : Option PathText
  sourceProduct : Option String

namespace ArchiveReceiver

def ofArchive (archive : ZipArchive β) : ArchiveReceiver β := ⟨archive, none, none⟩

def cloneForSubdir (receiver : ArchiveReceiver β) (subDir : String) : Option (ArchiveReceiver β) :=
  if validateRelativeSubdir subDir then
    some { receiver with subdir := some (parts subDir), sourceProduct := none }
  else none

variable (receiver : ArchiveReceiver β)

/-- Look an entry up. That of a directory has no content, which is a blank file. -/
def find (path : PathText) : Found β :=
  match resolveArchivePath receiver.subdir receiver.archive path with
  | .error error => .absent error
  | .ok filename =>
    match receiver.archive.byName filename with
    | some (.file content) => .file filename content
    | some .directory => .absent (.empty filename)
    | none => .failed (.failed filename)

def get (sources : SourceFiles) (source : DataSource) (format : Format β α) :
    Except ReadError α :=
  readSource receiver.find sources source receiver.sourceProduct format

def readBundleJson (format : Format β α) (filename : String) : Except ReadError α :=
  match receiver.find (parts filename) with
  | .file path content =>
    match format.parse content with
    | some data => .ok data
    | none => .error (.unparsable path)
  | .absent (.empty path) => .error (.unparsable path)
  | .absent error | .failed error => .error error

def hasBundleDir (dir : String) : Bool :=
  archiveHasDir (receiver.archive.map Prod.fst) receiver.subdir dir

end ArchiveReceiver

end Archives

end Esdiag.BundleReceivers
