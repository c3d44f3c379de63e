import Esdiag.SourceRegistry

/-!
Ranges of versions. The runtime reads a range as a requirement of the semver
library, a list of comparators with commas between them. The generator of the
lite scripts drops the commas, reads the words that are left as clauses, and
keeps one lower and one upper bound. For a range that the library accepts, with
white space beside each comma, both admit the same versions.
-/
namespace Esdiag.VersionRanges

open KeyedMaps SourceRegistry

structure VersionParts where
  major : ℕ
  minor : ℕ
  patch : ℕ
  deriving DecidableEq

structure Version where
  parts : VersionParts
  pre : String
  build : String

namespace VersionParts

def lt (a b : VersionParts) : Bool :=
  a.major < b.major || a.major == b.major &&
    (a.minor < b.minor || a.minor == b.minor && a.patch < b.patch)

def le (a b : VersionParts) : Bool :=
  a.major < b.major || a.major == b.major &&
    (a.minor < b.minor || a.minor == b.minor && a.patch ≤ b.patch)

end VersionParts

inductive Operator where
  | greaterEq
  | lessEq
  | greater
  | less
  | exact
  deriving DecidableEq

namespace Operator

def text : Operator → String
  | greaterEq => ">="
  | lessEq => "<="
  | greater => ">"
  | less => "<"
  | exact => "="

/-- The operators, in the order in which a token is tried against them. -/
def all : List Operator := [greaterEq, lessEq, greater, less, exact]

def ofToken (token : String) : Option Operator := all.find? fun operator => operator.text = token

def ofStart (token : String) : Option Operator :=
  all.find? fun operator => operator.text.toList.isPrefixOf token.toList

/-- Whether a version is in the given relation to a bound. -/
def holds (operator : Operator) (version bound : VersionParts) : Bool :=
  match operator with
  | greaterEq => bound.le version
  | lessEq => version.le bound
  | greater => bound.lt version
  | less => version.lt bound
  | exact => bound.le version && version.le bound

end Operator

/-- A number without a sign, or with a plus. -/
def parseU64 (text : String) : Option ℕ :=
  let digits := match text.toList with
    | '+' :: rest => rest
    | chars => chars
  let value := digits.foldl (fun value c => value * 10 + (c.toNat - '0'.toNat)) 0
  if digits.isEmpty || !digits.all Char.isDigit then none
  else if value < 2 ^ 64 then some value
  else none

def readVersion (value : String) : Option VersionParts :=
  match Texts.split '.' value with
  | [major, minor, patch] => do
    let major ← parseU64 major
    let minor ← parseU64 minor
    let patch ← parseU64 patch
    pure ⟨major, minor, patch⟩
  | _ => none

section Semver

/-- Requirements on versions, as the semver library reads and matches them. -/
structure SemverLibrary where
  Req : Type
  parse : String → Except String Req
  isMatch : Req → Version → Bool

/-- An operator and a version, with spaces before, between and after them. -/
structure IsComparator (text : List Char) (op : String) (version : List Char) : Prop where
  spaced : ∃ before between after, text = List.replicate before ' ' ++ (op.toList ++
    (List.replicate between ' ' ++ (version ++ List.replicate after ' ')))
  op_mem : op ∈ ["", "=", ">", ">=", "<", "<=", "~", "^"]
  version_ne : version ≠ []
  version_plain : ∀ c ∈ version, Texts.isWhitespace c = false
  version_head : ∀ c ∈ version.head?, c ∉ ['=', '<', '>', '~', '^']

/-- What the library documents of release versions: a requirement is a list of comparators
with commas between them, all of which have to match, and a comparator with a full version
compares numerically. -/
structure SemverLibrary.Lawful (lib : SemverLibrary) : Prop where
  parts : ∀ left right req, ',' ∉ left →
    lib.parse (.ofList (left ++ ',' :: right)) = .ok req →
    ∃ first others, lib.parse (.ofList left) = .ok first ∧
      lib.parse (.ofList right) = .ok others ∧ ∀ version, version.pre = "" →
        lib.isMatch req version = (lib.isMatch first version && lib.isMatch others version)
  comparator : ∀ text req, ',' ∉ text → lib.parse (.ofList text) = .ok req →
    ∃ op version, IsComparator text op version ∧
      ∀ operator : Operator, op = operator.text → ∀ bound,
        readVersion (.ofList version) = some bound → ∀ other, other.pre = "" →
          lib.isMatch req other = operator.holds other.parts bound

structure ResolvedVersionSource where
  url : String
  spaceaware : Bool

inductive ResolveError where
  | requirement (message : String)
  | unsupportedVersion (version : Version)

def VersionSource.resolved : VersionSource → ResolvedVersionSource
  | .url url => ⟨url, false⟩
  | .structured url spaceaware => ⟨url, spaceaware⟩

variable (lib : SemverLibrary)

/-- The first entry that admits a version; an entry that is no requirement ends the search. -/
def resolveFrom (version cleanVersion : Version) :
    List (String × VersionSource) → Except ResolveError ResolvedVersionSource
  | [] => .error (.unsupportedVersion version)
  | (reqStr, source) :: rest =>
    match lib.parse reqStr with
    | .error error =>
      .error (.requirement ("Failed to parse version req '" ++ reqStr ++ "': " ++ error))
    | .ok req =>
      if lib.isMatch req cleanVersion then .ok (VersionSource.resolved source)
      else resolveFrom version cleanVersion rest

def resolveVersion (source : Source) (version : Version) :
    Except ResolveError ResolvedVersionSource :=
  resolveFrom lib version { version with pre := "" } source.versions.inOrder

end Semver

inductive Bound where
  | inclusive (version : VersionParts)
  | exclusive (version : VersionParts)

structure Rule where
  expression : String
  url : String
  lower : Option Bound
  upper : Option Bound

def Bound.admitsAbove (version : VersionParts) : Bound → Bool
  | .inclusive bound => bound.le version
  | .exclusive bound => bound.lt version

def Bound.admitsBelow (version : VersionParts) : Bound → Bool
  | .inclusive bound => version.le bound
  | .exclusive bound => version.lt bound

def admits (lower upper : Option Bound) (version : VersionParts) : Bool :=
  lower.all (Bound.admitsAbove version) && upper.all (Bound.admitsBelow version)

/-- `Rule::matches`. -/
def Rule.isMatch (rule : Rule) (version : VersionParts) : Bool :=
  admits rule.lower rule.upper version

section Rules

variable (lib : SemverLibrary) (sourceName expression : String)

def parseVersion (value : String) : Except String VersionParts :=
  match readVersion value with
  | some version => .ok version
  | none => .error ("lite source '" ++ sourceName ++ "' uses unsupported version '" ++ value ++
      "' in rule '" ++ expression ++ "'")

def incompleteRule : String :=
  "lite source '" ++ sourceName ++ "' has incomplete version rule '" ++ expression ++ "'"

def ambiguousRule : String :=
  "lite source '" ++ sourceName ++ "' has ambiguous rule '" ++ expression ++ "'"

def unsupportedRule : String :=
  "lite source '" ++ sourceName ++ "' uses unsupported version rule '" ++ expression ++ "'"

/-- The clauses of a rule, to be joined with commas for the library. -/
def semverClauses : List String → Except String (List String)
  | [] => .ok []
  | token :: rest =>
    match Operator.ofToken token, rest with
    | some _, [] => .error (incompleteRule sourceName expression)
    | some _, version :: rest => (semverClauses rest).map fun clauses =>
        (token ++ " " ++ version) :: clauses
    | none, rest => (semverClauses rest).map fun clauses => token :: clauses

/-- Take a clause into the bounds; none where a bound is there already. -/
def addBound (operator : Operator) (version : VersionParts) (lower upper : Option Bound) :
    Option (Option Bound × Option Bound) :=
  match operator with
  | .greaterEq => if lower.isSome then none else some (some (.inclusive version), upper)
  | .greater => if lower.isSome then none else some (some (.exclusive version), upper)
  | .lessEq => if upper.isSome then none else some (lower, some (.inclusive version))
  | .less => if upper.isSome then none else some (lower, some (.exclusive version))
  | .exact =>
    if lower.isSome || upper.isSome then none
    else some (some (.inclusive version), some (.inclusive version))

/-- Read the version of a clause and take the clause into the bounds. -/
def readClause (operator : Operator) (value : String) (lower upper : Option Bound) :
    Except String (Option Bound × Option Bound) :=
  match parseVersion sourceName expression value with
  | .error error => .error error
  | .ok version =>
    match addBound operator version lower upper with
    | none => .error (ambiguousRule sourceName expression)
    | some bounds => .ok bounds

/-- The bounds of the clauses from here on, with what the earlier ones have set. -/
def readBounds : List String → Option Bound → Option Bound →
    Except String (Option Bound × Option Bound)
  | [], lower, upper => .ok (lower, upper)
  | token :: rest, lower, upper =>
    match Operator.ofToken token, rest with
    | some _, [] => .error (incompleteRule sourceName expression)
    | some operator, value :: rest =>
      match readClause sourceName expression operator value lower upper with
      | .error error => .error error
      | .ok (lower, upper) => readBounds rest lower upper
    | none, rest =>
      match Operator.ofStart token with
      | none => .error (unsupportedRule sourceName expression)
      | some operator =>
        match readClause sourceName expression operator
          (.ofList (token.toList.drop operator.text.length)) lower upper with
        | .error error => .error error
        | .ok (lower, upper) => readBounds rest lower upper

def parseRule (url : String) : Except String Rule := do
  let tokens := Texts.splitWhitespace (Texts.replace "," "" expression)
  let clauses ← semverClauses sourceName expression tokens
  match lib.parse (Texts.join ", " clauses) with
  | .error error =>
    .error ("lite source '" ++ sourceName ++ "' uses invalid native semver rule '" ++
      expression ++ "': " ++ error)
  | .ok _ =>
    let (lower, upper) ← readBounds sourceName expression tokens none none
    if lower.isNone && upper.isNone then .error (unsupportedRule sourceName expression)
    else .ok { expression, url, lower, upper }

end Rules

section Bounds

variable {sourceName expression : String}

theorem addBound_admits {operator : Operator} {bound : VersionParts}
    {lower upper : Option Bound} {bounds : Option Bound × Option Bound}
    (h : addBound operator bound lower upper = some bounds) (version : VersionParts) :
    admits bounds.1 bounds.2 version =
      (admits lower upper version && operator.holds version bound) := by
  cases operator with
  | greaterEq =>
    cases lower with
    | some _ => simp [addBound] at h
    | none =>
      obtain rfl := Option.some.inj h
      simp [admits, Bound.admitsAbove, Operator.holds, Bool.and_comm]
  | greater =>
    cases lower with
    | some _ => simp [addBound] at h
    | none =>
      obtain rfl := Option.some.inj h
      simp [admits, Bound.admitsAbove, Operator.holds, Bool.and_comm]
  | lessEq =>
    cases upper with
    | some _ => simp [addBound] at h
    | none =>
      obtain rfl := Option.some.inj h
      simp [admits, Bound.admitsBelow, Operator.holds]
  | less =>
    cases upper with
    | some _ => simp [addBound] at h
    | none =>
      obtain rfl := Option.some.inj h
      simp [admits, Bound.admitsBelow, Operator.holds]
  | exact =>
    cases lower with
    | some _ => simp [addBound] at h
    | none =>
      cases upper with
      | some _ => simp [addBound] at h
      | none =>
        obtain rfl := Option.some.inj h
        simp [admits, Bound.admitsAbove, Bound.admitsBelow, Operator.holds]

theorem readClause_eq_ok {operator : Operator} {value : String} {lower upper : Option Bound}
    {bounds : Option Bound × Option Bound}
    (h : readClause sourceName expression operator value lower upper = .ok bounds) :
    ∃ version, readVersion value = some version ∧
      addBound operator version lower upper = some bounds := by
  unfold readClause parseVersion at h
  cases hversion : readVersion value with
  | none => simp [hversion] at h
  | some version =>
    simp only [hversion] at h
    cases hbound : addBound operator version lower upper with
    | none => simp [hbound] at h
    | some found =>
      rw [hbound] at h
      exact ⟨version, rfl, hbound.trans (congrArg some (Except.ok.inj h))⟩

theorem IsComparator.head {text version : List Char} {op : String}
    (h : IsComparator text op version) :
    ∃ c rest, version = c :: rest ∧ c ≠ '=' ∧ c ≠ '<' ∧ c ≠ '>' := by
  cases hversion : version with
  | nil => exact absurd hversion h.version_ne
  | cons c rest =>
    have hc := h.version_head c (by rw [hversion]; rfl)
    simp only [List.mem_cons, not_or] at hc
    exact ⟨c, rest, rfl, hc.1, hc.2.1, hc.2.2.1⟩

/-- A comparator is one word, or two where a space separates its operator. -/
theorem IsComparator.words {text version : List Char} {op : String}
    (h : IsComparator text op version) :
    Texts.words text = [op.toList ++ version] ∨
      op ≠ "" ∧ Texts.words text = [op.toList, version] := by
  obtain ⟨before, between, after, rfl⟩ := h.spaced
  have hop : ∀ c ∈ op.toList, Texts.isWhitespace c = false := by
    have hall : (["", "=", ">", ">=", "<", "<=", "~", "^"].all fun op =>
        op.toList.all fun c => !Texts.isWhitespace c) = true := by rfl
    intro c hc
    simpa using List.all_eq_true.mp (List.all_eq_true.mp hall op h.op_mem) c hc
  have hversion := Texts.words_eq_singleton h.version_ne h.version_plain
  rw [Texts.words_replicate_append]
  cases between with
  | zero =>
    left
    rw [List.replicate_zero, List.nil_append, ← List.append_assoc, Texts.words_append_replicate]
    apply Texts.words_eq_singleton
    · simp [h.version_ne]
    · intro c hc
      exact (List.mem_append.mp hc).elim (hop c) (h.version_plain c)
  | succ between =>
    rw [List.replicate_succ, List.cons_append, Texts.words_append_cons (by decide),
      Texts.words_replicate_append, Texts.words_append_replicate, hversion]
    by_cases hempty : op = ""
    · left
      rw [hempty]
      rfl
    · right
      refine ⟨hempty, ?_⟩
      rw [Texts.words_eq_singleton (by simpa using hempty) hop]
      rfl

/-- The operator that the text of a comparator starts with, when the generator has it. -/
def operatorOf (op : String) : Option Operator := Operator.all.find? fun o => o.text = op

theorem text_of_operatorOf {op : String} {operator : Operator}
    (h : operatorOf op = some operator) : op = operator.text := by
  have hfound := List.find?_some h
  exact (of_decide_eq_true hfound).symm

theorem ofToken_word {text version : List Char} {op : String} (h : IsComparator text op version) :
    Operator.ofToken (.ofList (op.toList ++ version)) = none := by
  obtain ⟨c, rest, rfl, heq, hlt, hgt⟩ := h.head
  have htext : ∀ operator : Operator, operator.text ≠ String.ofList (op.toList ++ c :: rest) := by
    intro operator heq'
    have hlist := congrArg String.toList heq'
    rw [String.toList_ofList] at hlist
    have hop := h.op_mem
    simp only [List.mem_cons, List.not_mem_nil, or_false] at hop
    rcases hop with rfl | rfl | rfl | rfl | rfl | rfl | rfl | rfl <;> cases operator <;>
      simp [Operator.text, Ne.symm heq, Ne.symm hlt, Ne.symm hgt] at hlist
  unfold Operator.ofToken
  rw [List.find?_eq_none]
  intro operator _
  simpa using htext operator

theorem ofStart_word {text version : List Char} {op : String} (h : IsComparator text op version) :
    Operator.ofStart (.ofList (op.toList ++ version)) = operatorOf op := by
  obtain ⟨c, rest, rfl, heq, hlt, hgt⟩ := h.head
  have hop := h.op_mem
  simp only [List.mem_cons, List.not_mem_nil, or_false] at hop
  unfold Operator.ofStart operatorOf
  rcases hop with rfl | rfl | rfl | rfl | rfl | rfl | rfl | rfl <;>
    simp [Operator.all, Operator.text, List.isPrefixOf, Ne.symm heq, Ne.symm hlt,
      Ne.symm hgt]

/-- The one clause that the words of a comparator make. -/
theorem readBounds_comparator {text version : List Char} {op : String}
    (hcomparator : IsComparator text op version) {rest : List String}
    {lower upper : Option Bound} {bounds : Option Bound × Option Bound}
    (h : readBounds sourceName expression ((Texts.words text).map String.ofList ++ rest) lower
      upper = .ok bounds) :
    ∃ operator bound between, op = Operator.text operator ∧
      readVersion (.ofList version) = some bound ∧
      addBound operator bound lower upper = some between ∧
      readBounds sourceName expression rest between.1 between.2 = .ok bounds := by
  rcases hcomparator.words with hwords | ⟨hne, hwords⟩
  · rw [hwords, List.map_singleton, List.singleton_append] at h
    unfold readBounds at h
    simp only [ofToken_word hcomparator, ofStart_word hcomparator] at h
    cases hoperator : operatorOf op with
    | none => simp [hoperator] at h
    | some operator =>
      obtain rfl := text_of_operatorOf hoperator
      have hvalue : String.ofList ((String.ofList (operator.text.toList ++ version)).toList.drop
          operator.text.length) = String.ofList version := by
        rw [String.toList_ofList, ← String.length_toList, List.drop_left]
      simp only [hoperator, hvalue] at h
      cases hclause : readClause sourceName expression operator (.ofList version) lower upper with
      | error error => simp [hclause] at h
      | ok between =>
        obtain ⟨bound, hbound, hadd⟩ := readClause_eq_ok hclause
        rw [hclause] at h
        exact ⟨operator, bound, between, rfl, hbound, hadd, h⟩
  · rw [hwords, List.map_cons, List.map_singleton, List.cons_append, List.singleton_append,
      String.ofList_toList] at h
    unfold readBounds at h
    cases hoperator : Operator.ofToken op with
    | none =>
      have hstart : Operator.ofStart op = none := by
        have hop := hcomparator.op_mem
        simp only [List.mem_cons, List.not_mem_nil, or_false] at hop
        rcases hop with rfl | rfl | rfl | rfl | rfl | rfl | rfl | rfl <;>
          first | exact absurd rfl hne | rfl | cases hoperator
      simp [hoperator, hstart] at h
    | some operator =>
      obtain rfl := text_of_operatorOf hoperator
      simp only [hoperator] at h
      cases hclause : readClause sourceName expression operator (.ofList version) lower upper with
      | error error => simp [hclause] at h
      | ok between =>
        obtain ⟨bound, hbound, hadd⟩ := readClause_eq_ok hclause
        rw [hclause] at h
        exact ⟨operator, bound, between, rfl, hbound, hadd, h⟩

end Bounds

section Agreement

variable {lib : SemverLibrary} {sourceName expression : String}

/-- White space, or an end of the text, stands beside each comma. -/
def CommasSpaced (text : List Char) : Prop :=
  ∀ left right, text = left ++ ',' :: right →
    left.getLast?.all Texts.isWhitespace = true ∨ right.head?.all Texts.isWhitespace = true

def withoutCommas (text : List Char) : List Char := text.filter fun c => c ≠ ','

theorem words_withoutCommas {left right : List Char} (hleft : ',' ∉ left)
    (hspaced : CommasSpaced (left ++ ',' :: right)) :
    Texts.words (withoutCommas (left ++ ',' :: right)) =
      Texts.words left ++ Texts.words (withoutCommas right) := by
  have hkept : withoutCommas left = left := by
    apply List.filter_eq_self.mpr
    intro c hc
    have hne : c ≠ ',' := fun heq => hleft (heq ▸ hc)
    simpa using hne
  have hdropped : withoutCommas (left ++ ',' :: right) = left ++ withoutCommas right := by
    unfold withoutCommas at hkept ⊢
    rw [List.filter_append, hkept]
    rfl
  rw [hdropped]
  rcases hspaced left right rfl with hlast | hhead
  · rcases List.eq_nil_or_concat left with rfl | ⟨start, c, rfl⟩
    · rfl
    · have hc : Texts.isWhitespace c = true := by simpa using hlast
      rw [List.concat_eq_append, List.append_assoc, List.singleton_append,
        Texts.words_append_cons hc, Texts.words_concat hc]
  · cases right with
    | nil =>
      rw [show withoutCommas [] = [] from rfl, List.append_nil]
      exact (List.append_nil _).symm
    | cons c rest =>
      have hc : Texts.isWhitespace c = true := by simpa using hhead
      have hcons : withoutCommas (c :: rest) = c :: withoutCommas rest := by
        apply List.filter_cons_of_pos
        have hne : c ≠ ',' := by
          rintro rfl
          exact absurd hc (by decide)
        simpa using hne
      rw [hcons, Texts.words_append_cons hc, Texts.words_cons hc]

theorem CommasSpaced.right {left right : List Char} (h : CommasSpaced (left ++ ',' :: right)) :
    CommasSpaced right := by
  rintro start rest rfl
  have hwhole := h (left ++ ',' :: start) rest (by simp)
  cases start with
  | nil => exact Or.inl rfl
  | cons c start => simpa [List.getLast?_append, List.getLast?_cons] using hwhole

/-- The bounds admit what the requirement of the same text admits. -/
theorem admits_of_readBounds (hlib : lib.Lawful) (text : List Char) (hspaced : CommasSpaced text)
    {req : lib.Req} (hreq : lib.parse (.ofList text) = .ok req) {lower upper : Option Bound}
    {bounds : Option Bound × Option Bound}
    (h : readBounds sourceName expression ((Texts.words (withoutCommas text)).map String.ofList)
      lower upper = .ok bounds) {version : Version} (hrelease : version.pre = "") :
    admits bounds.1 bounds.2 version.parts =
      (admits lower upper version.parts && lib.isMatch req version) := by
  -- By induction on the commas: the part before the first one is a comparator.
  induction hlength : text.length using Nat.strongRecOn generalizing text req lower upper with
  | ind n ih =>
    by_cases hcomma : ',' ∈ text
    · obtain ⟨left, right, rfl, hleft⟩ := List.eq_append_cons_of_mem hcomma
      obtain ⟨first, others, hfirst, hothers, hmatch⟩ := hlib.parts left right req hleft hreq
      obtain ⟨op, value, hcomparator, hholds⟩ := hlib.comparator left first hleft hfirst
      rw [words_withoutCommas hleft hspaced, List.map_append] at h
      obtain ⟨operator, bound, between, hop, hbound, hadd, hrest⟩ :=
        readBounds_comparator hcomparator h
      have hshort : right.length < n := by
        rw [← hlength, List.length_append, List.length_cons]
        omega
      rw [ih right.length hshort right hspaced.right hothers hrest rfl,
        addBound_admits hadd version.parts, hmatch version hrelease,
        hholds operator hop bound hbound version hrelease, Bool.and_assoc]
    · obtain ⟨op, value, hcomparator, hholds⟩ := hlib.comparator text req hcomma hreq
      have hkept : withoutCommas text = text := by
        apply List.filter_eq_self.mpr
        intro c hc
        have hne : c ≠ ',' := fun heq => hcomma (heq ▸ hc)
        simpa using hne
      rw [hkept, ← List.append_nil ((Texts.words text).map String.ofList)] at h
      obtain ⟨operator, bound, between, hop, hbound, hadd, hrest⟩ :=
        readBounds_comparator hcomparator h
      obtain rfl := Except.ok.inj hrest
      rw [addBound_admits hadd version.parts,
        hholds operator hop bound hbound version hrelease]

theorem toList_replace_comma (text : String) :
    (Texts.replace "," "" text).toList = withoutCommas text.toList := by
  have hreplace : ∀ chars : List Char,
      (chars.flatMap fun c => if c = ',' then [] else [c]) = withoutCommas chars := by
    intro chars
    induction chars with
    | nil => rfl
    | cons c rest ih =>
      rw [List.flatMap_cons, ih]
      by_cases hc : c = ','
      · simp [withoutCommas, hc]
      · simp [withoutCommas, hc]
  rw [Texts.replace, String.toList_ofList, ← hreplace]
  exact Texts.replaceList_singleton ',' [] text.toList

theorem parseRule_eq_ok {url : String} {rule : Rule}
    (h : parseRule lib sourceName expression url = .ok rule) :
    rule.url = url ∧ readBounds sourceName expression
      (Texts.splitWhitespace (Texts.replace "," "" expression)) none none =
        .ok (rule.lower, rule.upper) := by
  unfold parseRule at h
  simp only [bind, Except.bind] at h
  cases hclauses : semverClauses sourceName expression
      (Texts.splitWhitespace (Texts.replace "," "" expression)) with
  | error error => simp [hclauses] at h
  | ok clauses =>
    simp only [hclauses] at h
    cases hparse : lib.parse (Texts.join ", " clauses) with
    | error error => simp [hparse] at h
    | ok req =>
      simp only [hparse] at h
      cases hbounds : readBounds sourceName expression
          (Texts.splitWhitespace (Texts.replace "," "" expression)) none none with
      | error error => simp [hbounds] at h
      | ok bounds =>
        simp only [hbounds] at h
        split at h
        · cases h
        · obtain rfl := Except.ok.inj h
          exact ⟨rfl, rfl⟩

/-- A rule that the generator makes admits what the runtime's requirement admits. -/
theorem parseRule_isMatch (hlib : lib.Lawful) {url : String} {rule : Rule}
    (hrule : parseRule lib sourceName expression url = .ok rule)
    (hspaced : CommasSpaced expression.toList) {req : lib.Req}
    (hreq : lib.parse expression = .ok req) {version : Version} (hrelease : version.pre = "") :
    rule.isMatch version.parts = lib.isMatch req version := by
  obtain ⟨-, hbounds⟩ := parseRule_eq_ok hrule
  rw [Texts.splitWhitespace, toList_replace_comma] at hbounds
  have hadmits := admits_of_readBounds hlib expression.toList hspaced
    (by rw [String.ofList_toList]; exact hreq) hbounds hrelease
  rw [Rule.isMatch, hadmits]
  exact Bool.true_and _

end Agreement

end Esdiag.VersionRanges
