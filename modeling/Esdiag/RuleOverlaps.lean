import Mathlib.Data.Prod.Lex
import Esdiag.LiteScripts

/-!
When two rules overlap. The test compares the stricter bounds of the two, and misses
no version that both admit. It knows nothing of the version behind another one: bounds
that stand around no release version count as an overlap too, and nothing else does.
-/
namespace Esdiag.RuleOverlaps

open VersionRanges LiteScripts

section Releases

/-- The versions of releases have numbers of 64 bits. -/
def IsRelease (version : VersionParts) : Prop :=
  version.major < 2 ^ 64 ∧ version.minor < 2 ^ 64 ∧ version.patch < 2 ^ 64

def firstRelease : VersionParts := ⟨0, 0, 0⟩

def lastRelease : VersionParts := ⟨2 ^ 64 - 1, 2 ^ 64 - 1, 2 ^ 64 - 1⟩

/-- The release version right behind another one. -/
def nextRelease (version : VersionParts) : Option VersionParts :=
  if version.patch + 1 < 2 ^ 64 then some { version with patch := version.patch + 1 }
  else if version.minor + 1 < 2 ^ 64 then some ⟨version.major, version.minor + 1, 0⟩
  else if version.major + 1 < 2 ^ 64 then some ⟨version.major + 1, 0, 0⟩
  else none

/-- Versions are ordered by their first part that differs. -/
instance : LinearOrder VersionParts :=
  LinearOrder.lift' (fun version => toLex (version.major, toLex (version.minor, version.patch)))
    (by
      rintro ⟨major, minor, patch⟩ ⟨major', minor', patch'⟩ h
      simpa using h)

theorem lt_iff (a b : VersionParts) :
    a < b ↔ a.major < b.major ∨ a.major = b.major ∧
      (a.minor < b.minor ∨ a.minor = b.minor ∧ a.patch < b.patch) := by
  show toLex (a.major, toLex (a.minor, a.patch)) < toLex (b.major, toLex (b.minor, b.patch)) ↔ _
  simp only [Prod.Lex.toLex_lt_toLex]

theorem le_iff (a b : VersionParts) :
    a ≤ b ↔ a.major < b.major ∨ a.major = b.major ∧
      (a.minor < b.minor ∨ a.minor = b.minor ∧ a.patch ≤ b.patch) := by
  show toLex (a.major, toLex (a.minor, a.patch)) ≤ toLex (b.major, toLex (b.minor, b.patch)) ↔ _
  simp only [Prod.Lex.toLex_le_toLex]

@[simp]
theorem versionLt_iff (a b : VersionParts) : a.lt b = true ↔ a < b := by
  simp [VersionParts.lt, lt_iff]

@[simp]
theorem versionLe_iff (a b : VersionParts) : a.le b = true ↔ a ≤ b := by
  simp [VersionParts.le, le_iff]

theorem firstRelease_le (version : VersionParts) : firstRelease ≤ version := by
  simp only [le_iff, firstRelease]
  omega

theorem le_lastRelease {version : VersionParts} (h : IsRelease version) :
    version ≤ lastRelease := by
  obtain ⟨hmajor, hminor, hpatch⟩ := h
  simp only [le_iff, lastRelease]
  omega

theorem isRelease_first : IsRelease firstRelease := ⟨by decide, by decide, by decide⟩

theorem isRelease_last : IsRelease lastRelease := ⟨by decide, by decide, by decide⟩

theorem nextRelease_spec {version next : VersionParts} (hversion : IsRelease version)
    (h : nextRelease version = some next) : IsRelease next ∧ version < next := by
  obtain ⟨hmajor, hminor, hpatch⟩ := hversion
  unfold nextRelease at h
  split at h
  · obtain rfl := Option.some.inj h
    exact ⟨⟨hmajor, hminor, by assumption⟩, by simp [lt_iff]⟩
  · split at h
    · obtain rfl := Option.some.inj h
      exact ⟨⟨hmajor, by assumption, Nat.two_pow_pos 64⟩, by simp [lt_iff]⟩
    · split at h
      · obtain rfl := Option.some.inj h
        exact ⟨⟨by assumption, Nat.two_pow_pos 64, Nat.two_pow_pos 64⟩, by simp [lt_iff]⟩
      · cases h

/-- No release version stands between another one and the one behind it. -/
theorem exists_nextRelease {low high : VersionParts} (hlow : IsRelease low)
    (hhigh : IsRelease high) (hlt : low < high) :
    ∃ next, nextRelease low = some next ∧ next ≤ high := by
  obtain ⟨hmajor, hminor, hpatch⟩ := hlow
  obtain ⟨hmajor', hminor', hpatch'⟩ := hhigh
  rw [lt_iff] at hlt
  unfold nextRelease
  split
  · refine ⟨_, rfl, ?_⟩
    simp only [le_iff]
    omega
  · split
    · refine ⟨_, rfl, ?_⟩
      simp only [le_iff]
      omega
    · rw [if_pos (by omega)]
      refine ⟨_, rfl, ?_⟩
      simp only [le_iff]
      omega

end Releases

section JointBounds

/-- The bounds below a version that two rules have, and those above it. -/
def lowers (left right : Rule) : List Bound := left.lower.toList ++ right.lower.toList

def uppers (left right : Rule) : List Bound := left.upper.toList ++ right.upper.toList

theorem isMatch_and_iff {left right : Rule} {version : VersionParts} :
    left.isMatch version = true ∧ right.isMatch version = true ↔
      (∀ bound ∈ lowers left right, above version (boundParts bound) = true) ∧
        ∀ bound ∈ uppers left right, below version (boundParts bound) = true := by
  simp only [Rule.isMatch, admits, Bool.and_eq_true, Option.all_eq_true, lowers, uppers,
    List.mem_append, Option.mem_toList, above_boundParts, below_boundParts]
  constructor
  · rintro ⟨⟨hll, hlu⟩, hrl, hru⟩
    exact ⟨fun bound hbound => hbound.elim (hll bound) (hrl bound),
      fun bound hbound => hbound.elim (hlu bound) (hru bound)⟩
  · rintro ⟨hlower, hupper⟩
    exact ⟨⟨fun bound hbound => hlower bound (Or.inl hbound),
        fun bound hbound => hupper bound (Or.inl hbound)⟩,
      fun bound hbound => hlower bound (Or.inr hbound),
      fun bound hbound => hupper bound (Or.inr hbound)⟩

theorem above_iff (version : VersionParts) (bound : VersionParts × Bool) :
    above version bound = true ↔ bound.1 < version ∨ bound.1 = version ∧ bound.2 = true := by
  unfold above
  cases bound.2 with
  | false => simp
  | true => simp [le_iff_lt_or_eq]

theorem below_iff (version : VersionParts) (bound : VersionParts × Bool) :
    below version bound = true ↔ version < bound.1 ∨ version = bound.1 ∧ bound.2 = true := by
  unfold below
  cases bound.2 with
  | false => simp
  | true => simp [le_iff_lt_or_eq]

variable {pick : VersionParts × Bool → VersionParts × Bool → VersionParts × Bool}

theorem combined_eq_none {left right : Option Bound} :
    combined pick left right = none ↔ left.toList ++ right.toList = [] := by
  cases left <;> cases right <;> simp [combined]

/-- A combined bound is one of the bounds. -/
theorem combined_mem (hpick : ∀ left right, pick left right = left ∨ pick left right = right)
    {left right : Option Bound} {bound : VersionParts × Bool}
    (h : combined pick left right = some bound) :
    ∃ found ∈ left.toList ++ right.toList, boundParts found = bound := by
  cases left with
  | none =>
    cases right with
    | none => cases h
    | some right =>
      obtain rfl := Option.some.inj h
      exact ⟨right, by simp, rfl⟩
  | some left =>
    cases right with
    | none =>
      obtain rfl := Option.some.inj h
      exact ⟨left, by simp, rfl⟩
    | some right =>
      obtain rfl := Option.some.inj h
      rcases hpick (boundParts left) (boundParts right) with heq | heq
      · exact ⟨left, by simp, heq.symm⟩
      · exact ⟨right, by simp, heq.symm⟩

/-- What holds of a combined bound holds of all, if it does so for two of them. -/
theorem combined_forall {holds : VersionParts × Bool → Prop}
    (hpick : ∀ left right, holds (pick left right) → holds left ∧ holds right)
    {left right : Option Bound} {bound : VersionParts × Bool}
    (h : combined pick left right = some bound) (hbound : holds bound) :
    ∀ found ∈ left.toList ++ right.toList, holds (boundParts found) := by
  cases left with
  | none =>
    cases right with
    | none => cases h
    | some right =>
      obtain rfl := Option.some.inj h
      simpa using hbound
  | some left =>
    cases right with
    | none =>
      obtain rfl := Option.some.inj h
      simpa using hbound
    | some right =>
      obtain rfl := Option.some.inj h
      simpa using hpick _ _ hbound

theorem laterBound_eq (left right : VersionParts × Bool) :
    laterBound left right = left ∨ laterBound left right = right := by
  obtain ⟨low, inclusive⟩ := left
  obtain ⟨low', inclusive'⟩ := right
  unfold laterBound
  simp only [versionLt_iff]
  rcases lt_trichotomy low low' with hlt | rfl | hgt
  · simp [hlt]
  · cases inclusive <;> simp
  · simp [hgt, hgt.not_gt]

theorem earlierBound_eq (left right : VersionParts × Bool) :
    earlierBound left right = left ∨ earlierBound left right = right := by
  obtain ⟨high, inclusive⟩ := left
  obtain ⟨high', inclusive'⟩ := right
  unfold earlierBound
  simp only [versionLt_iff]
  rcases lt_trichotomy high high' with hlt | rfl | hgt
  · simp [hlt]
  · cases inclusive <;> simp
  · simp [hgt, hgt.not_gt]

/-- The later bound is the stricter one for a version above it. -/
theorem above_laterBound_elim {version : VersionParts} (left right : VersionParts × Bool)
    (h : above version (laterBound left right) = true) :
    above version left = true ∧ above version right = true := by
  simp only [above_iff, laterBound, versionLt_iff] at h ⊢
  grind

theorem below_earlierBound_elim {version : VersionParts} (left right : VersionParts × Bool)
    (h : below version (earlierBound left right) = true) :
    below version left = true ∧ below version right = true := by
  simp only [below_iff, earlierBound, versionLt_iff] at h ⊢
  grind

theorem laterBound_le {version : VersionParts} (left right : VersionParts × Bool)
    (h : (laterBound left right).1 ≤ version) : left.1 ≤ version ∧ right.1 ≤ version := by
  simp only [laterBound, versionLt_iff] at h
  grind

theorem le_earlierBound {version : VersionParts} (left right : VersionParts × Bool)
    (h : version ≤ (earlierBound left right).1) : version ≤ left.1 ∧ version ≤ right.1 := by
  simp only [earlierBound, versionLt_iff] at h
  grind

end JointBounds

section Vacuous

/-- Bounds around no release version that a comparison of them takes for a range: one before the
first version with nothing below, one behind the last version with nothing above, or two beside
each other. -/
inductive Vacuous (left right : Rule) : Prop where
  | beforeFirst (hlower : lowers left right = [])
      (hupper : .exclusive firstRelease ∈ uppers left right)
  | behindLast (hupper : uppers left right = [])
      (hlower : .exclusive lastRelease ∈ lowers left right)
  | between (low high : VersionParts) (hlower : .exclusive low ∈ lowers left right)
      (hupper : .exclusive high ∈ uppers left right) (hnext : nextRelease low = some high)
      (hlowers : ∀ bound ∈ lowers left right, (boundParts bound).1 ≤ low)
      (huppers : ∀ bound ∈ uppers left right, high ≤ (boundParts bound).1)

/-- Some release version is admitted by both rules. -/
def ShareRelease (left right : Rule) : Prop :=
  ∃ version, IsRelease version ∧ left.isMatch version = true ∧ right.isMatch version = true

def BoundsRelease (lower upper : Option Bound) : Prop :=
  (∀ bound ∈ lower, IsRelease (boundParts bound).1) ∧
    ∀ bound ∈ upper, IsRelease (boundParts bound).1

/-- A rule whose bounds are release versions. -/
def RuleRelease (rule : Rule) : Prop := BoundsRelease rule.lower rule.upper

variable {left right : Rule}

theorem isRelease_lowers (hleft : RuleRelease left) (hright : RuleRelease right) :
    ∀ bound ∈ lowers left right, IsRelease (boundParts bound).1 := by
  intro bound hbound
  rcases List.mem_append.mp hbound with hbound | hbound
  · exact hleft.1 bound (Option.mem_toList.mp hbound)
  · exact hright.1 bound (Option.mem_toList.mp hbound)

theorem isRelease_uppers (hleft : RuleRelease left) (hright : RuleRelease right) :
    ∀ bound ∈ uppers left right, IsRelease (boundParts bound).1 := by
  intro bound hbound
  rcases List.mem_append.mp hbound with hbound | hbound
  · exact hleft.2 bound (Option.mem_toList.mp hbound)
  · exact hright.2 bound (Option.mem_toList.mp hbound)

/-- The pair of an exclusive bound comes from that bound only. -/
theorem boundParts_eq_exclusive {bound : Bound} {version : VersionParts}
    (h : boundParts bound = (version, false)) : bound = .exclusive version := by
  cases bound with
  | inclusive found => simp [boundParts] at h
  | exclusive found =>
    obtain ⟨rfl, -⟩ := Prod.mk.inj h
    rfl

/-- Between two bounds there is a release version, unless they exclude neighbours. -/
theorem exists_between {low high : VersionParts × Bool} (hlow : IsRelease low.1)
    (hhigh : IsRelease high.1)
    (h : low.1 < high.1 ∨ low.1 = high.1 ∧ low.2 = true ∧ high.2 = true)
    (hgap : ¬(low.2 = false ∧ high.2 = false ∧ nextRelease low.1 = some high.1)) :
    ∃ version, IsRelease version ∧ above version low = true ∧ below version high = true := by
  simp only [above_iff, below_iff]
  by_cases hlowest : low.2 = true
  · refine ⟨low.1, hlow, Or.inr ⟨rfl, hlowest⟩, ?_⟩
    rcases h with hlt | ⟨heq, -, hhighest⟩
    · exact Or.inl hlt
    · exact Or.inr ⟨heq, hhighest⟩
  · have hlt : low.1 < high.1 := h.resolve_right fun heq => hlowest heq.2.1
    by_cases hhighest : high.2 = true
    · exact ⟨high.1, hhigh, Or.inl hlt, Or.inr ⟨rfl, hhighest⟩⟩
    · obtain ⟨next, hnext, hle⟩ := exists_nextRelease hlow hhigh hlt
      obtain ⟨hrelease, hbehind⟩ := nextRelease_spec hlow hnext
      refine ⟨next, hrelease, Or.inl hbehind, Or.inl (lt_of_le_of_ne hle ?_)⟩
      rintro rfl
      exact hgap ⟨by simpa using hlowest, by simpa using hhighest, hnext⟩

/-- The stricter bounds of two rules are bounds of theirs and stand behind (before) the others. -/
theorem combined_lowers {low : VersionParts × Bool}
    (h : combined laterBound left.lower right.lower = some low) :
    (∃ bound ∈ lowers left right, boundParts bound = low) ∧
      ∀ bound ∈ lowers left right, (boundParts bound).1 ≤ low.1 :=
  ⟨combined_mem laterBound_eq h,
    @combined_forall _ (fun bound => bound.1 ≤ low.1) laterBound_le _ _ _ h le_rfl⟩

theorem combined_uppers {high : VersionParts × Bool}
    (h : combined earlierBound left.upper right.upper = some high) :
    (∃ bound ∈ uppers left right, boundParts bound = high) ∧
      ∀ bound ∈ uppers left right, high.1 ≤ (boundParts bound).1 :=
  ⟨combined_mem earlierBound_eq h,
    @combined_forall _ (fun bound => high.1 ≤ bound.1) le_earlierBound _ _ _ h le_rfl⟩

theorem first_below {bound : Bound} (h : bound ≠ .exclusive firstRelease) :
    below firstRelease (boundParts bound) = true := by
  rw [below_iff]
  rcases eq_or_lt_of_le (firstRelease_le (boundParts bound).1) with heq | hlt
  · refine Or.inr ⟨heq, ?_⟩
    by_contra hexclusive
    apply h
    exact boundParts_eq_exclusive (Prod.ext heq.symm (by simpa using hexclusive))
  · exact Or.inl hlt

theorem last_above {bound : Bound} (hrelease : IsRelease (boundParts bound).1)
    (h : bound ≠ .exclusive lastRelease) : above lastRelease (boundParts bound) = true := by
  rw [above_iff]
  rcases eq_or_lt_of_le (le_lastRelease hrelease) with heq | hlt
  · refine Or.inr ⟨heq, ?_⟩
    by_contra hexclusive
    apply h
    exact boundParts_eq_exclusive (Prod.ext heq (by simpa using hexclusive))
  · exact Or.inl hlt

/-- Rules that the test finds to overlap share a release version, or their bounds are vacuous. -/
theorem shareRelease_of_overlap (hleft : RuleRelease left) (hright : RuleRelease right)
    (h : rulesOverlap left right = true) (hvacuous : ¬Vacuous left right) :
    ShareRelease left right := by
  simp only [ShareRelease, isMatch_and_iff]
  cases hlow : combined laterBound left.lower right.lower with
  | none =>
    have hnone : lowers left right = [] := combined_eq_none.mp hlow
    refine ⟨firstRelease, isRelease_first, by simp [hnone], ?_⟩
    intro bound hbound
    apply first_below
    rintro rfl
    exact hvacuous (.beforeFirst hnone hbound)
  | some low =>
    cases hhigh : combined earlierBound left.upper right.upper with
    | none =>
      have hnone : uppers left right = [] := combined_eq_none.mp hhigh
      refine ⟨lastRelease, isRelease_last, ?_, by simp [hnone]⟩
      intro bound hbound
      apply last_above (isRelease_lowers hleft hright bound hbound)
      rintro rfl
      exact hvacuous (.behindLast hnone hbound)
    | some high =>
      obtain ⟨⟨lowest, hlowest, rfl⟩, hlowers⟩ := combined_lowers hlow
      obtain ⟨⟨highest, hhighest, rfl⟩, huppers⟩ := combined_uppers hhigh
      have hroom : (boundParts lowest).1 < (boundParts highest).1 ∨
          (boundParts lowest).1 = (boundParts highest).1 ∧
            (boundParts lowest).2 = true ∧ (boundParts highest).2 = true := by
        simpa [rulesOverlap, hlow, hhigh, and_assoc] using h
      obtain ⟨version, hrelease, habove, hbelow⟩ :=
        exists_between (isRelease_lowers hleft hright lowest hlowest)
          (isRelease_uppers hleft hright highest hhighest) hroom (by
            rintro ⟨hlowside, hhighside, hnext⟩
            have hlowbound := boundParts_eq_exclusive (Prod.ext rfl hlowside)
            have hhighbound := boundParts_eq_exclusive (Prod.ext rfl hhighside)
            exact hvacuous (.between _ _ (hlowbound ▸ hlowest) (hhighbound ▸ hhighest) hnext
              hlowers huppers))
      refine ⟨version, hrelease, ?_, ?_⟩
      · exact @combined_forall _ (fun bound => above version bound = true)
          above_laterBound_elim _ _ _ hlow habove
      · exact @combined_forall _ (fun bound => below version bound = true)
          below_earlierBound_elim _ _ _ hhigh hbelow

/-- Vacuous bounds overlap for the test, although no release version is between them. -/
theorem vacuous_overlap (hleft : RuleRelease left) (hright : RuleRelease right)
    (h : Vacuous left right) : rulesOverlap left right = true := by
  cases hlow : combined laterBound left.lower right.lower with
  | none => rw [rulesOverlap, hlow]
  | some low =>
    cases hhigh : combined earlierBound left.upper right.upper with
    | none => rw [rulesOverlap, hlow, hhigh]
    | some high =>
      obtain ⟨⟨lowest, hlowest, rfl⟩, -⟩ := combined_lowers hlow
      obtain ⟨⟨highest, hhighest, rfl⟩, -⟩ := combined_uppers hhigh
      cases h with
      | beforeFirst hlower hupper => simp [hlower] at hlowest
      | behindLast hupper hlower => simp [hupper] at hhighest
      | between low high hlower hupper hnext hlowers huppers =>
        have hrelease : IsRelease low := isRelease_lowers hleft hright _ hlower
        have hroom : (boundParts lowest).1 < (boundParts highest).1 :=
          ((hlowers lowest hlowest).trans_lt (nextRelease_spec hrelease hnext).2).trans_le
            (huppers highest hhighest)
        simp [rulesOverlap, hlow, hhigh, hroom]

theorem vacuous_not_shareRelease (hleft : RuleRelease left) (hright : RuleRelease right)
    (h : Vacuous left right) : ¬ShareRelease left right := by
  rintro ⟨version, hrelease, hmatch⟩
  obtain ⟨habove, hbelow⟩ := isMatch_and_iff.mp hmatch
  cases h with
  | beforeFirst hlower hupper =>
    have hfirst : version < firstRelease := by
      simpa [boundParts, below_iff] using hbelow _ hupper
    exact hfirst.not_ge (firstRelease_le version)
  | behindLast hupper hlower =>
    have hlast : lastRelease < version := by
      simpa [boundParts, above_iff] using habove _ hlower
    exact hlast.not_ge (le_lastRelease hrelease)
  | between low high hlower hupper hnext hlowers huppers =>
    have hlow : low < version := by simpa [boundParts, above_iff] using habove _ hlower
    have hhigh : version < high := by simpa [boundParts, below_iff] using hbelow _ hupper
    obtain ⟨next, hfound, hle⟩ :=
      exists_nextRelease (isRelease_lowers hleft hright _ hlower) hrelease hlow
    obtain rfl := Option.some.inj (hnext.symm.trans hfound)
    exact hhigh.not_ge hle

/-- The test is exact but for vacuous bounds. -/
theorem rulesOverlap_iff (hleft : RuleRelease left) (hright : RuleRelease right) :
    rulesOverlap left right = true ↔ ShareRelease left right ∨ Vacuous left right := by
  constructor
  · intro h
    by_cases hvacuous : Vacuous left right
    · exact Or.inr hvacuous
    · exact Or.inl (shareRelease_of_overlap hleft hright h hvacuous)
  · rintro (⟨version, -, hmatchl, hmatchr⟩ | hvacuous)
    · exact rulesOverlap_of_isMatch hmatchl hmatchr
    · exact vacuous_overlap hleft hright hvacuous

end Vacuous

section Parsing

theorem parseU64_lt {text : String} {n : ℕ} (h : parseU64 text = some n) : n < 2 ^ 64 := by
  unfold parseU64 at h
  extract_lets digits value at h
  split at h
  · cases h
  · split at h
    · obtain rfl := Option.some.inj h
      assumption
    · cases h

theorem isRelease_readVersion {value : String} {version : VersionParts}
    (h : readVersion value = some version) : IsRelease version := by
  unfold readVersion at h
  split at h
  · simp only [bind, Option.bind_eq_some_iff, pure, Option.some.injEq] at h
    obtain ⟨major, hmajor, minor, hminor, patch, hpatch, rfl⟩ := h
    exact ⟨parseU64_lt hmajor, parseU64_lt hminor, parseU64_lt hpatch⟩
  · cases h

theorem addBound_release {operator : Operator} {version : VersionParts}
    {lower upper : Option Bound} {bounds : Option Bound × Option Bound}
    (hversion : IsRelease version) (hbounds : BoundsRelease lower upper)
    (h : addBound operator version lower upper = some bounds) :
    BoundsRelease bounds.1 bounds.2 := by
  have hnew : ∀ bound, (boundParts bound).1 = version → ∀ found ∈ some bound,
      IsRelease (boundParts found).1 := by
    intro bound heq found hfound
    obtain rfl := Option.some.inj hfound
    rwa [heq]
  unfold addBound at h
  split at h <;> split at h <;> cases h
  · exact ⟨hnew _ rfl, hbounds.2⟩
  · exact ⟨hnew _ rfl, hbounds.2⟩
  · exact ⟨hbounds.1, hnew _ rfl⟩
  · exact ⟨hbounds.1, hnew _ rfl⟩
  · exact ⟨hnew _ rfl, hnew _ rfl⟩

theorem readClause_release {sourceName expression value : String} {operator : Operator}
    {lower upper : Option Bound} {bounds : Option Bound × Option Bound}
    (hbounds : BoundsRelease lower upper)
    (h : readClause sourceName expression operator value lower upper = .ok bounds) :
    BoundsRelease bounds.1 bounds.2 := by
  obtain ⟨version, hversion, hadd⟩ := readClause_eq_ok h
  exact addBound_release (isRelease_readVersion hversion) hbounds hadd

theorem readBounds_release {sourceName expression : String} (tokens : List String)
    (lower upper : Option Bound) {bounds : Option Bound × Option Bound}
    (hbounds : BoundsRelease lower upper)
    (h : readBounds sourceName expression tokens lower upper = .ok bounds) :
    BoundsRelease bounds.1 bounds.2 := by
  induction tokens, lower, upper using readBounds.induct sourceName expression with
  | case1 lower upper =>
    obtain rfl := Except.ok.inj h
    exact hbounds
  | case2 token lower upper operator htoken => simp [readBounds, htoken] at h
  | case3 token lower upper operator value rest htoken error hclause =>
    rw [readBounds.eq_3 _ _ _ _ _ _ _ _ htoken, hclause] at h
    cases h
  | case4 token lower upper operator value rest htoken lower' upper' hclause ih =>
    rw [readBounds.eq_3 _ _ _ _ _ _ _ _ htoken, hclause] at h
    exact ih (readClause_release hbounds hclause) h
  | case5 token lower upper rest htoken hstart => simp [readBounds, htoken, hstart] at h
  | case6 token lower upper rest htoken operator hstart error hclause =>
    simp [readBounds, htoken, hstart, hclause] at h
  | case7 token lower upper rest htoken operator hstart lower' upper' hclause ih =>
    simp only [readBounds, htoken, hstart, hclause] at h
    exact ih (readClause_release hbounds hclause) h

/-- A rule that the generator has read. -/
structure ParsedRule (lib : SemverLibrary) where
  rule : Rule
  parsed : ∃ sourceName expression url, parseRule lib sourceName expression url = .ok rule

theorem ParsedRule.release {lib : SemverLibrary} (parsed : ParsedRule lib) :
    RuleRelease parsed.rule := by
  obtain ⟨sourceName, expression, url, h⟩ := parsed.parsed
  have hnone : BoundsRelease none none := ⟨by simp, by simp⟩
  exact readBounds_release _ _ _ hnone (parseRule_eq_ok h).2

end Parsing

section Validation

/-- No version is admitted by more than one of the rules. -/
def AtMostOneMatch (rules : List Rule) : Prop :=
  ∀ version, IsRelease version → (rules.filter fun rule => rule.isMatch version).length ≤ 1

theorem length_filter_le_one_iff {α : Type*} (p : α → Bool) (entries : List α) :
    (entries.filter p).length ≤ 1 ↔ entries.Pairwise fun a b => ¬(p a = true ∧ p b = true) := by
  induction entries with
  | nil => simp
  | cons entry rest ih =>
    rw [List.pairwise_cons, ← ih]
    by_cases hentry : p entry = true
    · rw [List.filter_cons_of_pos hentry, List.length_cons]
      have hnone : (rest.filter p).length = 0 ↔ ∀ b ∈ rest, ¬(p entry = true ∧ p b = true) := by
        simp [hentry, List.filter_eq_nil_iff]
      rw [← hnone]
      omega
    · rw [List.filter_cons_of_neg hentry]
      simp [hentry]

theorem atMostOneMatch_iff {rules : List Rule} :
    AtMostOneMatch rules ↔ rules.Pairwise fun left right => ¬ShareRelease left right := by
  simp only [AtMostOneMatch, length_filter_le_one_iff]
  constructor
  · intro h
    rw [List.pairwise_iff_forall_sublist]
    rintro left right hsub ⟨version, hrelease, hmatch⟩
    exact List.pairwise_iff_forall_sublist.mp (h version hrelease) hsub hmatch
  · intro h version hrelease
    exact h.imp fun hshare hmatch => hshare ⟨version, hrelease, hmatch⟩

/-- A source is accepted if it can be rendered, no version matches twice, and no two of its rules
are vacuous. -/
theorem validateSourceRules_release {name : String} {rules : List Rule}
    (hrelease : ∀ rule ∈ rules, RuleRelease rule) :
    validateSourceRules name rules = .ok () ↔ bashIdentifier name = true ∧ rules ≠ [] ∧
      AtMostOneMatch rules ∧ rules.Pairwise fun left right => ¬Vacuous left right := by
  have hpairwise : (rules.Pairwise fun left right => rulesOverlap left right = false) ↔
      rules.Pairwise fun left right => ¬ShareRelease left right ∧ ¬Vacuous left right := by
    apply List.Pairwise.iff_of_mem
    intro left right hleft hright
    rw [← not_or, ← rulesOverlap_iff (hrelease left hleft) (hrelease right hright),
      Bool.not_eq_true]
  rw [validateSourceRules_iff, atMostOneMatch_iff, hpairwise, List.pairwise_and_iff]

end Validation

section Parsed

def parsedRules {lib : SemverLibrary} (rules : List (ParsedRule lib)) : List Rule :=
  rules.map ParsedRule.rule

theorem parsedRules_release {lib : SemverLibrary} (rules : List (ParsedRule lib)) :
    ∀ rule ∈ parsedRules rules, RuleRelease rule := by
  intro rule hrule
  obtain ⟨parsed, -, rfl⟩ := List.mem_map.mp hrule
  exact parsed.release

/-- Of rules that were read, the test never misses a version that two of them share, and is exact
but for vacuous bounds. The validation accepts no source with a version that matches twice, and
every other one that can be rendered and has no vacuous bounds. -/
theorem rulesOverlap_exact (lib : SemverLibrary) :
    (∀ left right : ParsedRule lib, ShareRelease left.rule right.rule →
      rulesOverlap left.rule right.rule = true) ∧
    (∀ left right : ParsedRule lib, ¬Vacuous left.rule right.rule →
      (rulesOverlap left.rule right.rule = true ↔ ShareRelease left.rule right.rule)) ∧
    ∀ (name : String) (rules : List (ParsedRule lib)),
      (validateSourceRules name (parsedRules rules) = .ok () →
        AtMostOneMatch (parsedRules rules)) ∧
      ((parsedRules rules).Pairwise (fun left right => ¬Vacuous left right) →
        (validateSourceRules name (parsedRules rules) = .ok () ↔
          bashIdentifier name = true ∧ rules ≠ [] ∧ AtMostOneMatch (parsedRules rules))) := by
  refine ⟨?_, ?_, ?_⟩
  · intro left right hshare
    exact (rulesOverlap_iff left.release right.release).mpr (Or.inl hshare)
  · intro left right hvacuous
    rw [rulesOverlap_iff left.release right.release, or_iff_left hvacuous]
  · intro name rules
    have hempty : parsedRules rules ≠ [] ↔ rules ≠ [] := not_congr List.map_eq_nil_iff
    rw [validateSourceRules_release (parsedRules_release rules), hempty]
    refine ⟨fun h => h.2.2.1, ?_⟩
    intro hvacuous
    simp only [hvacuous, and_true]

set_option maxRecDepth 20000 in
def firstSample : ParsedRule sampleLibrary where
  rule := ⟨">= 6.6.0, < 7.7.0", "/first", some (.inclusive ⟨6, 6, 0⟩), some (.exclusive ⟨7, 7, 0⟩)⟩
  parsed := ⟨"licenses", ">= 6.6.0, < 7.7.0", "/first", rfl⟩

set_option maxRecDepth 20000 in
def secondSample : ParsedRule sampleLibrary where
  rule := ⟨">= 7.7.0", "/second", some (.inclusive ⟨7, 7, 0⟩), none⟩
  parsed := ⟨"licenses", ">= 7.7.0", "/second", rfl⟩

theorem sample_not_vacuous : ¬Vacuous firstSample.rule secondSample.rule := by
  rintro (⟨hlower, -⟩ | ⟨hupper, -⟩ | ⟨low, -, hlower, -, -, -, -⟩)
  · cases hlower
  · cases hupper
  · simp [lowers, firstSample, secondSample] at hlower

theorem rulesOverlap_exact_sample :
    (rulesOverlap firstSample.rule secondSample.rule = true ↔
      ShareRelease firstSample.rule secondSample.rule) ∧
    (validateSourceRules "licenses" (parsedRules [firstSample, secondSample]) = .ok () ↔
      bashIdentifier "licenses" = true ∧ [firstSample, secondSample] ≠ [] ∧
        AtMostOneMatch (parsedRules [firstSample, secondSample])) := by
  have hpairwise : (parsedRules [firstSample, secondSample]).Pairwise
      (fun left right => ¬Vacuous left right) := by
    simpa [parsedRules] using sample_not_vacuous
  obtain ⟨-, hexact, hvalid⟩ := rulesOverlap_exact sampleLibrary
  exact ⟨hexact _ _ sample_not_vacuous, (hvalid _ _).2 hpairwise⟩

/-- A library that reads two ranges, one of which has no release version in it. -/
def narrowLibrary : SemverLibrary where
  Req := List (Operator × VersionParts)
  parse text :=
    if text = "> 7.0.0, < 7.0.1" then .ok [(.greater, ⟨7, 0, 0⟩), (.less, ⟨7, 0, 1⟩)]
    else if text = ">= 6.0.0" then .ok [(.greaterEq, ⟨6, 0, 0⟩)]
    else .error "unexpected character while parsing"
  isMatch req version := req.all fun comparator => comparator.1.holds version.parts comparator.2

set_option maxRecDepth 20000 in
def narrowRule : ParsedRule narrowLibrary where
  rule := ⟨"> 7.0.0, < 7.0.1", "/narrow", some (.exclusive ⟨7, 0, 0⟩), some (.exclusive ⟨7, 0, 1⟩)⟩
  parsed := ⟨"licenses", "> 7.0.0, < 7.0.1", "/narrow", rfl⟩

set_option maxRecDepth 20000 in
def wideRule : ParsedRule narrowLibrary where
  rule := ⟨">= 6.0.0", "/wide", some (.inclusive ⟨6, 0, 0⟩), none⟩
  parsed := ⟨"licenses", ">= 6.0.0", "/wide", rfl⟩

theorem narrowRule_not_share : ¬ShareRelease narrowRule.rule wideRule.rule := by
  apply vacuous_not_shareRelease narrowRule.release wideRule.release
  apply Vacuous.between ⟨7, 0, 0⟩ ⟨7, 0, 1⟩
  · simp [lowers, narrowRule]
  · simp [uppers, narrowRule]
  · rfl
  · simp [lowers, narrowRule, wideRule, boundParts, le_iff]
  · simp [uppers, narrowRule, wideRule, boundParts]

set_option maxRecDepth 20000 in
/-- No release version is above 7.0.0 and below 7.0.1, and still the test finds these bounds to
overlap with others. A source without rules is refused, and no version matches twice. -/
theorem narrow_overlap :
    rulesOverlap narrowRule.rule wideRule.rule = true ∧
      ¬ShareRelease narrowRule.rule wideRule.rule ∧
      validateSourceRules "licenses" (parsedRules [narrowRule, wideRule]) =
        .error ("lite source 'licenses' has ambiguous overlapping rules '> 7.0.0, < 7.0.1' and " ++
          "'>= 6.0.0'") ∧
      AtMostOneMatch (parsedRules [narrowRule, wideRule]) ∧
      validateSourceRules "licenses" [] =
        .error "lite source 'licenses' has no version rules" ∧ AtMostOneMatch [] := by
  refine ⟨rfl, narrowRule_not_share, rfl, ?_, rfl, ?_⟩
  · rw [atMostOneMatch_iff]
    simpa [parsedRules] using narrowRule_not_share
  · simp [atMostOneMatch_iff]

end Parsed

end Esdiag.RuleOverlaps
