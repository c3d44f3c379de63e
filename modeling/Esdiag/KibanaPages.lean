import Esdiag.KibanaAttempts
import Mathlib.Data.List.Forall2

/-!
The pages of a collection from Kibana, and the names of their files. The pages of
a scope are asked for in order, and not given up before the last one that an answer
reports. A name keeps the page, and the space as far as the sanitizing does: two
answers share a name exactly if their spaces come to the same segment and they have
the same page in it, or both none.
-/
namespace Esdiag.KibanaPages

open KibanaCollection KibanaAttempts

section Pages

/-- The number of pages that an answer reports. -/
def reportedPages (paginateField : String) (body : Body) : Option ℕ := do
  let total ← body "total"
  let perPage ← lookupPageSize body paginateField
  if perPage = 0 then none else some (divCeil total perPage)

theorem reportedPages_le {paginateField : String} {body : Body} (page reported : ℕ)
    (h : reportedPages paginateField body = some reported) :
    reported ≤ (parseTotalPages body paginateField page).getD page := by
  unfold reportedPages at h
  unfold parseTotalPages
  cases htotal : body "total" with
  | none => simp [htotal] at h
  | some total =>
    cases hperPage : lookupPageSize body paginateField with
    | none => simp [htotal, hperPage] at h
    | some perPage =>
      simp only [htotal, hperPage, Option.bind_eq_bind, Option.bind_some] at h ⊢
      by_cases hzero : perPage = 0
      · simp [hzero] at h
      · rw [if_neg hzero, Option.some.injEq] at h
        rw [if_neg hzero, Option.getD_some, ← h]
        exact Nat.le_max_right _ _

variable (paginateField : String) (space : Option String) (page totalPages : ℕ)
  (pages : List PageAnswer)

theorem askPages_cons (answered : PageAnswer) (rest : List PageAnswer) :
    (∃ failure, answered.answer = .error failure ∧
        askPages paginateField space page totalPages (answered :: rest) = ([], .failed failure)) ∨
      ∃ response total, answered.answer = .ok response ∧
        total = max totalPages ((parseTotalPages response.body paginateField page).getD page) ∧
        (total ≤ page ∧ askPages paginateField space page totalPages (answered :: rest) =
            ([⟨space, page, if 1 < total then some page else none, response,
              answered.writable⟩], .done) ∨
          page < total ∧ askPages paginateField space page totalPages (answered :: rest) =
            (⟨space, page, if 1 < total then some page else none, response,
                answered.writable⟩ :: (askPages paginateField space (page + 1) total rest).1,
              (askPages paginateField space (page + 1) total rest).2)) := by
  rw [askPages]
  cases hanswer : answered.answer with
  | error failure => exact Or.inl ⟨failure, rfl, rfl⟩
  | ok response =>
    refine Or.inr ⟨response, _, rfl, rfl, ?_⟩
    rcases Nat.lt_or_ge page
      (max totalPages ((parseTotalPages response.body paginateField page).getD page)) with hmore | hdone
    · exact Or.inr ⟨hmore, if_neg (Nat.not_le.mpr hmore)⟩
    · exact Or.inl ⟨hdone, if_pos hdone⟩

theorem askPages_pages :
    (askPages paginateField space page totalPages pages).1.map Visit.page =
      List.range' page (askPages paginateField space page totalPages pages).1.length := by
  induction pages generalizing page totalPages with
  | nil => rfl
  | cons answered rest ih =>
    rcases askPages_cons paginateField space page totalPages answered rest with
      ⟨failure, -, heq⟩ | ⟨response, total, -, -, ⟨-, heq⟩ | ⟨-, heq⟩⟩
    · rw [heq]
      rfl
    · rw [heq]
      rfl
    · rw [heq]
      simp only [List.map_cons, List.length_cons, List.range'_succ, ih]

theorem askPages_space :
    ∀ visit ∈ (askPages paginateField space page totalPages pages).1, visit.space = space := by
  induction pages generalizing page totalPages with
  | nil => exact nofun
  | cons answered rest ih =>
    intro visit hvisit
    rcases askPages_cons paginateField space page totalPages answered rest with
      ⟨failure, -, heq⟩ | ⟨response, total, -, -, ⟨-, heq⟩ | ⟨-, heq⟩⟩
    · rw [heq] at hvisit
      cases hvisit
    · rw [heq, List.mem_singleton] at hvisit
      rw [hvisit]
    · rw [heq, List.mem_cons] at hvisit
      rcases hvisit with rfl | hrest
      · rfl
      · exact ih _ _ visit hrest

/-- The loop ends with the last page that an answer reports, and no earlier. -/
theorem askPages_reported
    (h : (askPages paginateField space page totalPages pages).2 = .done) :
    totalPages < page + (askPages paginateField space page totalPages pages).1.length ∧
      ∀ visit ∈ (askPages paginateField space page totalPages pages).1,
        ∀ reported, reportedPages paginateField visit.response.body = some reported →
          reported < page + (askPages paginateField space page totalPages pages).1.length := by
  induction pages generalizing page totalPages with
  | nil => cases h
  | cons answered rest ih =>
    rcases askPages_cons paginateField space page totalPages answered rest with
      ⟨failure, -, heq⟩ | ⟨response, total, -, htotal, ⟨hdone, heq⟩ | ⟨hmore, heq⟩⟩
    · rw [heq] at h
      cases h
    · have hreported := @reportedPages_le paginateField response.body page
      rw [heq, List.length_singleton]
      refine ⟨by omega, ?_⟩
      intro visit hvisit reported hpages
      rw [List.mem_singleton.mp hvisit] at hpages
      have := hreported reported hpages
      omega
    · have hreported := @reportedPages_le paginateField response.body page
      rw [heq] at h ⊢
      obtain ⟨hlast, hrest⟩ := ih _ _ h
      rw [List.length_cons]
      refine ⟨by omega, ?_⟩
      intro visit hvisit reported hpages
      rcases List.mem_cons.mp hvisit with rfl | hlater
      · have := hreported reported hpages
        omega
      · have := hrest visit hlater reported hpages
        omega

/-- The answers of a scope have their pages in the names, unless there is one answer only. -/
theorem askPages_pageScope (hpages : 1 < page → page ≤ totalPages) (hpage : 1 ≤ page) :
    (∃ visit, (askPages paginateField space page totalPages pages).1 = [visit] ∧
        visit.page = 1 ∧ visit.pageScope = none) ∨
      ∀ visit ∈ (askPages paginateField space page totalPages pages).1,
        visit.pageScope = some visit.page := by
  induction pages generalizing page totalPages with
  | nil => exact Or.inr nofun
  | cons answered rest ih =>
    rcases askPages_cons paginateField space page totalPages answered rest with
      ⟨failure, -, heq⟩ | ⟨response, total, -, htotal, ⟨hdone, heq⟩ | ⟨hmore, heq⟩⟩
    · rw [heq]
      exact Or.inr nofun
    · rw [heq]
      by_cases hseveral : 1 < total
      · refine Or.inr fun visit hvisit => ?_
        rw [List.mem_singleton.mp hvisit, if_pos hseveral]
      · have hfirst : page = 1 := by omega
        exact Or.inl ⟨_, rfl, hfirst, if_neg hseveral⟩
    · rw [heq]
      have hseveral : 1 < total := by omega
      right
      intro visit hvisit
      rcases List.mem_cons.mp hvisit with rfl | hlater
      · exact if_pos hseveral
      · rcases ih (page + 1) total (by omega) (by omega) with
          ⟨only, honly, hfirst, -⟩ | hall
        · have hnext := askPages_pages paginateField space (page + 1) total rest
          rw [honly, List.map_singleton, List.length_singleton, List.range'_one] at hnext
          have := List.singleton_inj.mp hnext
          omega
        · exact hall visit hlater

end Pages

section Scopes

variable (paginate : Option String)

/-- All pages of a scope were asked for, as far as they were reported. -/
structure Covers (scope : ScopeScript) (visits : List Visit) : Prop where
  space : ∀ visit ∈ visits, visit.space = scope.space
  pages : visits.map Visit.page = List.range' 1 visits.length
  first : 1 ≤ visits.length
  reported : ∀ paginateField, paginate = some paginateField → ∀ visit ∈ visits, ∀ reported,
    reportedPages paginateField visit.response.body = some reported → reported ≤ visits.length

/-- The name of an answer has its page, or it is the only answer and has none. -/
def KeepsPage (visit : Visit) : Prop :=
  visit.pageScope = none ∧ visit.page = 1 ∨ visit.pageScope = some visit.page

/-- A scope without pages is asked once. -/
theorem askScope_none (scope : ScopeScript) :
    (askScope none scope).1 = [] ∧ (askScope none scope).2 ≠ .done ∨
      ∃ response writable,
        askScope none scope = ([⟨scope.space, 1, none, response, writable⟩], .done) := by
  unfold askScope
  cases hpages : scope.pages with
  | nil => exact Or.inl ⟨rfl, nofun⟩
  | cons answered rest =>
    cases hanswer : answered.answer with
    | error failure =>
      simp only [hanswer]
      exact Or.inl ⟨trivial, nofun⟩
    | ok response =>
      simp only [hanswer]
      exact Or.inr ⟨response, answered.writable, rfl⟩

theorem askScope_space (scope : ScopeScript) :
    ∀ visit ∈ (askScope paginate scope).1, visit.space = scope.space := by
  cases paginate with
  | some paginateField => exact askPages_space _ _ _ _ _
  | none =>
    intro visit hvisit
    rcases askScope_none scope with ⟨hnone, -⟩ | ⟨response, writable, hone⟩
    · rw [hnone] at hvisit
      cases hvisit
    · rw [hone, List.mem_singleton] at hvisit
      rw [hvisit]

theorem askScope_pages (scope : ScopeScript) :
    (askScope paginate scope).1.map Visit.page =
      List.range' 1 (askScope paginate scope).1.length := by
  cases paginate with
  | some paginateField => exact askPages_pages _ _ _ _ _
  | none =>
    rcases askScope_none scope with ⟨hnone, -⟩ | ⟨response, writable, hone⟩
    · rw [hnone]
      rfl
    · rw [hone]
      rfl

theorem askScope_pageScope (scope : ScopeScript) :
    (∃ visit, (askScope paginate scope).1 = [visit] ∧ visit.page = 1 ∧ visit.pageScope = none) ∨
      ∀ visit ∈ (askScope paginate scope).1, visit.pageScope = some visit.page := by
  cases paginate with
  | some paginateField => exact askPages_pageScope _ _ _ _ _ (fun h => by omega) (Nat.le_refl 1)
  | none =>
    rcases askScope_none scope with ⟨hnone, -⟩ | ⟨response, writable, hone⟩
    · rw [hnone]
      exact Or.inr nofun
    · rw [hone]
      exact Or.inl ⟨_, rfl, rfl, rfl⟩

variable {paginate} {scope : ScopeScript}

theorem askScope_covers (h : (askScope paginate scope).2 = .done) :
    Covers paginate scope (askScope paginate scope).1 := by
  have hspace := askScope_space paginate scope
  have hpages := askScope_pages paginate scope
  cases paginate with
  | some paginateField =>
    obtain ⟨hlast, hreported⟩ := askPages_reported _ _ _ _ _ h
    refine ⟨hspace, hpages, Nat.lt_one_add_iff.mp hlast, ?_⟩
    intro field hfield visit hvisit reported hnumber
    cases hfield
    exact Nat.lt_one_add_iff.mp (hreported visit hvisit reported hnumber)
  | none =>
    rcases askScope_none scope with ⟨-, hundone⟩ | ⟨response, writable, hone⟩
    · exact absurd h hundone
    · refine ⟨hspace, hpages, ?_, nofun⟩
      rw [hone]
      exact Nat.le_refl 1

theorem askScopes_covers {scopes : List ScopeScript}
    (h : (askScopes paginate scopes).2 = .done) :
    List.Forall₂ (Covers paginate) scopes (askScopes paginate scopes).1 := by
  induction scopes with
  | nil => exact .nil
  | cons scope rest ih =>
    unfold askScopes at h ⊢
    by_cases hdone : (askScope paginate scope).2 = .done
    · simp only [if_pos hdone] at h ⊢
      exact .cons (askScope_covers hdone) (ih h)
    · simp only [if_neg hdone] at h
      exact absurd h hdone

theorem keepsPage_of_askScope : ∀ visit ∈ (askScope paginate scope).1, KeepsPage visit := by
  intro visit hvisit
  rcases askScope_pageScope paginate scope with
    ⟨only, honly, hfirst, hnone⟩ | hall
  · rw [honly, List.mem_singleton] at hvisit
    rw [hvisit]
    exact Or.inl ⟨hnone, hfirst⟩
  · exact Or.inr (hall visit hvisit)

/-- With one answer of a scope there is that of the first page. -/
theorem exists_first_of_askScope {visit : Visit} (h : visit ∈ (askScope paginate scope).1) :
    ∃ first ∈ (askScope paginate scope).1, first.page = 1 := by
  have hpages := askScope_pages paginate scope
  have hone : 1 ∈ List.range' 1 (askScope paginate scope).1.length := by
    have := List.length_pos_of_mem h
    rw [List.mem_range'_1]
    omega
  rw [← hpages, List.mem_map] at hone
  exact hone

/-- Every answer belongs to a scope of which all answers were received. -/
theorem exists_scope_of_askScopes {scopes : List ScopeScript} {visit : Visit}
    (h : visit ∈ (askScopes paginate scopes).1.flatten) :
    ∃ scope, visit ∈ (askScope paginate scope).1 ∧
      ∀ other ∈ (askScope paginate scope).1, other ∈ (askScopes paginate scopes).1.flatten := by
  induction scopes with
  | nil => cases h
  | cons scope rest ih =>
    unfold askScopes at h ⊢
    by_cases hdone : (askScope paginate scope).2 = .done
    · simp only [if_pos hdone, List.flatten_cons, List.mem_append] at h ⊢
      rcases h with hscope | hrest
      · exact ⟨scope, hscope, fun other hother => Or.inl hother⟩
      · obtain ⟨one, hone, hall⟩ := ih hrest
        exact ⟨one, hone, fun other hother => Or.inr (hall other hother)⟩
    · simp only [if_neg hdone, List.flatten_singleton] at h ⊢
      exact ⟨scope, h, fun other hother => hother⟩

variable {attempt : Attempt} {visit : Visit}

theorem exists_scope_of_received (h : visit ∈ received paginate attempt) :
    ∃ scope, visit ∈ (askScope paginate scope).1 ∧
      ∀ other ∈ (askScope paginate scope).1, other ∈ received paginate attempt := by
  unfold received ask at h ⊢
  split at h
  · cases h
  · cases h
  · exact exists_scope_of_askScopes h

theorem keepsPage_of_received (h : visit ∈ received paginate attempt) : KeepsPage visit := by
  obtain ⟨scope, hscope, -⟩ := exists_scope_of_received h
  exact keepsPage_of_askScope visit hscope

/-- Where a name has its page, the first page of the same space has it as well. -/
theorem exists_first_of_received (h : visit ∈ received paginate attempt)
    (hseveral : visit.pageScope.isSome = true) :
    ∃ first ∈ received paginate attempt,
      first.space = visit.space ∧ first.page = 1 ∧ first.pageScope = some 1 := by
  obtain ⟨scope, hscope, hall⟩ := exists_scope_of_received h
  obtain ⟨first, hfirst, hpage⟩ := exists_first_of_askScope hscope
  refine ⟨first, hall first hfirst, ?_, hpage, ?_⟩
  · rw [askScope_space _ _ first hfirst, askScope_space _ _ visit hscope]
  · rcases askScope_pageScope paginate scope with
      ⟨only, honly, -, hnone⟩ | hpages
    · rw [honly, List.mem_singleton] at hscope
      rw [hscope, hnone] at hseveral
      cases hseveral
    · rw [hpages first hfirst, hpage]

end Scopes

section Names

theorem ofDigits_pageDigits (page : ℕ) : Nat.ofDigits 10 (pageDigits page).reverse = page := by
  rw [pageDigits, List.reverse_reverse, Nat.ofDigits_append_replicate_zero, Nat.ofDigits_digits]

theorem pageDigits_lt (page : ℕ) : ∀ digit ∈ pageDigits page, digit < 10 := by
  intro digit hdigit
  rw [pageDigits, List.mem_reverse, List.mem_append] at hdigit
  rcases hdigit with hdigit | hzero
  · exact Nat.digits_lt_base (by omega) hdigit
  · rw [List.eq_of_mem_replicate hzero]
    omega

theorem map_digitChar_injective {digits others : List ℕ} (hdigits : ∀ digit ∈ digits, digit < 10)
    (hothers : ∀ digit ∈ others, digit < 10)
    (h : digits.map Nat.digitChar = others.map Nat.digitChar) : digits = others := by
  have hback : ∀ digit < 10, (Nat.digitChar digit).toNat - '0'.toNat = digit := by
    intro digit hdigit
    interval_cases digit <;> rfl
  have hmap : ∀ xs : List ℕ, (∀ digit ∈ xs, digit < 10) →
      (xs.map Nat.digitChar).map (fun c => c.toNat - '0'.toNat) = xs := by
    intro xs hxs
    rw [List.map_map]
    exact (List.map_congr_left fun digit hdigit => hback digit (hxs digit hdigit)).trans
      (List.map_id xs)
  rw [← hmap digits hdigits, h, hmap others hothers]

theorem pageSegment_injective {page other : ℕ} (h : pageSegment page = pageSegment other) :
    page = other := by
  unfold pageSegment at h
  have hchars := List.append_cancel_left (String.ofList_injective h)
  have hdigits := map_digitChar_injective (pageDigits_lt page) (pageDigits_lt other) hchars
  rw [← ofDigits_pageDigits page, hdigits, ofDigits_pageDigits]

/-- The segment of a space in a name; there is none where nothing of it is left. -/
def spaceKey (space : Option String) : Option Path :=
  space.map fun space => components [sanitizeSegment space]

def fileName (baseFilePath : Path) (visit : Visit) : Path :=
  components (scopedOutputPath baseFilePath visit.space visit.pageScope)

def spacePart (space : Option String) : Path :=
  ((spaceKey space).map fun key => "spaces" :: key).getD []

def pagePart (page : Option ℕ) : Path :=
  (page.map fun page => ["pages", pageSegment page]).getD []

theorem components_append (path rest : Path) :
    components (path ++ rest) = components path ++ components rest := by
  unfold components
  exact List.filter_append path rest

theorem toList_pageSegment (page : ℕ) :
    (pageSegment page).toList = 'p' :: ("age-".toList ++ (pageDigits page).map Nat.digitChar) := by
  have hlead : "page-".toList = 'p' :: "age-".toList := by decide
  unfold pageSegment
  exact String.toList_ofList.trans (congrArg (· ++ (pageDigits page).map Nat.digitChar) hlead)

theorem pageSegment_kept (page : ℕ) : pageSegment page ≠ "" ∧ pageSegment page ≠ "." := by
  have hlist := toList_pageSegment page
  constructor
  · intro h
    have hempty : "".toList = [] := by decide
    rw [h, hempty] at hlist
    exact List.cons_ne_nil _ _ hlist.symm
  · intro h
    have hdot : ".".toList = ['.'] := by decide
    rw [h, hdot] at hlist
    exact absurd (List.cons.inj hlist).1 (by decide)

theorem fileName_eq (baseFilePath : Path) (visit : Visit) :
    fileName baseFilePath visit =
      (spacePart visit.space ++ pagePart visit.pageScope) ++ components baseFilePath := by
  unfold fileName scopedOutputPath
  rw [components_append, components_append]
  congr 2
  · cases visit.space with
    | none => rfl
    | some space => rfl
  · cases visit.pageScope with
    | none => rfl
    | some page =>
      have hkept := pageSegment_kept page
      simp [components, pagePart, hkept]

theorem pagePart_injective {page other : Option ℕ} (h : pagePart page = pagePart other) :
    page = other := by
  cases page with
  | none =>
    cases other with
    | none => rfl
    | some other => cases h
  | some page =>
    cases other with
    | none => cases h
    | some other => rw [pageSegment_injective (List.cons.inj (List.cons.inj h).2).1]

theorem length_components_singleton (segment : String) : (components [segment]).length ≤ 1 :=
  List.length_filter_le _ [segment]

theorem length_pagePart (page : Option ℕ) :
    (pagePart page).length = 0 ∨ (pagePart page).length = 2 := by
  cases page with
  | none => exact Or.inl rfl
  | some page => exact Or.inr rfl

/-- The space and the page can be read back from a name, as far as the sanitizing keeps them. -/
theorem parts_injective {space other : Option String} {page next : Option ℕ}
    (h : spacePart space ++ pagePart page = spacePart other ++ pagePart next) :
    spaceKey space = spaceKey other ∧ page = next := by
  have hlead : ∀ (page : Option ℕ) (rest : Path), pagePart page ≠ "spaces" :: rest := by
    intro page rest heq
    cases page with
    | none => cases heq
    | some page => exact absurd (List.cons.inj heq).1 (by decide)
  cases space with
  | none =>
    cases other with
    | none => exact ⟨rfl, pagePart_injective h⟩
    | some other => exact absurd h (hlead page _)
  | some space =>
    cases other with
    | none => exact absurd h.symm (hlead next _)
    | some other =>
      have hkeys : components [sanitizeSegment space] ++ pagePart page =
          components [sanitizeSegment other] ++ pagePart next := (List.cons.inj h).2
      have hlength := congrArg List.length hkeys
      rw [List.length_append, List.length_append] at hlength
      have hspace := length_components_singleton (sanitizeSegment space)
      have hother := length_components_singleton (sanitizeSegment other)
      have hparts : (pagePart page).length = (pagePart next).length := by
        rcases length_pagePart page with hpage | hpage <;>
          rcases length_pagePart next with hnext | hnext <;> omega
      obtain ⟨hkey, hpage⟩ := List.append_inj' hkeys hparts
      exact ⟨congrArg some hkey, pagePart_injective hpage⟩

theorem fileName_eq_iff (baseFilePath : Path) (visit other : Visit) :
    fileName baseFilePath visit = fileName baseFilePath other ↔
      spaceKey visit.space = spaceKey other.space ∧ visit.pageScope = other.pageScope := by
  rw [fileName_eq, fileName_eq, List.append_cancel_right_eq]
  constructor
  · exact parts_injective
  · rintro ⟨hkey, hpage⟩
    rw [spacePart, hkey, hpage]
    rfl

end Names

end Esdiag.KibanaPages
