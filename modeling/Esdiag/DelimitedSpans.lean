import Esdiag.TextParts

/-!
Spans of a text between an opening part and a closing letter, found from left to right.
The text is its spans with what stands between them, and rewriting the spans changes
nothing else. A rewriting that leaves the closing letter out finds its own spans again.
-/
namespace Esdiag.DelimitedSpans

open Texts

/-- A span with the text since the span before it. -/
structure Span (α : Type*) where
  before : List α
  content : List α

variable {α : Type*}

def Span.map (f : List α → List α) (span : Span α) : Span α :=
  { span with content := f span.content }

def textOf (opening : List α) (closing : α) : List (Span α) → List α → List α
  | [], tail => tail
  | span :: spans, tail =>
    span.before ++ (opening ++ (span.content ++ closing :: textOf opening closing spans tail))

variable [DecidableEq α]

/-- What follows the next span of a text is shorter. -/
theorem length_rest_lt {opening text before after content rest : List α} {closing : α}
    (hopen : splitAtPart opening text = some (before, after))
    (hclose : splitOnceList closing after = some (content, rest)) :
    rest.length < text.length := by
  obtain ⟨hafter, -⟩ := splitOnceList_eq_some hclose
  rw [splitAtPart_eq_some hopen, hafter]
  simp only [List.length_append, List.length_cons]
  omega

/-- The spans of a text, and what follows the last one. -/
def spansOf (opening : List α) (closing : α) (text : List α) : List (Span α) × List α :=
  match _hopen : splitAtPart opening text with
  | none => ([], text)
  | some (before, after) =>
    match _hclose : splitOnceList closing after with
    | none => ([], text)
    | some (content, rest) =>
      let later := spansOf opening closing rest
      (⟨before, content⟩ :: later.1, later.2)
termination_by text.length
decreasing_by exact length_rest_lt _hopen _hclose

def rewriteSpans (opening : List α) (closing : α) (f : List α → List α) (text : List α) :
    List α :=
  textOf opening closing ((spansOf opening closing text).1.map (Span.map f))
    (spansOf opening closing text).2

variable {opening : List α} {closing : α}

/-- No opening part of the text is followed by a closing letter. -/
def NoSpan (opening : List α) (closing : α) (text : List α) : Prop :=
  ∀ before after, splitAtPart opening text = some (before, after) →
    splitOnceList closing after = none

theorem spansOf_of_noSpan {text : List α} (h : NoSpan opening closing text) :
    spansOf opening closing text = ([], text) := by
  unfold spansOf
  split
  · rfl
  · rename_i before after hopen
    split
    · rfl
    · rename_i hclose
      rw [h before after hopen] at hclose
      cases hclose

theorem spansOf_cons {text before after content rest : List α}
    (hopen : splitAtPart opening text = some (before, after))
    (hclose : splitOnceList closing after = some (content, rest)) :
    spansOf opening closing text =
      (⟨before, content⟩ :: (spansOf opening closing rest).1, (spansOf opening closing rest).2) := by
  rw [spansOf.eq_def]
  split
  · rename_i hfound
    rw [hopen] at hfound
    cases hfound
  · rename_i hfound
    obtain ⟨rfl, rfl⟩ := Prod.mk.inj (Option.some.inj (hopen.symm.trans hfound))
    split
    · rename_i hrest
      rw [hclose] at hrest
      cases hrest
    · rename_i hrest
      obtain ⟨rfl, rfl⟩ := Prod.mk.inj (Option.some.inj (hclose.symm.trans hrest))
      rfl

/-- A text by its next span. -/
theorem spansOf_induct {motive : List α → List (Span α) × List α → Prop}
    (finished : ∀ text, NoSpan opening closing text → motive text ([], text))
    (found : ∀ text before after content rest,
      splitAtPart opening text = some (before, after) →
      splitOnceList closing after = some (content, rest) →
      motive rest (spansOf opening closing rest) →
      motive text (⟨before, content⟩ :: (spansOf opening closing rest).1,
        (spansOf opening closing rest).2))
    (text : List α) : motive text (spansOf opening closing text) := by
  induction hlength : text.length using Nat.strong_induction_on generalizing text with
  | _ length ih =>
    by_cases hnone : NoSpan opening closing text
    · rw [spansOf_of_noSpan hnone]
      exact finished text hnone
    · simp only [NoSpan, not_forall] at hnone
      obtain ⟨before, after, hopen, hclosed⟩ := hnone
      obtain ⟨inner, hclose⟩ := Option.ne_none_iff_exists'.mp hclosed
      rw [spansOf_cons hopen hclose]
      have hshorter := length_rest_lt hopen hclose
      rw [hlength] at hshorter
      exact found text _ _ _ _ hopen hclose (ih _ hshorter _ rfl)

/-- The spans of a text and what is between them are the text. -/
theorem textOf_spansOf (text : List α) :
    textOf opening closing (spansOf opening closing text).1 (spansOf opening closing text).2 =
      text := by
  refine spansOf_induct (motive := fun text found =>
    textOf opening closing found.1 found.2 = text) ?finished ?found text
  case finished => exact fun _ _ => rfl
  case found =>
    intro text before after content rest hopen hclose ih
    rw [textOf, ih, ← (splitOnceList_eq_some hclose).1, ← splitAtPart_eq_some hopen]

/-- A span ends at the first closing letter, after the first opening part. -/
theorem of_mem_spansOf (hopening : opening ≠ []) (text : List α) :
    ∀ span ∈ (spansOf opening closing text).1,
      ¬opening <:+: span.before ∧ closing ∉ span.content := by
  refine spansOf_induct (motive := fun _ found => ∀ span ∈ found.1,
    ¬opening <:+: span.before ∧ closing ∉ span.content) ?finished ?found text
  case finished => exact fun _ _ => nofun
  case found =>
    intro text before after content rest hopen hclose ih span hspan
    rcases List.mem_cons.mp hspan with rfl | hlater
    · exact ⟨not_infix_of_splitAtPart hopening hopen, (splitOnceList_eq_some hclose).2⟩
    · exact ih span hlater

theorem spansOf_tail (text : List α) :
    spansOf opening closing (spansOf opening closing text).2 =
      ([], (spansOf opening closing text).2) := by
  refine spansOf_induct (motive := fun _ found =>
    spansOf opening closing found.2 = ([], found.2)) ?finished ?found text
  case finished => exact fun _ h => spansOf_of_noSpan h
  case found => exact fun _ _ _ _ _ _ _ ih => ih

section Rewriting

variable {c : α} {part : List α}

/-- Spans that are put together are found again. -/
theorem spansOf_textOf (hc : c ∉ part) {spans : List (Span α)} {tail : List α}
    (hspans : ∀ span ∈ spans, ¬c :: part <:+: span.before ∧ closing ∉ span.content)
    (htail : spansOf (c :: part) closing tail = ([], tail)) :
    spansOf (c :: part) closing (textOf (c :: part) closing spans tail) = (spans, tail) := by
  induction spans with
  | nil => exact htail
  | cons span spans ih =>
    obtain ⟨hbefore, hcontent⟩ := hspans span List.mem_cons_self
    have hlater := ih fun other hother => hspans other (List.mem_cons_of_mem _ hother)
    rw [textOf, spansOf_cons (splitAtPart_append_cons hc hbefore _)
      (splitOnceList_append _ hcontent), hlater]

theorem spansOf_rewriteSpans (hc : c ∉ part) {f : List α → List α} {text : List α}
    (hf : ∀ span ∈ (spansOf (c :: part) closing text).1, closing ∉ f span.content) :
    spansOf (c :: part) closing (rewriteSpans (c :: part) closing f text) =
      ((spansOf (c :: part) closing text).1.map (Span.map f),
        (spansOf (c :: part) closing text).2) := by
  refine spansOf_textOf hc ?_ (spansOf_tail text)
  intro span hspan
  obtain ⟨original, horiginal, rfl⟩ := List.mem_map.mp hspan
  exact ⟨(of_mem_spansOf (List.cons_ne_nil c part) text original horiginal).1,
    hf original horiginal⟩

/-- A rewriting that keeps what it has written changes nothing when it is repeated. -/
theorem rewriteSpans_rewriteSpans (hc : c ∉ part) {f : List α → List α} {text : List α}
    (hf : ∀ span ∈ (spansOf (c :: part) closing text).1,
      closing ∉ f span.content ∧ f (f span.content) = f span.content) :
    rewriteSpans (c :: part) closing f (rewriteSpans (c :: part) closing f text) =
      rewriteSpans (c :: part) closing f text := by
  have hspans := spansOf_rewriteSpans hc fun span hspan => (hf span hspan).1
  have hmap : ((spansOf (c :: part) closing text).1.map (Span.map f)).map (Span.map f) =
      (spansOf (c :: part) closing text).1.map (Span.map f) := by
    rw [List.map_map]
    refine List.map_congr_left fun span hspan => ?_
    rw [Function.comp_apply, Span.map, Span.map, (hf span hspan).2]
  rw [rewriteSpans, hspans, hmap]
  rfl

/-- Two rewritings that agree on a text agree on each of its spans. -/
theorem content_eq_of_rewriteSpans_eq (hc : c ∉ part) {f g : List α → List α} {text : List α}
    (hf : ∀ span ∈ (spansOf (c :: part) closing text).1, closing ∉ f span.content)
    (hg : ∀ span ∈ (spansOf (c :: part) closing text).1, closing ∉ g span.content)
    (h : rewriteSpans (c :: part) closing f text = rewriteSpans (c :: part) closing g text) :
    ∀ span ∈ (spansOf (c :: part) closing text).1, f span.content = g span.content := by
  have hspans := spansOf_rewriteSpans hc hf
  rw [h, spansOf_rewriteSpans hc hg] at hspans
  have hmaps := (Prod.mk.inj hspans).1
  intro span hspan
  have heq := List.map_inj_left.mp hmaps span hspan
  exact (congrArg Span.content heq).symm

theorem rewriteSpans_congr {f g : List α → List α} {text : List α}
    (h : ∀ span ∈ (spansOf opening closing text).1, f span.content = g span.content) :
    rewriteSpans opening closing f text = rewriteSpans opening closing g text := by
  rw [rewriteSpans, rewriteSpans]
  congr 1
  refine List.map_congr_left fun span hspan => ?_
  rw [Span.map, Span.map, h span hspan]

/-- A text whose spans all keep their contents is kept. -/
theorem rewriteSpans_eq_self {f : List α → List α} {text : List α}
    (h : ∀ span ∈ (spansOf opening closing text).1, f span.content = span.content) :
    rewriteSpans opening closing f text = text := by
  have hspans : (spansOf opening closing text).1.map (Span.map f) =
      (spansOf opening closing text).1 := by
    calc _ = (spansOf opening closing text).1.map id :=
          List.map_congr_left fun span hspan => by rw [Span.map, h span hspan]; rfl
      _ = (spansOf opening closing text).1 := List.map_id _
  rw [rewriteSpans, hspans, textOf_spansOf]

end Rewriting

end Esdiag.DelimitedSpans
