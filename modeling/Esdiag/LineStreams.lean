import Esdiag.TextParts

/-!
A stream cut into chunks, read line by line. Complete lines are handed to a reader with
its own state, and what follows the last separator is kept for the next chunk. What a
reader yields depends on the stream alone, not on where the chunks were cut.
-/
namespace Esdiag.LineStreams

open Texts

section Runs

variable {β σ ι κ : Type*}

/-- The lines one after another. -/
def runLines (read : σ → ι → List β × σ) (state : σ) : List ι → List β × σ
  | [] => ([], state)
  | line :: lines =>
    let first := read state line
    let later := runLines read first.2 lines
    (first.1 ++ later.1, later.2)

theorem runLines_append {read : σ → ι → List β × σ} {state : σ} (lines later : List ι) :
    runLines read state (lines ++ later) =
      ((runLines read state lines).1 ++ (runLines read (runLines read state lines).2 later).1,
        (runLines read (runLines read state lines).2 later).2) := by
  induction lines generalizing state with
  | nil => rfl
  | cons line lines ih =>
    rw [List.cons_append, runLines, ih]
    simp only [runLines, List.append_assoc]

theorem runLines_map (read : σ → κ → List β × σ) (f : ι → κ) {state : σ} (lines : List ι) :
    runLines (fun state line => read state (f line)) state lines =
      runLines read state (lines.map f) := by
  induction lines generalizing state with
  | nil => rfl
  | cons line lines ih =>
    rw [List.map_cons, runLines, runLines, ih]

end Runs

variable {α β σ : Type*} [DecidableEq α]

section Splitting

theorem length_lt_of_splitOnceList {sep : α} {pending line rest : List α}
    (h : splitOnceList sep pending = some (line, rest)) : rest.length < pending.length := by
  obtain ⟨heq, -⟩ := splitOnceList_eq_some h
  rw [heq, List.length_append, List.length_cons]
  omega

/-- What is appended to a text is appended to its last part. -/
theorem splitList_append_of_eq {sep : α} {lines : List (List α)} {text last : List α}
    (rest : List α) (h : splitList sep text = lines ++ [last]) :
    splitList sep (text ++ rest) = lines ++ splitList sep (last ++ rest) := by
  induction lines generalizing text with
  | nil =>
    obtain ⟨-, ⟨rfl, -⟩ | ⟨later, -, hnil⟩⟩ := splitList_eq_cons h
    · rfl
    · exact absurd hnil.symm (splitList_ne_nil sep later)
  | cons line lines ih =>
    rw [List.cons_append] at h
    obtain ⟨hline, ⟨-, hnil⟩ | ⟨later, rfl, hlater⟩⟩ := splitList_eq_cons h
    · exact absurd hnil (by simp)
    · rw [List.append_assoc, List.cons_append, splitList_append _ hline, ih hlater.symm,
        List.cons_append]

end Splitting

variable (sep : α) (read : σ → List α → List β × σ)

/-- The complete lines of what is pending, and what remains pending. -/
def drain (state : σ) (pending : List α) : List β × σ × List α :=
  match _hsplit : splitOnceList sep pending with
  | none => ([], state, pending)
  | some (line, rest) =>
    let first := read state line
    let later := drain first.2 rest
    (first.1 ++ later.1, later.2)
termination_by pending.length
decreasing_by exact length_lt_of_splitOnceList _hsplit

/-- The chunks one after another, each drained when it comes. -/
def feed (state : σ) (pending : List α) : List (List α) → List β × σ × List α
  | [] => ([], state, pending)
  | chunk :: chunks =>
    let drained := drain sep read state (pending ++ chunk)
    let later := feed drained.2.1 drained.2.2 chunks
    (drained.1 ++ later.1, later.2)

variable {sep}

/-- A drained text was read up to its last separator. -/
theorem drain_eq (sep : α) (read : σ → List α → List β × σ) (state : σ) (pending : List α) :
    ∃ lines last, splitList sep pending = lines ++ [last] ∧
      drain sep read state pending =
        ((runLines read state lines).1, (runLines read state lines).2, last) := by
  induction hlength : pending.length using Nat.strong_induction_on generalizing state pending with
  | _ length ih =>
    unfold drain
    split
    · rename_i hnone
      refine ⟨[], pending, ?_, rfl⟩
      exact splitList_of_notMem (splitOnceList_eq_none.mp hnone)
    · rename_i line rest hsplit
      have hshorter := length_lt_of_splitOnceList hsplit
      rw [hlength] at hshorter
      obtain ⟨lines, last, hlines, hdrain⟩ := ih _ hshorter (read state line).2 rest rfl
      obtain ⟨heq, hline⟩ := splitOnceList_eq_some hsplit
      refine ⟨line :: lines, last, ?_, ?_⟩
      · rw [heq, splitList_append rest hline, hlines, List.cons_append]
      · simp only [hdrain]
        rfl

/-- A fed stream was read up to its last separator, wherever its chunks were cut. -/
theorem feed_eq (read : σ → List α → List β × σ) (state : σ) {pending : List α} (hpending : sep ∉ pending)
    (chunks : List (List α)) :
    ∃ lines last, splitList sep (pending ++ chunks.flatten) = lines ++ [last] ∧
      feed sep read state pending chunks =
        ((runLines read state lines).1, (runLines read state lines).2, last) := by
  induction chunks generalizing state pending with
  | nil =>
    refine ⟨[], pending, ?_, rfl⟩
    rw [List.flatten_nil, List.append_nil]
    exact splitList_of_notMem hpending
  | cons chunk chunks ih =>
    obtain ⟨lines, last, hlines, hdrain⟩ := drain_eq sep read state (pending ++ chunk)
    have hmem : last ∈ splitList sep (pending ++ chunk) := by rw [hlines]; simp
    have hlast := notMem_of_mem_splitList hmem
    obtain ⟨later, final, hlater, hfeed⟩ := ih (runLines read state lines).2 hlast
    refine ⟨lines ++ later, final, ?_, ?_⟩
    · rw [List.flatten_cons, ← List.append_assoc, splitList_append_of_eq _ hlines, hlater,
        List.append_assoc]
    · rw [feed, hdrain, runLines_append]
      simp only [hfeed]

end Esdiag.LineStreams
