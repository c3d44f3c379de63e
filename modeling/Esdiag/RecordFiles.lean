import Mathlib.Data.List.TakeDrop

/-!
Files of newline-terminated records, as bytes. Reading the lines of written
records gives the records back. A write at an offset replaces what is there and
fills a gap with zeros; at the end of the file it appends.
-/
namespace Esdiag.RecordFiles

abbrev Bytes := List UInt8

def newline : UInt8 := 10

/-- A record: some bytes on one line. -/
structure Record where
  bytes : Bytes
  nonempty : bytes ≠ []
  oneLine : newline ∉ bytes

/-- Records with a newline after each. -/
def encode (records : List Record) : Bytes :=
  records.flatMap fun record => record.bytes ++ [newline]

/-- The lines of a file; a newline at the end begins no further line. -/
def lines : Bytes → List Bytes
  | [] => []
  | b :: rest =>
    if b = newline then [] :: lines rest
    else
      match lines rest with
      | [] => [[b]]
      | first :: others => (b :: first) :: others

theorem lines_line (line rest : Bytes) (h : newline ∉ line) :
    lines (line ++ newline :: rest) = line :: lines rest := by
  induction line with
  | nil => simp [lines]
  | cons b line ih =>
    have hb : b ≠ newline := fun heq => h (heq ▸ List.mem_cons_self)
    have hline := ih fun hmem => h (List.mem_cons_of_mem b hmem)
    rw [List.cons_append, lines, if_neg hb, hline]

theorem lines_single (line : Bytes) (hne : line ≠ []) (h : newline ∉ line) :
    lines line = [line] := by
  induction line with
  | nil => exact absurd rfl hne
  | cons b line ih =>
    have hb : b ≠ newline := fun heq => h (heq ▸ List.mem_cons_self)
    cases line with
    | nil => simp [lines, hb]
    | cons c line =>
      have hline := ih (by simp) fun hmem => h (List.mem_cons_of_mem b hmem)
      rw [lines, if_neg hb, hline]

theorem lines_encode (records : List Record) :
    lines (encode records) = records.map Record.bytes := by
  induction records with
  | nil => rfl
  | cons record rest ih =>
    have hcons : encode (record :: rest) = record.bytes ++ newline :: encode rest := by
      simp [encode]
    rw [hcons, lines_line record.bytes (encode rest) record.oneLine, ih, List.map_cons]

theorem encode_append (first second : List Record) :
    encode (first ++ second) = encode first ++ encode second :=
  List.flatMap_append

/-- A write of some bytes at an offset; writing nothing does not grow the file. -/
def writeAt (content : Bytes) (offset : ℕ) (chunk : Bytes) : Bytes :=
  if chunk = [] then content
  else content.takeD offset 0 ++ chunk ++ content.drop (offset + chunk.length)

theorem writeAt_end (content chunk : Bytes) :
    writeAt content content.length chunk = content ++ chunk := by
  unfold writeAt
  by_cases h : chunk = []
  · rw [if_pos h, h, List.append_nil]
  · have htake : content.takeD content.length 0 = content := by
      rw [List.takeD_eq_take 0 (Nat.le_refl _), List.take_length]
    have hdrop : content.drop (content.length + chunk.length) = [] :=
      List.drop_eq_nil_of_le (by omega)
    rw [if_neg h, htake, hdrop, List.append_nil]

end Esdiag.RecordFiles
