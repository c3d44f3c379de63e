import Mathlib.Algebra.Group.Nat.Defs
import Mathlib.Data.List.Basic

/-!
Records written one after another: a header without zero bytes, a zero byte, the length
of the payload as a number of fixed width with the high byte first, and the payload. A
reader finds the end of the header at the zero byte and the end of the payload by its
length, so that different lists of records are never written alike.
-/
namespace Esdiag.FramedRecords

/-- The lowest bytes of a number, the highest of them first. -/
def beBytes : ℕ → ℕ → List UInt8
  | 0, _ => []
  | width + 1, n => beBytes width (n / 256) ++ [UInt8.ofNat n]

theorem length_beBytes (width n : ℕ) : (beBytes width n).length = width := by
  induction width generalizing n with
  | zero => rfl
  | succ width ih => rw [beBytes, List.length_append, ih, List.length_singleton]

theorem beBytes_injective {width n m : ℕ} (hn : n < 256 ^ width) (hm : m < 256 ^ width)
    (h : beBytes width n = beBytes width m) : n = m := by
  induction width generalizing n m with
  | zero => omega
  | succ width ih =>
    rw [pow_succ] at hn hm
    obtain ⟨hhigh, hlow⟩ := List.append_inj' h rfl
    have hdiv : n / 256 = m / 256 := ih (by omega) (by omega) hhigh
    have hbyte := congrArg UInt8.toNat (List.singleton_inj.mp hlow)
    rw [UInt8.toNat_ofNat', UInt8.toNat_ofNat'] at hbyte
    omega

structure Frame where
  header : List UInt8
  payload : List UInt8

/-- A record that is read back: no zero byte in the header, and a length that fits. -/
structure Frame.Fits (width : ℕ) (frame : Frame) : Prop where
  header : 0 ∉ frame.header
  payload : frame.payload.length < 256 ^ width

def Frame.bytes (width : ℕ) (frame : Frame) : List UInt8 :=
  frame.header ++ 0 :: (beBytes width frame.payload.length ++ frame.payload)

def bytes (width : ℕ) (frames : List Frame) : List UInt8 := frames.flatMap (Frame.bytes width)

/-- Two headers are equal if what they start is equal up to a zero byte and beyond. -/
theorem header_inj {header header' rest rest' : List UInt8} (h : 0 ∉ header) (h' : 0 ∉ header')
    (heq : header ++ 0 :: rest = header' ++ 0 :: rest') : header = header' ∧ rest = rest' := by
  induction header generalizing header' with
  | nil =>
    cases header' with
    | nil => exact ⟨rfl, (List.cons.inj heq).2⟩
    | cons byte header' => exact absurd (List.cons.inj heq).1 fun hbyte => h' (by simp [← hbyte])
  | cons byte header ih =>
    cases header' with
    | nil => exact absurd (List.cons.inj heq).1 fun hbyte => h (by simp [hbyte])
    | cons byte' header' =>
      obtain ⟨hbyte, htail⟩ := List.cons.inj heq
      obtain ⟨rfl, hrest⟩ := ih (fun hmem => h (List.mem_cons_of_mem _ hmem))
        (fun hmem => h' (List.mem_cons_of_mem _ hmem)) htail
      exact ⟨by rw [hbyte], hrest⟩

theorem frame_inj {width : ℕ} {frame frame' : Frame} {rest rest' : List UInt8}
    (h : frame.Fits width) (h' : frame'.Fits width)
    (heq : frame.bytes width ++ rest = frame'.bytes width ++ rest') :
    frame = frame' ∧ rest = rest' := by
  unfold Frame.bytes at heq
  rw [List.append_assoc, List.append_assoc, List.cons_append, List.cons_append] at heq
  obtain ⟨hheader, htail⟩ := header_inj h.header h'.header heq
  rw [List.append_assoc, List.append_assoc] at htail
  obtain ⟨hcode, hpayload⟩ := List.append_inj htail
    ((length_beBytes _ _).trans (length_beBytes _ _).symm)
  have hlength := beBytes_injective h.payload h'.payload hcode
  obtain ⟨hbytes, hrest⟩ := List.append_inj hpayload hlength
  obtain ⟨header, payload⟩ := frame
  obtain ⟨header', payload'⟩ := frame'
  simp only at hheader hbytes
  rw [hheader, hbytes]
  exact ⟨rfl, hrest⟩

/-- Different lists of records are never written alike. -/
theorem bytes_injective {width : ℕ} {frames frames' : List Frame}
    (h : ∀ frame ∈ frames, frame.Fits width) (h' : ∀ frame ∈ frames', frame.Fits width)
    (heq : bytes width frames = bytes width frames') : frames = frames' := by
  induction frames generalizing frames' with
  | nil =>
    cases frames' with
    | nil => rfl
    | cons frame' rest' =>
      have hlength := congrArg List.length heq
      simp [bytes, Frame.bytes] at hlength
  | cons frame rest ih =>
    cases frames' with
    | nil =>
      have hlength := congrArg List.length heq
      simp [bytes, Frame.bytes] at hlength
    | cons frame' rest' =>
      rw [List.forall_mem_cons] at h h'
      unfold bytes at heq
      rw [List.flatMap_cons, List.flatMap_cons] at heq
      obtain ⟨rfl, hrest⟩ := frame_inj h.1 h'.1 heq
      rw [ih h.2 h'.2 hrest]

end Esdiag.FramedRecords
