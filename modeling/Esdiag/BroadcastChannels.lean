import Mathlib.Data.List.Basic
import Mathlib.Order.Nat

/-!
A broadcast channel that keeps the last values sent on it. A receiver gets what is
sent after it subscribed, each value once and in order, at a pace of its own. One
that has fallen behind further than the channel keeps goes on with the oldest value
that is left.
-/
namespace Esdiag.BroadcastChannels

variable {α : Type*}

inductive Received (α : Type*) where
  | empty
  | lagged (missed : ℕ)
  | value (a : α)

def Received.values : Received α → List α
  | empty | lagged _ => []
  | value a => [a]

/-- A receiver by the place where it subscribed and the place it reads at, with what it has
read and how many values it came too late for. -/
structure Receiver (α : Type*) where
  since : ℕ
  position : ℕ
  read : List α
  missed : ℕ

namespace Receiver

def subscribe (sent : List α) : Receiver α := ⟨sent.length, sent.length, [], 0⟩

def skipTo (r : Receiver α) (oldest : ℕ) : Receiver α :=
  { r with position := oldest, missed := r.missed + (oldest - r.position) }

def take (r : Receiver α) (a : α) : Receiver α :=
  { r with position := r.position + 1, read := r.read ++ [a] }

def recv (capacity : ℕ) (sent : List α) (r : Receiver α) : Received α × Receiver α :=
  if r.position + capacity < sent.length then
    (.lagged (sent.length - capacity - r.position), r.skipTo (sent.length - capacity))
  else
    match sent[r.position]? with
    | none => (.empty, r)
    | some a => (.value a, r.take a)

/-- What was sent between subscription and the place of the receiver. -/
def passed (r : Receiver α) (sent : List α) : List α :=
  (sent.drop r.since).take (r.position - r.since)

/-- Every value passed by was read, in its order, or counted as missed. -/
structure Follows (sent : List α) (r : Receiver α) : Prop where
  since_le : r.since ≤ r.position
  position_le : r.position ≤ sent.length
  sublist : r.read.Sublist (r.passed sent)
  counted : r.read.length + r.missed = r.position - r.since

variable {sent : List α} {r : Receiver α}

theorem follows_subscribe (sent : List α) : (subscribe sent).Follows sent where
  since_le := le_rfl
  position_le := le_rfl
  sublist := List.nil_sublist _
  counted := by simp [subscribe]

theorem Follows.length_passed (h : r.Follows sent) :
    (r.passed sent).length = r.position - r.since := by
  have hle := h.position_le
  unfold passed
  rw [List.length_take, List.length_drop]
  omega

/-- What is sent later does not change what was passed by. -/
theorem Follows.passed_append (h : r.Follows sent) (later : List α) :
    r.passed (sent ++ later) = r.passed sent := by
  have hsince : r.since ≤ sent.length := h.since_le.trans h.position_le
  have hle := h.position_le
  unfold passed
  rw [List.drop_append_of_le_length hsince, List.take_append_of_le_length]
  rw [List.length_drop]
  omega

theorem Follows.append (h : r.Follows sent) (later : List α) : r.Follows (sent ++ later) where
  since_le := h.since_le
  position_le := by
    rw [List.length_append]
    exact h.position_le.trans (Nat.le_add_right _ _)
  sublist := (h.passed_append later).symm ▸ h.sublist
  counted := h.counted

/-- A receiver that missed nothing has read all that it passed by. -/
theorem Follows.read_eq (h : r.Follows sent) (hmissed : r.missed = 0) :
    r.read = r.passed sent := by
  refine h.sublist.eq_of_length ?_
  rw [h.length_passed, ← h.counted, hmissed, Nat.add_zero]

theorem Follows.take (h : r.Follows sent) {a : α} (hget : sent[r.position]? = some a) :
    (r.take a).Follows sent := by
  have hlt : r.position < sent.length := (List.getElem?_eq_some_iff.mp hget).1
  have hsince := h.since_le
  have hcounted := h.counted
  have hpassed : (r.take a).passed sent = r.passed sent ++ [a] := by
    have hnext : (sent.drop r.since)[r.position - r.since]? = some a := by
      rw [List.getElem?_drop, Nat.add_sub_cancel' hsince, hget]
    have hsucc : r.position + 1 - r.since = r.position - r.since + 1 := by omega
    change (sent.drop r.since).take (r.position + 1 - r.since) = _
    rw [hsucc, List.take_add_one, hnext]
    rfl
  constructor
  · exact hsince.trans (Nat.le_succ _)
  · exact hlt
  · rw [hpassed]
    exact h.sublist.append (List.Sublist.refl [a])
  · change (r.read ++ [a]).length + r.missed = r.position + 1 - r.since
    rw [List.length_append, List.length_singleton]
    omega

theorem Follows.skipTo (h : r.Follows sent) {oldest : ℕ} (hle : r.position ≤ oldest)
    (hlength : oldest ≤ sent.length) : (r.skipTo oldest).Follows sent := by
  have hsince := h.since_le
  have hcounted := h.counted
  constructor
  · exact hsince.trans hle
  · exact hlength
  · refine h.sublist.trans ?_
    exact List.take_sublist_take_left (by change r.position - r.since ≤ oldest - r.since; omega)
  · change r.read.length + (r.missed + (oldest - r.position)) = oldest - r.since
    omega

theorem Follows.recv (h : r.Follows sent) (capacity : ℕ) :
    (r.recv capacity sent).2.Follows sent := by
  unfold Receiver.recv
  split
  · next hlag => exact h.skipTo (by omega) (Nat.sub_le _ _)
  · split
    · exact h
    · next a hget => exact h.take hget

/-- A receiver that is behind by no more than the channel keeps misses nothing. -/
theorem missed_recv {capacity : ℕ} (h : sent.length ≤ r.position + capacity) :
    (r.recv capacity sent).2.missed = r.missed := by
  unfold Receiver.recv
  rw [if_neg h.not_gt]
  split <;> rfl

theorem read_recv (capacity : ℕ) :
    (r.recv capacity sent).2.read = r.read ++ (r.recv capacity sent).1.values := by
  unfold Receiver.recv
  split
  · exact (List.append_nil _).symm
  · split
    · exact (List.append_nil _).symm
    · rfl

theorem since_recv (capacity : ℕ) : (r.recv capacity sent).2.since = r.since := by
  unfold Receiver.recv
  split
  · rfl
  · split <;> rfl

end Receiver

end Esdiag.BroadcastChannels
