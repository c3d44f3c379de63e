import Esdiag.CheckedIntegers
import Esdiag.KeyedMaps

/-!
Tables that are read by an id or by a name. The entries are kept in one list that
only grows, and both maps hold positions in it: an id or a name is always given to
the entry that was added last. What such a table means is a registry of two partial
functions and the current entry, where positions do not occur any more.
-/
namespace Esdiag.Lookups

open CheckedIntegers KeyedMaps Outcomes

/-- What stops the program in an expression over lists and positions. -/
inductive Panic
  | indexOutOfBounds
  | rangeOutOfBounds
  | subtractionOverflow
  deriving DecidableEq, Repr

/-- One less than a length. Without overflow checks the position before the first one is the
largest number of 64 bits. -/
def lastPosition (build : Build) (length : ℕ) : Except Panic ℕ :=
  if length = 0 then
    if build.overflowChecks then .error .subtractionOverflow else .ok (2 ^ 64 - 1)
  else .ok (length - 1)

structure Lookup (T : Type) where
  idPositions : KeyedMap String ℕ
  namePositions : KeyedMap String ℕ
  entries : List T

variable {T : Type}

namespace Lookup

def new : Lookup T := ⟨.empty, .empty, []⟩

/-- The entry at the position of a key. -/
def entryAt (lookup : Lookup T) : Option ℕ → Except Panic (Option T)
  | none => .ok none
  | some position =>
    match lookup.entries[position]? with
    | some entry => .ok (some entry)
    | none => .error .indexOutOfBounds

/-- Retrieve a lookup entry by name -/
def byName (lookup : Lookup T) (name : String) : Except Panic (Option T) :=
  lookup.entryAt (lookup.namePositions.find? name)

/-- Retrieve a lookup entry by id -/
def byId (lookup : Lookup T) (id : String) : Except Panic (Option T) :=
  lookup.entryAt (lookup.idPositions.find? id)

/-- Push a new entry into the lookup table -/
def add (lookup : Lookup T) (value : T) : Lookup T :=
  { lookup with entries := lookup.entries ++ [value] }

/-- Associate an id with the last entry added -/
def withId (build : Build) (id : String) (lookup : Lookup T) : Except Panic (Lookup T) := do
  let position ← lastPosition build lookup.entries.length
  return { lookup with idPositions := lookup.idPositions.insert id position }

/-- Associate a name with the last entry added -/
def withName (build : Build) (name : String) (lookup : Lookup T) : Except Panic (Lookup T) := do
  let position ← lastPosition build lookup.entries.length
  return { lookup with namePositions := lookup.namePositions.insert name position }

/-- Every stored position is one of an entry. -/
structure InRange (lookup : Lookup T) : Prop where
  ids : ∀ id position, lookup.idPositions.find? id = some position →
    position < lookup.entries.length
  names : ∀ name position, lookup.namePositions.find? name = some position →
    position < lookup.entries.length

end Lookup

/-! ### Registries -/

/-- Which entry an id and a name stand for, and the entry that was added last. -/
structure Registry (T : Type) where
  ids : String → Option T
  names : String → Option T
  current : Option T

namespace Registry

def empty : Registry T := ⟨fun _ => none, fun _ => none, none⟩

def add (registry : Registry T) (value : T) : Registry T := { registry with current := some value }

def withId (registry : Registry T) (id : String) : Registry T :=
  { registry with ids := Function.update registry.ids id registry.current }

def withName (registry : Registry T) (name : String) : Registry T :=
  { registry with names := Function.update registry.names name registry.current }

variable (registry : Registry T)

theorem names_withName_add (value : T) (name : String) :
    ((registry.add value).withName name).names =
      Function.update registry.names name (some value) := rfl

@[simp] theorem current_foldl_withId (ids : List String) :
    (ids.foldl withId registry).current = registry.current := by
  induction ids generalizing registry with
  | nil => rfl
  | cons id ids ih => exact ih (registry.withId id)

@[simp] theorem names_foldl_withId (ids : List String) :
    (ids.foldl withId registry).names = registry.names := by
  induction ids generalizing registry with
  | nil => rfl
  | cons id ids ih => exact ih (registry.withId id)

theorem ids_foldl_withId (ids : List String) (id : String) :
    (ids.foldl withId registry).ids id =
      if id ∈ ids then registry.current else registry.ids id := by
  induction ids generalizing registry with
  | nil => rfl
  | cons other ids ih =>
    rw [List.foldl_cons, ih]
    by_cases hmem : id ∈ ids
    · simp [hmem, withId]
    · by_cases heq : id = other
      · simp [heq, withId]
      · simp [hmem, heq, withId]

end Registry

/-! ### What a lookup table means -/

/-- The table has the entries of the registry, at positions in range. -/
structure Represents (lookup : Lookup T) (registry : Registry T) : Prop where
  inRange : lookup.InRange
  ids : ∀ id, (lookup.idPositions.find? id).bind (lookup.entries[·]?) = registry.ids id
  names : ∀ name, (lookup.namePositions.find? name).bind (lookup.entries[·]?) =
    registry.names name
  current : lookup.entries.getLast? = registry.current

namespace Represents

variable {lookup : Lookup T} {registry : Registry T}

theorem new : Represents (Lookup.new : Lookup T) Registry.empty where
  inRange := by
    constructor
    · intro _ _ h
      cases h
    · intro _ _ h
      cases h
  ids _ := rfl
  names _ := rfl
  current := rfl

theorem entryAt_eq {position : Option ℕ}
    (h : ∀ n, position = some n → n < lookup.entries.length) :
    lookup.entryAt position = .ok (position.bind (lookup.entries[·]?)) := by
  cases position with
  | none => rfl
  | some n =>
    have hentry := List.getElem?_eq_getElem (h n rfl)
    simp only [Lookup.entryAt, Option.bind_some, hentry]

theorem byId_eq (h : Represents lookup registry) (id : String) :
    lookup.byId id = .ok (registry.ids id) := by
  rw [Lookup.byId, entryAt_eq (h.inRange.ids id), h.ids]

theorem byName_eq (h : Represents lookup registry) (name : String) :
    lookup.byName name = .ok (registry.names name) := by
  rw [Lookup.byName, entryAt_eq (h.inRange.names name), h.names]

/-- Positions stay valid while entries are added. -/
theorem bind_getElem?_append {position : Option ℕ} {entries more : List T}
    (h : ∀ n, position = some n → n < entries.length) :
    position.bind ((entries ++ more)[·]?) = position.bind (entries[·]?) := by
  cases position with
  | none => rfl
  | some n => exact List.getElem?_append_left (h n rfl)

theorem add (h : Represents lookup registry) (value : T) :
    Represents (lookup.add value) (registry.add value) where
  inRange := by
    constructor
    · intro id position hfind
      have hlt := h.inRange.ids id position hfind
      simp only [Lookup.add, List.length_append, List.length_singleton]
      omega
    · intro name position hfind
      have hlt := h.inRange.names name position hfind
      simp only [Lookup.add, List.length_append, List.length_singleton]
      omega
  ids id := (bind_getElem?_append (h.inRange.ids id)).trans (h.ids id)
  names name := (bind_getElem?_append (h.inRange.names name)).trans (h.names name)
  current := by simp [Lookup.add, Registry.add]

theorem lastPosition_of_current (build : Build) (h : Represents lookup registry)
    (hcurrent : registry.current.isSome) :
    ∃ position, lastPosition build lookup.entries.length = .ok position ∧
      position < lookup.entries.length ∧ lookup.entries[position]? = registry.current := by
  have hne : lookup.entries ≠ [] := by
    intro hnil
    have hlast := h.current
    rw [hnil] at hlast
    rw [← hlast] at hcurrent
    cases hcurrent
  have hpos := List.length_pos_iff.mpr hne
  refine ⟨lookup.entries.length - 1, if_neg (by omega), by omega, ?_⟩
  rw [← h.current, List.getLast?_eq_getElem?]

/-- The positions of a map after one more insertion. -/
theorem find?_insert_inRange {positions : KeyedMap String ℕ} {key : String}
    {position bound : ℕ} (hposition : position < bound)
    (h : ∀ k n, positions.find? k = some n → n < bound) :
    ∀ k n, (positions.insert key position).find? k = some n → n < bound := by
  intro k n hfind
  by_cases hk : k = key
  · subst hk
    rw [KeyedMap.find?_insert_self] at hfind
    exact Option.some.inj hfind ▸ hposition
  · rw [KeyedMap.find?_insert_of_ne _ hk] at hfind
    exact h k n hfind

theorem find?_insert_bind {positions : KeyedMap String ℕ} {key : String} {position : ℕ}
    {entries : List T} {current : Option T} {meaning : String → Option T}
    (hcurrent : entries[position]? = current)
    (h : ∀ k, (positions.find? k).bind (entries[·]?) = meaning k) (k : String) :
    ((positions.insert key position).find? k).bind (entries[·]?) =
      Function.update meaning key current k := by
  by_cases hk : k = key
  · subst hk
    rw [KeyedMap.find?_insert_self, Function.update_self]
    exact hcurrent
  · rw [KeyedMap.find?_insert_of_ne _ hk, Function.update_of_ne hk]
    exact h k

theorem exists_withId (build : Build) (h : Represents lookup registry)
    (hcurrent : registry.current.isSome) (id : String) :
    ∃ after, lookup.withId build id = .ok after ∧ Represents after (registry.withId id) := by
  obtain ⟨position, hposition, hlt, hentry⟩ := h.lastPosition_of_current build hcurrent
  refine ⟨_, bind_eq_ok_iff.mpr ⟨position, hposition, rfl⟩, ?_⟩
  exact {
    inRange := ⟨find?_insert_inRange hlt h.inRange.ids, h.inRange.names⟩
    ids := find?_insert_bind hentry h.ids
    names := h.names
    current := h.current }

theorem exists_withName (build : Build) (h : Represents lookup registry)
    (hcurrent : registry.current.isSome) (name : String) :
    ∃ after, lookup.withName build name = .ok after ∧
      Represents after (registry.withName name) := by
  obtain ⟨position, hposition, hlt, hentry⟩ := h.lastPosition_of_current build hcurrent
  refine ⟨_, bind_eq_ok_iff.mpr ⟨position, hposition, rfl⟩, ?_⟩
  exact {
    inRange := ⟨h.inRange.ids, find?_insert_inRange hlt h.inRange.names⟩
    ids := h.ids
    names := find?_insert_bind hentry h.names
    current := h.current }

end Represents

section Last

variable {α β γ : Type}

/-- The value that the last item with one gives. -/
def lastSome (f : α → Option β) : List α → Option β
  | [] => none
  | a :: rest => (lastSome f rest).or (f a)

theorem exists_of_lastSome {f : α → Option β} {items : List α} {b : β}
    (h : lastSome f items = some b) : ∃ a ∈ items, f a = some b := by
  induction items with
  | nil => cases h
  | cons a rest ih =>
    rcases Option.or_eq_some_iff.mp h with hrest | ⟨_, ha⟩
    · obtain ⟨c, hc, hb⟩ := ih hrest
      exact ⟨c, List.mem_cons_of_mem a hc, hb⟩
    · exact ⟨a, List.mem_cons_self, ha⟩

theorem isSome_lastSome {f : α → Option β} {items : List α} {a : α} (ha : a ∈ items)
    (h : (f a).isSome) : (lastSome f items).isSome := by
  induction items with
  | nil => cases ha
  | cons c rest ih =>
    rw [lastSome, Option.isSome_or, Bool.or_eq_true]
    rcases List.mem_cons.mp ha with rfl | hrest
    · exact Or.inr h
    · exact Or.inl (ih hrest)

/-- Where all items that give a value give the same one, this is the last one. -/
theorem lastSome_eq_of_unique {f : α → Option β} {items : List α} {a : α} {b : β}
    (ha : a ∈ items) (hb : f a = some b) (hunique : ∀ c ∈ items, (f c).isSome → c = a) :
    lastSome f items = some b := by
  have hsome : (lastSome f items).isSome := isSome_lastSome ha (by rw [hb]; rfl)
  obtain ⟨d, hd⟩ := Option.isSome_iff_exists.mp hsome
  obtain ⟨c, hc, hcd⟩ := exists_of_lastSome hd
  have hca : c = a := hunique c hc (by rw [hcd]; rfl)
  subst hca
  rw [hd, ← hcd, hb]

theorem lastSome_map (f : α → Option β) (g : β → γ) (items : List α) :
    lastSome (fun a => (f a).map g) items = (lastSome f items).map g := by
  induction items with
  | nil => rfl
  | cons a rest ih => rw [lastSome, lastSome, ih, Option.map_or]

end Last

end Esdiag.Lookups
