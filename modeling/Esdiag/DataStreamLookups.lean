import Esdiag.DataStreams
import Mathlib.Data.List.Pairwise

/-!
The lookup table of the data streams, which the documents of indices and shards are
enriched from. Every stream adds one document for all of its indices, one more for
the index that is written to and a third one for its failure store, and the names
are given to whichever was added last.
-/
namespace Esdiag.DataStreamLookups

open CheckedIntegers DataStreams Lookups Outcomes Texts

structure DataStreamDocument where
  allowCustomRouting : Option Bool
  generation : BitVec 64
  hidden : Option Bool
  ilmPolicy : Option String
  name : String
  nextGenerationManagedBy : Option String
  preferIlm : Option Bool
  replicated : Option Bool
  rolloverOnWrite : Option Bool
  status : String
  system : Option Bool
  template : Option String
  timestampField : TimestampField
  failureStore : Option FailureStore
  dataset : String
  isWriteIndex : Bool
  streamNamespace : String
  type : String
  deriving DecidableEq

def DataStreamDocument.ofStream (stream : DataStream) : DataStreamDocument where
  allowCustomRouting := stream.allowCustomRouting
  generation := stream.generation
  hidden := stream.hidden
  ilmPolicy := stream.ilmPolicy
  name := stream.name
  nextGenerationManagedBy := stream.nextGenerationManagedBy
  preferIlm := stream.preferIlm
  replicated := stream.replicated
  rolloverOnWrite := stream.rolloverOnWrite
  status := stream.status
  system := stream.system
  template := stream.template
  timestampField := stream.timestampField
  failureStore := stream.failureStore
  dataset := stream.dataset
  isWriteIndex := stream.isWriteIndex
  streamNamespace := stream.streamNamespace
  type := stream.type

/-! ### Building the table -/

variable (build : Build)

/-- The indices from some position on; the one at the write position gets a document of its
own, any other one the document added last. -/
def addIndices (name : String) (write : DataStreamDocument) (writeIndex : ℕ) :
    ℕ → List IndexEntry → Lookup DataStreamDocument → Except Panic (Lookup DataStreamDocument)
  | _, [], lookup => .ok lookup
  | i, index :: rest, lookup => do
    let next ←
      if i = writeIndex then do
        let named ← (lookup.add write).withName build name
        named.withId build index.indexName
      else lookup.withId build index.indexName
    addIndices name write writeIndex (i + 1) rest next

def addFailureIndices :
    List IndexEntry → Lookup DataStreamDocument → Except Panic (Lookup DataStreamDocument)
  | [], lookup => .ok lookup
  | index :: rest, lookup => do
    let next ← lookup.withId build index.indexName
    addFailureIndices rest next

def addStream (lookup : Lookup DataStreamDocument) (received : ReceivedStream) :
    Except Panic (Lookup DataStreamDocument) := do
  let stream ← (DataStream.ofReceived received).build
  let writeIndex ← lastPosition build stream.indices.length
  let base := DataStreamDocument.ofStream stream
  let write := DataStreamDocument.ofStream (stream.setWriteIndex true)
  -- one document for all the indices that are not written to
  let named ← (lookup.add base).withName build stream.name
  let backed ← addIndices build stream.name write writeIndex 0 stream.indices named
  match stream.failureStore with
  | some failureStore => addFailureIndices build failureStore.indices (backed.add base)
  | none => .ok backed

def addStreams : List ReceivedStream → Lookup DataStreamDocument →
    Except Panic (Lookup DataStreamDocument)
  | [], lookup => .ok lookup
  | received :: rest, lookup => do
    let next ← addStream build lookup received
    addStreams rest next

/-- The table of a response. -/
def lookupOf (streams : List ReceivedStream) : Except Panic (Lookup DataStreamDocument) :=
  addStreams build streams Lookup.new

/-! ### What a stream registers -/

section Registering

/-- The names of the failure store's indices. -/
def failureNames (stream : ReceivedStream) : List String :=
  (stream.failureStore.elim [] (·.indices)).map (·.indexName)

def backingNames (stream : ReceivedStream) : List String := stream.indices.map (·.indexName)

/-- The document that an index of the stream stands for. -/
def ownEntry (stream : DataStream) (id : String) : Option DataStreamDocument :=
  if id ∈ failureNames stream.toReceivedStream then some (.ofStream stream)
  else if (backingNames stream.toReceivedStream).getLast? = some id then
    some (.ofStream (stream.setWriteIndex true))
  else if id ∈ backingNames stream.toReceivedStream then some (.ofStream stream)
  else none

/-- The document that the name of the stream stands for. -/
def nameEntry (stream : DataStream) : DataStreamDocument :=
  if stream.indices = [] then .ofStream stream else .ofStream (stream.setWriteIndex true)

variable {lookup : Lookup DataStreamDocument} {registry : Registry DataStreamDocument}

theorem exists_addFailureIndices (indices : List IndexEntry) (h : Represents lookup registry)
    (hcurrent : registry.current.isSome) :
    ∃ after, addFailureIndices build indices lookup = .ok after ∧
      Represents after ((indices.map (·.indexName)).foldl Registry.withId registry) := by
  induction indices generalizing lookup registry with
  | nil => exact ⟨lookup, rfl, h⟩
  | cons index rest ih =>
    obtain ⟨next, hnext, hrep⟩ := h.exists_withId build hcurrent index.indexName
    obtain ⟨after, hafter, hrest⟩ := ih hrep hcurrent
    exact ⟨after, bind_eq_ok_iff.mpr ⟨next, hnext, hafter⟩, hrest⟩

/-- Indices in front of the write position all stand for the current document. -/
theorem exists_addIndices_init (name : String) (write : DataStreamDocument) {writeIndex i : ℕ}
    (init rest : List IndexEntry) (hi : i + init.length ≤ writeIndex)
    (h : Represents lookup registry) (hcurrent : registry.current.isSome) :
    ∃ after, addIndices build name write writeIndex i (init ++ rest) lookup =
        addIndices build name write writeIndex (i + init.length) rest after ∧
      Represents after ((init.map (·.indexName)).foldl Registry.withId registry) := by
  induction init generalizing i lookup registry with
  | nil => exact ⟨lookup, rfl, h⟩
  | cons index init ih =>
    rw [List.length_cons] at hi
    obtain ⟨next, hnext, hrep⟩ := h.exists_withId build hcurrent index.indexName
    obtain ⟨after, hafter, hrest⟩ := ih (by omega : i + 1 + init.length ≤ writeIndex) hrep hcurrent
    refine ⟨after, ?_, hrest⟩
    rw [List.cons_append, addIndices, if_neg (by omega), hnext, List.length_cons,
      ← Nat.add_assoc, Nat.add_right_comm]
    exact hafter

/-- The last index gets the document of the write index, and so does the name. -/
theorem exists_addIndices (name : String) (write : DataStreamDocument) (init : List IndexEntry)
    (last : IndexEntry) (h : Represents lookup registry) (hcurrent : registry.current.isSome) :
    ∃ after, addIndices build name write init.length 0 (init ++ [last]) lookup = .ok after ∧
      Represents after (((((init.map (·.indexName)).foldl Registry.withId registry).add
        write).withName name).withId last.indexName) := by
  obtain ⟨next, hnext, hrep⟩ := exists_addIndices_init build name write
    init [last] (Nat.zero_add init.length).le h hcurrent
  obtain ⟨named, hnamed, hrep⟩ := (hrep.add write).exists_withName build rfl name
  obtain ⟨after, hafter, hrep⟩ := hrep.exists_withId build rfl last.indexName
  refine ⟨after, ?_, hrep⟩
  rw [hnext, Nat.zero_add, addIndices, if_pos rfl, hnamed]
  change (named.withId build last.indexName >>= fun next => .ok next) = _
  rw [hafter]
  rfl

/-- The backing indices and the name of a stream, once its first document is there. -/
theorem exists_backed {stream : DataStream}
    (hlast : build.overflowChecks = true → stream.indices ≠ [])
    (h : Represents lookup registry)
    (hcurrent : registry.current = some (.ofStream stream))
    (hnamed : registry.names stream.name = some (.ofStream stream)) :
    ∃ position after registry', lastPosition build stream.indices.length = .ok position ∧
      addIndices build stream.name (.ofStream (stream.setWriteIndex true)) position 0
        stream.indices lookup = .ok after ∧
      Represents after registry' ∧
      (∀ id, registry'.ids id =
        if (backingNames stream.toReceivedStream).getLast? = some id then
          some (.ofStream (stream.setWriteIndex true))
        else if id ∈ backingNames stream.toReceivedStream then some (.ofStream stream)
        else registry.ids id) ∧
      registry'.names = Function.update registry.names stream.name (some (nameEntry stream)) := by
  rcases List.eq_nil_or_concat stream.indices with hnil | ⟨init, last, hindices⟩
  · have hunchecked : build.overflowChecks = false := by
      by_contra hchecks
      exact hlast (by simpa using hchecks) hnil
    refine ⟨2 ^ 64 - 1, lookup, registry, by simp [lastPosition, hnil, hunchecked],
      by rw [hnil, addIndices], h, by simp [backingNames, hnil], ?_⟩
    rw [nameEntry, if_pos hnil, ← hnamed, Function.update_eq_self]
  · rw [List.concat_eq_append] at hindices
    obtain ⟨after, hafter, hrep⟩ := exists_addIndices build stream.name
      (.ofStream (stream.setWriteIndex true)) init last h (by simp [hcurrent])
    refine ⟨init.length, after, _, by simp [lastPosition, hindices], by rwa [hindices], hrep,
      ?_, ?_⟩
    · intro id
      simp only [backingNames, hindices, List.map_append, List.map_cons, List.map_nil,
        List.getLast?_concat, Option.some.injEq, List.mem_append, List.mem_singleton]
      by_cases hid : last.indexName = id
      · simp [hid, Registry.withId, Registry.withName, Registry.add]
      · rw [if_neg hid]
        simp only [Registry.withId, Registry.withName, Registry.add,
          Function.update_of_ne (Ne.symm hid), Registry.ids_foldl_withId, hcurrent]
        simp [Ne.symm hid]
    · have hne : stream.indices ≠ [] := by simp [hindices]
      simp only [Registry.withId, Registry.withName, Registry.add,
        Registry.names_foldl_withId, nameEntry, if_neg hne]

theorem exists_addStream {received : ReceivedStream} {stream : DataStream}
    (hstream : (DataStream.ofReceived received).build = .ok stream)
    (hlast : build.overflowChecks = true → stream.indices ≠ [])
    (h : Represents lookup registry) :
    ∃ after registry', addStream build lookup received = .ok after ∧
      Represents after registry' ∧
      (∀ id, registry'.ids id = (ownEntry stream id).or (registry.ids id)) ∧
      registry'.names = Function.update registry.names stream.name (some (nameEntry stream)) := by
  have hadded := h.add (.ofStream stream)
  obtain ⟨named, hnamed, hrep⟩ := hadded.exists_withName build rfl stream.name
  obtain ⟨position, backed, registry', hposition, hbacked, hrep, hids, hnames⟩ :=
    exists_backed build hlast hrep rfl (Function.update_self _ _ _)
  have hnames' : registry'.names =
      Function.update registry.names stream.name (some (nameEntry stream)) := by
    rw [hnames]
    exact Function.update_idem _ _ _
  have hfirst : addStream build lookup received =
      match stream.failureStore with
      | some failureStore =>
        addFailureIndices build failureStore.indices (backed.add (.ofStream stream))
      | none => .ok backed := by
    rw [addStream, hstream]
    change (lastPosition build stream.indices.length >>= _) = _
    rw [hposition]
    change ((lookup.add (.ofStream stream)).withName build stream.name >>= _) = _
    rw [hnamed]
    change (addIndices build stream.name _ position 0 stream.indices named >>= _) = _
    rw [hbacked]
    rfl
  cases hstore : stream.failureStore with
  | none =>
    rw [hstore] at hfirst
    refine ⟨backed, registry', hfirst, hrep, fun id => ?_, hnames'⟩
    rw [hids id]
    simp only [ownEntry, failureNames, hstore, Option.elim_none, List.map_nil, List.not_mem_nil,
      if_false]
    split_ifs <;> rfl
  | some failureStore =>
    rw [hstore] at hfirst
    obtain ⟨after, hafter, hlastRep⟩ := exists_addFailureIndices build
      failureStore.indices (hrep.add (.ofStream stream)) rfl
    refine ⟨after, _, hfirst.trans hafter, hlastRep, fun id => ?_, ?_⟩
    · rw [Registry.ids_foldl_withId]
      simp only [Registry.add, hids, ownEntry, failureNames, hstore, Option.elim_some]
      split_ifs <;> rfl
    · rw [Registry.names_foldl_withId]
      exact hnames'

end Registering

/-! ### Every name in a list of streams -/

section Streams

/-- The stream with the parts of its name, or without them where the name ends early. -/
def built (received : ReceivedStream) : DataStream :=
  match (DataStream.ofReceived received).build with
  | .ok stream => stream
  | .error _ => .ofReceived received

/-- The streams that the table can be built from. -/
def Accepted (received : ReceivedStream) : Prop :=
  ¬EndsEarly (split '-' received.name) ∧
    (build.overflowChecks = true → received.indices ≠ [])

variable {build}

theorem build_eq_ok_built {received : ReceivedStream}
    (h : ¬EndsEarly (split '-' received.name)) :
    (DataStream.ofReceived received).build = .ok (built received) := by
  rcases outcome_build received with ⟨hearly, _⟩ | ⟨_, stream, hstream, _⟩
  · exact absurd hearly h
  · rw [built, hstream]

@[simp] theorem toReceivedStream_built (received : ReceivedStream) :
    (built received).toReceivedStream = received := by
  unfold built
  rcases outcome_build received with ⟨_, panic, hpanic⟩ | ⟨_, stream, hstream, hgrouped⟩
  · rw [hpanic]
    rfl
  · rw [hstream]
    exact hgrouped.received_eq

theorem accepted_of_addStream {received : ReceivedStream} {lookup after : Lookup DataStreamDocument}
    (h : addStream build lookup received = .ok after) : Accepted build received := by
  obtain ⟨stream, hstream, h⟩ := bind_eq_ok h
  obtain ⟨position, hposition, -⟩ := bind_eq_ok h
  have hlong : ¬EndsEarly (split '-' received.name) := by
    intro hearly
    rcases outcome_build received with ⟨_, panic, hpanic⟩ | ⟨hlong, _⟩
    · rw [hpanic] at hstream
      cases hstream
    · exact hlong hearly
  refine ⟨hlong, fun hchecks hnil => ?_⟩
  rw [build_eq_ok_built hlong] at hstream
  obtain rfl := Except.ok.inj hstream
  rw [toReceivedStream_built, hnil] at hposition
  simp [lastPosition, hchecks] at hposition

theorem exists_addStreams {streams : List ReceivedStream} {lookup : Lookup DataStreamDocument}
    {registry : Registry DataStreamDocument} (h : Represents lookup registry)
    (haccepted : ∀ received ∈ streams, Accepted build received) :
    ∃ after registry', addStreams build streams lookup = .ok after ∧
      Represents after registry' ∧
      (∀ id, registry'.ids id =
        (lastSome (fun received => ownEntry (built received) id) streams).or (registry.ids id)) ∧
      ∀ name, registry'.names name =
        (lastSome (fun received => if received.name = name then
          some (nameEntry (built received)) else none) streams).or (registry.names name) := by
  induction streams generalizing lookup registry with
  | nil => exact ⟨lookup, registry, rfl, h, fun _ => rfl, fun _ => rfl⟩
  | cons received rest ih =>
    obtain ⟨hlong, hlast⟩ := haccepted received List.mem_cons_self
    obtain ⟨next, registry₁, hnext, hrep, hids₁, hnames₁⟩ := exists_addStream build
      (build_eq_ok_built hlong) (by rwa [toReceivedStream_built]) h
    obtain ⟨after, registry', hafter, hrep', hids, hnames⟩ :=
      ih hrep fun other hother => haccepted other (List.mem_cons_of_mem received hother)
    refine ⟨after, registry', bind_eq_ok_iff.mpr ⟨next, hnext, hafter⟩, hrep', ?_, ?_⟩
    · intro id
      rw [hids, hids₁, lastSome, Option.or_assoc]
    · intro name
      rw [hnames, hnames₁, lastSome, Option.or_assoc, toReceivedStream_built]
      by_cases hname : received.name = name
      · subst hname
        rw [Function.update_self, if_pos rfl, Option.some_or]
      · rw [Function.update_of_ne (Ne.symm hname), if_neg hname, Option.none_or]

theorem accepted_of_addStreams {streams : List ReceivedStream}
    {lookup after : Lookup DataStreamDocument}
    (h : addStreams build streams lookup = .ok after) :
    ∀ received ∈ streams, Accepted build received := by
  induction streams generalizing lookup with
  | nil => exact fun _ hmem => nomatch hmem
  | cons received rest ih =>
    obtain ⟨next, hnext, hrest⟩ := bind_eq_ok h
    intro other hother
    rcases List.mem_cons.mp hother with rfl | hmem
    · exact accepted_of_addStream hnext
    · exact ih hrest other hmem

/-- A table is built from accepted streams only, and then reads as follows. -/
theorem lookupOf_eq_ok {streams : List ReceivedStream} {lookup : Lookup DataStreamDocument}
    (h : lookupOf build streams = .ok lookup) :
    lookup.InRange ∧
      (∀ id, lookup.byId id =
        .ok (lastSome (fun received => ownEntry (built received) id) streams)) ∧
      ∀ name, lookup.byName name =
        .ok (lastSome (fun received => if received.name = name then
          some (nameEntry (built received)) else none) streams) := by
  obtain ⟨after, registry, hafter, hrep, hids, hnames⟩ :=
    exists_addStreams (Represents.new) (accepted_of_addStreams h)
  obtain rfl : after = lookup := Except.ok.inj (hafter.symm.trans h)
  refine ⟨hrep.inRange, fun id => ?_, fun name => ?_⟩
  · rw [hrep.byId_eq, hids]
    simp [Registry.empty]
  · rw [hrep.byName_eq, hnames]
    simp [Registry.empty]

theorem exists_lookupOf_iff {streams : List ReceivedStream} :
    (∃ lookup, lookupOf build streams = .ok lookup) ↔
      ∀ received ∈ streams, Accepted build received := by
  constructor
  · rintro ⟨lookup, h⟩
    exact accepted_of_addStreams h
  · intro h
    obtain ⟨after, _, hafter, _⟩ := exists_addStreams (Represents.new) h
    exact ⟨after, hafter⟩

end Streams

/-! ### Exact tables -/

section Documents

/-- The document of a stream, for the index that is written to or for another one. -/
def documentOf (received : ReceivedStream) (write : Bool) : DataStreamDocument :=
  .ofStream ((built received).setWriteIndex write)

/-- Two entries of the response that differ in their indices and the given mark at most. -/
def SameDetails (received other : ReceivedStream) : Prop :=
  { received with indices := other.indices, isWriteIndex := other.isWriteIndex } = other

theorem ofStream_built (received : ReceivedStream) :
    DataStreamDocument.ofStream (built received) = documentOf received received.isWriteIndex := by
  rw [documentOf, DataStream.setWriteIndex, ← congrArg ReceivedStream.isWriteIndex
    (toReceivedStream_built received)]

theorem nameEntry_built (received : ReceivedStream) :
    nameEntry (built received) =
      documentOf received (!received.indices.isEmpty || received.isWriteIndex) := by
  rw [nameEntry, ofStream_built, toReceivedStream_built]
  cases received.indices <;> rfl

theorem built_withReceived {received other : ReceivedStream} (h : received.name = other.name) :
    built received = (built other).withReceived received := by
  unfold built
  rw [build_ofReceived received h]
  cases (DataStream.ofReceived other).build <;> rfl

theorem documentOf_congr {received other : ReceivedStream} (h : SameDetails received other)
    (write : Bool) : documentOf received write = documentOf other write := by
  have hname : received.name = other.name := by
    rw [← h]
  have hother : built other = (built other).withReceived other :=
    built_withReceived rfl
  rw [documentOf, documentOf, built_withReceived hname, hother, ← h]
  rfl

theorem documentOf_inj {received other : ReceivedStream} {write write' : Bool}
    (h : documentOf received write = documentOf other write') :
    write = write' ∧ SameDetails received other := by
  simp only [documentOf, DataStreamDocument.ofStream, DataStream.setWriteIndex,
    toReceivedStream_built, DataStreamDocument.mk.injEq] at h
  refine ⟨by simp_all, ?_⟩
  obtain ⟨hrouting, hgeneration, hhidden, hilm, hname, hmanaged, hprefer, hreplicated, hrollover,
    hstatus, hsystem, htemplate, htimestamp, hstore, -⟩ := h
  rw [SameDetails, hrouting, hgeneration, hhidden, hilm, hname, hmanaged, hprefer, hreplicated,
    hrollover, hstatus, hsystem, htemplate, htimestamp, hstore]

end Documents

section Exactness

/-- All index names of a stream. -/
def indexNames (received : ReceivedStream) : List String :=
  backingNames received ++ failureNames received

/-- The last stream of a name. -/
def lastNamed (streams : List ReceivedStream) (name : String) : Option ReceivedStream :=
  lastSome (fun received => if received.name = name then some received else none) streams

/-- The table resolves every index and every stream to the document it should. -/
structure Exact (streams : List ReceivedStream) (lookup : Lookup DataStreamDocument) : Prop where
  inRange : lookup.InRange
  backing : ∀ received ∈ streams, ∀ i index, received.indices[i]? = some index →
    lookup.byId index.indexName =
      .ok (some (documentOf received (decide (i + 1 = received.indices.length))))
  failure : ∀ received ∈ streams, ∀ id ∈ failureNames received,
    lookup.byId id = .ok (some (documentOf received false))
  named : ∀ received ∈ streams,
    lookup.byName received.name = .ok (some (documentOf received true))

/-- The lists that the table is exact for. -/
structure Loadable (streams : List ReceivedStream) : Prop where
  accepted : ∀ received ∈ streams, Accepted build received
  unmarked : ∀ received ∈ streams, received.isWriteIndex = true →
    received.indices.length ≤ 1 ∧ failureNames received = []
  named : ∀ received ∈ streams, ∀ last, lastNamed streams received.name = some last →
    (last.indices ≠ [] ∨ last.isWriteIndex = true) ∧ SameDetails last received

variable {build} {streams : List ReceivedStream} {lookup : Lookup DataStreamDocument}
  {received : ReceivedStream}

theorem mem_indexNames_of_ownEntry {id : String}
    (h : (ownEntry (built received) id).isSome) : id ∈ indexNames received := by
  unfold ownEntry at h
  rw [toReceivedStream_built] at h
  rw [indexNames, List.mem_append]
  split_ifs at h with hfailure hlast hbacking
  · exact Or.inr hfailure
  · exact Or.inl (List.mem_of_getLast? hlast)
  · exact Or.inl hbacking
  · cases h

theorem ownEntry_failure {id : String} (h : id ∈ failureNames received) :
    ownEntry (built received) id = some (documentOf received received.isWriteIndex) := by
  rw [ownEntry, toReceivedStream_built, if_pos h, ofStream_built]

theorem ownEntry_backing (hnodup : (indexNames received).Nodup) {i : ℕ} {index : IndexEntry}
    (h : received.indices[i]? = some index) :
    ownEntry (built received) index.indexName =
      some (documentOf received
        (decide (i + 1 = received.indices.length) || received.isWriteIndex)) := by
  have hname : (backingNames received)[i]? = some index.indexName := by
    rw [backingNames, List.getElem?_map, h, Option.map_some]
  have hmem : index.indexName ∈ backingNames received := List.mem_of_getElem? hname
  obtain ⟨hbacking, -, hdisjoint⟩ := List.nodup_append.mp hnodup
  have hnot : index.indexName ∉ failureNames received :=
    fun hfailure => hdisjoint _ hmem _ hfailure rfl
  have hlast : (backingNames received).getLast? = some index.indexName ↔
      i + 1 = received.indices.length := by
    have hi : i < (backingNames received).length := (List.getElem?_eq_some_iff.mp hname).1
    have hlength : (backingNames received).length = received.indices.length := List.length_map _
    rw [List.getLast?_eq_getElem?, ← hname, List.getElem?_inj (by omega) hbacking]
    omega
  rw [ownEntry, toReceivedStream_built, if_neg hnot, if_pos hmem, ofStream_built]
  by_cases hi : i + 1 = received.indices.length
  · rw [if_pos (hlast.mpr hi), decide_eq_true hi, Bool.true_or]
    rfl
  · rw [if_neg (mt hlast.mp hi), decide_eq_false hi, Bool.false_or]

/-- No two streams share the name of an index. -/
theorem eq_of_mem_indexNames (hnodup : (streams.flatMap indexNames).Nodup)
    {received other : ReceivedStream} (hreceived : received ∈ streams) (hother : other ∈ streams)
    {id : String} (hid : id ∈ indexNames received) (hid' : id ∈ indexNames other) :
    other = received := by
  by_contra hne
  obtain ⟨-, hpairwise⟩ := List.nodup_flatMap.mp hnodup
  have hsymm : Std.Symm (Function.onFun List.Disjoint indexNames) :=
    ⟨fun _ _ hdisjoint _ hleft hright => hdisjoint hright hleft⟩
  have hdisjoint := hpairwise.forall hother hreceived hne
  exact hdisjoint hid' hid

theorem byId_of_ownEntry (hlookup : lookupOf build streams = .ok lookup)
    (hnodup : (streams.flatMap indexNames).Nodup) (hmem : received ∈ streams) {id : String}
    {document : DataStreamDocument} (h : ownEntry (built received) id = some document) :
    lookup.byId id = .ok (some document) := by
  obtain ⟨-, hids, -⟩ := lookupOf_eq_ok hlookup
  have hid : id ∈ indexNames received := mem_indexNames_of_ownEntry (by rw [h]; rfl)
  rw [hids, lastSome_eq_of_unique hmem h fun other hother hsome =>
    eq_of_mem_indexNames hnodup hmem hother hid (mem_indexNames_of_ownEntry hsome)]

theorem byName_eq_lastNamed (hlookup : lookupOf build streams = .ok lookup) (name : String) :
    lookup.byName name = .ok ((lastNamed streams name).map fun last =>
      documentOf last (!last.indices.isEmpty || last.isWriteIndex)) := by
  obtain ⟨-, -, hnames⟩ := lookupOf_eq_ok hlookup
  rw [hnames, lastNamed, ← lastSome_map]
  congr 2
  funext received
  split_ifs
  · rw [Option.map_some, nameEntry_built]
  · rfl

theorem exact_of_loadable (hlookup : lookupOf build streams = .ok lookup)
    (hnodup : (streams.flatMap indexNames).Nodup) (h : Loadable build streams) :
    Exact streams lookup where
  inRange := (lookupOf_eq_ok hlookup).1
  backing received hmem i index hindex := by
    have hown := ownEntry_backing ((List.nodup_flatMap.mp hnodup).1 received hmem) hindex
    rw [byId_of_ownEntry hlookup hnodup hmem hown]
    cases hmark : received.isWriteIndex with
    | false => rw [Bool.or_false]
    | true =>
      have hlength := (h.unmarked received hmem hmark).1
      have hi := (List.getElem?_eq_some_iff.mp hindex).1
      rw [decide_eq_true (by omega), Bool.true_or]
  failure received hmem id hid := by
    rw [byId_of_ownEntry hlookup hnodup hmem (ownEntry_failure hid)]
    cases hmark : received.isWriteIndex with
    | false => rfl
    | true =>
      rw [(h.unmarked received hmem hmark).2] at hid
      cases hid
  named received hmem := by
    have hsome : (lastNamed streams received.name).isSome :=
      isSome_lastSome hmem (by rw [if_pos rfl]; rfl)
    obtain ⟨last, hlast⟩ := Option.isSome_iff_exists.mp hsome
    obtain ⟨hwritten, hsame⟩ := h.named received hmem last hlast
    have hwrite : (!last.indices.isEmpty || last.isWriteIndex) = true := by
      simpa [List.isEmpty_iff] using hwritten
    rw [byName_eq_lastNamed hlookup, hlast, Option.map_some, hwrite, documentOf_congr hsame]

theorem loadable_of_exact (hlookup : lookupOf build streams = .ok lookup)
    (hnodup : (streams.flatMap indexNames).Nodup) (h : Exact streams lookup) :
    Loadable build streams where
  accepted := accepted_of_addStreams hlookup
  unmarked received hmem hmark := by
    constructor
    · -- the first of two indices would be marked as well
      by_contra hlong
      obtain ⟨index, hindex⟩ : ∃ index, received.indices[0]? = some index :=
        ⟨_, List.getElem?_eq_getElem (by omega)⟩
      have hown := ownEntry_backing ((List.nodup_flatMap.mp hnodup).1 received hmem) hindex
      have hread := h.backing received hmem 0 index hindex
      rw [byId_of_ownEntry hlookup hnodup hmem hown, hmark, Bool.or_true,
        decide_eq_false (by omega)] at hread
      exact absurd (documentOf_inj (Option.some.inj (Except.ok.inj hread))).1 (by decide)
    · refine List.eq_nil_iff_forall_not_mem.mpr fun id hid => ?_
      have hread := h.failure received hmem id hid
      rw [byId_of_ownEntry hlookup hnodup hmem (ownEntry_failure hid), hmark] at hread
      exact absurd (documentOf_inj (Option.some.inj (Except.ok.inj hread))).1 (by decide)
  named received hmem last hlast := by
    have hread := h.named received hmem
    rw [byName_eq_lastNamed hlookup, hlast, Option.map_some] at hread
    obtain ⟨hwrite, hsame⟩ := documentOf_inj (Option.some.inj (Except.ok.inj hread))
    exact ⟨by simpa [List.isEmpty_iff] using hwrite, hsame⟩

/-- The table is built and exact for the loadable lists and for no other ones. -/
theorem lookup_exact_iff (build : Build) (streams : List ReceivedStream)
    (hnodup : (streams.flatMap indexNames).Nodup) :
    (∃ lookup, lookupOf build streams = .ok lookup ∧ Exact streams lookup) ↔
      Loadable build streams := by
  constructor
  · rintro ⟨lookup, hlookup, hexact⟩
    exact loadable_of_exact hlookup hnodup hexact
  · intro h
    obtain ⟨lookup, hlookup⟩ := exists_lookupOf_iff.mpr h.accepted
    exact ⟨lookup, hlookup, exact_of_loadable hlookup hnodup h⟩

/-- A stream with two backing indices and one in its failure store. -/
def metricsStream : ReceivedStream where
  generation := 1#64
  indices := [⟨".ds-metrics-index-esdiag-2025.11.20-000004", "uuid1", none, none, none⟩,
    ⟨".ds-metrics-index-esdiag-2025.11.21-000005", "uuid2", none, none, none⟩]
  name := "metrics-index-esdiag"
  status := "GREEN"
  timestampField := ⟨"@timestamp"⟩
  failureStore := some {
    enabled := true
    indices := [⟨".fs-metrics-index-esdiag-2026.02.07-000012", "uuid-fs", none, none, none⟩] }

theorem metrics_lookup_exact :
    ([metricsStream].flatMap indexNames).Nodup ∧
      ((∃ lookup, lookupOf ⟨true⟩ [metricsStream] = .ok lookup ∧ Exact [metricsStream] lookup) ↔
        Loadable ⟨true⟩ [metricsStream]) :=
  ⟨by decide, lookup_exact_iff ⟨true⟩ [metricsStream] (by decide)⟩

/-- A stream without backing indices stops a build with overflow checks. In any other build
its name stands for a document that is not the one of a write index. -/
theorem empty_stream_not_exact :
    ([streamNamed "logs-app-default"].flatMap indexNames).Nodup ∧
      (¬∃ lookup, lookupOf ⟨true⟩ [streamNamed "logs-app-default"] = .ok lookup) ∧
      ¬∃ lookup, lookupOf ⟨false⟩ [streamNamed "logs-app-default"] = .ok lookup ∧
        Exact [streamNamed "logs-app-default"] lookup := by
  refine ⟨by decide, fun h => ?_, ?_⟩
  · have haccepted := exists_lookupOf_iff.mp h _ List.mem_cons_self
    exact haccepted.2 rfl rfl
  · rintro ⟨lookup, hlookup, hexact⟩
    have hloadable := loadable_of_exact hlookup (by decide) hexact
    have hnamed := hloadable.named _ List.mem_cons_self (streamNamed "logs-app-default")
      (by decide)
    exact absurd hnamed.1 (by decide)

end Exactness

end Esdiag.DataStreamLookups
