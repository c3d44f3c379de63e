import Esdiag.Lookups
import Esdiag.TextParts

/-!
The parts of a data stream's name. Elasticsearch does not report the type, the
dataset and the namespace of a stream, they are read off the words of its name, and
the streams of Kibana follow patterns of their own. A word that is not there stops
the program, so the names that can be taken apart are described by one condition.
-/
namespace Esdiag.DataStreams

open Lookups Outcomes Texts

/-! ### The response -/

structure TimestampField where
  name : String
  deriving DecidableEq

structure IndexEntry where
  indexName : String
  indexUuid : String
  preferIlm : Option Bool := none
  ilmPolicy : Option String := none
  managedBy : Option String := none
  deriving DecidableEq

structure FailureStoreLifecycle where
  enabled : Bool
  effectiveRetention : Option String := none
  retentionDeterminedBy : Option String := none
  deriving DecidableEq

structure FailureStore where
  enabled : Bool
  rolloverOnWrite : Option Bool := none
  indices : List IndexEntry
  lifecycle : Option FailureStoreLifecycle := none
  deriving DecidableEq

/-- A data stream as the response holds it. -/
structure ReceivedStream where
  allowCustomRouting : Option Bool := none
  generation : BitVec 64
  hidden : Option Bool := none
  ilmPolicy : Option String := none
  indices : List IndexEntry
  name : String
  nextGenerationManagedBy : Option String := none
  preferIlm : Option Bool := none
  replicated : Option Bool := none
  rolloverOnWrite : Option Bool := none
  status : String
  system : Option Bool := none
  template : Option String := none
  timestampField : TimestampField
  failureStore : Option FailureStore := none
  isWriteIndex : Bool := false
  deriving DecidableEq

/-- The three derived parts are never read from the response, they start empty. -/
structure DataStream extends ReceivedStream where
  dataset : String := ""
  streamNamespace : String := ""
  type : String := ""
  deriving DecidableEq

/-! ### Taking a name apart -/

def wordAt (words : List String) (i : ℕ) : Except Panic String :=
  match words[i]? with
  | some word => .ok word
  | none => .error .indexOutOfBounds

/-- The words from one position up to another one, joined again. -/
def joinRange (words : List String) (first last : ℕ) : Except Panic String :=
  if first ≤ last ∧ last ≤ words.length then
    .ok (join "-" ((words.take last).drop first))
  else .error .rangeOutOfBounds

def joinFrom (words : List String) (first : ℕ) : Except Panic String :=
  joinRange words first words.length

namespace DataStream

/-- The words behind the first one up to some position are the dataset, the words from
there on the namespace. -/
def cutAt (self : DataStream) (words : List String) (n : ℕ) : Except Panic DataStream := do
  let dataset ← joinRange words 1 n
  let rest ← joinFrom words n
  return { self with dataset := dataset, streamNamespace := rest }

/-- The dataset and the namespace of a name that starts with the word of Kibana. -/
def buildKibana (self : DataStream) (words : List String) : Except Panic DataStream := do
  let second ← wordAt words 1
  if second = "reporting" then
    return { self with dataset := second }
  else if second = "elastic" then
    -- the fifth word decides, and is read as soon as there are four words
    let fifth ← if 3 < words.length then some <$> wordAt words 4 else .ok none
    if fifth = some "anonymization" ∨ fifth = some "knowledge" ∨ fifth = some "attack" then
      self.cutAt words 6
    else
      self.cutAt words 5
  else if second = "event" then
    self.cutAt words 3
  else
    let rest ← joinFrom words 2
    return { self with dataset := second, streamNamespace := rest }

/-- Try to deconstruct the name into type, dataset, and namespace. -/
def buildFrom (self : DataStream) (words : List String) : Except Panic DataStream := do
  let first ← wordAt words 0
  if words.length = 1 then
    return { self with dataset := first }
  else if words.length = 2 ∧ first = ".fleet" then
    let rest ← joinFrom words 1
    return { self with dataset := rest }
  else if words.length = 2 ∧ (first = ".items" ∨ first = ".lists") then
    let rest ← joinFrom words 1
    return { self with streamNamespace := rest }
  else if words.length = 3 then
    let second ← wordAt words 1
    let third ← wordAt words 2
    return { self with type := first, dataset := second, streamNamespace := third }
  else if first = ".kibana" then
    buildKibana { self with type := first } words
  else
    let second ← wordAt words 1
    let rest ← joinFrom words 2
    return { self with type := first, dataset := second, streamNamespace := rest }

def build (self : DataStream) : Except Panic DataStream :=
  self.buildFrom (split '-' self.name)

def setWriteIndex (self : DataStream) (value : Bool) : DataStream :=
  { self with isWriteIndex := value }

end DataStream

/-! ### Which names can be taken apart -/

section Words

variable {words : List String}

@[simp] theorem wordAt_zero (word : String) : wordAt (word :: words) 0 = .ok word := rfl

@[simp] theorem wordAt_succ (word : String) (i : ℕ) :
    wordAt (word :: words) (i + 1) = wordAt words i := rfl

@[simp] theorem wordAt_nil (i : ℕ) : wordAt [] i = .error .indexOutOfBounds := rfl

theorem joinRange_of_le {first last : ℕ} (hfirst : first ≤ last) (hlast : last ≤ words.length) :
    joinRange words first last = .ok (join "-" ((words.take last).drop first)) :=
  if_pos ⟨hfirst, hlast⟩

theorem joinRange_of_lt {first last : ℕ} (h : words.length < last) :
    joinRange words first last = .error .rangeOutOfBounds :=
  if_neg fun hrange => absurd hrange.2 (Nat.not_le.mpr h)

theorem joinFrom_of_le {first : ℕ} (h : first ≤ words.length) :
    joinFrom words first = .ok (join "-" (words.drop first)) := by
  rw [joinFrom, joinRange_of_le h le_rfl, List.take_length]

end Words

/-- Names of Kibana's streams that end before a word that is read from them. -/
def EndsEarly (words : List String) : Prop :=
  words = [".kibana", "elastic"] ∨ words = [".kibana", "event"] ∨
    (∃ third fourth, words = [".kibana", "elastic", third, fourth]) ∨
    ∃ third fourth fifth,
      (fifth = "anonymization" ∨ fifth = "knowledge" ∨ fifth = "attack") ∧
        words = [".kibana", "elastic", third, fourth, fifth]

/-- Names that lose a word on purpose. -/
def DropsWords (words : List String) : Prop :=
  (∃ first second, (first = ".fleet" ∨ first = ".items" ∨ first = ".lists") ∧
      words = [first, second]) ∨
    ∃ third fourth rest, words = ".kibana" :: "reporting" :: third :: fourth :: rest

/-- What a name was taken apart into: three groups of its words, in order. -/
structure Grouped (received : ReceivedStream) (words : List String) (stream : DataStream) :
    Prop where
  received_eq : stream.toReceivedStream = received
  groups : ∃ type dataset rest : List String,
    stream.type = join "-" type ∧ stream.dataset = join "-" dataset ∧
      stream.streamNamespace = join "-" rest ∧
      (¬DropsWords words → type ++ (dataset ++ rest) = words)

section Kibana

variable {received : ReceivedStream} {second : String} {rest : List String}

/-- The stream of a name of Kibana before its dataset is known. -/
def kibanaStream (received : ReceivedStream) : DataStream :=
  { toReceivedStream := received, type := ".kibana" }

/-- A dataset of the words up to some position and a namespace of the words from there. -/
theorem grouped_kibana (n : ℕ) :
    Grouped received (".kibana" :: second :: rest)
      { kibanaStream received with
        dataset := join "-" (((".kibana" :: second :: rest).take (n + 1)).drop 1)
        streamNamespace := join "-" ((".kibana" :: second :: rest).drop (n + 1)) } where
  received_eq := rfl
  groups := ⟨[".kibana"], (second :: rest).take n, (second :: rest).drop n,
    (join_singleton _ _).symm, rfl, rfl, fun _ => by
      rw [List.take_append_drop, List.singleton_append]⟩

theorem exists_cutAt {words : List String} (n : ℕ)
    (hwords : words = ".kibana" :: second :: rest) (hlen : n + 1 ≤ words.length) :
    ∃ stream, (kibanaStream received).cutAt words (n + 1) = .ok stream ∧
      Grouped received words stream := by
  rw [DataStream.cutAt, joinRange_of_le (by omega) hlen, joinFrom_of_le hlen, hwords]
  exact ⟨_, rfl, grouped_kibana n⟩

theorem cutAt_of_lt {self : DataStream} {words : List String} {n : ℕ} (h : words.length < n) :
    self.cutAt words n = .error .rangeOutOfBounds := by
  rw [DataStream.cutAt, joinRange_of_lt h]
  rfl

/-- What taking a name apart comes to. -/
def Outcome (received : ReceivedStream) (words : List String)
    (result : Except Panic DataStream) : Prop :=
  (EndsEarly words ∧ ∃ panic, result = .error panic) ∨
    ¬EndsEarly words ∧ ∃ stream, result = .ok stream ∧ Grouped received words stream

theorem outcome_reporting (hlen : rest.length ≠ 1) :
    Outcome received (".kibana" :: "reporting" :: rest)
      ((kibanaStream received).buildKibana (".kibana" :: "reporting" :: rest)) := by
  refine Or.inr ⟨by simp [EndsEarly], _, rfl, rfl, [".kibana"], ["reporting"], [],
    (join_singleton _ _).symm, (join_singleton _ _).symm, rfl, fun hkept => ?_⟩
  match rest, hlen with
  | [], _ => rfl
  | third :: fourth :: more, _ => exact absurd (Or.inr ⟨third, fourth, more, rfl⟩) hkept

theorem outcome_elastic (hlen : rest.length ≠ 1) :
    Outcome received (".kibana" :: "elastic" :: rest)
      ((kibanaStream received).buildKibana (".kibana" :: "elastic" :: rest)) := by
  match rest, hlen with
  | [], _ => exact Or.inl ⟨Or.inl rfl, Panic.rangeOutOfBounds, rfl⟩
  | [third, fourth], _ =>
    exact Or.inl ⟨Or.inr (Or.inr (Or.inl ⟨third, fourth, rfl⟩)), Panic.indexOutOfBounds, rfl⟩
  | third :: fourth :: fifth :: more, _ =>
    have hresult : (kibanaStream received).buildKibana
        (".kibana" :: "elastic" :: third :: fourth :: fifth :: more) =
          if fifth = "anonymization" ∨ fifth = "knowledge" ∨ fifth = "attack" then
            (kibanaStream received).cutAt
              (".kibana" :: "elastic" :: third :: fourth :: fifth :: more) 6
          else
            (kibanaStream received).cutAt
              (".kibana" :: "elastic" :: third :: fourth :: fifth :: more) 5 := by
      simp [DataStream.buildKibana, bind, Except.bind, Functor.map, Except.map]
    rw [hresult]
    split_ifs with hfifth
    · cases more with
      | nil =>
        left
        refine ⟨Or.inr (Or.inr (Or.inr ⟨third, fourth, fifth, hfifth, rfl⟩)), _,
          cutAt_of_lt (by simp)⟩
      | cons sixth more =>
        exact Or.inr ⟨by simp [EndsEarly], exists_cutAt 5 rfl (by simp)⟩
    · refine Or.inr ⟨?_, exists_cutAt 4 rfl (by simp)⟩
      rintro (h | h | ⟨c, d, h⟩ | ⟨c, d, e, he, h⟩)
      · simp at h
      · simp at h
      · simp at h
      · simp only [List.cons.injEq, true_and] at h
        exact hfifth (h.2.2.1 ▸ he)

theorem outcome_event (hlen : rest.length ≠ 1) :
    Outcome received (".kibana" :: "event" :: rest)
      ((kibanaStream received).buildKibana (".kibana" :: "event" :: rest)) := by
  have hresult : (kibanaStream received).buildKibana (".kibana" :: "event" :: rest) =
      (kibanaStream received).cutAt (".kibana" :: "event" :: rest) 3 := by
    simp [DataStream.buildKibana, bind, Except.bind]
  rw [hresult]
  match rest, hlen with
  | [], _ => exact Or.inl ⟨Or.inr (Or.inl rfl), _, cutAt_of_lt (by simp)⟩
  | third :: fourth :: more, _ =>
    exact Or.inr ⟨by simp [EndsEarly], exists_cutAt 2 rfl (by simp)⟩

theorem outcome_kibana (hlen : rest.length ≠ 1) :
    Outcome received (".kibana" :: second :: rest)
      ((kibanaStream received).buildKibana (".kibana" :: second :: rest)) := by
  by_cases hreporting : second = "reporting"
  · exact hreporting ▸ outcome_reporting hlen
  by_cases helastic : second = "elastic"
  · exact helastic ▸ outcome_elastic hlen
  by_cases hevent : second = "event"
  · exact hevent ▸ outcome_event hlen
  have hresult : (kibanaStream received).buildKibana (".kibana" :: second :: rest) =
      .ok { kibanaStream received with
        dataset := second
        streamNamespace := join "-" rest } := by
    unfold DataStream.buildKibana
    rw [wordAt_succ, wordAt_zero, joinFrom_of_le (by simp)]
    simp [hreporting, helastic, hevent, bind, Except.bind, pure, Except.pure]
  rw [hresult]
  refine Or.inr ⟨by simp [EndsEarly, helastic, hevent], _, rfl, rfl, [".kibana"], [second], rest,
    (join_singleton _ _).symm, (join_singleton _ _).symm, rfl, fun _ => rfl⟩

end Kibana

section Names

/-- A stream as it is after reading the response. -/
def DataStream.ofReceived (received : ReceivedStream) : DataStream :=
  { toReceivedStream := received }

variable (received : ReceivedStream)

theorem outcome_of_grouped {words : List String} {result : Except Panic DataStream}
    {stream : DataStream} (hearly : ¬EndsEarly words) (hresult : result = .ok stream)
    (hgrouped : Grouped received words stream) : Outcome received words result :=
  Or.inr ⟨hearly, stream, hresult, hgrouped⟩

theorem grouped_first_second (first second : String) (rest : List String) :
    Grouped received (first :: second :: rest)
      { DataStream.ofReceived received with
        type := first, dataset := second, streamNamespace := join "-" rest } where
  received_eq := rfl
  groups := ⟨[first], [second], rest, (join_singleton _ _).symm, (join_singleton _ _).symm, rfl,
    fun _ => rfl⟩

theorem outcome_pair (first second : String) :
    Outcome received [first, second]
      ((DataStream.ofReceived received).buildFrom [first, second]) := by
  by_cases hfleet : first = ".fleet"
  · have hresult : (DataStream.ofReceived received).buildFrom [first, second] =
        .ok { DataStream.ofReceived received with dataset := second } := by
      simp [DataStream.buildFrom, hfleet, joinFrom_of_le, bind, Except.bind, pure, Except.pure]
    refine outcome_of_grouped received (by simp [EndsEarly, hfleet]) hresult ⟨rfl, [], [second],
      [], rfl, (join_singleton _ _).symm, rfl, fun hkept => ?_⟩
    exact absurd (Or.inl ⟨first, second, Or.inl hfleet, rfl⟩) hkept
  by_cases hitems : first = ".items" ∨ first = ".lists"
  · have hresult : (DataStream.ofReceived received).buildFrom [first, second] =
        .ok { DataStream.ofReceived received with streamNamespace := second } := by
      simp [DataStream.buildFrom, hfleet, hitems, joinFrom_of_le, bind, Except.bind, pure,
        Except.pure]
    refine outcome_of_grouped received ?_ hresult ⟨rfl, [], [], [second], rfl, rfl,
      (join_singleton _ _).symm, fun hkept => ?_⟩
    · rcases hitems with rfl | rfl <;> simp [EndsEarly]
    · exact absurd (Or.inl ⟨first, second, Or.inr hitems, rfl⟩) hkept
  by_cases hkibana : first = ".kibana"
  · have hresult : (DataStream.ofReceived received).buildFrom [first, second] =
        (kibanaStream received).buildKibana [".kibana", second] := by
      simp [DataStream.buildFrom, hkibana, kibanaStream, DataStream.ofReceived, bind, Except.bind]
    rw [hresult, hkibana]
    exact outcome_kibana (by simp)
  · have hresult : (DataStream.ofReceived received).buildFrom [first, second] =
        .ok { DataStream.ofReceived received with
          type := first, dataset := second, streamNamespace := join "-" [] } := by
      simp [DataStream.buildFrom, hfleet, hitems, hkibana, joinFrom_of_le, bind, Except.bind,
        pure, Except.pure]
    exact outcome_of_grouped received (by simp [EndsEarly, hkibana]) hresult
      (grouped_first_second received first second [])

theorem outcome_many (first second third fourth : String) (rest : List String) :
    Outcome received (first :: second :: third :: fourth :: rest)
      ((DataStream.ofReceived received).buildFrom
        (first :: second :: third :: fourth :: rest)) := by
  by_cases hkibana : first = ".kibana"
  · have hresult : (DataStream.ofReceived received).buildFrom
        (first :: second :: third :: fourth :: rest) =
          (kibanaStream received).buildKibana
            (".kibana" :: second :: third :: fourth :: rest) := by
      simp [DataStream.buildFrom, hkibana, kibanaStream, DataStream.ofReceived, bind, Except.bind]
    rw [hresult, hkibana]
    exact outcome_kibana (by simp)
  · have hresult : (DataStream.ofReceived received).buildFrom
        (first :: second :: third :: fourth :: rest) =
        .ok { DataStream.ofReceived received with
          type := first, dataset := second
          streamNamespace := join "-" (third :: fourth :: rest) } := by
      simp [DataStream.buildFrom, hkibana, joinFrom_of_le, bind, Except.bind, pure, Except.pure]
    exact outcome_of_grouped received (by simp [EndsEarly, hkibana]) hresult
      (grouped_first_second received first second (third :: fourth :: rest))

/-- Every name is taken apart into groups of its words, or is one that ends early. -/
theorem outcome_build : Outcome received (split '-' received.name)
    (DataStream.ofReceived received).build := by
  unfold DataStream.build
  change Outcome received (split '-' received.name)
    ((DataStream.ofReceived received).buildFrom (split '-' received.name))
  match hwords : split '-' received.name with
  | [] => exact absurd hwords (split_ne_nil _ _)
  | [first] =>
    exact Or.inr ⟨by simp [EndsEarly], _, rfl, rfl, [], [first], [], rfl,
      (join_singleton _ _).symm, rfl, fun _ => rfl⟩
  | [first, second] => exact outcome_pair received first second
  | [first, second, third] =>
    exact Or.inr ⟨by simp [EndsEarly], _, rfl, rfl, [first], [second], [third],
      (join_singleton _ _).symm, (join_singleton _ _).symm, (join_singleton _ _).symm,
      fun _ => rfl⟩
  | first :: second :: third :: fourth :: more =>
    exact outcome_many received first second third fourth more

/-- The non-empty ones of the type, the dataset and the namespace, joined. -/
def DataStream.joinedParts (stream : DataStream) : String :=
  join "-" ([stream.type, stream.dataset, stream.streamNamespace].filter (· ≠ ""))

/-- The name is taken apart, and no word of it is lost, moved or duplicated unless that is the
purpose or there are empty words. -/
def Handled : Prop :=
  ∃ stream, (DataStream.ofReceived received).build = .ok stream ∧
    ((∀ word ∈ split '-' received.name, word ≠ "") → ¬DropsWords (split '-' received.name) →
      stream.joinedParts = received.name)

theorem Grouped.joinedParts_eq {received : ReceivedStream} {stream : DataStream}
    (h : Grouped received (split '-' received.name) stream)
    (hwords : ∀ word ∈ split '-' received.name, word ≠ "")
    (hkept : ¬DropsWords (split '-' received.name)) : stream.joinedParts = received.name := by
  obtain ⟨type, dataset, rest, htype, hdataset, hrest, hgroups⟩ := h.groups
  have hflat : [type, dataset, rest].flatten = split '-' received.name := by
    simpa using hgroups hkept
  have hnonempty : ∀ group ∈ [type, dataset, rest], ∀ word ∈ group, word ≠ "" := by
    intro group hgroup word hword
    exact hwords word (hflat ▸ List.mem_flatten.mpr ⟨group, hgroup, hword⟩)
  calc stream.joinedParts
      = join "-" (([type, dataset, rest].map (join "-")).filter (· ≠ "")) := by
        rw [DataStream.joinedParts, htype, hdataset, hrest]
        rfl
    _ = join "-" (split '-' received.name) := by rw [join_filter_map_join hnonempty, hflat]
    _ = received.name := join_split '-' received.name

/-- A stream name is handled exactly when no word is read behind its end. -/
theorem name_handled_iff : Handled received ↔ ¬EndsEarly (split '-' received.name) := by
  constructor
  · rintro ⟨stream, hstream, _⟩ hearly
    rcases outcome_build received with ⟨_, panic, hpanic⟩ | ⟨hlong, _⟩
    · rw [hpanic] at hstream
      cases hstream
    · exact hlong hearly
  · intro hlong
    rcases outcome_build received with ⟨hearly, _⟩ | ⟨_, stream, hstream, hgrouped⟩
    · exact absurd hearly hlong
    · exact ⟨stream, hstream, hgrouped.joinedParts_eq⟩

def streamNamed (name : String) : ReceivedStream where
  generation := 1#64
  indices := []
  name := name
  status := "GREEN"
  timestampField := ⟨"@timestamp"⟩

/-- The word of Kibana and one more are too few. -/
theorem kibana_event_panics : ¬Handled (streamNamed ".kibana-event") := by
  rintro ⟨stream, hstream, _⟩
  have hpanic : (DataStream.ofReceived (streamNamed ".kibana-event")).build =
      .error .rangeOutOfBounds := by
    decide +kernel
  rw [hpanic] at hstream
  cases hstream

end Names

section Names

/-- The same parts under another entry of the response. -/
def DataStream.withReceived (received : ReceivedStream) (self : DataStream) : DataStream :=
  { self with toReceivedStream := received }

variable (self : DataStream) (received : ReceivedStream) (words : List String)

theorem cutAt_withReceived (n : ℕ) :
    (self.withReceived received).cutAt words n =
      DataStream.withReceived received <$> self.cutAt words n := by
  simp only [DataStream.cutAt, map_bind, map_pure]
  rfl

theorem buildKibana_withReceived :
    (self.withReceived received).buildKibana words =
      DataStream.withReceived received <$> self.buildKibana words := by
  simp only [DataStream.buildKibana, map_bind, map_pure, cutAt_withReceived,
    apply_ite (DataStream.withReceived received <$> ·)]
  rfl

theorem buildFrom_withReceived :
    (self.withReceived received).buildFrom words =
      DataStream.withReceived received <$> self.buildFrom words := by
  have hkibana (type : String) :=
    buildKibana_withReceived { self with type := type } received words
  simp only [DataStream.buildFrom, map_bind, map_pure, ← hkibana,
    apply_ite (DataStream.withReceived received <$> ·)]
  rfl

/-- The parts are those of the name, whatever else the response says. -/
theorem build_ofReceived {other : ReceivedStream} (h : received.name = other.name) :
    (DataStream.ofReceived received).build =
      DataStream.withReceived received <$> (DataStream.ofReceived other).build := by
  have hfrom := buildFrom_withReceived (DataStream.ofReceived other) received
    (split '-' other.name)
  rw [DataStream.build, DataStream.build]
  change DataStream.buildFrom _ (split '-' received.name) =
    DataStream.withReceived received <$> DataStream.buildFrom _ (split '-' other.name)
  rw [h]
  exact hfrom

end Names

end Esdiag.DataStreams
