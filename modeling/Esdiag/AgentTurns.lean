import Esdiag.JsonValues
import Esdiag.RelativeLinks
import Esdiag.SseDecoding

/-!
One turn of a conversation with Agent Builder. The events of the stream are consumed as
they come, and the first one that reports an error or cannot be read ends the turn, as
does a stream that breaks off. Whether a caller may repeat a failed turn is read off the
kind of the failure alone, and only an interruption knows the conversation.
-/
namespace Esdiag.AgentTurns

open JsonValues WebUrls AgentLocations RelativeLinks SseDecoding

structure AgentRequest where
  agentId : String
  prompt : String
  conversationId : Option String
  deriving DecidableEq, Repr

inductive AgentProgress where
  | reasoning (text : String)
  | toolCall (toolId : String)
  | toolProgress (text : String)
  | toolResult (toolId : String)
  deriving DecidableEq, Repr

structure AgentUsage where
  inputTokens : Option (BitVec 64)
  outputTokens : Option (BitVec 64)
  deriving DecidableEq, Repr

structure AgentCompletion where
  conversationId : String
  message : String
  kibanaUrl : String
  usage : Option AgentUsage
  deriving DecidableEq, Repr

inductive AgentFailure where
  | transport
  | http (status : ℕ)
  | protocol (event : String)
  | remote
  | interrupted (conversationId kibanaUrl : Option String)
  deriving DecidableEq, Repr

def AgentFailure.retrySafe : AgentFailure → Bool
  | .interrupted (some _) _ => false
  | _ => true

structure StreamState where
  conversationId : Option String
  message : Option String
  usage : Option AgentUsage

/-- What comes back for a request: an error, or a status and a stream that may break off. -/
inductive Response where
  | transportError
  | received (status : ℕ) (chunks : List (List UInt8)) (broken : Bool)

def isSuccess (status : ℕ) : Bool := 200 ≤ status && status < 300

def stringField (value : Value) (name : String) : Option String :=
  ((value.get name).bind Value.asStr).filter (· != "")

def usageFrom (value : Option Value) : Option AgentUsage := do
  let value ← value
  let usage : AgentUsage :=
    ⟨(value.get "input_tokens").bind Value.asU64, (value.get "output_tokens").bind Value.asU64⟩
  if usage.inputTokens.isSome || usage.outputTokens.isSome then some usage else none

def knownEvents : List String :=
  ["conversation_id_set", "reasoning", "tool_call", "tool_progress", "tool_result",
    "message_complete", "round_complete", "error"]

/-- The fields of an event: those under `data`, where there is such a field. -/
def payloadOf (data : Value) : Value := (data.get "data").getD data

section Turns

variable {Url : Type} (lib : Library Url) (location : AgentBuilderLocation Url)
  (parse : String → Option Value)

/-- The progress that an event reports, and the state after it. -/
def consume (event : SseEvent) (state : StreamState) :
    List AgentProgress × Except AgentFailure StreamState :=
  if event.name ∉ knownEvents then ([], .ok state)
  else
    match parse event.data with
    | none => ([], .error (.protocol event.name))
    | some data =>
      let payload := payloadOf data
      if event.name = "conversation_id_set" then
        ([], .ok { state with
          conversationId := (stringField payload "conversation_id").or state.conversationId })
      else if event.name = "reasoning" then
        (((stringField payload "reasoning").map .reasoning).toList, .ok state)
      else if event.name = "tool_call" then
        (((stringField payload "tool_id").map .toolCall).toList, .ok state)
      else if event.name = "tool_progress" then
        (((stringField payload "message").map .toolProgress).toList, .ok state)
      else if event.name = "tool_result" then
        (((stringField payload "tool_id").map .toolResult).toList, .ok state)
      else if event.name = "message_complete" then
        ([], .ok { state with
          message := (stringField payload "message_content").or state.message })
      else if event.name = "round_complete" then
        ([], .ok { state with
          usage := usageFrom ((payload.get "round").bind (·.get "model_usage")) })
      else ([], .error .remote)

def consumeAll : List SseEvent → StreamState →
    List AgentProgress × Except AgentFailure StreamState
  | [], state => ([], .ok state)
  | event :: events, state =>
    let first := consume parse event state
    match first.2 with
    | .error failure => (first.1, .error failure)
    | .ok state =>
      let later := consumeAll events state
      (first.1 ++ later.1, later.2)

def interrupted (state : StreamState) : AgentFailure :=
  .interrupted state.conversationId
    (state.conversationId.map fun id => lib.display (location.conversationUrl lib id))

/-- The chunks one after another, each with its events consumed before the next. -/
def readStream (broken : Bool) (decoder : SseDecoder) (state : StreamState) :
    List (List UInt8) → List AgentProgress × Except AgentFailure StreamState
  | [] =>
    if broken then ([], .error (interrupted lib location state))
    else consumeAll parse decoder.finish.1 state
  | chunk :: chunks =>
    let pushed := decoder.push chunk
    let consumed := consumeAll parse pushed.1 state
    match consumed.2 with
    | .error failure => (consumed.1, .error failure)
    | .ok state =>
      let later := readStream broken pushed.2 state chunks
      (consumed.1 ++ later.1, later.2)

def conversePath : String := "api/agent_builder/converse/async"

/-- The fields of a request in the order of their names. -/
def converseBody (request : AgentRequest) : Value :=
  .object ([("agent_id", .string request.agentId)] ++
    (request.conversationId.map fun id => ("conversation_id", Value.string id)).toList ++
    [("input", .string request.prompt)])

def ask (send : String → Value → Response) (request : AgentRequest) :
    List AgentProgress × Except AgentFailure AgentCompletion :=
  match send (location.apiPath lib conversePath) (converseBody request) with
  | .transportError => ([], .error .transport)
  | .received status chunks broken =>
    if !isSuccess status then ([], .error (.http status))
    else
      let read := readStream lib location parse broken .empty
        ⟨request.conversationId, none, none⟩ chunks
      match read.2 with
      | .error failure => (read.1, .error failure)
      | .ok state =>
        match state.message, state.conversationId with
        | some message, some conversationId => (read.1, .ok {
            conversationId
            message := resolveRelativeLinks lib location message
            kibanaUrl := lib.display (location.conversationUrl lib conversationId)
            usage := state.usage })
        | _, _ => (read.1, .error (interrupted lib location state))

end Turns

section Events

variable (parse : String → Option Value)

/-- An event that ends the turn: an error, or a known event that cannot be read. -/
def stops (event : SseEvent) : Bool :=
  knownEvents.contains event.name && ((parse event.data).isNone || event.name == "error")

/-- The conversation id that an event sets. -/
def idOf (event : SseEvent) : Option String :=
  if event.name = "conversation_id_set" then
    (parse event.data).bind fun data => stringField (payloadOf data) "conversation_id"
  else none

/-- The message that an event completes. -/
def messageOf (event : SseEvent) : Option String :=
  if event.name = "message_complete" then
    (parse event.data).bind fun data => stringField (payloadOf data) "message_content"
  else none

variable {parse} {event : SseEvent} {events : List SseEvent}

theorem consume_of_stops (h : stops parse event = true) (state : StreamState) :
    ∃ progress failure, consume parse event state = (progress, .error failure) ∧
      failure.retrySafe = true := by
  rw [stops, Bool.and_eq_true, List.contains_iff_mem] at h
  obtain ⟨hknown, hends⟩ := h
  unfold consume
  rw [if_neg (not_not.mpr hknown)]
  cases hdata : parse event.data with
  | none => exact ⟨_, _, rfl, rfl⟩
  | some data =>
    have herror : event.name = "error" := by simpa [hdata] using hends
    simp only [herror]
    exact ⟨_, _, rfl, rfl⟩

/-- Any other event goes on, with what it sets in place of what was known. -/
theorem consume_of_not_stops (h : stops parse event = false) (state : StreamState) :
    ∃ progress after, consume parse event state = (progress, .ok after) ∧
      after.conversationId = (idOf parse event).or state.conversationId ∧
      after.message = (messageOf parse event).or state.message := by
  unfold consume
  by_cases hknown : event.name ∈ knownEvents
  · rw [if_neg (not_not.mpr hknown)]
    have hcontains : knownEvents.contains event.name = true := List.contains_iff_mem.mpr hknown
    rw [stops, hcontains, Bool.true_and, Bool.or_eq_false_iff] at h
    obtain ⟨hsome, herror⟩ := h
    cases hdata : parse event.data with
    | none => simp [hdata] at hsome
    | some data =>
      simp only [idOf, messageOf, hdata]
      -- Only two of the events set what the turn needs to know.
      by_cases hid : event.name = "conversation_id_set"
      · have hmessage : event.name ≠ "message_complete" := by rw [hid]; decide
        simp only [if_pos hid, if_neg hmessage]
        exact ⟨_, _, rfl, rfl, rfl⟩
      by_cases hmessage : event.name = "message_complete"
      · simp only [hmessage]
        exact ⟨_, _, rfl, rfl, rfl⟩
      · simp only [if_neg hid, if_neg hmessage, Option.none_or]
        split_ifs with hreasoning hcall hprogress hresult hround
        case neg =>
          have hend : event.name = "error" := by
            simpa [knownEvents, hid, hmessage, hreasoning, hcall, hprogress, hresult, hround]
              using hknown
          simp [hend] at herror
        all_goals exact ⟨_, _, rfl, rfl, rfl⟩
  · rw [if_pos hknown]
    have hnames : event.name ≠ "conversation_id_set" ∧ event.name ≠ "message_complete" := by
      constructor <;> rintro hname <;> exact hknown (hname ▸ by decide)
    refine ⟨_, _, rfl, ?_, ?_⟩
    · rw [idOf, if_neg hnames.1, Option.none_or]
    · rw [messageOf, if_neg hnames.2, Option.none_or]

/-- What a run of events without an end leaves of the id and the message. -/
theorem consumeAll_of_not_stops (h : ∀ event ∈ events, stops parse event = false)
    (state : StreamState) :
    ∃ progress after, consumeAll parse events state = (progress, .ok after) ∧
      (after.conversationId.isSome ↔
        state.conversationId.isSome ∨ ∃ event ∈ events, (idOf parse event).isSome) ∧
      (after.message.isSome ↔
        state.message.isSome ∨ ∃ event ∈ events, (messageOf parse event).isSome) := by
  induction events generalizing state with
  | nil => exact ⟨[], state, rfl, by simp, by simp⟩
  | cons event events ih =>
    obtain ⟨progress, next, hnext, hid, hmessage⟩ :=
      consume_of_not_stops (h event List.mem_cons_self) state
    obtain ⟨later, after, hafter, hids, hmessages⟩ :=
      ih (fun other hother => h other (List.mem_cons_of_mem _ hother)) next
    refine ⟨progress ++ later, after, ?_, ?_, ?_⟩
    · rw [consumeAll, hnext]
      simp only [hafter]
    · rw [hids, hid, Option.isSome_or, Bool.or_eq_true]
      simp only [List.mem_cons, exists_eq_or_imp]
      rw [or_assoc, or_left_comm]
    · rw [hmessages, hmessage, Option.isSome_or, Bool.or_eq_true]
      simp only [List.mem_cons, exists_eq_or_imp]
      rw [or_assoc, or_left_comm]

theorem consumeAll_append {later : List SseEvent} {state next : StreamState}
    {progress : List AgentProgress} (h : consumeAll parse events state = (progress, .ok next)) :
    consumeAll parse (events ++ later) state =
      (progress ++ (consumeAll parse later next).1, (consumeAll parse later next).2) := by
  induction events generalizing state progress with
  | nil =>
    obtain ⟨rfl, hnext⟩ := Prod.mk.inj h
    obtain rfl := Except.ok.inj hnext
    rfl
  | cons event events ih =>
    rw [consumeAll] at h
    rw [List.cons_append, consumeAll]
    cases hfirst : (consume parse event state).2 with
    | error failure =>
      simp [hfirst] at h
    | ok after =>
      simp only [hfirst] at h
      obtain ⟨rfl, hafter⟩ := Prod.mk.inj h
      simp only [ih (Prod.ext rfl hafter), List.append_assoc]

theorem consumeAll_error_append {later : List SseEvent} {state : StreamState}
    {progress : List AgentProgress} {failure : AgentFailure}
    (h : consumeAll parse events state = (progress, .error failure)) :
    consumeAll parse (events ++ later) state = (progress, .error failure) := by
  induction events generalizing state progress with
  | nil => simp [consumeAll] at h
  | cons event events ih =>
    rw [consumeAll] at h
    rw [List.cons_append, consumeAll]
    cases hfirst : (consume parse event state).2 with
    | error first =>
      simpa only [hfirst] using h
    | ok after =>
      simp only [hfirst] at h ⊢
      obtain ⟨rfl, hafter⟩ := Prod.mk.inj h
      simp only [ih (Prod.ext rfl hafter)]

end Events

section Streams

variable {Url : Type} {lib : Library Url} {location : AgentBuilderLocation Url}
  {parse : String → Option Value}

/-- The events that a stream yields when none of them ends the turn. -/
def receivedEvents (broken : Bool) (decoder : SseDecoder) : List (List UInt8) → List SseEvent
  | [] => if broken then [] else decoder.finish.1
  | chunk :: chunks =>
    let pushed := decoder.push chunk
    pushed.1 ++ receivedEvents broken pushed.2 chunks

/-- A stream that does not break off yields all its events. -/
theorem receivedEvents_eq_decode (decoder : SseDecoder) (chunks : List (List UInt8)) :
    receivedEvents false decoder chunks = decoder.decode chunks := by
  induction chunks generalizing decoder with
  | nil => rfl
  | cons chunk chunks ih => rw [receivedEvents, SseDecoder.decode, ih]

/-- Consuming the events of each chunk as it comes is consuming them all in a row. -/
theorem readStream_eq (broken : Bool) (decoder : SseDecoder) (state : StreamState)
    (chunks : List (List UInt8)) :
    readStream lib location parse broken decoder state chunks =
      let consumed := consumeAll parse (receivedEvents broken decoder chunks) state
      (consumed.1, match consumed.2 with
        | .error failure => .error failure
        | .ok after => if broken then .error (interrupted lib location after) else .ok after) := by
  induction chunks generalizing decoder state with
  | nil =>
    cases broken with
    | true => rfl
    | false =>
      rw [readStream, receivedEvents]
      simp only [Bool.false_eq_true, if_false]
      refine Prod.ext rfl ?_
      cases hconsumed : (consumeAll parse decoder.finish.1 state).2 with
      | error failure => rfl
      | ok after => rfl
  | cons chunk chunks ih =>
    rw [readStream, receivedEvents]
    cases hconsumed : (consumeAll parse (decoder.push chunk).1 state).2 with
    | error failure =>
      simp only [consumeAll_error_append (Prod.ext rfl hconsumed)]
    | ok next =>
      simp only [consumeAll_append (Prod.ext rfl hconsumed), ih]

/-- The events before the one that ends the turn. -/
def consumedEvents (parse : String → Option Value) (events : List SseEvent) : List SseEvent :=
  events.takeWhile fun event => !stops parse event

/-- A conversation id comes with the request or with an event. -/
def IdKnown (parse : String → Option Value) (request : AgentRequest)
    (events : List SseEvent) : Prop :=
  request.conversationId.isSome ∨ ∃ event ∈ events, (idOf parse event).isSome

/-- What a turn promises to a caller that may try again, and to one that waits. -/
structure TurnSafe (parse : String → Option Value) (request : AgentRequest)
    (events : List SseEvent) (broken : Bool) (result : Except AgentFailure AgentCompletion) :
    Prop where
  notRetried : ∀ failure, result = .error failure →
    IdKnown parse request (consumedEvents parse events) → failure.retrySafe = false
  completed_iff : (∃ completion, result = .ok completion) ↔
    (∀ event ∈ events, stops parse event = false) ∧ broken = false ∧
      (∃ event ∈ events, (messageOf parse event).isSome) ∧ IdKnown parse request events

/-- No event ends the turn once a conversation id is known. -/
def EndsUnknown (parse : String → Option Value) (request : AgentRequest)
    (events : List SseEvent) : Prop :=
  (∃ event ∈ events, stops parse event = true) →
    ¬IdKnown parse request (consumedEvents parse events)

/-- A status that is a success. -/
abbrev SuccessStatus := { status : ℕ // isSuccess status = true }

/-- A turn after a successful status, from the events of its stream. -/
theorem ask_received (status : SuccessStatus) (request : AgentRequest)
    (chunks : List (List UInt8)) (broken : Bool) :
    (ask lib location parse (fun _ _ => .received status.1 chunks broken) request).2 =
      match (consumeAll parse (receivedEvents broken .empty chunks)
        ⟨request.conversationId, none, none⟩).2 with
      | .error failure => .error failure
      | .ok state =>
        if broken then .error (interrupted lib location state)
        else
          match state.message, state.conversationId with
          | some message, some conversationId => .ok {
              conversationId
              message := resolveRelativeLinks lib location message
              kibanaUrl := lib.display (location.conversationUrl lib conversationId)
              usage := state.usage }
          | _, _ => .error (interrupted lib location state) := by
  unfold ask
  simp only [status.2, Bool.not_true, Bool.false_eq_true, if_false, readStream_eq]
  cases (consumeAll parse (receivedEvents broken .empty chunks)
    ⟨request.conversationId, none, none⟩).2 with
  | error failure => rfl
  | ok state =>
    cases broken with
    | true => rfl
    | false =>
      simp only [Bool.false_eq_true, if_false]
      split <;> rfl

variable {events : List SseEvent}

/-- The first event that ends a turn fails it, whatever is known by then. -/
theorem consumeAll_of_stops (h : ∃ event ∈ events, stops parse event = true)
    (state : StreamState) :
    ∃ failure, (consumeAll parse events state).2 = .error failure ∧ failure.retrySafe = true := by
  obtain ⟨event, hevent⟩ := Option.isSome_iff_exists.mp (List.find?_isSome.mpr h)
  obtain ⟨hstops, before, after, rfl, hbefore⟩ := List.find?_eq_some_iff_append.mp hevent
  obtain ⟨progress, next, hnext, -, -⟩ := consumeAll_of_not_stops
    (fun other hother => by simpa using hbefore other hother) state
  obtain ⟨last, failure, hfailure, hsafe⟩ := consume_of_stops hstops next
  refine ⟨failure, ?_, hsafe⟩
  rw [consumeAll_append hnext, consumeAll, hfailure]

theorem retrySafe_interrupted (state : StreamState) :
    (interrupted lib location state).retrySafe = state.conversationId.isNone := by
  unfold interrupted
  cases state.conversationId with
  | none => rfl
  | some id => rfl

theorem endsUnknown_of_turnSafe {status : SuccessStatus} {request : AgentRequest}
    {chunks : List (List UInt8)} {broken : Bool}
    (hturn : TurnSafe parse request (receivedEvents broken .empty chunks) broken
      (ask lib location parse (fun _ _ => .received status.1 chunks broken) request).2) :
    EndsUnknown parse request (receivedEvents broken .empty chunks) := by
  intro hstops hknown
  obtain ⟨failure, hfailure, hsafe⟩ := consumeAll_of_stops hstops
    ⟨request.conversationId, none, none⟩
  have hunsafe := hturn.notRetried failure (by rw [ask_received, hfailure]) hknown
  rw [hsafe] at hunsafe
  cases hunsafe

/-- A turn is safe exactly when no event ends it once a conversation id is known. -/
theorem turn_safe_iff (status : SuccessStatus) (request : AgentRequest)
    (chunks : List (List UInt8)) (broken : Bool) :
    TurnSafe parse request (receivedEvents broken .empty chunks) broken
        (ask lib location parse (fun _ _ => .received status.1 chunks broken) request).2 ↔
      EndsUnknown parse request (receivedEvents broken .empty chunks) := by
  refine ⟨endsUnknown_of_turnSafe, ?_⟩
  rw [ask_received]
  generalize receivedEvents broken .empty chunks = events
  intro hends
  by_cases hstops : ∃ event ∈ events, stops parse event = true
  · obtain ⟨failure, hfailure, -⟩ := consumeAll_of_stops hstops
      ⟨request.conversationId, none, none⟩
    rw [hfailure]
    constructor
    · exact fun _ _ hknown => absurd hknown (hends hstops)
    · constructor
      · rintro ⟨completion, hcompletion⟩
        cases hcompletion
      · rintro ⟨hnone, -⟩
        obtain ⟨event, hmem, hevent⟩ := hstops
        rw [hnone event hmem] at hevent
        cases hevent
  · have hnone : ∀ event ∈ events, stops parse event = false := by simpa using hstops
    have hconsumed : consumedEvents parse events = events :=
      List.takeWhile_eq_self_iff.mpr fun event hmem => by rw [hnone event hmem]; rfl
    obtain ⟨progress, state, hstate, hid, hmessage⟩ := consumeAll_of_not_stops hnone
      ⟨request.conversationId, none, none⟩
    rw [hstate]
    have hknown : IdKnown parse request events ↔ state.conversationId.isSome := hid.symm
    have hcompleted : (∃ event ∈ events, (messageOf parse event).isSome) ↔
        state.message.isSome := by
      simpa using hmessage.symm
    constructor
    · intro failure hfailure hids
      rw [hconsumed, hknown] at hids
      have hinterrupted : failure = interrupted lib location state := by
        cases broken with
        | true => exact (Except.error.inj hfailure).symm
        | false =>
          simp only [Bool.false_eq_true, if_false] at hfailure
          split at hfailure
          · cases hfailure
          · exact (Except.error.inj hfailure).symm
      rw [hinterrupted, retrySafe_interrupted]
      simpa using hids
    · rw [hcompleted, hknown]
      cases broken with
      | true => simp
      | false =>
        simp only [Bool.false_eq_true, if_false]
        cases hm : state.message with
        | none => simp
        | some message =>
          cases hi : state.conversationId with
          | none => simp
          | some id => simpa using hnone

/-- An error event, and a reader of its data. -/
def errorStream : String := "event: error\ndata: {}\n\n"

def readEmptyObject (text : String) : Option Value :=
  if text = "{}" then some (.object []) else none

def continuedTurn : AgentRequest := ⟨"agent", "prompt", some "conv-1"⟩

/-- The turn fails as one that may be repeated. -/
theorem errorStream_not_safe :
    ¬TurnSafe readEmptyObject continuedTurn
      (receivedEvents false .empty [errorStream.toUTF8.toList]) false
      (ask plainLibrary (.new plainLibrary rootViewer none) readEmptyObject
        (fun _ _ => .received 200 [errorStream.toUTF8.toList] false) continuedTurn).2 := by
  intro hturn
  have hends := @endsUnknown_of_turnSafe _ _ _ _ ⟨200, rfl⟩ _ _ _ hturn
  have hevents : receivedEvents false .empty [errorStream.toUTF8.toList] =
      [⟨"error", "{}"⟩] := by
    rw [receivedEvents_eq_decode, ← eventsOf, eventsOf_eq, List.flatten_singleton, blocksOf,
      linesOf_toUTF8]
    decide +kernel
  rw [hevents] at hends
  exact hends ⟨_, List.mem_singleton_self _, by decide⟩ (Or.inl rfl)

end Streams

end Esdiag.AgentTurns
