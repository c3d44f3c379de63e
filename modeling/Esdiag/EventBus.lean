import Esdiag.BroadcastChannels
import Esdiag.JobSlots
import Esdiag.Texts

/-!
The event bus of the server. Every event goes to all open streams of `/events`, and
each stream lets through what its user may see: its own events and those for
everyone. The statistics are the only events for everyone. A stream opens with the
statistics as they are, which are read before it subscribes; later ones come from one
task that is woken when they have changed and reads them again before it sends them.
-/
namespace Esdiag.EventBus

open GuardedRuns BroadcastChannels
open JobSlots (Stats)

abbrev Owner := String

def defaultOwner : Owner := "Anonymous"

section Events

inductive ServerEvent where
  | signals (owner : Owner) (payload : String) (broadcast : Bool)
  | template (owner : Owner) (html : String)
  | jobFeed (owner : Owner) (html : String)
  | replaceSelector (owner : Owner) (selector html : String)
  | appendBody (owner : Owner) (html : String)
  | prependSelector (owner : Owner) (selector html : String)
  | executeScript (owner : Owner) (script : String)
  deriving DecidableEq

namespace ServerEvent

def owner : ServerEvent → Owner
  | signals owner _ _ | template owner _ | jobFeed owner _ | replaceSelector owner _ _
  | appendBody owner _ | prependSelector owner _ _ | executeScript owner _ => owner

def isBroadcast : ServerEvent → Bool
  | signals _ _ broadcast => broadcast
  | _ => false

def forOwner (owner : Owner) : ServerEvent → ServerEvent
  | signals _ payload broadcast => .signals owner payload broadcast
  | template _ html => .template owner html
  | jobFeed _ html => .jobFeed owner html
  | replaceSelector _ selector html => .replaceSelector owner selector html
  | appendBody _ html => .appendBody owner html
  | prependSelector _ selector html => .prependSelector owner selector html
  | executeScript _ script => .executeScript owner script

theorem isBroadcast_forOwner (owner : Owner) (event : ServerEvent) :
    (event.forOwner owner).isBroadcast = event.isBroadcast := by
  cases event <;> rfl

end ServerEvent

def eventVisibleToUser (event : ServerEvent) (user : String) : Bool :=
  event.owner = user || event.isBroadcast

/-- An event that is not for everyone, which is what the handlers publish. -/
abbrev TargetedEvent := { event : ServerEvent // event.isBroadcast = false }

def signalEvent (signals : String) : TargetedEvent := ⟨.signals defaultOwner signals false, rfl⟩

def templateEvent (rendered : String) : TargetedEvent := ⟨.template defaultOwner rendered, rfl⟩

def jobFeedEvent (rendered : String) : TargetedEvent := ⟨.jobFeed defaultOwner rendered, rfl⟩

def replaceJobEvent (jobId : ℕ) (rendered : String) : TargetedEvent :=
  ⟨.replaceSelector defaultOwner ("#job-" ++ toString jobId) rendered, rfl⟩

def htmlEvent (html : String) : TargetedEvent := ⟨.template defaultOwner html, rfl⟩

def appendBodyEvent (html : String) : TargetedEvent := ⟨.appendBody defaultOwner html, rfl⟩

def prependSelectorEvent (selector html : String) : TargetedEvent :=
  ⟨.prependSelector defaultOwner selector html, rfl⟩

def executeScriptEvent (script : String) : TargetedEvent :=
  ⟨.executeScript defaultOwner script, rfl⟩

def TargetedEvent.forOwner (owner : Owner) (event : TargetedEvent) : TargetedEvent :=
  ⟨event.val.forOwner owner, (event.val.isBroadcast_forOwner owner).trans event.property⟩

def targetedSignalEvent (user signals : String) : TargetedEvent :=
  (signalEvent signals).forOwner user

def renderStats (stats : Stats) : String :=
  "\x7b\"docs\":\x7b\"total\":" ++ toString stats.docs.total ++
    ",\"errors\":" ++ toString stats.docs.errors ++
    "\x7d,\"jobs\":\x7b\"total\":" ++ toString stats.jobs.total ++
    ",\"success\":" ++ toString stats.jobs.success ++
    ",\"failed\":" ++ toString stats.jobs.failed ++
    ",\"active\":" ++ toString stats.jobs.active ++ "\x7d\x7d"

def statsEvent (stats : Stats) : ServerEvent :=
  .signals defaultOwner ("\x7b\"stats\":" ++ renderStats stats ++ "\x7d") true

end Events

section Identities

inductive AuthProvider where
  | googleIap
  | none
  deriving DecidableEq

def AuthProvider.requiresIdentity : AuthProvider → Bool
  | googleIap => true
  | none => false

/-- A provider that needs an identity comes with the header to read it from. -/
structure ServerPolicy where
  authProvider : AuthProvider
  identityHeader : Option String
  hasHeader : authProvider.requiresIdentity = true → identityHeader.isSome = true

def ServerPolicy.requiresAuthentication (policy : ServerPolicy) : Bool :=
  policy.authProvider.requiresIdentity

/-- The value of a header, which need not be text. -/
inductive HeaderValue where
  | text (raw : String)
  | bytes

structure ResolvedIdentity where
  locked : Bool
  user : String
  account : Option String

/-- What the handler of `/events` is given: the headers, and the identity that environment and
configuration name where no provider is asked. -/
structure EventsRequest where
  header : String → Option HeaderValue
  optionalIdentity : Except String ResolvedIdentity

def parseIapIdentity (raw : String) : Option String × String :=
  let trimmed := Texts.trim raw
  match Texts.rsplitOnce ':' trimmed with
  | some (account, user) =>
    ((some (Texts.trim account)).filter fun value => value ≠ "", Texts.trim user)
  | none => (none, trimmed)

def resolveIapIdentity (header : String) (request : EventsRequest) :
    Except String ResolvedIdentity :=
  match request.header header with
  | none => .error ("Missing required header: " ++ header)
  | some .bytes => .error ("Invalid " ++ header ++ " header")
  | some (.text raw) =>
    let identity := parseIapIdentity raw
    if identity.2 = "" then .error (header ++ " header is empty")
    else .ok ⟨true, identity.2, identity.1⟩

def resolveIdentity (policy : ServerPolicy) (request : EventsRequest) :
    Except String ResolvedIdentity :=
  if h : policy.authProvider.requiresIdentity = true then
    resolveIapIdentity (policy.identityHeader.get (policy.hasHeader h)) request
  else request.optionalIdentity

/-- The user whose events a stream is limited to; nobody's without a provider. -/
def requestUser (policy : ServerPolicy) (request : EventsRequest) :
    Except String (Option String) :=
  if policy.requiresAuthentication then
    (resolveIdentity policy request).map fun identity => some identity.user
  else .ok none

end Identities

section Streams

/-- A stream is asked for its next event, waits for one, or is over. -/
inductive StreamPhase where
  | idle
  | receiving
  | ended
  deriving DecidableEq

/-- A stream as it is between two steps, with the statistics it opens with and the number of
events sent when they were read. -/
structure EventStream where
  receiver : Receiver ServerEvent
  initial : Option ServerEvent
  user : Option String
  phase : StreamPhase
  delivered : List ServerEvent
  snapshot : Stats
  asked : ℕ

namespace EventStream

/-- A `user` of `none` lets every event through. -/
def letsThrough (stream : EventStream) (event : ServerEvent) : Bool :=
  stream.user.all (eventVisibleToUser event)

/-- The stream is asked for an event. -/
def next (shutdown : Bool) (stream : EventStream) : EventStream :=
  if shutdown then { stream with phase := .ended }
  else
    match stream.initial with
    | some event => { stream with initial := none, delivered := stream.delivered ++ [event] }
    | none => { stream with phase := .receiving }

def eventCapacity : ℕ := 256

/-- One turn of the loop that waits for an event. -/
def receive (sent : List ServerEvent) (stream : EventStream) : EventStream :=
  let found := stream.receiver.recv eventCapacity sent
  match found.1 with
  | .value event =>
    if stream.letsThrough event then
      { stream with
        receiver := found.2
        phase := .idle
        delivered := stream.delivered ++ [event] }
    else { stream with receiver := found.2 }
  | .lagged _ | .empty => { stream with receiver := found.2 }

def advance (shutdown : Bool) (sent : List ServerEvent) (stream : EventStream) : EventStream :=
  match stream.phase with
  | .idle => stream.next shutdown
  | .receiving => stream.receive sent
  | .ended => stream

/-- A stream that waits learns of the shutdown. -/
def stop (shutdown : Bool) (stream : EventStream) : EventStream :=
  if shutdown = true ∧ stream.phase = .receiving then { stream with phase := .ended } else stream

def subscribe (sent : List ServerEvent) (user : Option String) (snapshot : Stats) (asked : ℕ) :
    EventStream where
  receiver := .subscribe sent
  initial := some (statsEvent snapshot)
  user := user
  phase := .idle
  delivered := []
  snapshot := snapshot
  asked := asked

end EventStream

end Streams

section Server

/-- A request to `/events` up to its next suspension. -/
inductive Stage where
  | arrived
  | denied (error : String)
  | identified (user : Option String)
  | counted (user : Option String) (snapshot : Stats) (asked : ℕ)
  | streaming (stream : EventStream)

structure Client where
  request : EventsRequest
  stage : Stage

inductive Publisher where
  | waiting
  | woken
  | stopped
  deriving DecidableEq

/-- The statistics with the writers that have still to report their change, the version of the
watch that they report to and the one the publisher has seen. -/
structure ServerState where
  stats : Stats
  writers : ℕ
  statsUpdates : ℕ
  seenUpdates : ℕ
  publisher : Publisher
  shutdown : Bool
  sent : List ServerEvent
  clients : List Client

inductive Action where
  | changeStats (change : Stats → Stats)
  | notifyStatsChanged
  | publisherWakes
  | publisherSends
  | publisherStops
  | publish (event : TargetedEvent)
  | connect (request : EventsRequest)
  | resume (client : ℕ)
  | stop (client : ℕ)
  | shutDown

namespace ServerState

def start : ServerState :=
  ⟨⟨⟨0, 0⟩, ⟨0, 0, 0, 0⟩⟩, 0, 0, 0, .waiting, false, [], []⟩

def send (s : ServerState) (event : ServerEvent) : ServerState :=
  { s with sent := s.sent ++ [event] }

/-- The next step of a request or of the stream it has become. -/
def advance (policy : ServerPolicy) (s : ServerState) (client : Client) : Client :=
  match client.stage with
  | .arrived =>
    match requestUser policy client.request with
    | .error error => { client with stage := .denied error }
    | .ok user => { client with stage := .identified user }
  | .denied _ => client
  | .identified user => { client with stage := .counted user s.stats s.sent.length }
  | .counted user snapshot asked =>
    { client with stage := .streaming (.subscribe s.sent user snapshot asked) }
  | .streaming stream => { client with stage := .streaming (stream.advance s.shutdown s.sent) }

def stopStream (s : ServerState) (client : Client) : Client :=
  match client.stage with
  | .streaming stream => { client with stage := .streaming (stream.stop s.shutdown) }
  | _ => client

def updateClient (s : ServerState) (i : ℕ) (change : Client → Client) : ServerState :=
  { s with clients := s.clients.modify i change }

end ServerState

/-- The publisher sends the statistics under the lock it reads them with. -/
def step (policy : ServerPolicy) (s : ServerState) : Action → ServerState
  | .changeStats change => { s with stats := change s.stats, writers := s.writers + 1 }
  | .notifyStatsChanged =>
    if 0 < s.writers then
      { s with writers := s.writers - 1, statsUpdates := s.statsUpdates + 1 }
    else s
  | .publisherWakes =>
    if s.publisher = .waiting ∧ s.seenUpdates ≠ s.statsUpdates then
      { s with publisher := .woken, seenUpdates := s.statsUpdates }
    else s
  | .publisherSends =>
    if s.publisher = .woken then
      { s.send (statsEvent s.stats) with publisher := .waiting }
    else s
  | .publisherStops =>
    if s.publisher = .waiting ∧ s.shutdown = true then { s with publisher := .stopped } else s
  | .publish event => s.send event
  | .connect request => { s with clients := s.clients ++ [⟨request, .arrived⟩] }
  | .resume i => s.updateClient i (s.advance policy)
  | .stop i => s.updateClient i s.stopStream
  | .shutDown => { s with shutdown := true }

end Server

section LastBroadcast

/-- The last event for everyone, on top of one that came before. -/
def lastBroadcast (opening : ServerEvent) (events : List ServerEvent) : ServerEvent :=
  ((events.filter ServerEvent.isBroadcast).getLast?).getD opening

variable {opening event : ServerEvent} {events : List ServerEvent}

theorem lastBroadcast_targeted (h : event.isBroadcast = false) :
    lastBroadcast opening (events ++ [event]) = lastBroadcast opening events := by
  unfold lastBroadcast
  rw [List.filter_append, List.filter_singleton, h]
  simp

theorem lastBroadcast_broadcast (h : event.isBroadcast = true) :
    lastBroadcast opening (events ++ [event]) = event := by
  unfold lastBroadcast
  rw [List.filter_append, List.filter_singleton, h]
  simp

theorem lastBroadcast_of_forall (h : ∀ event ∈ events, event.isBroadcast = false) :
    lastBroadcast opening events = opening := by
  unfold lastBroadcast
  rw [List.filter_eq_nil_iff.mpr fun event hevent => by rw [h event hevent]; simp]
  rfl

/-- Where there is one for everyone behind, what came before does not count. -/
theorem lastBroadcast_append {rest : List ServerEvent}
    (h : ∃ event ∈ rest, event.isBroadcast = true) :
    lastBroadcast opening (events ++ rest) = lastBroadcast opening rest := by
  obtain ⟨found, hmem, hfound⟩ := h
  have hne : rest.filter ServerEvent.isBroadcast ≠ [] :=
    List.ne_nil_of_mem (List.mem_filter.mpr ⟨hmem, hfound⟩)
  unfold lastBroadcast
  rw [List.filter_append, List.getLast?_append, List.getLast?_eq_some_getLast hne]
  rfl

/-- A stream lets every event for everyone through. -/
theorem filter_letsThrough (stream : EventStream) (events : List ServerEvent) :
    (events.filter stream.letsThrough).filter ServerEvent.isBroadcast =
      events.filter ServerEvent.isBroadcast := by
  rw [List.filter_filter]
  refine List.filter_congr fun event _ => ?_
  unfold EventStream.letsThrough eventVisibleToUser
  cases stream.user <;> cases event.isBroadcast <;> simp

end LastBroadcast

section Invariants

variable {policy : ServerPolicy} {s t : ServerState}

namespace ServerState

/-- A change of the statistics is still on its way to the streams. -/
def Pending (s : ServerState) : Prop :=
  0 < s.writers ∨ s.seenUpdates < s.statsUpdates ∨ s.publisher = .woken

/-- Whoever has read the statistics and then gets all that is sent knows them as they are, or
will. -/
def Current (s : ServerState) (snapshot : Stats) (asked : ℕ) : Prop :=
  lastBroadcast (statsEvent snapshot) (s.sent.drop asked) = statsEvent s.stats ∨ s.Pending

/-- What a step may do to the bus. -/
structure Later (s t : ServerState) : Prop where
  seen : s.seenUpdates ≤ s.statsUpdates → t.seenUpdates ≤ t.statsUpdates
  sent : ∃ later, t.sent = s.sent ++ later
  current : ∀ snapshot asked, asked ≤ s.sent.length → s.Current snapshot asked →
    t.Current snapshot asked

theorem current_start (s : ServerState) : s.Current s.stats s.sent.length :=
  .inl (by rw [List.drop_length]; rfl)

/-- A step that sends nothing and leaves the statistics. -/
theorem Later.of_pending (hseen : s.seenUpdates ≤ s.statsUpdates → t.seenUpdates ≤ t.statsUpdates)
    (hsent : t.sent = s.sent) (hstats : t.stats = s.stats) (hpending : s.Pending → t.Pending) :
    s.Later t where
  seen := hseen
  sent := ⟨[], by rw [hsent, List.append_nil]⟩
  current snapshot asked _ h := by
    unfold Current
    rw [hsent, hstats]
    exact h.imp id hpending

theorem later_refl (s : ServerState) : s.Later s := .of_pending id rfl rfl id

theorem later_send {event : ServerEvent}
    (hseen : s.seenUpdates ≤ s.statsUpdates → t.seenUpdates ≤ t.statsUpdates)
    (hstats : t.stats = s.stats)
    (hsent : t.sent = s.sent ++ [event])
    (hcurrent : ∀ events opening, lastBroadcast opening events = statsEvent s.stats ∨ s.Pending →
      lastBroadcast opening (events ++ [event]) = statsEvent s.stats ∨ t.Pending) : s.Later t where
  seen := hseen
  sent := ⟨[event], hsent⟩
  current snapshot asked hasked h := by
    unfold Current
    rw [hsent, hstats, List.drop_append_of_le_length hasked]
    exact hcurrent _ _ h

end ServerState

open ServerState

/-- A stream has not opened yet, or has let through what it read since it opened. -/
def EventStream.Opened (stream : EventStream) : Prop :=
  match stream.initial with
  | some event =>
    event = statsEvent stream.snapshot ∧ stream.delivered = [] ∧ stream.receiver.read = [] ∧
      stream.phase ≠ .receiving
  | none =>
    stream.delivered =
      statsEvent stream.snapshot :: stream.receiver.read.filter stream.letsThrough

structure EventStream.Sound (s : ServerState) (stream : EventStream) : Prop where
  follows : stream.receiver.Follows s.sent
  asked_le : stream.asked ≤ stream.receiver.since
  current : s.Current stream.snapshot stream.asked
  opened : stream.Opened

/-- What is true of a client by its stage. -/
def Client.Sound (policy : ServerPolicy) (s : ServerState) (client : Client) : Prop :=
  match client.stage with
  | .arrived => True
  | .denied error => requestUser policy client.request = .error error
  | .identified user => requestUser policy client.request = .ok user
  | .counted user snapshot asked =>
    requestUser policy client.request = .ok user ∧ asked ≤ s.sent.length ∧
      s.Current snapshot asked
  | .streaming stream => requestUser policy client.request = .ok stream.user ∧ stream.Sound s

structure Sound (policy : ServerPolicy) (s : ServerState) : Prop where
  seen : s.seenUpdates ≤ s.statsUpdates
  clients : ∀ client ∈ s.clients, client.Sound policy s

theorem EventStream.Sound.later {stream : EventStream} (h : stream.Sound s) (hlater : s.Later t) :
    stream.Sound t where
  follows := by
    obtain ⟨later, hsent⟩ := hlater.sent
    rw [hsent]
    exact h.follows.append later
  asked_le := h.asked_le
  current := hlater.current _ _
    (h.asked_le.trans (h.follows.since_le.trans h.follows.position_le)) h.current
  opened := h.opened

theorem Client.Sound.later {client : Client} (h : client.Sound policy s) (hlater : s.Later t) :
    client.Sound policy t := by
  unfold Client.Sound at h ⊢
  cases hstage : client.stage with
  | arrived => trivial
  | denied error =>
    rw [hstage] at h
    exact h
  | identified user =>
    rw [hstage] at h
    exact h
  | counted user snapshot asked =>
    rw [hstage] at h
    obtain ⟨later, hsent⟩ := hlater.sent
    refine ⟨h.1, ?_, hlater.current _ _ h.2.1 h.2.2⟩
    rw [hsent, List.length_append]
    exact h.2.1.trans (Nat.le_add_right _ _)
  | streaming stream =>
    rw [hstage] at h
    exact ⟨h.1, h.2.later hlater⟩

theorem later_step (hseen : s.seenUpdates ≤ s.statsUpdates) (action : Action) :
    s.Later (step policy s action) := by
  cases action with
  | changeStats change =>
    exact ⟨id, ⟨[], (List.append_nil _).symm⟩, fun _ _ _ _ => .inr (.inl (Nat.succ_pos _))⟩
  | notifyStatsChanged =>
    simp only [step]
    split
    · refine .of_pending (fun _ => hseen.trans (Nat.le_succ _)) rfl rfl fun _ => .inr (.inl ?_)
      exact Nat.lt_succ_of_le hseen
    · exact later_refl s
  | publisherWakes =>
    simp only [step]
    split
    · exact .of_pending (fun _ => le_rfl) rfl rfl fun _ => .inr (.inr rfl)
    · exact later_refl s
  | publisherSends =>
    simp only [step]
    split
    · exact later_send id rfl rfl fun _ _ _ => .inl (lastBroadcast_broadcast rfl)
    · exact later_refl s
  | publisherStops =>
    simp only [step]
    split
    · next h =>
      refine .of_pending id rfl rfl fun hpending => ?_
      rcases hpending with hwriters | hunseen | hwoken
      · exact .inl hwriters
      · exact .inr (.inl hunseen)
      · rw [h.1] at hwoken
        cases hwoken
    · exact later_refl s
  | publish event =>
    refine later_send id rfl rfl fun events opening h => ?_
    rw [lastBroadcast_targeted event.property]
    exact h
  | connect request => exact .of_pending id rfl rfl id
  | resume i => exact .of_pending id rfl rfl id
  | stop i => exact .of_pending id rfl rfl id
  | shutDown => exact .of_pending id rfl rfl id

/-- A stream that does not get an event goes on as it was, or ends. -/
theorem EventStream.Sound.withPhase {stream : EventStream} (h : stream.Sound s)
    {phase : StreamPhase} (hphase : phase = .receiving → stream.initial = none) :
    { stream with phase := phase }.Sound s := by
  refine { h with opened := ?_ }
  have hopened := h.opened
  unfold EventStream.Opened at hopened ⊢
  cases hinitial : stream.initial with
  | some event =>
    rw [hinitial] at hopened
    refine ⟨hopened.1, hopened.2.1, hopened.2.2.1, fun hreceiving => ?_⟩
    rw [hphase hreceiving] at hinitial
    cases hinitial
  | none =>
    rw [hinitial] at hopened
    exact hopened

theorem EventStream.Sound.next {stream : EventStream} (h : stream.Sound s) :
    (stream.next s.shutdown).Sound s := by
  unfold EventStream.next
  split
  · exact h.withPhase nofun
  · split
    · next event hinitial =>
      have hopened := h.opened
      unfold EventStream.Opened at hopened
      rw [hinitial] at hopened
      obtain ⟨rfl, hdelivered, hread, -⟩ := hopened
      refine { h with opened := ?_ }
      change stream.delivered ++ [statsEvent stream.snapshot] = _ :: _
      rw [hdelivered, hread]
      rfl
    · next hinitial => exact h.withPhase fun _ => hinitial

/-- What one turn of the loop changes. -/
structure EventStream.Received (sent : List ServerEvent) (stream after : EventStream) : Prop where
  receiver : after.receiver = (stream.receiver.recv eventCapacity sent).2
  delivered : after.delivered = stream.delivered ++
    (stream.receiver.recv eventCapacity sent).1.values.filter stream.letsThrough
  kept : after.initial = stream.initial ∧ after.user = stream.user ∧
    after.snapshot = stream.snapshot ∧ after.asked = stream.asked

theorem EventStream.received_receive (sent : List ServerEvent) (stream : EventStream) :
    stream.Received sent (stream.receive sent) := by
  unfold EventStream.receive
  simp only
  split
  · next event hfound =>
    split
    · next hthrough =>
      refine ⟨rfl, ?_, rfl, rfl, rfl, rfl⟩
      rw [hfound, Received.values, List.filter_singleton, hthrough]
      rfl
    · next hhidden =>
      refine ⟨rfl, ?_, rfl, rfl, rfl, rfl⟩
      rw [hfound, Received.values, List.filter_singleton, Bool.eq_false_iff.mpr hhidden]
      exact (List.append_nil _).symm
  · next hfound =>
    refine ⟨rfl, ?_, rfl, rfl, rfl, rfl⟩
    rw [hfound]
    exact (List.append_nil _).symm
  · next hfound =>
    refine ⟨rfl, ?_, rfl, rfl, rfl, rfl⟩
    rw [hfound]
    exact (List.append_nil _).symm

theorem EventStream.Sound.receive {stream : EventStream} (h : stream.Sound s)
    (hreceiving : stream.phase = .receiving) : (stream.receive s.sent).Sound s := by
  have hreceived := EventStream.received_receive s.sent stream
  obtain ⟨hinitial, huser, hsnapshot, hasked⟩ := hreceived.kept
  have hopened := h.opened
  unfold EventStream.Opened at hopened
  constructor
  · rw [hreceived.receiver]
    exact h.follows.recv _
  · rw [hasked, hreceived.receiver, Receiver.since_recv]
    exact h.asked_le
  · rw [hsnapshot, hasked]
    exact h.current
  · unfold EventStream.Opened
    rw [hinitial]
    cases hstart : stream.initial with
    | some event =>
      rw [hstart] at hopened
      exact absurd hreceiving hopened.2.2.2
    | none =>
      rw [hstart] at hopened
      have hletsThrough : (stream.receive s.sent).letsThrough = stream.letsThrough := by
        unfold EventStream.letsThrough
        rw [huser]
      simp only [hreceived.delivered, hreceived.receiver, hsnapshot, hletsThrough,
        Receiver.read_recv, List.filter_append, hopened, List.cons_append]

theorem EventStream.Sound.advance {stream : EventStream} (h : stream.Sound s) :
    (stream.advance s.shutdown s.sent).Sound s := by
  unfold EventStream.advance
  split
  · exact h.next
  · next hreceiving => exact h.receive hreceiving
  · exact h

theorem EventStream.Sound.stop {stream : EventStream} (h : stream.Sound s) :
    (stream.stop s.shutdown).Sound s := by
  unfold EventStream.stop
  split
  · exact h.withPhase nofun
  · exact h

theorem EventStream.user_advance (shutdown : Bool) (sent : List ServerEvent)
    (stream : EventStream) : (stream.advance shutdown sent).user = stream.user := by
  unfold EventStream.advance
  split
  · unfold EventStream.next
    split
    · rfl
    · split <;> rfl
  · exact (EventStream.received_receive sent stream).kept.2.1
  · rfl

theorem EventStream.user_stop (shutdown : Bool) (stream : EventStream) :
    (stream.stop shutdown).user = stream.user := by
  unfold EventStream.stop
  split <;> rfl

theorem Client.Sound.advance {client : Client} (h : client.Sound policy s) :
    (s.advance policy client).Sound policy s := by
  obtain ⟨request, stage⟩ := client
  cases stage with
  | arrived =>
    unfold ServerState.advance
    simp only
    split
    · next error herror => exact herror
    · next user huser => exact huser
  | denied error => exact h
  | identified user => exact ⟨h, le_rfl, current_start s⟩
  | counted user snapshot asked =>
    exact ⟨h.1, ⟨Receiver.follows_subscribe _, h.2.1, h.2.2, rfl, rfl, rfl, nofun⟩⟩
  | streaming stream =>
    refine ⟨?_, h.2.advance⟩
    rw [EventStream.user_advance]
    exact h.1

theorem Client.Sound.stopStream {client : Client} (h : client.Sound policy s) :
    (s.stopStream client).Sound policy s := by
  obtain ⟨request, stage⟩ := client
  cases stage with
  | streaming stream =>
    refine ⟨?_, h.2.stop⟩
    rw [EventStream.user_stop]
    exact h.1
  | _ => exact h

theorem Sound.of_same (h : Sound policy s) (hlater : s.Later t) (hclients : t.clients = s.clients) :
    Sound policy t where
  seen := hlater.seen h.seen
  clients client hclient := (h.clients client (hclients ▸ hclient)).later hlater

theorem Sound.updateClient (h : Sound policy s) (i : ℕ) {change : Client → Client}
    (hchange : ∀ client, client.Sound policy s → (change client).Sound policy s) :
    Sound policy (s.updateClient i change) where
  seen := h.seen
  clients client hclient := by
    obtain ⟨j, hj⟩ := List.mem_iff_getElem?.mp hclient
    rw [ServerState.updateClient, List.getElem?_modify] at hj
    obtain ⟨old, hold, rfl⟩ := Option.map_eq_some_iff.mp hj
    have hsound := h.clients old (List.mem_of_getElem? hold)
    have hlater : s.Later (s.updateClient i change) := .of_pending id rfl rfl id
    split
    · exact (hchange old hsound).later hlater
    · exact hsound.later hlater

theorem Sound.step (h : Sound policy s) (action : Action) :
    Sound policy (step policy s action) := by
  have hlater : s.Later (EventBus.step policy s action) := later_step h.seen action
  cases action with
  | connect request =>
    refine ⟨h.seen, fun client hclient => ?_⟩
    rcases List.mem_append.mp hclient with hold | hnew
    · exact (h.clients client hold).later hlater
    · obtain rfl := List.mem_singleton.mp hnew
      trivial
  | resume i => exact h.updateClient i fun _ hclient => hclient.advance
  | stop i => exact h.updateClient i fun _ hclient => hclient.stopStream
  | changeStats | publish | shutDown => exact h.of_same hlater rfl
  | notifyStatsChanged | publisherWakes | publisherSends | publisherStops =>
    refine h.of_same hlater ?_
    simp only [EventBus.step]
    split <;> rfl

theorem start_sound (policy : ServerPolicy) : Sound policy .start where
  seen := le_rfl
  clients _ hclient := nomatch hclient

/-- The server after a run. -/
def after (policy : ServerPolicy) (actions : List Action) : ServerState :=
  run (step policy) .start actions

theorem after_sound (policy : ServerPolicy) (actions : List Action) :
    Sound policy (after policy actions) :=
  run_of_forall (fun _ action h => h.step action) actions (start_sound policy)

/-- Whenever a stream waits and reads, it is behind by no more than the channel keeps. -/
def KeepsUp (i : ℕ) (s : ServerState) : Action → Prop
  | .resume j => j = i → ∀ client stream, s.clients[i]? = some client →
      client.stage = .streaming stream →
      s.sent.length ≤ stream.receiver.position + EventStream.eventCapacity
  | _ => True

/-- The stream of a client has missed nothing. -/
def MissedNothing (i : ℕ) (s : ServerState) : Prop :=
  ∀ client stream, s.clients[i]? = some client → client.stage = .streaming stream →
    stream.receiver.missed = 0

theorem missed_advance {shutdown : Bool} {sent : List ServerEvent} {stream : EventStream}
    (h : sent.length ≤ stream.receiver.position + EventStream.eventCapacity) :
    (stream.advance shutdown sent).receiver.missed = stream.receiver.missed := by
  unfold EventStream.advance
  split
  · unfold EventStream.next
    split
    · rfl
    · split <;> rfl
  · rw [(EventStream.received_receive sent stream).receiver]
    exact Receiver.missed_recv h
  · rfl

theorem EventStream.receiver_stop {shutdown : Bool} {stream : EventStream} :
    (stream.stop shutdown).receiver = stream.receiver := by
  unfold EventStream.stop
  split <;> rfl

theorem MissedNothing.updateClient {i j : ℕ} {change : Client → Client} (h : MissedNothing i s)
    (hchange : j = i → ∀ client stream, s.clients[i]? = some client →
      (change client).stage = .streaming stream → stream.receiver.missed = 0) :
    MissedNothing i (s.updateClient j change) := by
  intro client stream hclient hstage
  rw [ServerState.updateClient, List.getElem?_modify] at hclient
  obtain ⟨old, hold, rfl⟩ := Option.map_eq_some_iff.mp hclient
  by_cases hj : j = i
  · rw [if_pos hj] at hstage
    exact hchange hj old stream hold hstage
  · rw [if_neg hj] at hstage
    exact h old stream hold hstage

theorem missedNothing_step {i : ℕ} (h : MissedNothing i s) {action : Action}
    (hkeeps : KeepsUp i s action) : MissedNothing i (step policy s action) := by
  cases action with
  | connect request =>
    intro client stream hclient hstage
    change (s.clients ++ [_])[i]? = some client at hclient
    rw [List.getElem?_append] at hclient
    split at hclient
    · exact h client stream hclient hstage
    · obtain rfl := List.mem_singleton.mp (List.mem_of_getElem? hclient)
      cases hstage
  | resume j =>
    refine h.updateClient fun hj client stream hclient hstage => ?_
    obtain ⟨request, before⟩ := client
    cases before with
    | arrived =>
      unfold ServerState.advance at hstage
      simp only at hstage
      split at hstage <;> cases hstage
    | denied error => cases hstage
    | identified user => cases hstage
    | counted user snapshot asked =>
      obtain rfl := Stage.streaming.inj hstage
      rfl
    | streaming old =>
      obtain rfl := Stage.streaming.inj hstage
      rw [missed_advance (hkeeps hj _ old hclient rfl)]
      exact h _ old hclient rfl
  | stop j =>
    refine h.updateClient fun _ client stream hclient hstage => ?_
    obtain ⟨request, before⟩ := client
    cases before with
    | streaming old =>
      obtain rfl := Stage.streaming.inj hstage
      rw [EventStream.receiver_stop]
      exact h _ old hclient rfl
    | _ => cases hstage
  | changeStats | publish | shutDown => exact h
  | notifyStatsChanged | publisherWakes | publisherSends | publisherStops =>
    simp only [step]
    split <;> exact h

theorem after_missedNothing {actions : List Action} {i : ℕ}
    (h : Along (step policy) (KeepsUp i) .start actions) :
    MissedNothing i (after policy actions) := by
  have hstep : ∀ s action, MissedNothing i s → KeepsUp i s action →
      MissedNothing i (step policy s action) :=
    fun _ _ h hkeeps => missedNothing_step h hkeeps
  exact run_invariant hstep (fun _ _ hclient => nomatch hclient) h

end Invariants

section Results

variable {policy : ServerPolicy}

theorem user_ne_empty_of_iap {header : String} {request : EventsRequest}
    {identity : ResolvedIdentity} (h : resolveIapIdentity header request = .ok identity) :
    identity.user ≠ "" := by
  unfold resolveIapIdentity at h
  split at h
  · cases h
  · cases h
  · next raw _ =>
    generalize parseIapIdentity raw = parsed at h
    simp only at h
    split at h
    · cases h
    · next hne =>
      obtain rfl := Except.ok.inj h
      exact hne

/-- With a provider, the stream is limited to the user that the provider names. -/
theorem user_of_authentication {request : EventsRequest} {user : Option String}
    (hauthentication : policy.requiresAuthentication = true)
    (h : requestUser policy request = .ok user) :
    ∃ identity, resolveIdentity policy request = .ok identity ∧ identity.user ≠ "" ∧
      user = some identity.user := by
  unfold requestUser at h
  rw [if_pos hauthentication] at h
  cases hidentity : resolveIdentity policy request with
  | error error =>
    rw [hidentity] at h
    cases h
  | ok identity =>
    rw [hidentity] at h
    refine ⟨identity, rfl, ?_, (Except.ok.inj h).symm⟩
    unfold resolveIdentity at hidentity
    rw [dif_pos (show policy.authProvider.requiresIdentity = true from hauthentication)]
      at hidentity
    exact user_ne_empty_of_iap hidentity

theorem letsThrough_of_open {request : EventsRequest} {stream : EventStream}
    (hopen : policy.requiresAuthentication = false)
    (h : requestUser policy request = .ok stream.user) (event : ServerEvent) :
    stream.letsThrough event = true := by
  unfold requestUser at h
  rw [hopen] at h
  unfold EventStream.letsThrough
  rw [← Except.ok.inj h]
  rfl

theorem letsThrough_statsEvent (stream : EventStream) (stats : Stats) :
    stream.letsThrough (statsEvent stats) = true := by
  unfold EventStream.letsThrough eventVisibleToUser
  cases stream.user <;> simp [statsEvent, ServerEvent.isBroadcast]

/-- The opening of a stream and what follows it. -/
theorem EventStream.Opened.split {stream : EventStream} (h : stream.Opened) :
    ∃ opening, stream.delivered = opening ++ stream.receiver.read.filter stream.letsThrough ∧
      opening <+: [statsEvent stream.snapshot] := by
  unfold EventStream.Opened at h
  cases hinitial : stream.initial with
  | some event =>
    rw [hinitial] at h
    refine ⟨[], ?_, List.nil_prefix⟩
    rw [h.2.1, h.2.2.1]
    rfl
  | none =>
    rw [hinitial] at h
    exact ⟨[statsEvent stream.snapshot], h, List.prefix_rfl⟩

/-- A stream keeps up with a bus that has sent no more than the channel keeps. -/
theorem along_keepsUp_of_short (i : ℕ) {actions : List Action}
    (h : Along (step policy) (fun s _ => s.sent.length ≤ EventStream.eventCapacity) .start
      actions) :
    Along (step policy) (KeepsUp i) .start actions := by
  have hkeeps : ∀ (s : ServerState) (action : Action), True →
      s.sent.length ≤ EventStream.eventCapacity → KeepsUp i s action := by
    intro s action _ hshort
    cases action with
    | resume j => exact fun _ _ _ _ _ => hshort.trans (Nat.le_add_left _ _)
    | _ => trivial
  have hstep : ∀ (s : ServerState) (action : Action), True →
      s.sent.length ≤ EventStream.eventCapacity → True := fun _ _ h _ => h
  exact along_of_invariant hstep hkeeps trivial h

def iapPolicy : ServerPolicy := ⟨.googleIap, some "X-User", fun _ => rfl⟩

def aliceRequest : EventsRequest where
  header name := if name = "X-User" then some (.text "accounts:alice@example.com") else none
  optionalIdentity := .error "no identity"

/-- A stream is opened while the statistics change, and another user has an event. -/
def aliceActions : List Action :=
  [.connect aliceRequest, .resume 0, .resume 0,
    .changeStats fun stats => { stats with jobs.active := stats.jobs.active + 1 },
    .notifyStatsChanged, .publisherWakes, .resume 0, .resume 0, .publisherSends,
    .publish ((signalEvent "bob").forOwner "bob@example.com"),
    .publish ((signalEvent "alice").forOwner "alice@example.com"),
    .resume 0, .resume 0, .resume 0, .resume 0, .resume 0]

theorem aliceActions_short :
    Along (step iapPolicy) (fun s _ => s.sent.length ≤ EventStream.eventCapacity) .start
      aliceActions := by decide

def aliceStream : EventStream where
  receiver := ⟨0, 3, (after iapPolicy aliceActions).sent, 0⟩
  initial := none
  user := some "alice@example.com"
  phase := .idle
  delivered := [statsEvent ⟨⟨0, 0⟩, ⟨0, 0, 0, 0⟩⟩, statsEvent ⟨⟨0, 0⟩, ⟨0, 0, 0, 1⟩⟩,
    .signals "alice@example.com" "alice" false]
  snapshot := ⟨⟨0, 0⟩, ⟨0, 0, 0, 0⟩⟩
  asked := 0

theorem clients_alice :
    (after iapPolicy aliceActions).clients = [⟨aliceRequest, .streaming aliceStream⟩] := by rfl

/-- Whatever the others do, a stream opens with the statistics and then delivers, each once and
in order, events that were sent since it subscribed: its user's own and those for everyone, or
all of them without a provider. It leaves none of them out unless it falls behind. -/
theorem events_delivered (policy : ServerPolicy) (actions : List Action) (i : ℕ)
    {client : Client} {stream : EventStream}
    (hclient : (after policy actions).clients[i]? = some client)
    (hstage : client.stage = .streaming stream) :
    (policy.requiresAuthentication = true → ∃ identity,
      resolveIdentity policy client.request = .ok identity ∧ identity.user ≠ "" ∧
        ∀ event ∈ stream.delivered, event.owner = identity.user ∨ event.isBroadcast = true) ∧
    (policy.requiresAuthentication = false → ∀ event, stream.letsThrough event = true) ∧
    ∃ opening rest, stream.delivered = opening ++ rest ∧
      opening <+: [statsEvent stream.snapshot] ∧
      rest.Sublist
        (((after policy actions).sent.drop stream.receiver.since).filter stream.letsThrough) ∧
      (Along (step policy) (KeepsUp i) .start actions →
        rest = (stream.receiver.passed (after policy actions).sent).filter stream.letsThrough) := by
  have hsound := (after_sound policy actions).clients client (List.mem_of_getElem? hclient)
  unfold Client.Sound at hsound
  rw [hstage] at hsound
  obtain ⟨huser, hstream⟩ := hsound
  obtain ⟨opening, hdelivered, hopening⟩ := hstream.opened.split
  refine ⟨fun hauthentication => ?_, fun hopen => letsThrough_of_open hopen huser,
    opening, _, hdelivered, hopening, ?_, fun hkeeps => ?_⟩
  · obtain ⟨identity, hidentity, hne, hname⟩ := user_of_authentication hauthentication huser
    refine ⟨identity, hidentity, hne, fun event hevent => ?_⟩
    have hthrough : stream.letsThrough event = true := by
      rw [hdelivered] at hevent
      rcases List.mem_append.mp hevent with hfirst | hrest
      · rw [List.mem_singleton.mp (hopening.subset hfirst)]
        exact letsThrough_statsEvent stream _
      · exact (List.mem_filter.mp hrest).2
    unfold EventStream.letsThrough eventVisibleToUser at hthrough
    rw [hname] at hthrough
    simpa using hthrough
  · exact (hstream.follows.sublist.trans (List.take_sublist _ _)).filter _
  · rw [hstream.follows.read_eq (after_missedNothing hkeeps client stream hclient hstage)]

theorem events_delivered_alice :
    ∃ identity, resolveIdentity iapPolicy aliceRequest = .ok identity ∧ identity.user ≠ "" ∧
      ∀ event ∈ aliceStream.delivered, event.owner = identity.user ∨ event.isBroadcast = true :=
  (events_delivered iapPolicy aliceActions 0 (congrArg (·[0]?) clients_alice) rfl).1 rfl

/-- Every change of the statistics has been sent, and the stream has come to the end. -/
structure Settled (s : ServerState) (stream : EventStream) : Prop where
  reported : s.writers = 0
  seen : s.seenUpdates = s.statsUpdates
  sent : s.publisher ≠ .woken
  opened : stream.initial = none
  drained : stream.receiver.position = s.sent.length

theorem not_pending_of_settled {s : ServerState} {stream : EventStream} (h : Settled s stream) :
    ¬s.Pending := by
  rintro (hwriters | hunseen | hwoken)
  · exact absurd h.reported (Nat.ne_of_gt hwriters)
  · exact absurd h.seen (Nat.ne_of_lt hunseen)
  · exact h.sent hwoken

/-- The last statistics that a stream delivered, when it missed none of what was sent. -/
theorem getLast?_delivered {s : ServerState} {stream : EventStream} (hsound : stream.Sound s)
    (hsettled : Settled s stream) (hmissed : stream.receiver.missed = 0) :
    (stream.delivered.filter ServerEvent.isBroadcast).getLast? =
      some (lastBroadcast (statsEvent stream.snapshot) (s.sent.drop stream.receiver.since)) := by
  have hopened := hsound.opened
  have hread : stream.receiver.read = s.sent.drop stream.receiver.since := by
    rw [hsound.follows.read_eq hmissed]
    unfold Receiver.passed
    rw [hsettled.drained]
    exact List.take_of_length_le (List.length_drop ▸ le_rfl)
  unfold EventStream.Opened at hopened
  rw [hsettled.opened] at hopened
  rw [hopened, List.filter_cons_of_pos rfl, filter_letsThrough, List.getLast?_cons, hread]
  rfl

/-- When all changes have been sent and read, a stream that has kept up shows the statistics as
they are: always when none were sent between its look at them and its subscription, and else
when some were sent since or they are the ones it saw. -/
theorem live_stats_converge (policy : ServerPolicy) (actions : List Action) (i : ℕ)
    {client : Client} {stream : EventStream}
    (hclient : (after policy actions).clients[i]? = some client)
    (hstage : client.stage = .streaming stream)
    (hkeeps : Along (step policy) (KeepsUp i) .start actions)
    (hsettled : Settled (after policy actions) stream) :
    ((stream.delivered.filter ServerEvent.isBroadcast).getLast? =
        some (statsEvent (after policy actions).stats) ↔
      (∃ event ∈ (after policy actions).sent.drop stream.receiver.since,
        event.isBroadcast = true) ∨
      statsEvent stream.snapshot = statsEvent (after policy actions).stats) ∧
    ((∀ event ∈ ((after policy actions).sent.take stream.receiver.since).drop stream.asked,
        event.isBroadcast = false) →
      (stream.delivered.filter ServerEvent.isBroadcast).getLast? =
        some (statsEvent (after policy actions).stats)) := by
  have hsound := (after_sound policy actions).clients client (List.mem_of_getElem? hclient)
  unfold Client.Sound at hsound
  rw [hstage] at hsound
  have hmissed := after_missedNothing hkeeps client stream hclient hstage
  rw [getLast?_delivered hsound.2 hsettled hmissed, Option.some_inj]
  generalize after policy actions = s at *
  have hcurrent := hsound.2.current.resolve_right (not_pending_of_settled hsettled)
  have hsplit : s.sent.drop stream.asked =
      (s.sent.take stream.receiver.since).drop stream.asked ++
        s.sent.drop stream.receiver.since := by
    have hsince := hsound.2.follows.since_le.trans hsound.2.follows.position_le
    rw [← List.drop_append_of_le_length, List.take_append_drop]
    rw [List.length_take_of_le hsince]
    exact hsound.2.asked_le
  rw [hsplit] at hcurrent
  by_cases hsent : ∃ event ∈ s.sent.drop stream.receiver.since, event.isBroadcast = true
  · rw [lastBroadcast_append hsent] at hcurrent
    exact ⟨⟨fun _ => .inl hsent, fun _ => hcurrent⟩, fun _ => hcurrent⟩
  · have hnone : ∀ event ∈ s.sent.drop stream.receiver.since, event.isBroadcast = false :=
      fun event hevent => Bool.eq_false_iff.mpr fun h => hsent ⟨event, hevent, h⟩
    rw [lastBroadcast_of_forall hnone]
    refine ⟨⟨.inr, fun h => h.resolve_left hsent⟩, fun hbetween => ?_⟩
    rw [← hcurrent, lastBroadcast_of_forall]
    intro event hevent
    exact (List.mem_append.mp hevent).elim (hbetween event) (hnone event)

theorem live_stats_converge_alice :
    (aliceStream.delivered.filter ServerEvent.isBroadcast).getLast? =
      some (statsEvent (after iapPolicy aliceActions).stats) :=
  (live_stats_converge iapPolicy aliceActions 0 (congrArg (·[0]?) clients_alice) rfl
    (along_keepsUp_of_short 0 aliceActions_short) ⟨rfl, rfl, by decide, rfl, rfl⟩).2 (by decide)

end Results

end Esdiag.EventBus
