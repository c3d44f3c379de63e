import Esdiag.GuardedRuns
import Esdiag.KeystoreOperations

/-!
The rate limit of keystore passwords. Unlocking checks whether attempts are
blocked, then tries the password, then records a failure; three failures are
free and each further one blocks for longer. The steps are separate, so requests
overlap between the check and the record. The onboarding form tries passwords
as well, without the check and without the record.
-/
namespace Esdiag.UnlockRateLimit

open GuardedRuns SealedEnvelopes Keystores KeystoreOperations

def maxFailedAttempts : ℕ := 2 ^ 32 - 1

/-- Seconds an attempt is put off after so many failures. -/
def backoffSeconds (failedAttempts : ℕ) : ℕ :=
  if failedAttempts ≤ 3 then 0 else min ((failedAttempts - 3) * 5) 60 * 60

/-- The counter is a word of 32 bits. -/
structure KeystoreRateLimit where
  failedAttempts : ℕ
  blockedUntilEpoch : Option ℤ
  inRange : failedAttempts ≤ maxFailedAttempts
  deriving DecidableEq

namespace KeystoreRateLimit

def default : KeystoreRateLimit := ⟨0, none, Nat.zero_le _⟩

def currentBackoffSeconds (self : KeystoreRateLimit) : ℕ := backoffSeconds self.failedAttempts

/-- The counter stays at its end. -/
def recordFailedAttempt (self : KeystoreRateLimit) (now : ℤ) : KeystoreRateLimit :=
  let counted : KeystoreRateLimit :=
    ⟨min (self.failedAttempts + 1) maxFailedAttempts, self.blockedUntilEpoch, min_le_right _ _⟩
  if 0 < counted.currentBackoffSeconds then
    { counted with blockedUntilEpoch := some (now + counted.currentBackoffSeconds) }
  else counted

def isBlocked (self : KeystoreRateLimit) (now : ℤ) : Bool :=
  match self.blockedUntilEpoch with
  | none => false
  | some blockedUntil => now < blockedUntil

theorem failedAttempts_recordFailedAttempt (self : KeystoreRateLimit) (now : ℤ) :
    (self.recordFailedAttempt now).failedAttempts =
      min (self.failedAttempts + 1) maxFailedAttempts := by
  unfold recordFailedAttempt
  simp only
  split <;> rfl

/-- A block that is over stays over. -/
theorem isBlocked_of_le {self : KeystoreRateLimit} {now later : ℤ}
    (h : self.isBlocked now = false) (hle : now ≤ later) : self.isBlocked later = false := by
  unfold isBlocked at h ⊢
  cases hblocked : self.blockedUntilEpoch with
  | none => rfl
  | some blockedUntil =>
    rw [hblocked] at h
    have hpast := of_decide_eq_false h
    exact decide_eq_false (by omega)

end KeystoreRateLimit

inductive Form where
  | unlock
  | onboarding (confirm : Option String)
  deriving DecidableEq

inductive Phase where
  | arrived
  | checking
  | authenticating
  | recording (accepted : Bool)
  | done
  deriving DecidableEq

/-- Only the unlock form records that a password was not accepted. -/
def Form.afterTry : Form → Bool → Phase
  | _, true => .recording true
  | unlock, false => .recording false
  | onboarding _, false => .done

structure Request where
  form : Form
  password : String
  phase : Phase
  deriving DecidableEq

namespace Request

def trimmed (self : Request) : String := Texts.trim self.password

def isEmpty (self : Request) : Bool := Texts.isBlank self.password

/-- An unlock request that is past its check. -/
def isTrying (self : Request) : Bool := self.form = .unlock && self.phase = .authenticating

/-- A failure that is not recorded yet. -/
def isUnrecorded (self : Request) : Bool := self.phase = .recording false

/-- A request that may still record a failure. -/
def isInFlight (self : Request) : Bool := self.isTrying || self.isUnrecorded

/-- What the onboarding form checks before it tries a password. -/
def onboardingAllows (self : Request) (confirm : Option String) (present : Bool) : Bool :=
  if present then !self.isEmpty
  else confirm.isSome && 6 ≤ self.trimmed.utf8ByteSize

end Request

/-- The server, with the number of wrong passwords tried since the last unlock. -/
structure ServerState where
  now : ℤ
  keystore : SealedFile
  rateLimit : KeystoreRateLimit
  requests : List Request
  unlockedAt : ℤ
  wrong : ℕ

inductive Action where
  | elapse (seconds : ℕ)
  | replaceKeystore (keystore : SealedFile)
  | submit (form : Form) (password : String)
  | resume (request : ℕ) (attempt : WriteAttempt) (completes : Bool)

namespace ServerState

def start (now : ℤ) (keystore : SealedFile) : ServerState := ⟨now, keystore, .default, [], now, 0⟩

variable {Key : Type} (libs : Libraries Key) (s : ServerState)

def isBlocked : Bool := s.rateLimit.isBlocked s.now

/-- The lease of the new session is written first; only then the limit is reset. -/
def setKeystoreUnlocked (completes : Bool) : ServerState :=
  if completes then { s with rateLimit := .default, unlockedAt := s.now, wrong := 0 } else s

def recordKeystoreFailedAttempt : ServerState :=
  { s with rateLimit := s.rateLimit.recordFailedAttempt s.now }

def tryPassword (password : String) (attempt : WriteAttempt) :
    Except KeystoreError Unit × SealedFile :=
  authenticate libs s.keystore password attempt

/-- A password tried on a keystore that exists, and not accepted, is a wrong one. -/
def afterTry (password : String) (attempt : WriteAttempt) : ServerState :=
  let tried := s.tryPassword libs password attempt
  { s with
    keystore := tried.2
    wrong := if keystoreExists s.keystore && !tried.1.isOk then s.wrong + 1 else s.wrong }

/-- One request up to its next step; `completes` is whether the lease is written. -/
def advance (request : Request) (attempt : WriteAttempt) (completes : Bool) :
    ServerState × Phase :=
  match request.phase with
  | .arrived =>
    match request.form with
    | .unlock => (s, if keystoreExists s.keystore then .checking else .done)
    | .onboarding confirm =>
      (s, if request.onboardingAllows confirm (keystoreExists s.keystore) then .authenticating
        else .done)
  | .checking => (s, if s.isBlocked || request.isEmpty then .done else .authenticating)
  | .authenticating =>
    (s.afterTry libs request.trimmed attempt,
      request.form.afterTry (s.tryPassword libs request.trimmed attempt).1.isOk)
  | .recording true => (s.setKeystoreUnlocked completes, .done)
  | .recording false => (s.recordKeystoreFailedAttempt, .done)
  | .done => (s, .done)

end ServerState

def step {Key : Type} (libs : Libraries Key) (s : ServerState) : Action → ServerState
  | .elapse seconds => { s with now := s.now + seconds }
  | .replaceKeystore keystore => { s with keystore := keystore }
  | .submit form password => { s with requests := s.requests ++ [⟨form, password, .arrived⟩] }
  | .resume i attempt completes =>
    match s.requests[i]? with
    | none => s
    | some request =>
      let advanced := s.advance libs request attempt completes
      { advanced.1 with requests := s.requests.set i { request with phase := advanced.2 } }

/-- Seconds that must pass before so many wrong passwords can have been tried. -/
def schedule : ℕ → ℕ
  | 0 => 0
  | n + 1 => schedule n + backoffSeconds n

theorem schedule_le_schedule {m n : ℕ} (h : m ≤ n) : schedule m ≤ schedule n := by
  induction n, h using Nat.le_induction with
  | base => exact Nat.le_refl _
  | succ n _ ih => exact ih.trans (Nat.le_add_right _ _)

/-- Three failures and the next attempt are free. -/
theorem schedule_of_le {n : ℕ} (h : n ≤ 4) : schedule n = 0 := by
  have hfour := schedule_le_schedule h
  have hzero : schedule 4 = 0 := by decide
  omega

/-- The counter's end is past the longest wait. -/
theorem backoffSeconds_min (n : ℕ) : backoffSeconds (min n maxFailedAttempts) = backoffSeconds n := by
  unfold backoffSeconds maxFailedAttempts
  by_cases hmany : n ≤ 2 ^ 32 - 1
  · rw [min_eq_left hmany]
  · rw [min_eq_right (by omega), if_neg (by norm_num), if_neg (by omega)]
    congr 1
    omega

theorem backoffSeconds_pos {n : ℕ} (h : 4 ≤ n) : 0 < backoffSeconds n := by
  unfold backoffSeconds
  rw [if_neg (by omega)]
  omega

namespace ServerState

variable (s : ServerState)

def trying : ℕ := s.requests.countP Request.isTrying

def inFlight : ℕ := s.requests.countP Request.isInFlight

def unrecorded : ℕ := s.requests.countP Request.isUnrecorded

end ServerState

section Property

variable {Key : Type} (libs : Libraries Key)

/-- No password is tried on a keystore while attempts are blocked. -/
def TriesUnblocked (s : ServerState) (action : Action) : Prop :=
  ∀ i attempt completes request, action = .resume i attempt completes →
    s.requests[i]? = some request → request.phase = .authenticating →
    keystoreExists s.keystore = true → s.isBlocked = false

/-- Only an accepted password resets the counter. -/
def ResetByUnlock (s : ServerState) (action : Action) : Prop :=
  (step libs s action).rateLimit.failedAttempts < s.rateLimit.failedAttempts →
    ∃ i attempt completes request, action = .resume i attempt completes ∧
      s.requests[i]? = some request ∧ request.phase = .recording true

/-- The wrong passwords since the last unlock took the time of the schedule. -/
def WithinSchedule (s : ServerState) : Prop := s.unlockedAt + schedule s.wrong ≤ s.now

def Limited (s : ServerState) (action : Action) : Prop :=
  TriesUnblocked s action ∧ ResetByUnlock libs s action ∧ WithinSchedule (step libs s action)

/-! When the limit holds. -/

/-- An unlock passes its check only when nobody else is past it, or while failures
are still free; onboarding tries only the right password, and not while blocked. -/
def Request.Orderly (s : ServerState) (attempt : WriteAttempt) (request : Request) : Prop :=
  match request.form, request.phase with
  | .unlock, .checking => s.isBlocked = true ∨ request.isEmpty = true ∨ s.inFlight = 0 ∨
      s.rateLimit.failedAttempts + s.inFlight ≤ 3
  | .onboarding _, .authenticating => keystoreExists s.keystore = true →
      s.isBlocked = false ∧ (s.tryPassword libs request.trimmed attempt).1.isOk = true
  | _, _ => True

def Orderly (s : ServerState) : Action → Prop
  | .elapse _ | .replaceKeystore _ | .submit _ _ => True
  | .resume i attempt _ => ∀ request ∈ s.requests[i]?, request.Orderly libs s attempt

end Property

section Decisions

variable {Key : Type} (libs : Libraries Key)

instance (s : ServerState) (attempt : WriteAttempt) :
    (request : Request) → Decidable (request.Orderly libs s attempt)
  | ⟨.unlock, password, .checking⟩ =>
    inferInstanceAs (Decidable (s.isBlocked = true ∨
      Request.isEmpty ⟨.unlock, password, .checking⟩ = true ∨ s.inFlight = 0 ∨
      s.rateLimit.failedAttempts + s.inFlight ≤ 3))
  | ⟨.onboarding confirm, password, .authenticating⟩ =>
    inferInstanceAs (Decidable (keystoreExists s.keystore = true → s.isBlocked = false ∧
      (s.tryPassword libs (Request.trimmed ⟨.onboarding confirm, password, .authenticating⟩)
        attempt).1.isOk = true))
  | ⟨.unlock, _, .arrived⟩ | ⟨.unlock, _, .authenticating⟩ | ⟨.unlock, _, .recording _⟩
  | ⟨.unlock, _, .done⟩ => isTrue trivial
  | ⟨.onboarding _, _, .arrived⟩ | ⟨.onboarding _, _, .checking⟩
  | ⟨.onboarding _, _, .recording _⟩ | ⟨.onboarding _, _, .done⟩ => isTrue trivial

instance (s : ServerState) : (action : Action) → Decidable (Orderly libs s action)
  | .elapse _ | .replaceKeystore _ | .submit _ _ => isTrue trivial
  | .resume i attempt _ =>
    inferInstanceAs (Decidable (∀ request ∈ s.requests[i]?, request.Orderly libs s attempt))

end Decisions

/-! The invariant. -/

/-- So many failures are on record, after the time they take. -/
structure Recorded (s : ServerState) (n : ℕ) : Prop where
  counted : s.rateLimit.failedAttempts = min n maxFailedAttempts
  elapsed : s.unlockedAt + schedule (n + s.unrecorded) ≤ s.now
  wrong : s.wrong ≤ n + s.unrecorded
  blocked : 4 ≤ n → ∃ blockedUntil, s.rateLimit.blockedUntilEpoch = some blockedUntil ∧
    s.unlockedAt + schedule (n + 1) ≤ blockedUntil

structure Consistent (s : ServerState) : Prop where
  serial : s.inFlight ≤ 1 ∨ s.rateLimit.failedAttempts + s.inFlight ≤ 4
  clear : 0 < s.trying → s.isBlocked = false
  recorded : ∃ n, Recorded s n

theorem start_consistent (now : ℤ) (keystore : SealedFile) :
    Consistent (.start now keystore) where
  serial := Or.inl (Nat.zero_le _)
  clear h := absurd h (Nat.lt_irrefl 0)
  recorded := ⟨0, rfl, by simp [ServerState.start, ServerState.unrecorded, schedule],
    Nat.zero_le _, fun h => by omega⟩

theorem Consistent.withinSchedule {s : ServerState} (hs : Consistent s) : WithinSchedule s := by
  obtain ⟨n, hn⟩ := hs.recorded
  have hle := schedule_le_schedule hn.wrong
  have helapsed := hn.elapsed
  unfold WithinSchedule
  omega

theorem inFlight_eq (requests : List Request) :
    requests.countP Request.isInFlight =
      requests.countP Request.isTrying + requests.countP Request.isUnrecorded := by
  induction requests with
  | nil => rfl
  | cons request rest ih =>
    have hone : (if request.isInFlight then 1 else 0) =
        (if request.isTrying then 1 else 0) + if request.isUnrecorded then 1 else 0 := by
      obtain ⟨form, password, phase⟩ := request
      unfold Request.isInFlight Request.isTrying Request.isUnrecorded
      cases form <;> cases phase <;> simp
    simp only [List.countP_cons]
    omega

theorem ServerState.inFlight_eq_add (s : ServerState) : s.inFlight = s.trying + s.unrecorded :=
  inFlight_eq s.requests

section Steps

variable {s t : ServerState}

theorem min_succ_min (n limit : ℕ) : min (min n limit + 1) limit = min (n + 1) limit := by
  omega

theorem Recorded.of_same {n : ℕ} (hn : Recorded s n) (hnow : t.now = s.now)
    (hrate : t.rateLimit = s.rateLimit) (hunlocked : t.unlockedAt = s.unlockedAt)
    (hwrong : t.wrong = s.wrong) (hunrecorded : t.unrecorded = s.unrecorded) : Recorded t n where
  counted := by rw [hrate, hn.counted]
  elapsed := by
    rw [hunlocked, hunrecorded, hnow]
    exact hn.elapsed
  wrong := by
    rw [hwrong, hunrecorded]
    exact hn.wrong
  blocked := by
    rw [hrate, hunlocked]
    exact hn.blocked

/-- A counter this low is the number of recorded failures. -/
theorem Recorded.eq_of_le {n : ℕ} (hn : Recorded s n) (h : s.rateLimit.failedAttempts ≤ 4) :
    n = s.rateLimit.failedAttempts := by
  have hcounted := hn.counted
  unfold maxFailedAttempts at hcounted
  omega

/-- Nothing that the limit counts has changed, but requests may have left their try. -/
theorem Consistent.of_same (hs : Consistent s) (hnow : t.now = s.now)
    (hrate : t.rateLimit = s.rateLimit) (hunlocked : t.unlockedAt = s.unlockedAt)
    (hwrong : t.wrong = s.wrong) (htrying : t.trying ≤ s.trying)
    (hunrecorded : t.unrecorded = s.unrecorded) : Consistent t := by
  have hflight : t.inFlight ≤ s.inFlight := by
    rw [t.inFlight_eq_add, s.inFlight_eq_add]
    omega
  constructor
  · rw [hrate]
    rcases hs.serial with hone | hfree
    · exact Or.inl (hflight.trans hone)
    · right
      omega
  · intro htries
    have hclear := hs.clear (lt_of_lt_of_le htries htrying)
    simpa only [ServerState.isBlocked, hrate, hnow] using hclear
  · obtain ⟨n, hn⟩ := hs.recorded
    exact ⟨n, hn.of_same hnow hrate hunlocked hwrong hunrecorded⟩

theorem Consistent.elapse (hs : Consistent s) (seconds : ℕ) :
    Consistent { s with now := s.now + seconds } := by
  constructor
  · exact hs.serial
  · intro htries
    exact KeystoreRateLimit.isBlocked_of_le (hs.clear htries)
      (le_add_of_nonneg_right (Int.natCast_nonneg seconds))
  · obtain ⟨n, hn⟩ := hs.recorded
    refine ⟨n, hn.counted, ?_, hn.wrong, hn.blocked⟩
    have helapsed := hn.elapsed
    show s.unlockedAt + schedule (n + s.unrecorded) ≤ s.now + seconds
    omega

/-- An unlock passes its check. -/
theorem Consistent.pass (hs : Consistent s) (hrate : t.rateLimit = s.rateLimit)
    (hnow : t.now = s.now) (hunlocked : t.unlockedAt = s.unlockedAt) (hwrong : t.wrong = s.wrong)
    (htrying : t.trying = s.trying + 1) (hunrecorded : t.unrecorded = s.unrecorded)
    (hclear : s.isBlocked = false)
    (horderly : s.inFlight = 0 ∨ s.rateLimit.failedAttempts + s.inFlight ≤ 3) :
    Consistent t := by
  have hflight : t.inFlight = s.inFlight + 1 := by
    rw [t.inFlight_eq_add, s.inFlight_eq_add]
    omega
  constructor
  · rw [hrate, hflight]
    omega
  · intro _
    simpa only [ServerState.isBlocked, hrate, hnow] using hclear
  · obtain ⟨n, hn⟩ := hs.recorded
    exact ⟨n, hn.of_same hnow hrate hunlocked hwrong hunrecorded⟩

/-- An unlock in its try finds the password wrong. -/
theorem Consistent.fail (hs : Consistent s) (hrate : t.rateLimit = s.rateLimit)
    (hnow : t.now = s.now) (hunlocked : t.unlockedAt = s.unlockedAt)
    (hwrong : t.wrong ≤ s.wrong + 1) (htrying : t.trying + 1 = s.trying)
    (hunrecorded : t.unrecorded = s.unrecorded + 1) : Consistent t := by
  have hflight := s.inFlight_eq_add
  have hsame : t.inFlight = s.inFlight := by
    rw [t.inFlight_eq_add, s.inFlight_eq_add]
    omega
  have hopen := hs.clear (by omega)
  constructor
  · rw [hrate, hsame]
    exact hs.serial
  · intro _
    simpa only [ServerState.isBlocked, hrate, hnow] using hopen
  · obtain ⟨n, hn⟩ := hs.recorded
    have helapsed := hn.elapsed
    have hbound := hn.wrong
    refine ⟨n, ?_, ?_, ?_, ?_⟩
    · rw [hrate, hn.counted]
    · rw [hunlocked, hunrecorded, hnow]
      -- either this is the only one in flight and no block is open, or the attempt is free
      have hfree : n + (s.unrecorded + 1) ≤ 4 ∨ (s.unrecorded = 0 ∧ 4 ≤ n) := by
        rcases hs.serial with hone | hfew
        · omega
        · have heq := hn.eq_of_le (by omega)
          omega
      rcases hfree with hfew | ⟨hnone, hmany⟩
      · rw [schedule_of_le hfew]
        omega
      · obtain ⟨blockedUntil, huntil, hlate⟩ := hn.blocked hmany
        have hpast : blockedUntil ≤ s.now := by
          simpa [ServerState.isBlocked, KeystoreRateLimit.isBlocked, huntil] using hopen
        rw [hnone, Nat.zero_add]
        exact hlate.trans hpast
    · omega
    · rw [hrate, hunlocked]
      exact hn.blocked

/-- A successful unlock starts the count anew. -/
theorem Consistent.reset (hs : Consistent s) (hrate : t.rateLimit = .default)
    (hunlocked : t.unlockedAt = t.now) (hwrong : t.wrong = 0) (htrying : t.trying ≤ s.trying)
    (hunrecorded : t.unrecorded = s.unrecorded) : Consistent t := by
  have hflight : t.inFlight ≤ s.inFlight := by
    rw [t.inFlight_eq_add, s.inFlight_eq_add]
    omega
  have hfew : t.inFlight ≤ 4 := by
    rcases hs.serial with hone | hfree <;> omega
  constructor
  · right
    rw [hrate]
    exact (Nat.zero_add _).trans_le hfew
  · intro _
    rw [ServerState.isBlocked, hrate]
    rfl
  · refine ⟨0, ?_, ?_, ?_, fun h => by omega⟩
    · rw [hrate]
      rfl
    · rw [hunlocked, schedule_of_le]
      · omega
      · rw [t.inFlight_eq_add] at hfew
        omega
    · rw [hwrong]
      exact Nat.zero_le _

/-- A failure is recorded, and may open a block. -/
theorem Consistent.record (hs : Consistent s)
    (hrate : t.rateLimit = s.rateLimit.recordFailedAttempt s.now) (hnow : t.now = s.now)
    (hunlocked : t.unlockedAt = s.unlockedAt) (hwrong : t.wrong = s.wrong)
    (htrying : t.trying = s.trying) (hunrecorded : t.unrecorded + 1 = s.unrecorded) :
    Consistent t := by
  have hflight : t.inFlight + 1 = s.inFlight := by
    rw [t.inFlight_eq_add, s.inFlight_eq_add]
    omega
  obtain ⟨n, hn⟩ := hs.recorded
  have hcounted := hn.counted
  have helapsed := hn.elapsed
  have hnext : min (s.rateLimit.failedAttempts + 1) maxFailedAttempts =
      min (n + 1) maxFailedAttempts := by
    rw [hcounted, min_succ_min]
  have hattempts : t.rateLimit.failedAttempts = min (n + 1) maxFailedAttempts := by
    rw [hrate, KeystoreRateLimit.failedAttempts_recordFailedAttempt, hnext]
  have hgrows : t.rateLimit.failedAttempts ≤ s.rateLimit.failedAttempts + 1 := by
    rw [hattempts, ← hnext]
    exact min_le_left _ _
  have hbackoff : backoffSeconds (min (s.rateLimit.failedAttempts + 1) maxFailedAttempts) =
      backoffSeconds (n + 1) := by
    rw [hnext, backoffSeconds_min]
  have huntil : t.rateLimit.blockedUntilEpoch =
      if 4 ≤ n + 1 then some (s.now + backoffSeconds (n + 1))
      else s.rateLimit.blockedUntilEpoch := by
    rw [hrate, KeystoreRateLimit.recordFailedAttempt]
    simp only [KeystoreRateLimit.currentBackoffSeconds, hbackoff]
    by_cases hmany : 4 ≤ n + 1
    · rw [if_pos (backoffSeconds_pos hmany), if_pos hmany]
    · have hnone : ¬0 < backoffSeconds (n + 1) := by
        unfold backoffSeconds
        rw [if_pos (by omega)]
        omega
      rw [if_neg hnone, if_neg hmany]
  have hle : n + 1 ≤ n + s.unrecorded := by omega
  have hsame : n + 1 + t.unrecorded = n + s.unrecorded := by omega
  constructor
  · clear hattempts hnext hbackoff hcounted
    rcases hs.serial with hone | hfew <;> omega
  · intro htries
    have hclear := hs.clear (htrying ▸ htries)
    have hadd := s.inFlight_eq_add
    have hfew : ¬4 ≤ n + 1 := by
      rcases hs.serial with hone | hfree
      · omega
      · have heq := hn.eq_of_le (by omega)
        omega
    rw [if_neg hfew] at huntil
    simpa only [ServerState.isBlocked, KeystoreRateLimit.isBlocked, huntil, hnow] using hclear
  · refine ⟨n + 1, hattempts, ?_, ?_, fun hmany => ?_⟩
    · rw [hunlocked, hnow, hsame]
      exact helapsed
    · rw [hwrong, hsame]
      exact hn.wrong
    · rw [if_pos hmany] at huntil
      refine ⟨_, huntil, ?_⟩
      have htime := schedule_le_schedule hle
      rw [hunlocked]
      show s.unlockedAt + ((schedule (n + 1) + backoffSeconds (n + 1) : ℕ) : ℤ) ≤ _
      omega

/-- The state after one request has gone on. -/
def resumed (s after : ServerState) (i : ℕ) (request : Request) (phase : Phase) : ServerState :=
  { after with requests := s.requests.set i { request with phase := phase } }

variable {i : ℕ} {request : Request} (after : ServerState) (phase : Phase)

theorem trying_resumed (hget : s.requests[i]? = some request) :
    (resumed s after i request phase).trying + (if request.isTrying then 1 else 0) =
      s.trying + if Request.isTrying { request with phase := phase } then 1 else 0 :=
  countP_set_add Request.isTrying hget _

theorem unrecorded_resumed (hget : s.requests[i]? = some request) :
    (resumed s after i request phase).unrecorded + (if request.isUnrecorded then 1 else 0) =
      s.unrecorded + if Request.isUnrecorded { request with phase := phase } then 1 else 0 :=
  countP_set_add Request.isUnrecorded hget _

/-- A request that is not in flight moves on and does not come to be. -/
theorem Consistent.move {phase : Phase} (hs : Consistent s) (after : ServerState)
    (hget : s.requests[i]? = some request)
    (hold : request.isUnrecorded = false)
    (hnew : Request.isInFlight { request with phase := phase } = false)
    (hnow : after.now = s.now) (hrate : after.rateLimit = s.rateLimit)
    (hunlocked : after.unlockedAt = s.unlockedAt) (hwrong : after.wrong = s.wrong) :
    Consistent (resumed s after i request phase) := by
  have htrying := trying_resumed after phase hget
  have hunrecorded := unrecorded_resumed after phase hget
  obtain ⟨hnotTrying, hnotUnrecorded⟩ := Bool.or_eq_false_iff.mp hnew
  rw [hnotTrying] at htrying
  rw [hold, hnotUnrecorded] at hunrecorded
  refine hs.of_same hnow hrate hunlocked hwrong ?_ ?_
  · simp only [Bool.false_eq_true, if_false] at htrying
    omega
  · simpa using hunrecorded

end Steps

section Runs

variable {Key : Type} (libs : Libraries Key) {s : ServerState}

theorem step_resume {i : ℕ} {request : Request} (attempt : WriteAttempt) (completes : Bool)
    (hget : s.requests[i]? = some request) :
    step libs s (.resume i attempt completes) =
      resumed s (s.advance libs request attempt completes).1 i request
        (s.advance libs request attempt completes).2 := by
  simp only [step, hget]
  rfl

/-- The step lemma for a request that goes on, phase by phase. -/
theorem resume_consistent {i : ℕ} {request : Request} {attempt : WriteAttempt} {completes : Bool}
    (hs : Consistent s) (hget : s.requests[i]? = some request)
    (horderly : request.Orderly libs s attempt) :
    Consistent (step libs s (.resume i attempt completes)) := by
  rw [step_resume libs attempt completes hget]
  have htrying := fun after phase => trying_resumed after phase hget
  have hunrecorded := fun after phase =>
    unrecorded_resumed after phase hget
  unfold Request.Orderly at horderly
  cases hphase : request.phase with
  | arrived =>
    have hold : request.isUnrecorded = false := by simp [Request.isUnrecorded, hphase]
    cases hform : request.form with
    | unlock =>
      simp only [ServerState.advance, hphase, hform]
      apply hs.move s hget hold _ rfl rfl rfl rfl
      split <;> simp [Request.isInFlight, Request.isTrying, Request.isUnrecorded]
    | onboarding confirm =>
      simp only [ServerState.advance, hphase, hform]
      apply hs.move s hget hold _ rfl rfl rfl rfl
      split <;> simp [Request.isInFlight, Request.isTrying, Request.isUnrecorded, hform]
  | checking =>
    have hold : request.isUnrecorded = false := by simp [Request.isUnrecorded, hphase]
    simp only [ServerState.advance, hphase]
    by_cases hstops : (s.isBlocked || request.isEmpty) = true
    · rw [if_pos hstops]
      apply hs.move s hget hold _ rfl rfl rfl rfl
      simp [Request.isInFlight, Request.isTrying, Request.isUnrecorded]
    · rw [if_neg hstops]
      cases hform : request.form with
      | onboarding confirm =>
        apply hs.move s hget hold _ rfl rfl rfl rfl
        simp [Request.isInFlight, Request.isTrying, Request.isUnrecorded, hform]
      | unlock =>
        simp only [hphase, hform] at horderly
        simp only [Bool.or_eq_true, not_or, Bool.not_eq_true] at hstops
        have hone := htrying s .authenticating
        have hzero := hunrecorded s .authenticating
        simp only [Request.isTrying, hform, hphase] at hone
        simp only [Request.isUnrecorded, hphase] at hzero
        refine hs.pass rfl rfl rfl rfl (by simpa using hone) (by simpa using hzero) hstops.1 ?_
        rcases horderly with hblocked | hempty | hfree
        · rw [hstops.1] at hblocked
          cases hblocked
        · rw [hstops.2] at hempty
          cases hempty
        · exact hfree
  | authenticating =>
    have hold : request.isUnrecorded = false := by simp [Request.isUnrecorded, hphase]
    simp only [ServerState.advance, hphase]
    cases haccepted : (s.tryPassword libs request.trimmed attempt).1.isOk with
    | true =>
      have hwrong : (s.afterTry libs request.trimmed attempt).wrong = s.wrong := by
        simp [ServerState.afterTry, haccepted]
      apply hs.move (s.afterTry libs request.trimmed attempt) hget hold _ rfl rfl rfl hwrong
      simp [Form.afterTry, Request.isInFlight, Request.isTrying, Request.isUnrecorded]
    | false =>
      cases hform : request.form with
      | unlock =>
        have hone := htrying (s.afterTry libs request.trimmed attempt) (.recording false)
        have hzero := hunrecorded (s.afterTry libs request.trimmed attempt) (.recording false)
        simp only [Request.isTrying, hform, hphase] at hone
        simp only [Request.isUnrecorded, hphase] at hzero
        simp only [Form.afterTry]
        have hwrong : (s.afterTry libs request.trimmed attempt).wrong ≤ s.wrong + 1 := by
          unfold ServerState.afterTry
          simp only
          split <;> omega
        exact hs.fail rfl rfl rfl hwrong (by simpa using hone) (by simpa using hzero)
      | onboarding confirm =>
        have hwrong : (s.afterTry libs request.trimmed attempt).wrong = s.wrong := by
          simp only [hform, hphase, haccepted] at horderly
          unfold ServerState.afterTry
          cases hexists : keystoreExists s.keystore with
          | false => simp
          | true => exact absurd (horderly hexists).2 (by simp)
        apply hs.move (s.afterTry libs request.trimmed attempt) hget hold _ rfl rfl rfl hwrong
        simp [Form.afterTry, Request.isInFlight, Request.isTrying, Request.isUnrecorded]
  | recording accepted =>
    cases accepted with
    | true =>
      simp only [ServerState.advance, hphase]
      have hone := htrying (s.setKeystoreUnlocked completes) .done
      have hzero := hunrecorded (s.setKeystoreUnlocked completes) .done
      simp only [Request.isTrying, hphase] at hone
      simp only [Request.isUnrecorded, hphase] at hzero
      cases completes with
      | true =>
        exact hs.reset rfl rfl rfl (le_of_eq (by simpa using hone)) (by simpa using hzero)
      | false =>
        exact hs.of_same rfl rfl rfl rfl (le_of_eq (by simpa using hone)) (by simpa using hzero)
    | false =>
      simp only [ServerState.advance, hphase]
      have hone := htrying s.recordKeystoreFailedAttempt .done
      have hzero := hunrecorded s.recordKeystoreFailedAttempt .done
      simp only [Request.isTrying, hphase] at hone
      simp only [Request.isUnrecorded, hphase] at hzero
      exact hs.record rfl rfl rfl rfl (by simpa using hone) (by simpa using hzero)
  | done =>
    simp only [ServerState.advance, hphase]
    apply hs.move s hget (by simp [Request.isUnrecorded, hphase]) _ rfl rfl rfl rfl
    simp [Request.isInFlight, Request.isTrying, Request.isUnrecorded]

theorem step_consistent {action : Action} (hs : Consistent s) (h : Orderly libs s action) :
    Consistent (step libs s action) := by
  cases action with
  | elapse seconds => exact hs.elapse seconds
  | replaceKeystore keystore => exact hs.of_same rfl rfl rfl rfl (Nat.le_refl _) rfl
  | submit form password =>
    have hcount : ∀ p : Request → Bool, p ⟨form, password, .arrived⟩ = false →
        (s.requests ++ [(⟨form, password, .arrived⟩ : Request)]).countP p =
          s.requests.countP p := by
      intro p hp
      rw [List.countP_append, List.countP_singleton, hp]
      rfl
    exact hs.of_same rfl rfl rfl rfl
      (le_of_eq (hcount _ (by simp [Request.isTrying])))
      (hcount _ (by simp [Request.isUnrecorded]))
  | resume i attempt completes =>
    cases hget : s.requests[i]? with
    | none =>
      have hstays : step libs s (.resume i attempt completes) = s := by simp only [step, hget]
      rw [hstays]
      exact hs
    | some request => exact resume_consistent libs hs hget (h request hget)

theorem triesUnblocked_of_consistent {action : Action} (hs : Consistent s)
    (h : Orderly libs s action) : TriesUnblocked s action := by
  rintro i attempt completes request rfl hget hphase hexists
  have horderly := h request hget
  unfold Request.Orderly at horderly
  cases hform : request.form with
  | unlock =>
    apply hs.clear
    exact countP_pos_of_get hget (by simp [Request.isTrying, hform, hphase])
  | onboarding confirm =>
    simp only [hform, hphase] at horderly
    exact (horderly hexists).1

/-- A step that lowers the counter is the end of an accepted unlock. -/
theorem resetByUnlock (s : ServerState) (action : Action) : ResetByUnlock libs s action := by
  intro hless
  cases action with
  | elapse seconds => exact absurd hless (Nat.lt_irrefl _)
  | replaceKeystore keystore => exact absurd hless (Nat.lt_irrefl _)
  | submit form password => exact absurd hless (Nat.lt_irrefl _)
  | resume i attempt completes =>
    cases hget : s.requests[i]? with
    | none =>
      simp only [step, hget] at hless
      exact absurd hless (Nat.lt_irrefl _)
    | some request =>
      refine ⟨i, attempt, completes, request, rfl, hget, ?_⟩
      rw [step_resume libs attempt completes hget] at hless
      have hkept : ∀ phase, request.phase = phase → phase ≠ .recording true →
          s.rateLimit.failedAttempts ≤
            (s.advance libs request attempt completes).1.rateLimit.failedAttempts := by
        rintro phase hphase hother
        unfold ServerState.advance
        rw [hphase]
        cases phase with
        | arrived => cases request.form <;> exact Nat.le_refl _
        | checking => exact Nat.le_refl _
        | authenticating => exact Nat.le_refl _
        | done => exact Nat.le_refl _
        | recording accepted =>
          cases accepted with
          | true => exact absurd rfl hother
          | false =>
            show _ ≤ (s.rateLimit.recordFailedAttempt s.now).failedAttempts
            rw [KeystoreRateLimit.failedAttempts_recordFailedAttempt]
            exact le_min (Nat.le_succ _) s.rateLimit.inRange
      by_contra hother
      exact absurd hless (Nat.not_lt.mpr (hkept request.phase rfl hother))

/-- As long as requests take turns past the check, and onboarding tries only the
right password and not while attempts are blocked, the limit holds: nothing is
tried while blocked, the wrong passwords keep to the schedule, and only an
accepted password resets the counter. -/
theorem attempts_limited (now : ℤ) (keystore : SealedFile) (actions : List Action)
    (h : Along (step libs) (Orderly libs) (.start now keystore) actions) :
    Along (step libs) (Limited libs) (.start now keystore) actions := by
  have hstep : ∀ s action, Consistent s → Orderly libs s action →
      Consistent (step libs s action) := fun _ _ hs horderly => step_consistent libs hs horderly
  refine along_of_invariant hstep ?_ (start_consistent now keystore) h
  intro s action hs horderly
  exact ⟨triesUnblocked_of_consistent libs hs horderly, resetByUnlock libs s action,
    (hstep s action hs horderly).withinSchedule⟩

end Runs

section Sample

/-- A keystore made with the password `pw`. -/
def sampleKeystore : SealedFile :=
  (createKeystore sampleLibraries .absent "pw" sampleAttempt).2

/-- The steps of one request, from its arrival. -/
def resumes (i n : ℕ) : List Action := List.replicate n (.resume i sampleAttempt true)

/-- Four unlocks with a wrong password, all past their check before one of them is tried. -/
def fourOverlapping : List Action :=
  ((List.range 4).flatMap fun i => .submit .unlock "no" :: resumes i 2) ++
    (List.range 4).flatMap fun i => resumes i 2

/-- The right password is put off, a wrong one tried after the wait is put off for longer, and after
that the right one is accepted from both forms. -/
def waitingTries : List Action :=
  .submit .unlock "pw" :: resumes 4 2 ++ .elapse 300 :: .submit .unlock "no" :: resumes 5 4 ++
    .elapse 600 :: .submit (.onboarding none) "pw" :: resumes 6 3 ++
    .submit .unlock "pw" :: resumes 7 4

set_option maxRecDepth 20000 in
theorem attempts_limited_secondTry :
    (run (step sampleLibraries) (.start 0 sampleKeystore) fourOverlapping).isBlocked = true ∧
      Along (step sampleLibraries) (Limited sampleLibraries) (.start 0 sampleKeystore)
        (fourOverlapping ++ waitingTries) := by
  refine ⟨by decide +kernel, ?_⟩
  apply attempts_limited
  decide +kernel

/-- Five wrong passwords in the onboarding form. -/
def onboardingGuesses : List Action :=
  (List.range 5).flatMap fun i => .submit (.onboarding none) "no" :: resumes i 2

/-- Five unlocks that are all past their check before one of them is tried. -/
def overlappingUnlocks : List Action :=
  ((List.range 5).flatMap fun i => .submit .unlock "no" :: resumes i 2) ++
    (List.range 5).flatMap fun i => resumes i 1

set_option maxRecDepth 20000 in
/-- Five wrong passwords within the same second, where the fifth has to wait five minutes. -/
theorem guesses_unlimited :
    ((run (step sampleLibraries) (.start 0 sampleKeystore) onboardingGuesses).wrong = 5 ∧
      (run (step sampleLibraries) (.start 0 sampleKeystore) onboardingGuesses).now = 0) ∧
    ((run (step sampleLibraries) (.start 0 sampleKeystore) overlappingUnlocks).wrong = 5 ∧
      (run (step sampleLibraries) (.start 0 sampleKeystore) overlappingUnlocks).now = 0) ∧
    schedule 5 = 300 ∧
    ¬∀ actions, Along (step sampleLibraries) (Limited sampleLibraries)
      (.start 0 sampleKeystore) actions := by
  refine ⟨⟨by decide, by decide⟩, ⟨by decide, by decide⟩, by decide, fun hall => ?_⟩
  have hlast := along_iff.mp (hall onboardingGuesses) onboardingGuesses.dropLast
    (.resume 4 sampleAttempt true) [] rfl
  exact absurd hlast.2.2 (by unfold WithinSchedule; decide)

end Sample

end Esdiag.UnlockRateLimit
