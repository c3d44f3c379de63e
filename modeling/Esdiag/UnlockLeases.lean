import Esdiag.KeystoreOperations

/-!
Unlock leases. A lease is a small file, sealed for this user and machine, that
holds the keystore password until an expiry. Whoever reads it for use checks
that its password still opens the keystore and clears it otherwise. Rotating
the keystore password writes the keystore anew and then the lease, with the new
password and the old expiry, without that check.
-/
namespace Esdiag.UnlockLeases

open YamlValues Fields SealedEnvelopes Keystores KeystoreOperations

/-- Seconds since 1970, as a signed word of 64 bits. -/
structure Epoch where
  seconds : ℤ
  inRange : -2 ^ 63 ≤ seconds ∧ seconds < 2 ^ 63
  deriving DecidableEq

theorem leaseVersion_lt : 1 < 256 := by omega

def leaseVersion : Fin 256 := ⟨1, leaseVersion_lt⟩

structure UnlockLeaseData where
  version : Fin 256
  expiresAtEpoch : Epoch
  password : String
  deriving DecidableEq

structure UnlockLease where
  expiresAtEpoch : Epoch
  password : String
  deriving DecidableEq

inductive LeaseError where
  | sealed (error : OpenError)
  | yaml
  | context
  | encrypt
  | io
  deriving DecidableEq

/-- The text of an error, where it is not a library's own. -/
def LeaseError.message : LeaseError → Option String
  | sealed error => openErrorMessage "unlock lease" "Failed to decrypt unlock lease" error
  | encrypt => some "Failed to encrypt unlock lease"
  | yaml | context | io => none

section Plaintext

def readEpoch : Yaml → Option Epoch
  | .int seconds =>
    if h : -2 ^ 63 ≤ seconds ∧ seconds < 2 ^ 63 then some ⟨seconds, h⟩ else none
  | _ => none

def readUnlockLeaseData (value : Yaml) : Option UnlockLeaseData := do
  let fields ← value.asMapping
  let version ← required "version" readByte fields
  let expiresAtEpoch ← required "expires_at_epoch" readEpoch fields
  let password ← required "password" Yaml.asString fields
  pure { version, expiresAtEpoch, password }

def writeUnlockLeaseData (data : UnlockLeaseData) : Yaml :=
  .mapping [("version", .int data.version.val),
    ("expires_at_epoch", .int data.expiresAtEpoch.seconds), ("password", .string data.password)]

theorem readEpoch_int (epoch : Epoch) : readEpoch (.int epoch.seconds) = some epoch :=
  dif_pos epoch.inRange

theorem readUnlockLeaseData_write (data : UnlockLeaseData) :
    readUnlockLeaseData (writeUnlockLeaseData data) = some data := by
  obtain ⟨fields, hwritten, hversion, hexpires, hpassword⟩ : ∃ fields,
      writeUnlockLeaseData data = .mapping fields ∧
      KeyedMaps.findEntry "version" fields = some (.int data.version.val) ∧
      KeyedMaps.findEntry "expires_at_epoch" fields = some (.int data.expiresAtEpoch.seconds) ∧
      KeyedMaps.findEntry "password" fields = some (.string data.password) :=
    ⟨_, rfl, rfl, rfl, rfl⟩
  rw [hwritten]
  refine (bind_of_eq_some (required_of_findEntry hversion (readByte_int data.version)) _).trans ?_
  refine (bind_of_eq_some
    (required_of_findEntry hexpires (readEpoch_int data.expiresAtEpoch)) _).trans ?_
  have htext : Yaml.asString (.string data.password) = some data.password := rfl
  exact bind_of_eq_some (required_of_findEntry hpassword htext) _

end Plaintext

/-- The two files that custody of the secrets rests on. -/
structure Custody where
  keystore : SealedFile
  lease : SealedFile
  deriving DecidableEq

section Files

variable {Key : Type} (libs : Libraries Key) (context : Option String)

def decryptUnlockLease (envelope : Envelope) : Except LeaseError UnlockLeaseData :=
  match context with
  | none => .error .context
  | some context =>
    match fileFormat.openEnvelope libs.sealing context envelope with
    | .error error => .error (.sealed error)
    | .ok text =>
      match (libs.text.parse text).bind readUnlockLeaseData with
      | none => .error .yaml
      | some data => .ok data

def writeUnlockLeaseUntil (attempt : WriteAttempt) (password : String) (expiresAtEpoch : Epoch) :
    Except LeaseError SealedFile :=
  match context with
  | none => .error .context
  | some context =>
    match libs.text.render (writeUnlockLeaseData ⟨leaseVersion, expiresAtEpoch, password⟩) with
    | none => .error .yaml
    | some text =>
      match fileFormat.sealText libs.sealing context attempt.draw text with
      | none => .error .encrypt
      | some envelope => if attempt.ioFails then .error .io else .ok (.envelope envelope)

/-- What a lease file holds, where it can be decrypted at all. -/
def leaseData (lease : SealedFile) : Option UnlockLeaseData :=
  match lease with
  | .absent | .unparsed => none
  | .envelope envelope => (decryptUnlockLease libs context envelope).toOption

/-- Remove the lease file, which the file system may refuse. -/
def removeUnlockFileBestEffort (removes : Bool) (lease : SealedFile) : SealedFile :=
  if removes then .absent else lease

/-- An unexpired lease of the known version; an expired one is removed. -/
def readUnlockLease (now : Epoch) (removes : Bool) (lease : SealedFile) :
    Option UnlockLease × SealedFile :=
  match leaseData libs context lease with
  | none => (none, lease)
  | some data =>
    if data.version ≠ leaseVersion then (none, lease)
    else if data.expiresAtEpoch.seconds ≤ now.seconds then
      (none, removeUnlockFileBestEffort removes lease)
    else (some ⟨data.expiresAtEpoch, data.password⟩, lease)

structure UnlockStatus where
  keystoreExists : Bool
  unlockActive : Bool
  expiresAtEpoch : Option Epoch
  deriving DecidableEq

/-- The lease in use, once its password is validated. -/
def usableLease (now : Epoch) (removes : Bool) (custody : Custody) :
    Option UnlockLease × Custody :=
  match readUnlockLease libs context now removes custody.lease with
  | (none, lease) => (none, { custody with lease })
  | (some unlock, lease) =>
    match validateExistingKeystorePassword libs custody.keystore unlock.password with
    | .ok () => (some unlock, { custody with lease })
    | .error _ => (none, { custody with lease := removeUnlockFileBestEffort removes lease })

def getUnlockStatus (now : Epoch) (removes : Bool) (custody : Custody) :
    UnlockStatus × Custody :=
  let (lease, after) := usableLease libs context now removes custody
  ({ keystoreExists := keystoreExists custody.keystore
     unlockActive := lease.isSome
     expiresAtEpoch := lease.map UnlockLease.expiresAtEpoch }, after)

/-- What a call finds around it when it needs the keystore password. -/
structure PasswordSources where
  scopedPassword : Option String
  environment : Option String
  interactive : Bool
  prompted : Option String
  answer : Option String

/-- The password in force, with the answer that later prompts reuse. -/
def getKeystorePasswordWithPrompt (sources : PasswordSources) (now : Epoch) (removes : Bool)
    (custody : Custody) : Option String × Option String × Custody :=
  match sources.scopedPassword.or sources.environment with
  | some password => (some password, sources.prompted, custody)
  | none =>
    match usableLease libs context now removes custody with
    | (some unlock, after) => (some unlock.password, sources.prompted, after)
    | (none, after) =>
      if sources.interactive && keystoreExists custody.keystore then
        match sources.prompted, sources.answer with
        | some password, _ => (some password, sources.prompted, after)
        | none, none => (none, none, after)
        | none, some password =>
          match validateExistingKeystorePassword libs custody.keystore password with
          | .ok () => (some password, some password, after)
          | .error _ => (none, none, after)
      else (none, sources.prompted, after)

structure RotationAttempt where
  keystore : WriteAttempt
  lease : WriteAttempt
  removes : Bool

inductive RotationError where
  | keystore (error : KeystoreError)
  | lease (error : LeaseError)
  deriving DecidableEq

def rotateKeystorePassword (attempt : RotationAttempt) (now : Epoch)
    (currentPassword newPassword : String) (custody : Custody) :
    Except RotationError Unit × Custody :=
  match readStore libs custody.keystore currentPassword with
  | .error error => (.error (.keystore error), custody)
  | .ok store =>
    match writeStore libs attempt.keystore newPassword store with
    | .error error => (.error (.keystore error), custody)
    | .ok written =>
      match readUnlockLease libs context now attempt.removes custody.lease with
      | (none, lease) => (.ok (), ⟨written, lease⟩)
      | (some unlock, lease) =>
        match writeUnlockLeaseUntil libs context attempt.lease newPassword
          unlock.expiresAtEpoch with
        | .error error => (.error (.lease error), ⟨written, lease⟩)
        | .ok renewed => (.ok (), ⟨written, renewed⟩)

end Files

section Access

variable {Key : Type} (libs : Libraries Key) (context : Option String)

/-- The lease unlocks the keystore now, and will until its expiry. -/
def ActiveUntil (custody : Custody) (now expiry : Epoch) : Prop :=
  ∃ data, leaseData libs context custody.lease = some data ∧ data.version = leaseVersion ∧
    data.expiresAtEpoch = expiry ∧ now.seconds < expiry.seconds ∧
    validateExistingKeystorePassword libs custody.keystore data.password = .ok ()

def Unlocks (custody : Custody) (now : Epoch) : Prop :=
  ∃ expiry, ActiveUntil libs context custody now expiry

variable {libs context}

theorem leaseData_writeUnlockLeaseUntil (hlib : libs.sealing.Lawful) {attempt : WriteAttempt}
    {password : String} {expiry : Epoch} {file : SealedFile}
    (h : writeUnlockLeaseUntil libs context attempt password expiry = .ok file) :
    leaseData libs context file = some ⟨leaseVersion, expiry, password⟩ := by
  unfold writeUnlockLeaseUntil at h
  cases hcontext : context with
  | none => simp [hcontext] at h
  | some context =>
    cases htext : libs.text.render (writeUnlockLeaseData ⟨leaseVersion, expiry, password⟩) with
    | none => simp [hcontext, htext] at h
    | some text =>
      cases hsealed : fileFormat.sealText libs.sealing context attempt.draw text with
      | none => simp [hcontext, htext, hsealed] at h
      | some envelope =>
        cases hio : attempt.ioFails with
        | true => simp [hcontext, htext, hsealed, hio] at h
        | false =>
          obtain rfl : SealedFile.envelope envelope = file := by
            simpa [hcontext, htext, hsealed, hio] using h
          simp only [leaseData, decryptUnlockLease, Format.open_own hlib hsealed,
            libs.text.parse_render _ _ htext, Option.bind_some, readUnlockLeaseData_write]
          rfl

theorem validateExistingKeystorePassword_writeStore (hlib : libs.sealing.Lawful)
    {attempt : WriteAttempt} {password : String} {store : KeystoreData} {file : SealedFile}
    (h : writeStore libs attempt password store = .ok file) :
    validateExistingKeystorePassword libs file password = .ok () := by
  have hread := readStore_writeStore hlib h
  obtain ⟨-, text, envelope, rfl, -, -⟩ := writeStore_eq_ok h
  unfold validateExistingKeystorePassword
  rw [hread]
  rfl

/-- A lease that is read is the unexpired content of its file, which is kept. -/
theorem readUnlockLease_eq_some {now : Epoch} {removes : Bool} {lease after : SealedFile}
    {unlock : UnlockLease}
    (h : readUnlockLease libs context now removes lease = (some unlock, after)) :
    after = lease ∧ now.seconds < unlock.expiresAtEpoch.seconds ∧
      leaseData libs context lease = some ⟨leaseVersion, unlock.expiresAtEpoch, unlock.password⟩ := by
  unfold readUnlockLease at h
  cases hdata : leaseData libs context lease with
  | none => simp [hdata] at h
  | some data =>
    simp only [hdata] at h
    by_cases hversion : data.version = leaseVersion
    · by_cases hexpired : data.expiresAtEpoch.seconds ≤ now.seconds
      · simp [hversion, hexpired] at h
      · simp only [hversion, ne_eq, not_true_eq_false, if_false, hexpired, Prod.mk.injEq,
          Option.some.injEq] at h
        obtain ⟨rfl, rfl⟩ := h
        exact ⟨rfl, Int.not_le.mp hexpired, by rw [← hversion]⟩
    · simp [hversion] at h

/-- A file that is read as no lease is none at any later time. -/
theorem expired_of_readUnlockLease_eq_none {now : Epoch} {removes : Bool}
    {lease after : SealedFile} {data : UnlockLeaseData}
    (h : readUnlockLease libs context now removes lease = (none, after))
    (hversion : data.version = leaseVersion)
    (hdata : leaseData libs context lease = some data ∨
      leaseData libs context after = some data) :
    data.expiresAtEpoch.seconds ≤ now.seconds := by
  unfold readUnlockLease at h
  cases hlease : leaseData libs context lease with
  | none =>
    obtain rfl : lease = after := by simpa [hlease] using h
    simp [hlease] at hdata
  | some found =>
    simp only [hlease] at h
    have hcase : after = lease ∨ after = .absent := by
      by_cases hfound : found.version = leaseVersion
      · by_cases hexpired : found.expiresAtEpoch.seconds ≤ now.seconds
        · have hafter : removeUnlockFileBestEffort removes lease = after := by
            simpa [hfound, hexpired] using h
          rw [← hafter]
          cases removes with
          | true => exact Or.inr rfl
          | false => exact Or.inl rfl
        · simp [hfound, hexpired] at h
      · rw [if_pos hfound] at h
        exact Or.inl (Prod.mk.inj h).2.symm
    have hfound : found = data := by
      rcases hdata with hdata | hdata
      · exact Option.some.inj (hlease.symm.trans hdata)
      · rcases hcase with rfl | rfl
        · exact Option.some.inj (hlease.symm.trans hdata)
        · cases hdata
    by_contra hlive
    simp [hfound, hversion, hlive] at h

theorem unlocks_of_usableLease {now : Epoch} {removes : Bool} {custody : Custody}
    {unlock : UnlockLease} (h : (usableLease libs context now removes custody).1 = some unlock) :
    ActiveUntil libs context custody now unlock.expiresAtEpoch := by
  unfold usableLease at h
  cases hread : readUnlockLease libs context now removes custody.lease with
  | mk found lease =>
    cases found with
    | none => simp [hread] at h
    | some found =>
      cases hvalid : validateExistingKeystorePassword libs custody.keystore found.password with
      | error error => simp [hread, hvalid] at h
      | ok _ =>
        obtain rfl : found = unlock := by simpa [hread, hvalid] using h
        obtain ⟨-, hlive, hdata⟩ := readUnlockLease_eq_some hread
        exact ⟨_, hdata, rfl, rfl, hlive, hvalid⟩

/-- The status says that a lease is active exactly when one unlocks the keystore. -/
theorem getUnlockStatus_unlockActive_iff (now : Epoch) (removes : Bool) (custody : Custody) :
    (getUnlockStatus libs context now removes custody).1.unlockActive = true ↔
      Unlocks libs context custody now := by
  constructor
  · intro hactive
    obtain ⟨unlock, hunlock⟩ := Option.isSome_iff_exists.mp hactive
    exact ⟨_, unlocks_of_usableLease hunlock⟩
  · rintro ⟨expiry, data, hdata, hversion, rfl, hlive, hvalid⟩
    have hread : readUnlockLease libs context now removes custody.lease =
        (some ⟨data.expiresAtEpoch, data.password⟩, custody.lease) := by
      simp [readUnlockLease, hdata, hversion, Int.not_le.mpr hlive]
    simp [getUnlockStatus, usableLease, hread, hvalid]

end Access

section Rotation

variable {Key : Type} (libs : Libraries Key) (context : Option String)

/-- What a rotation owes to the leases, from the custody before it to that after it. -/
structure NeverWidens (now : Epoch) (before : Custody)
    (rotation : Except RotationError Unit × Custody) : Prop where
  locked : ¬ Unlocks libs context before now →
    ∀ later : Epoch, now.seconds ≤ later.seconds → ¬ Unlocks libs context rotation.2 later
  expiry : ∀ expiry, ActiveUntil libs context before now expiry →
    ActiveUntil libs context rotation.2 now expiry
  failed : ∀ error, rotation.1 = .error error → rotation.2 = before

/-- Once the keystore is written, an unexpired lease has a password that opened the
keystore before and is renewed; or it cannot be renewed, and nothing was changed. -/
def RenewsOnlyActive (attempt : RotationAttempt) (now : Epoch)
    (currentPassword newPassword : String) (custody : Custody) : Prop :=
  ∀ store written, readStore libs custody.keystore currentPassword = .ok store →
    writeStore libs attempt.keystore newPassword store = .ok written →
    ∀ data, leaseData libs context custody.lease = some data → data.version = leaseVersion →
      now.seconds < data.expiresAtEpoch.seconds →
      match writeUnlockLeaseUntil libs context attempt.lease newPassword data.expiresAtEpoch with
      | .ok _ => validateExistingKeystorePassword libs custody.keystore data.password = .ok ()
      | .error _ => written = custody.keystore

variable {libs context}

theorem rotateKeystorePassword_of_live {attempt : RotationAttempt} {now : Epoch}
    {currentPassword newPassword : String} {custody : Custody} {store : KeystoreData}
    {written : SealedFile} {data : UnlockLeaseData}
    (hread : readStore libs custody.keystore currentPassword = .ok store)
    (hwrite : writeStore libs attempt.keystore newPassword store = .ok written)
    (hdata : leaseData libs context custody.lease = some data) (hversion : data.version = leaseVersion)
    (hlive : now.seconds < data.expiresAtEpoch.seconds) :
    rotateKeystorePassword libs context attempt now currentPassword newPassword custody =
      match writeUnlockLeaseUntil libs context attempt.lease newPassword data.expiresAtEpoch with
      | .error error => (.error (.lease error), ⟨written, custody.lease⟩)
      | .ok renewed => (.ok (), ⟨written, renewed⟩) := by
  have hlease : readUnlockLease libs context now attempt.removes custody.lease =
      (some ⟨data.expiresAtEpoch, data.password⟩, custody.lease) := by
    simp [readUnlockLease, hdata, hversion, Int.not_le.mpr hlive]
  simp only [rotateKeystorePassword, hread, hwrite, hlease]

/-- A rotation that stops before it writes changes nothing. -/
theorem neverWidens_of_unchanged {now : Epoch} {custody : Custody}
    {result : Except RotationError Unit} : NeverWidens libs context now custody (result, custody) where
  locked hlocked later hlater := by
    rintro ⟨expiry, data, hdata, hversion, hexpiry, hlive, hvalid⟩
    exact hlocked ⟨expiry, data, hdata, hversion, hexpiry, by omega, hvalid⟩
  expiry _ h := h
  failed _ _ := rfl

/-- Renewing a lease that was active keeps what was unlocked and until when. -/
theorem neverWidens_of_renewed (hlib : libs.sealing.Lawful) {attempt : RotationAttempt}
    {now : Epoch} {newPassword : String} {custody : Custody} {store : KeystoreData}
    {written renewed : SealedFile} {data : UnlockLeaseData}
    (hwrite : writeStore libs attempt.keystore newPassword store = .ok written)
    (hdata : leaseData libs context custody.lease = some data) (hversion : data.version = leaseVersion)
    (hlive : now.seconds < data.expiresAtEpoch.seconds)
    (hrenewed : writeUnlockLeaseUntil libs context attempt.lease newPassword
      data.expiresAtEpoch = .ok renewed)
    (hvalid : validateExistingKeystorePassword libs custody.keystore data.password = .ok ()) :
    NeverWidens libs context now custody (.ok (), ⟨written, renewed⟩) where
  locked hlocked := absurd ⟨_, data, hdata, hversion, rfl, hlive, hvalid⟩ hlocked
  expiry expiry := by
    rintro ⟨found, hfound, -, rfl, -, -⟩
    obtain rfl : data = found := Option.some.inj (hdata.symm.trans hfound)
    exact ⟨_, leaseData_writeUnlockLeaseUntil hlib hrenewed, rfl, rfl, hlive,
      validateExistingKeystorePassword_writeStore hlib hwrite⟩
  failed _ h := by cases h

/-- Without an unexpired lease there is nothing to renew. -/
theorem neverWidens_of_no_lease {now : Epoch} {removes : Bool} {custody : Custody}
    {written after : SealedFile}
    (hlease : readUnlockLease libs context now removes custody.lease = (none, after)) :
    NeverWidens libs context now custody (.ok (), ⟨written, after⟩) where
  locked _ later hlater := by
    rintro ⟨expiry, data, hdata, hversion, rfl, hlive, -⟩
    have hexpired := expired_of_readUnlockLease_eq_none hlease hversion (Or.inr hdata)
    omega
  expiry expiry := by
    rintro ⟨data, hdata, hversion, rfl, hlive, -⟩
    have hexpired := expired_of_readUnlockLease_eq_none hlease hversion (Or.inl hdata)
    omega
  failed _ h := by cases h

theorem rotation_never_widens_iff (hlib : libs.sealing.Lawful) (attempt : RotationAttempt)
    (now : Epoch) (currentPassword newPassword : String) (custody : Custody) :
    NeverWidens libs context now custody
        (rotateKeystorePassword libs context attempt now currentPassword newPassword custody) ↔
      RenewsOnlyActive libs context attempt now currentPassword newPassword custody := by
  constructor
  · intro h store written hread hwrite data hdata hversion hlive
    rw [rotateKeystorePassword_of_live hread hwrite hdata hversion hlive] at h
    cases hrenewed : writeUnlockLeaseUntil libs context attempt.lease newPassword
        data.expiresAtEpoch with
    | error error =>
      rw [hrenewed] at h
      exact congrArg Custody.keystore (h.failed _ rfl)
    | ok renewed =>
      rw [hrenewed] at h
      -- The renewed lease unlocks, so a lease unlocked before, and it is this one.
      by_contra hvalid
      have hafter : Unlocks libs context ⟨written, renewed⟩ now :=
        ⟨_, _, leaseData_writeUnlockLeaseUntil hlib hrenewed, rfl, rfl, hlive,
          validateExistingKeystorePassword_writeStore hlib hwrite⟩
      refine h.locked ?_ now (Int.le_refl _) hafter
      rintro ⟨expiry, found, hfound, -, -, -, hfoundValid⟩
      obtain rfl : data = found := Option.some.inj (hdata.symm.trans hfound)
      exact hvalid hfoundValid
  · intro h
    cases hread : readStore libs custody.keystore currentPassword with
    | error error =>
      simp only [rotateKeystorePassword, hread]
      exact neverWidens_of_unchanged
    | ok store =>
      cases hwrite : writeStore libs attempt.keystore newPassword store with
      | error error =>
        simp only [rotateKeystorePassword, hread, hwrite]
        exact neverWidens_of_unchanged
      | ok written =>
        cases hlease : readUnlockLease libs context now attempt.removes custody.lease with
        | mk found after =>
          cases found with
          | none =>
            simp only [rotateKeystorePassword, hread, hwrite, hlease]
            exact neverWidens_of_no_lease hlease
          | some unlock =>
            obtain ⟨-, hlive, hdata⟩ := readUnlockLease_eq_some hlease
            have hcase := h store written hread hwrite _ hdata rfl hlive
            rw [rotateKeystorePassword_of_live hread hwrite hdata rfl hlive]
            cases hrenewed : writeUnlockLeaseUntil libs context attempt.lease newPassword
                unlock.expiresAtEpoch with
            | error error =>
              obtain rfl : written = custody.keystore := by simpa [hrenewed] using hcase
              simp only
              exact neverWidens_of_unchanged
            | ok renewed =>
              simp only [hrenewed] at hcase ⊢
              exact neverWidens_of_renewed hlib hwrite hdata rfl hlive hrenewed hcase

def sampleRotation : RotationAttempt := ⟨sampleAttempt, sampleAttempt, true⟩

/-- An empty keystore, beside a lease with the password "old" until 300. -/
def sampleCustody (password : String) : Custody where
  keystore := (writeStore sampleLibraries sampleAttempt password .default).toOption.getD .absent
  lease := (writeUnlockLeaseUntil sampleLibraries (some "user@host") sampleAttempt "old"
    ⟨300, by decide⟩).toOption.getD .absent

def sampleClock : Epoch := ⟨0, by decide⟩

theorem stale_lease_inactive :
    (getUnlockStatus sampleLibraries (some "user@host") sampleClock true
      (sampleCustody "pw")).1.unlockActive = false := by decide +kernel

theorem rotated_lease_active :
    (getUnlockStatus sampleLibraries (some "user@host") sampleClock true
      (rotateKeystorePassword sampleLibraries (some "user@host") sampleRotation sampleClock
        "pw" "new" (sampleCustody "pw")).2).1.unlockActive = true := by decide +kernel

/-- A lease that no longer opens the keystore does so again after a rotation. -/
theorem stale_lease_renewed :
    (getUnlockStatus sampleLibraries (some "user@host") sampleClock true
        (sampleCustody "pw")).1.unlockActive = false ∧
      ¬ NeverWidens sampleLibraries (some "user@host") sampleClock (sampleCustody "pw")
        (rotateKeystorePassword sampleLibraries (some "user@host") sampleRotation sampleClock
          "pw" "new" (sampleCustody "pw")) := by
  refine ⟨stale_lease_inactive, fun h => ?_⟩
  refine h.locked ?_ sampleClock (Int.le_refl _)
    ((getUnlockStatus_unlockActive_iff _ _ _).mp rotated_lease_active)
  intro hunlocks
  have hactive := (getUnlockStatus_unlockActive_iff _ true _).mpr hunlocks
  rw [stale_lease_inactive] at hactive
  cases hactive

set_option maxRecDepth 20000 in
theorem active_lease_renewed :
    NeverWidens sampleLibraries (some "user@host") sampleClock (sampleCustody "old")
      (rotateKeystorePassword sampleLibraries (some "user@host") sampleRotation sampleClock
        "old" "new" (sampleCustody "old")) := by
  apply (rotation_never_widens_iff sampleSealing_lawful _ _ _ _ _).mpr
  intro store written hread hwrite data hdata hversion hlive
  obtain rfl : ⟨leaseVersion, ⟨300, by decide⟩, "old"⟩ = data := Option.some.inj hdata
  have hvalid : validateExistingKeystorePassword sampleLibraries (sampleCustody "old").keystore
      "old" = .ok () := by rfl
  exact hvalid

end Rotation

end Esdiag.UnlockLeases
