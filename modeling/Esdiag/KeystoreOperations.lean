import Esdiag.Keystores

/-!
The operations on the keystore file. Each of them has its own checks, and they
share one frame: read with the given password, decide, and either keep the file
or replace it by the changed keystore, sealed anew with the same password.
-/
namespace Esdiag.KeystoreOperations

open KeyedMaps YamlValues SealedEnvelopes Keystores

/-- The libraries that the keystore is built on. -/
structure Libraries (Key : Type) where
  sealing : Library Key
  text : YamlText

/-- What a write draws at random, and whether the file system fails it. -/
structure WriteAttempt where
  draw : Draw fileFormat
  ioFails : Bool

section Files

variable {Key : Type} (libs : Libraries Key)

def readStore (file : SealedFile) (password : String) : Except KeystoreError KeystoreData :=
  match file with
  | .absent => .ok .default
  | .unparsed => .error .yaml
  | .envelope envelope =>
    match fileFormat.openEnvelope libs.sealing password envelope with
    | .error error => .error (.sealed error)
    | .ok text =>
      match (libs.text.parse text).bind readKeystoreData with
      | none => .error .yaml
      | some store => .ok store

def writeStore (attempt : WriteAttempt) (password : String) (store : KeystoreData) :
    Except KeystoreError SealedFile :=
  match libs.text.render (writeKeystoreData store) with
  | none => .error .yaml
  | some text =>
    match fileFormat.sealText libs.sealing password attempt.draw text with
    | none => .error .encrypt
    | some envelope => if attempt.ioFails then .error .io else .ok (.envelope envelope)

/-- Read the keystore, decide on its content, and write what was decided. -/
def modifyStore (file : SealedFile) (password : String) (attempt : WriteAttempt)
    (change : KeystoreData → Except KeystoreError (Option KeystoreData)) :
    Except KeystoreError Unit × SealedFile :=
  match readStore libs file password with
  | .error error => (.error error, file)
  | .ok store =>
    match change store with
    | .error error => (.error error, file)
    | .ok none => (.ok (), file)
    | .ok (some changed) =>
      match writeStore libs attempt password changed with
      | .error error => (.error error, file)
      | .ok written => (.ok (), written)

variable {libs}

theorem writeStore_eq_ok {attempt : WriteAttempt} {password : String} {store : KeystoreData}
    {file : SealedFile} (h : writeStore libs attempt password store = .ok file) :
    attempt.ioFails = false ∧ ∃ text envelope, file = .envelope envelope ∧
      libs.text.render (writeKeystoreData store) = some text ∧
      fileFormat.sealText libs.sealing password attempt.draw text = some envelope := by
  unfold writeStore at h
  cases htext : libs.text.render (writeKeystoreData store) with
  | none => simp [htext] at h
  | some text =>
    cases hsealed : fileFormat.sealText libs.sealing password attempt.draw text with
    | none => simp [htext, hsealed] at h
    | some envelope =>
      cases hio : attempt.ioFails with
      | true => simp [htext, hsealed, hio] at h
      | false =>
        exact ⟨rfl, text, envelope, by simpa [htext, hsealed, hio] using h.symm, rfl, hsealed⟩

/-- A written keystore reads back with its password. -/
theorem readStore_writeStore (hlib : libs.sealing.Lawful) {attempt : WriteAttempt}
    {password : String} {store : KeystoreData} {file : SealedFile}
    (h : writeStore libs attempt password store = .ok file) :
    readStore libs file password = .ok store := by
  obtain ⟨-, text, envelope, rfl, htext, hsealed⟩ := writeStore_eq_ok h
  simp only [readStore, Format.open_own hlib hsealed, libs.text.parse_render _ _ htext,
    Option.bind_some, readKeystoreData_write]

/-- Whoever can read a written keystore reads what was written. -/
theorem eq_of_readStore_writeStore (hlib : libs.sealing.Lawful) {attempt : WriteAttempt}
    {password other : String} {store read : KeystoreData} {file : SealedFile}
    (h : writeStore libs attempt password store = .ok file)
    (hread : readStore libs file other = .ok read) : read = store := by
  obtain ⟨-, text, envelope, rfl, htext, hsealed⟩ := writeStore_eq_ok h
  simp only [readStore] at hread
  cases hopen : fileFormat.openEnvelope libs.sealing other envelope with
  | error error => simp [hopen] at hread
  | ok opened =>
    obtain rfl := Format.open_any hlib hsealed hopen
    simp only [hopen, libs.text.parse_render _ _ htext, Option.bind_some,
      readKeystoreData_write] at hread
    exact (Except.ok.inj hread).symm

theorem exists_written {attempt : WriteAttempt} {password : String} {store : KeystoreData}
    (h : (writeStore libs attempt password store).toBool = true) :
    ∃ written, writeStore libs attempt password store = .ok written := by
  cases hwritten : writeStore libs attempt password store with
  | error error => simp [hwritten, Except.toBool] at h
  | ok written => exact ⟨written, rfl⟩

/-- A decided change is written where the write succeeds, and is read from there. -/
theorem modifyStore_written (hlib : libs.sealing.Lawful) {file : SealedFile} {password : String}
    (attempt : WriteAttempt) (change : KeystoreData → Except KeystoreError (Option KeystoreData))
    {store changed : KeystoreData} (hread : readStore libs file password = .ok store)
    (hchange : change store = .ok (some changed))
    (hwrite : (writeStore libs attempt password changed).toBool = true) :
    ∃ written, modifyStore libs file password attempt change = (.ok (), written) ∧
      readStore libs written password = .ok changed := by
  obtain ⟨written, hwritten⟩ := exists_written hwrite
  refine ⟨written, ?_, readStore_writeStore hlib hwritten⟩
  simp only [modifyStore, hread, hchange, hwritten]

variable (libs) in
/-- What an operation of the common frame can do. -/
theorem modifyStore_cases (file : SealedFile) (password : String) (attempt : WriteAttempt)
    (change : KeystoreData → Except KeystoreError (Option KeystoreData)) :
    (∃ error, modifyStore libs file password attempt change = (.error error, file)) ∨
    (∃ store, readStore libs file password = .ok store ∧ change store = .ok none ∧
      modifyStore libs file password attempt change = (.ok (), file)) ∨
    ∃ store changed written, readStore libs file password = .ok store ∧
      change store = .ok (some changed) ∧ writeStore libs attempt password changed = .ok written ∧
      modifyStore libs file password attempt change = (.ok (), written) := by
  unfold modifyStore
  cases hread : readStore libs file password with
  | error error => exact Or.inl ⟨error, rfl⟩
  | ok store =>
    cases hchange : change store with
    | error error => exact Or.inl ⟨error, by simp [hchange]⟩
    | ok result =>
      cases result with
      | none => exact Or.inr (Or.inl ⟨store, rfl, hchange, by simp [hchange]⟩)
      | some changed =>
        cases hwrite : writeStore libs attempt password changed with
        | error error => exact Or.inl ⟨error, by simp [hchange, hwrite]⟩
        | ok written =>
          exact Or.inr (Or.inr ⟨store, changed, written, rfl, hchange, hwrite,
            by simp [hchange, hwrite]⟩)

end Files

section Changes

def parseSecretAuth (username password apikey : Option String) : Except KeystoreError SecretAuth :=
  match apikey, username, password with
  | some apikey, none, none => .ok (.apiKey apikey)
  | none, some username, some password => .ok (.basic username password)
  | _, _, _ => .error .invalidAuth

/-- Add to the entry of a name, which is made where there is none. -/
def upsertEntryAuth (secretId : String) (auth : SecretAuth) (store : KeystoreData) :
    KeystoreData :=
  { store with
    secrets := store.secrets.upsert secretId fun entry => (entry.getD .default).upsertAuth auth }

def addChange (secretId : String) (auth : SecretAuth) (store : KeystoreData) :
    Except KeystoreError (Option KeystoreData) :=
  match store.secrets.find? secretId with
  | some _ => .error (.alreadyExists secretId)
  | none => .ok (some (upsertEntryAuth secretId auth store))

/-- The entry holds the new credential and nothing of the old one. -/
def updateChange (secretId : String) (auth : SecretAuth) (store : KeystoreData) :
    Except KeystoreError (Option KeystoreData) :=
  match store.secrets.find? secretId with
  | none => .error (.notFound secretId)
  | some _ =>
    .ok (some { store with
      secrets := store.secrets.insert secretId (SecretEntry.default.upsertAuth auth) })

def upsertChange (secretId : String) (auth : SecretAuth) (store : KeystoreData) :
    Except KeystoreError (Option KeystoreData) :=
  .ok (some (upsertEntryAuth secretId auth store))

def batchChange (entries : List (String × SecretAuth)) (store : KeystoreData) :
    Except KeystoreError (Option KeystoreData) :=
  if entries.isEmpty then .ok none
  else .ok (some (entries.foldl (fun store e => upsertEntryAuth e.1 e.2 store) store))

/-- Remove an entry, or the one expected part of it. -/
def removeChange (unreferenced : Except KeystoreError Unit) (secretId : String)
    (expected : Option SecretAuth) (store : KeystoreData) :
    Except KeystoreError (Option KeystoreData) :=
  match store.secrets.find? secretId with
  | none => .error (.notFound secretId)
  | some entry =>
    match unreferenced with
    | .error error => .error error
    | .ok () =>
      match expected with
      | none => .ok (some { store with secrets := store.secrets.remove secretId })
      | some expected =>
        if entry.containsAuth expected then
          let reduced := entry.removeAuth expected
          .ok (some { store with
            secrets :=
              if reduced.isEmpty then store.secrets.remove secretId
              else store.secrets.insert secretId reduced })
        else .error (.mismatch secretId)

end Changes

section Operations

variable {Key : Type} (libs : Libraries Key) (file : SealedFile)

def addSecret (secretId : String) (username password apikey : Option String)
    (keystorePassword : String) (attempt : WriteAttempt) :
    Except KeystoreError Unit × SealedFile :=
  match parseSecretAuth username password apikey with
  | .error error => (.error error, file)
  | .ok auth => modifyStore libs file keystorePassword attempt (addChange secretId auth)

def updateSecret (secretId : String) (username password apikey : Option String)
    (keystorePassword : String) (attempt : WriteAttempt) :
    Except KeystoreError Unit × SealedFile :=
  match parseSecretAuth username password apikey with
  | .error error => (.error error, file)
  | .ok auth => modifyStore libs file keystorePassword attempt (updateChange secretId auth)

def upsertSecretAuth (secretId : String) (auth : SecretAuth) (keystorePassword : String)
    (attempt : WriteAttempt) : Except KeystoreError Unit × SealedFile :=
  modifyStore libs file keystorePassword attempt (upsertChange secretId auth)

def upsertSecretAuthBatch (entries : List (String × SecretAuth)) (keystorePassword : String)
    (attempt : WriteAttempt) : Except KeystoreError Unit × SealedFile :=
  modifyStore libs file keystorePassword attempt (batchChange entries)

/-- Remove a secret; the check of what refers to it is made when it exists. -/
def removeSecret (unreferenced : Except KeystoreError Unit) (secretId : String)
    (expected : Option SecretAuth) (keystorePassword : String) (attempt : WriteAttempt) :
    Except KeystoreError Unit × SealedFile :=
  modifyStore libs file keystorePassword attempt (removeChange unreferenced secretId expected)

def resolveSecretAuth (secretId keystorePassword : String) :
    Except KeystoreError (Option SecretAuth) :=
  (readStore libs file keystorePassword).map fun store =>
    (store.secrets.find? secretId).bind SecretEntry.resolveAuth

def listSecretNames (keystorePassword : String) : Except KeystoreError (List String) :=
  (readStore libs file keystorePassword).map fun store => store.secrets.inOrder.map Prod.fst

def keystoreExists : Bool :=
  match file with
  | .absent => false
  | .unparsed | .envelope _ => true

def validateExistingKeystorePassword (keystorePassword : String) : Except KeystoreError Unit :=
  if keystoreExists file then (readStore libs file keystorePassword).map fun _ => ()
  else .error .noKeystore

def createKeystore (keystorePassword : String) (attempt : WriteAttempt) :
    Except KeystoreError Unit × SealedFile :=
  if keystoreExists file then (.error .keystoreExists, file)
  else
    match writeStore libs attempt keystorePassword .default with
    | .error error => (.error error, file)
    | .ok written => (.ok (), written)

/-- Accept the password of a keystore, or make the keystore with it. -/
def authenticate (keystorePassword : String) (attempt : WriteAttempt) :
    Except KeystoreError Unit × SealedFile :=
  if keystoreExists file then (validateExistingKeystorePassword libs file keystorePassword, file)
  else createKeystore libs file keystorePassword attempt

end Operations

section Sample

/-- A cipher that marks the bytes of a text with its key and hides nothing. -/
def sampleSealing : Library UInt8 where
  encode bytes := .ofList (bytes.map fun byte => Char.ofNat byte.toNat)
  decode text := some (text.toList.map fun char => UInt8.ofNat char.toNat)
  deriveKey password _ _ := UInt8.ofNat (password.toList.foldl (fun sum c => sum + c.toNat) 0)
  encrypt key _ text := some (key :: text.toByteArray.data.toList)
  decrypt key _ sealed :=
    match sealed with
    | [] => none
    | mark :: bytes => if mark = key then String.fromUTF8? ⟨bytes.toArray⟩ else none

theorem sampleSealing_lawful : sampleSealing.Lawful where
  decode_encode bytes := by
    have hbyte : ∀ byte : UInt8, UInt8.ofNat (Char.ofNat byte.toNat).toNat = byte := by
      intro byte
      have hvalid : byte.toNat.isValidChar := Or.inl (by have := byte.toNat_lt; omega)
      have hnat : (Char.ofNat byte.toNat).toNat = byte.toNat := by
        unfold Char.ofNat
        rw [dif_pos hvalid]
        rfl
      rw [hnat, UInt8.ofNat_toNat]
    have hbytes : bytes.map ((fun char => UInt8.ofNat char.toNat) ∘
        fun byte => Char.ofNat byte.toNat) = bytes := by
      calc _ = bytes.map id := List.map_congr_left fun byte _ => hbyte byte
        _ = bytes := List.map_id bytes
    simp only [sampleSealing, String.toList_ofList, List.map_map, hbytes]
  decrypt_encrypt key nonce text sealed h := by
    obtain rfl := Option.some.inj h
    simp [sampleSealing, String.fromUTF8?, text.isValidUTF8, String.fromUTF8]
  authentic key nonce text sealed h other opened hopened := by
    obtain rfl := Option.some.inj h
    by_cases hkey : key = other
    · simp [sampleSealing, hkey, String.fromUTF8?, text.isValidUTF8, String.fromUTF8] at hopened
      exact hopened.symm
    · simp [sampleSealing, hkey] at hopened

@[match_pattern] def sampleDocument (secrets : Fields) : Yaml :=
  .mapping [("version", .int 1), ("secrets", .mapping secrets)]

@[match_pattern] def sampleApiKey : String × Yaml := ("ApiKey", .string "key")

@[match_pattern] def sampleUser : String × Yaml :=
  ("Basic", .mapping [("username", .string "elastic"), ("password", .string "changeme")])

@[match_pattern] def sampleLease (password : String) : Yaml :=
  .mapping [("version", .int 1), ("expires_at_epoch", .int 300), ("password", .string password)]

def emptyText : String := "version: 1\nsecrets: \x7b\x7d\n"

def apiKeyText : String := "version: 1\nsecrets:\n  prod:\n    ApiKey: key\n"

def userText : String :=
  "version: 1\nsecrets:\n  prod:\n    Basic:\n" ++
    "      username: elastic\n      password: changeme\n"

def bothText : String :=
  apiKeyText ++ "    Basic:\n      username: elastic\n      password: changeme\n"

def oldLeaseText : String := "version: 1\nexpires_at_epoch: 300\npassword: old\n"

def newLeaseText : String := "version: 1\nexpires_at_epoch: 300\npassword: new\n"

/-- The texts of a few keystores and leases. -/
def sampleText : YamlText where
  render
    | sampleDocument [] => some emptyText
    | sampleDocument [("prod", .mapping [sampleApiKey])] => some apiKeyText
    | sampleDocument [("prod", .mapping [sampleUser])] => some userText
    | sampleDocument [("prod", .mapping [sampleApiKey, sampleUser])] => some bothText
    | sampleLease "old" => some oldLeaseText
    | sampleLease "new" => some newLeaseText
    | _ => none
  parse text := findEntry text
    [(emptyText, sampleDocument []),
      (apiKeyText, sampleDocument [("prod", .mapping [sampleApiKey])]),
      (userText, sampleDocument [("prod", .mapping [sampleUser])]),
      (bothText, sampleDocument [("prod", .mapping [sampleApiKey, sampleUser])]),
      (oldLeaseText, sampleLease "old"), (newLeaseText, sampleLease "new")]
  parse_render value text h := by
    split at h <;> first | cases h; rfl | cases h

def sampleLibraries : Libraries UInt8 := ⟨sampleSealing, sampleText⟩

def sampleAttempt : WriteAttempt where
  draw := ⟨List.replicate 16 7, List.replicate 12 9, by decide, by decide⟩
  ioFails := false

end Sample

end Esdiag.KeystoreOperations
