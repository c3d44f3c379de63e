import Esdiag.SealedEnvelopes
import Esdiag.Texts
import Esdiag.YamlValues

/-!
The keystore: secrets by name, each with an API key, a user with a password, or
both, sealed in one file with the keystore password. A missing file reads as an
empty keystore with any password. Every operation reads the whole keystore,
checks and changes it, and writes it anew; the file is replaced at once or not
at all.
-/
namespace Esdiag.Keystores

open KeyedMaps YamlValues Fields SealedEnvelopes

structure BasicSecret where
  username : String
  password : String
  deriving DecidableEq

inductive SecretAuth where
  | apiKey (apikey : String)
  | basic (username password : String)
  deriving DecidableEq

structure SecretEntry where
  apikey : Option String
  basic : Option BasicSecret
  deriving DecidableEq

namespace SecretEntry

def default : SecretEntry := ⟨none, none⟩

def isEmpty (self : SecretEntry) : Bool := self.apikey.isNone && self.basic.isNone

def upsertAuth (self : SecretEntry) : SecretAuth → SecretEntry
  | .apiKey apikey => { self with apikey := some apikey }
  | .basic username password => { self with basic := some ⟨username, password⟩ }

def removeAuth (self : SecretEntry) : SecretAuth → SecretEntry
  | .apiKey _ => { self with apikey := none }
  | .basic .. => { self with basic := none }

/-- An API key is preferred to a user. -/
def resolveAuth (self : SecretEntry) : Option SecretAuth :=
  match self.apikey with
  | some apikey => some (.apiKey apikey)
  | none => self.basic.map fun basic => .basic basic.username basic.password

def containsAuth (self : SecretEntry) : SecretAuth → Bool
  | .apiKey apikey => self.apikey == some apikey
  | .basic username password => self.basic == some ⟨username, password⟩

@[simp] theorem isEmpty_upsertAuth (self : SecretEntry) (auth : SecretAuth) :
    (self.upsertAuth auth).isEmpty = false := by
  cases auth <;> simp [upsertAuth, isEmpty]

end SecretEntry

/-- The plaintext of a keystore; its version is kept and not looked at. -/
structure KeystoreData where
  version : Fin 256
  secrets : KeyedMap String SecretEntry

def KeystoreData.default : KeystoreData := ⟨1, .empty⟩

inductive KeystoreError where
  | sealed (error : OpenError)
  | yaml
  | encrypt
  | io
  | alreadyExists (secretId : String)
  | notFound (secretId : String)
  | mismatch (secretId : String)
  | referenced (secretId : String) (hosts jobs : List String)
  | references (message : Option String)
  | invalidAuth
  | keystoreExists
  | noKeystore
  deriving DecidableEq

/-- The texts of a failed opening, of what kind of file it was. -/
def openErrorMessage (kind decryptFailure : String) : OpenError → Option String
  | .unsupportedVersion version => some ("Unsupported " ++ kind ++ " version " ++ toString version)
  | .encoding => none
  | .saltLength length expected =>
    some ("Invalid " ++ kind ++ " salt length " ++ toString length ++ ", expected " ++
      toString expected)
  | .nonceLength length expected =>
    some ("Invalid " ++ kind ++ " nonce length " ++ toString length ++ ", expected " ++
      toString expected)
  | .unsupportedAlgorithm algorithm => some ("Unsupported KDF algorithm '" ++ algorithm ++ "'")
  | .zeroRounds => some "KDF rounds must be greater than zero"
  | .roundsBelow rounds minimum =>
    some ("KDF rounds " ++ toString rounds ++ " are below the minimum readable value " ++
      toString minimum)
  | .roundsAbove rounds maximum =>
    some ("KDF rounds " ++ toString rounds ++ " exceed the maximum supported value " ++
      toString maximum)
  | .decrypt => some decryptFailure

/-- The parts of the message that names what still refers to a secret. -/
def referenceParts (hosts jobs : List String) : List String :=
  (if hosts.isEmpty then [] else ["hosts: " ++ Texts.join ", " hosts]) ++
    if jobs.isEmpty then [] else ["saved jobs: " ++ Texts.join ", " jobs]

/-- The text of an error, where it is not a library's own. -/
def KeystoreError.message : KeystoreError → Option String
  | sealed error =>
    openErrorMessage "keystore" "Failed to decrypt keystore. Check keystore password." error
  | yaml | io => none
  | encrypt => some "Failed to encrypt keystore"
  | alreadyExists id =>
    some ("Secret '" ++ id ++ "' already exists. Replace its credential with `esdiag keystore " ++
      "update " ++ id ++ " --apikey` or `--user <username> --password`.")
  | notFound id => some ("Secret '" ++ id ++ "' not found")
  | mismatch id =>
    some ("Provided auth options do not match the stored secret for '" ++ id ++ "'")
  | referenced id hosts jobs =>
    some ("Cannot remove secret '" ++ id ++ "' because it is still referenced by " ++
      Texts.join "; " (referenceParts hosts jobs) ++ ". To replace its credential, use `esdiag " ++
      "keystore update " ++ id ++ " --apikey` or `--user <username> --password`.")
  | references message => message
  | invalidAuth => some "Invalid secret auth: use either --apikey or --user with --password"
  | keystoreExists => some "Keystore already exists"
  | noKeystore => some "No keystore exists"

/-- The parameters of the sealed files, in a release build. -/
def fileFormat : Format where
  version := 2
  readable := [1, 2]
  algorithm := "pbkdf2-sha256"
  rounds := 100000
  minRounds := 100000
  maxRounds := 1000000
  saltSize := 16
  nonceSize := 12
  version_readable := by decide
  rounds_pos := by decide
  rounds_min := by decide
  rounds_max := by decide

/-- A sealed file; what stands at its path may be no envelope. -/
inductive SealedFile where
  | absent
  | unparsed
  | envelope (content : Envelope)
  deriving DecidableEq

section Plaintext

def readBasicSecret (value : Yaml) : Option BasicSecret := do
  let fields ← value.asMapping
  let username ← required "username" Yaml.asString fields
  let password ← required "password" Yaml.asString fields
  pure { username, password }

def writeBasicSecret (basic : BasicSecret) : Yaml :=
  .mapping [("username", .string basic.username), ("password", .string basic.password)]

def readSecretEntry (value : Yaml) : Option SecretEntry := do
  let fields ← value.asMapping
  let apikey ← ifPresent "ApiKey" Yaml.asString fields
  let basic ← ifPresent "Basic" readBasicSecret fields
  pure { apikey, basic }

def writeSecretEntry (entry : SecretEntry) : Yaml :=
  .mapping (present "ApiKey" (entry.apikey.map .string) ++
    present "Basic" (entry.basic.map writeBasicSecret))

def readByte (value : Yaml) : Option (Fin 256) :=
  (value.asUnsigned 256).bind fun byte => if h : byte < 256 then some ⟨byte, h⟩ else none

def readKeystoreData (value : Yaml) : Option KeystoreData := do
  let fields ← value.asMapping
  let version ← required "version" readByte fields
  let secrets ← required "secrets" (fun secrets => (readMap () readSecretEntry secrets).toOption)
    fields
  pure { version, secrets }

def writeKeystoreData (store : KeystoreData) : Yaml :=
  .mapping [("version", .int store.version.val),
    ("secrets", .mapping (store.secrets.mapValues fun _ entry => writeSecretEntry entry).entries)]

theorem readSecretEntry_write (entry : SecretEntry) :
    readSecretEntry (writeSecretEntry entry) = some entry := by
  let fields : Fields := present "ApiKey" (entry.apikey.map .string) ++
    present "Basic" (entry.basic.map writeBasicSecret)
  have hapikey : ifPresent "ApiKey" Yaml.asString fields = some entry.apikey :=
    ifPresent_of_findEntry .string (by simp [fields]) fun text _ => ⟨rfl, rfl⟩
  have hbasic : ifPresent "Basic" readBasicSecret fields = some entry.basic :=
    ifPresent_of_findEntry writeBasicSecret (by simp [fields]) fun basic _ => ⟨rfl, rfl⟩
  show readSecretEntry (.mapping fields) = some entry
  unfold readSecretEntry
  simp only [Yaml.asMapping, Option.bind_eq_bind, Option.bind_some, hapikey, hbasic]
  rfl

theorem readByte_int (byte : Fin 256) : readByte (.int byte.val) = some byte := by
  have hlt := byte.isLt
  rw [readByte, Yaml.asUnsigned_int hlt, Option.bind_some, dif_pos hlt]

theorem readKeystoreData_write (store : KeystoreData) :
    readKeystoreData (writeKeystoreData store) = some store := by
  have hsecrets : readMap () readSecretEntry
      (.mapping (store.secrets.mapValues fun _ entry => writeSecretEntry entry).entries) =
      .ok store.secrets := by
    rw [readMap_mapValues (g := fun entry => entry) () fun e _ => readSecretEntry_write e.2,
      KeyedMap.mapValues_id]
  unfold readKeystoreData writeKeystoreData
  simp only [Yaml.asMapping, Option.bind_eq_bind, Option.bind_some]
  simp [required, findEntry, readByte_int, hsecrets, Except.toOption]

end Plaintext

end Esdiag.Keystores
