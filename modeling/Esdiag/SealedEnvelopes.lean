import Mathlib.Data.Nat.Notation

/-!
Texts sealed with a password. An envelope names the parameters of the key
derivation and carries salt, nonce and ciphertext as encoded texts; opening it
checks the version, the encodings, the lengths and the parameters before it
decrypts. The derivation, the cipher and the encoding are those of a library,
of which only this is used: what was sealed opens with the same password, and
no password opens it to anything else.
-/
namespace Esdiag.SealedEnvelopes

/-- Key derivation, authenticated cipher and text encoding of bytes. -/
structure Library (Key : Type) where
  encode : List UInt8 → String
  decode : String → Option (List UInt8)
  deriveKey : String → List UInt8 → ℕ → Key
  encrypt : Key → List UInt8 → String → Option (List UInt8)
  decrypt : Key → List UInt8 → List UInt8 → Option String

structure Library.Lawful {Key : Type} (lib : Library Key) : Prop where
  decode_encode : ∀ bytes, lib.decode (lib.encode bytes) = some bytes
  decrypt_encrypt : ∀ key nonce text sealed, lib.encrypt key nonce text = some sealed →
    lib.decrypt key nonce sealed = some text
  authentic : ∀ key nonce text sealed, lib.encrypt key nonce text = some sealed →
    ∀ other opened, lib.decrypt other nonce sealed = some opened → opened = text

/-- The parameters that an envelope may have, and those of a new one. -/
structure Format where
  version : ℕ
  readable : List ℕ
  algorithm : String
  rounds : ℕ
  minRounds : ℕ
  maxRounds : ℕ
  saltSize : ℕ
  nonceSize : ℕ
  version_readable : version ∈ readable
  rounds_pos : 0 < rounds
  rounds_min : minRounds ≤ rounds
  rounds_max : rounds ≤ maxRounds

structure KdfParams where
  algorithm : String
  rounds : ℕ
  deriving DecidableEq

structure Envelope where
  version : ℕ
  kdf : KdfParams
  salt : String
  nonce : String
  ciphertext : String
  deriving DecidableEq

inductive OpenError where
  | unsupportedVersion (version : ℕ)
  | encoding
  | saltLength (length expected : ℕ)
  | nonceLength (length expected : ℕ)
  | unsupportedAlgorithm (algorithm : String)
  | zeroRounds
  | roundsBelow (rounds minimum : ℕ)
  | roundsAbove (rounds maximum : ℕ)
  | decrypt
  deriving DecidableEq

/-- Fresh random bytes of the sizes that the format asks for. -/
structure Draw (format : Format) where
  salt : List UInt8
  nonce : List UInt8
  salt_length : salt.length = format.saltSize
  nonce_length : nonce.length = format.nonceSize

namespace Format

variable {Key : Type} (format : Format) (lib : Library Key)

def validateKdfParams (params : KdfParams) : Except OpenError Unit :=
  if params.algorithm ≠ format.algorithm then .error (.unsupportedAlgorithm params.algorithm)
  else if params.rounds = 0 then .error .zeroRounds
  else if params.rounds < format.minRounds then
    .error (.roundsBelow params.rounds format.minRounds)
  else if params.rounds > format.maxRounds then
    .error (.roundsAbove params.rounds format.maxRounds)
  else .ok ()

def current : KdfParams := ⟨format.algorithm, format.rounds⟩

/-- Decrypt an envelope once its fields are checked. -/
def decode (password : String) (envelope : Envelope) (salt nonce ciphertext : List UInt8) :
    Except OpenError String :=
  if salt.length ≠ format.saltSize then .error (.saltLength salt.length format.saltSize)
  else if nonce.length ≠ format.nonceSize then
    .error (.nonceLength nonce.length format.nonceSize)
  else
    match format.validateKdfParams envelope.kdf with
    | .error error => .error error
    | .ok () =>
      match lib.decrypt (lib.deriveKey password salt envelope.kdf.rounds) nonce ciphertext with
      | none => .error .decrypt
      | some text => .ok text

def openEnvelope (password : String) (envelope : Envelope) : Except OpenError String :=
  if envelope.version ∉ format.readable then .error (.unsupportedVersion envelope.version)
  else
    match lib.decode envelope.salt, lib.decode envelope.nonce, lib.decode envelope.ciphertext with
    | some salt, some nonce, some ciphertext =>
      format.decode lib password envelope salt nonce ciphertext
    | _, _, _ => .error .encoding

def sealText (password : String) (draw : Draw format) (text : String) : Option Envelope :=
  (lib.encrypt (lib.deriveKey password draw.salt format.rounds) draw.nonce text).map
    fun ciphertext =>
      { version := format.version
        kdf := format.current
        salt := lib.encode draw.salt
        nonce := lib.encode draw.nonce
        ciphertext := lib.encode ciphertext }

variable {format lib}

theorem validateKdfParams_current : format.validateKdfParams format.current = .ok () := by
  have hpos := format.rounds_pos
  have hmin := format.rounds_min
  have hmax := format.rounds_max
  unfold validateKdfParams
  rw [if_neg (by simp [current]), if_neg (by simp [current]; omega),
    if_neg (by simp [current]; omega), if_neg (by simp [current]; omega)]

/-- Opening a sealed text is one decryption. -/
theorem openEnvelope_sealText (hlib : lib.Lawful) {password : String} {draw : Draw format}
    {text : String} {envelope : Envelope}
    (h : format.sealText lib password draw text = some envelope) :
    ∃ sealed, lib.encrypt (lib.deriveKey password draw.salt format.rounds) draw.nonce text =
        some sealed ∧
      ∀ other, format.openEnvelope lib other envelope =
        match lib.decrypt (lib.deriveKey other draw.salt format.rounds) draw.nonce sealed with
        | none => .error .decrypt
        | some opened => .ok opened := by
  obtain ⟨sealed, hsealed, rfl⟩ := Option.map_eq_some_iff.mp h
  refine ⟨sealed, hsealed, fun other => ?_⟩
  have hreadable := format.version_readable
  simp only [openEnvelope, hlib.decode_encode, not_true_eq_false, hreadable, if_false, decode,
    draw.salt_length, draw.nonce_length, ne_eq, validateKdfParams_current]
  rfl

theorem open_own (hlib : lib.Lawful) {password : String} {draw : Draw format} {text : String}
    {envelope : Envelope} (h : format.sealText lib password draw text = some envelope) :
    format.openEnvelope lib password envelope = .ok text := by
  obtain ⟨sealed, hsealed, hopen⟩ := openEnvelope_sealText hlib h
  rw [hopen password, hlib.decrypt_encrypt _ _ _ _ hsealed]

theorem open_any (hlib : lib.Lawful) {password : String} {draw : Draw format} {text : String}
    {envelope : Envelope} (h : format.sealText lib password draw text = some envelope)
    {other opened : String} (hopen : format.openEnvelope lib other envelope = .ok opened) :
    opened = text := by
  obtain ⟨sealed, hsealed, hdecrypt⟩ := openEnvelope_sealText hlib h
  rw [hdecrypt other] at hopen
  cases hopened : lib.decrypt (lib.deriveKey other draw.salt format.rounds) draw.nonce sealed with
  | none => simp [hopened] at hopen
  | some found =>
    obtain rfl : found = opened := by simpa [hopened] using hopen
    exact hlib.authentic _ _ _ _ hsealed _ _ hopened

end Format

end Esdiag.SealedEnvelopes
