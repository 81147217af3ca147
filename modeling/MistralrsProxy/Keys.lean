import MistralrsProxy.Text
import Mathlib.Tactic.IntervalCases

/-! The key database: issued key records, the validation of a key file, and the immutable index request
handlers look keys up in. SHA-256 is a parameter. Strings that have to be ASCII are checked character by
character, which rejects the same strings as the byte checks of the source. -/

namespace MistralrsProxy

def keyPrefix : String := "eb"
def identifierLen : Nat := 8
def secretLen : Nat := 32
def schemaVersion : Nat := 1
def maxKeyNameChars : Nat := 64

/-- A SHA-256 digest. -/
abbrev Digest := { bytes : List UInt8 // bytes.length = 32 }

/-- One issued key; the digest is over the text of the key. -/
structure KeyRecord where
  name : String
  identifier : String
  keySha256 : String
  admin : Bool
  disabled : Bool
  createdAtUnixMs : Nat
  deriving DecidableEq, Repr

structure KeyFile where
  version : Nat
  keys : List KeyRecord
  deriving DecidableEq, Repr

def hexValue (char : Char) : Option Nat :=
  if '0' ≤ char ∧ char ≤ '9' then some (char.toNat - '0'.toNat)
  else if 'a' ≤ char ∧ char ≤ 'f' then some (char.toNat - 'a'.toNat + 10)
  else if 'A' ≤ char ∧ char ≤ 'F' then some (char.toNat - 'A'.toNat + 10)
  else none

/-- Bytes from pairs of hexadecimal digits. -/
def decodePairs : List Char → Option (List UInt8)
  | [] => some []
  | [_] => none
  | high :: low :: rest =>
      (hexValue high).bind fun high => (hexValue low).bind fun low =>
        (decodePairs rest).map fun bytes => UInt8.ofNat (high * 16 + low) :: bytes

/-- Parse 64 hexadecimal characters into a digest. -/
def decodeDigest (hex : String) : Option Digest :=
  if hex.toList.length ≠ 64 then none
  else
    (decodePairs hex.toList).bind fun bytes => if h : bytes.length = 32 then some ⟨bytes, h⟩ else none

/-- The two lowercase digits of a byte. -/
def hexPair (byte : UInt8) : List Char := [Nat.digitChar (byte.toNat / 16), Nat.digitChar (byte.toNat % 16)]

def hexEncode (bytes : List UInt8) : String := String.ofList (bytes.flatMap hexPair)

def isBase64Segment (length : Nat) (segment : String) : Bool :=
  segment.toList.length == length &&
    segment.toList.all fun char => char.isAlphanum || char == '-' || char == '_'

/-- What is wrong with a key file; positions count from one. -/
inductive KeyFileError where
  | unsupportedVersion (version : Nat)
  | emptyName (position : Nat)
  | badIdentifier (position : Nat) (identifier : String)
  | badDigest (position : Nat)
  | duplicateIdentifier (identifier : String)
  | duplicateDigest (position : Nat) (name : String)
  deriving DecidableEq, Repr

/-- The checks on one key, given the keys before it. -/
def KeyRecord.validate (earlier : List KeyRecord) (key : KeyRecord) : Except KeyFileError Unit :=
  let position := earlier.length + 1
  if (trim key.name).toList = [] then .error (.emptyName position)
  else if !isBase64Segment identifierLen key.identifier then .error (.badIdentifier position key.identifier)
  else if decodeDigest key.keySha256 = none then .error (.badDigest position)
  else if earlier.any (·.identifier == key.identifier) then .error (.duplicateIdentifier key.identifier)
  else if earlier.any (·.keySha256.toLower == key.keySha256.toLower) then
    .error (.duplicateDigest position key.name)
  else .ok ()

namespace KeyFile

def validateKeys (earlier : List KeyRecord) : List KeyRecord → Except KeyFileError Unit
  | [] => .ok ()
  | key :: rest =>
      match key.validate earlier with
      | .error error => .error error
      | .ok () => validateKeys (earlier ++ [key]) rest

def validate (file : KeyFile) : Except KeyFileError Unit :=
  if file.version ≠ schemaVersion then .error (.unsupportedVersion file.version) else validateKeys [] file.keys

end KeyFile

/-- Who a request belongs to. -/
structure KeyIdentity where
  name : String
  identifier : String
  keySha256 : String
  admin : Bool
  disabled : Bool
  deriving DecidableEq, Repr

/-- The lookup data published to request handlers: one identity per digest. -/
structure KeyIndex where
  digests : List Digest
  identities : List KeyIdentity
  deriving DecidableEq

inductive KeyIndexError where
  | empty
  | allDisabled
  | malformedDigest (name : String)
  | duplicateDigest
  deriving DecidableEq, Repr

namespace KeyIndex

def identityOf (digest : Digest) (record : KeyRecord) : KeyIdentity :=
  ⟨record.name, record.identifier, hexEncode digest.val, record.admin, record.disabled⟩

/-- The loop of `from_records`. -/
def insertRecords (index : KeyIndex) : List KeyRecord → Except KeyIndexError KeyIndex
  | [] => .ok index
  | record :: rest =>
      match decodeDigest record.keySha256 with
      | none => .error (.malformedDigest record.name)
      | some digest =>
          if digest ∈ index.digests then .error .duplicateDigest
          else
            insertRecords ⟨index.digests ++ [digest], index.identities ++ [identityOf digest record]⟩ rest

def fromRecords (records : List KeyRecord) : Except KeyIndexError KeyIndex :=
  if records = [] then .error .empty
  else if !records.any (fun record => !record.disabled) then .error .allDisabled
  else insertRecords ⟨[], []⟩ records

end KeyIndex

/-- Why a name was rejected. -/
inductive NameError where
  | empty
  | tooLong
  | controlCharacters
  deriving DecidableEq, Repr

def NameError.reason : NameError → String
  | .empty => "it cannot be empty"
  | .tooLong => "it cannot be longer than 64 characters"
  | .controlCharacters => "it cannot contain control characters"

def normalizeKeyName (name : String) : Except NameError String :=
  let trimmed := trim name
  if trimmed.toList = [] then .error .empty
  else if maxKeyNameChars < trimmed.toList.length then .error .tooLong
  else if trimmed.toList.any isControl then .error .controlCharacters
  else .ok trimmed

/-- The random segments of a new key, as `random_base64` returns them. -/
structure KeySegments where
  identifier : String
  secret : String
  identifierOk : isBase64Segment identifierLen identifier = true
  secretOk : isBase64Segment secretLen secret = true

/-- The text of a key. -/
def KeySegments.plaintext (segments : KeySegments) : String :=
  keyPrefix ++ "_" ++ segments.identifier ++ "_" ++ segments.secret

/-- Mint a new key: the record to store and the plaintext to hand out. -/
def KeyRecord.generate (digest : String → Digest) (name : String) (admin : Bool) (segments : KeySegments)
    (nowUnixMs : Nat) : KeyRecord × String :=
  (⟨name, segments.identifier, hexEncode (digest segments.plaintext).val, admin, false, nowUnixMs⟩,
    segments.plaintext)

theorem hexValue_digitChar {value : Nat} (h : value < 16) : hexValue (Nat.digitChar value) = some value := by
  interval_cases value <;> decide

theorem decodePairs_hexPair (bytes : List UInt8) : decodePairs (bytes.flatMap hexPair) = some bytes := by
  induction bytes with
  | nil => rfl
  | cons byte rest ih =>
      have hbyte := byte.toNat_lt
      have hhigh : hexValue (Nat.digitChar (byte.toNat / 16)) = some (byte.toNat / 16) :=
        hexValue_digitChar (by omega)
      have hlow : hexValue (Nat.digitChar (byte.toNat % 16)) = some (byte.toNat % 16) :=
        hexValue_digitChar (Nat.mod_lt _ (by omega))
      have hsplit : byte.toNat / 16 * 16 + byte.toNat % 16 = byte.toNat := Nat.div_add_mod' _ _
      rw [List.flatMap_cons]
      simp only [hexPair, List.cons_append, List.nil_append, decodePairs, hhigh, hlow, Option.bind_some, ih,
        Option.map_some, hsplit, UInt8.ofNat_toNat]

/-- A digest survives its hexadecimal form. -/
theorem decodeDigest_hexEncode (digest : Digest) : decodeDigest (hexEncode digest.val) = some digest := by
  have hlength : (digest.val.flatMap hexPair).length = 64 := by
    have hpairs : ∀ bytes : List UInt8, (bytes.flatMap hexPair).length = 2 * bytes.length := by
      intro bytes
      simp [List.length_flatMap, hexPair, Nat.mul_comm]
    rw [hpairs, digest.property]
  simp [decodeDigest, hexEncode, hlength, decodePairs_hexPair, digest.property]

namespace KeyIndex

/-- Inserting keeps what is there and adds the digest of every record. -/
theorem insertRecords_ok {records : List KeyRecord} {index next : KeyIndex}
    (h : index.insertRecords records = .ok next) :
    (∀ digest ∈ index.digests, digest ∈ next.digests) ∧
      ∀ record ∈ records, ∃ digest ∈ next.digests, decodeDigest record.keySha256 = some digest := by
  induction records generalizing index with
  | nil =>
      cases h
      exact ⟨fun _ hmem => hmem, by simp⟩
  | cons record rest ih =>
      rw [insertRecords] at h
      split at h
      · cases h
      · rename_i digest hdigest
        split at h
        · cases h
        · obtain ⟨hkeep, hrest⟩ := ih h
          refine ⟨fun other hother => hkeep other (List.mem_append_left _ hother), ?_⟩
          intro other hother
          rcases List.mem_cons.mp hother with rfl | hother
          · exact ⟨digest, hkeep digest (List.mem_append_right _ (List.mem_singleton_self _)), hdigest⟩
          · exact hrest other hother

theorem fromRecords_ok {records : List KeyRecord} {index : KeyIndex} (h : fromRecords records = .ok index) :
    ∀ record ∈ records, ∃ digest ∈ index.digests, decodeDigest record.keySha256 = some digest := by
  unfold fromRecords at h
  split at h
  · cases h
  · split at h
    · cases h
    · exact (insertRecords_ok h).2

end KeyIndex

end MistralrsProxy
