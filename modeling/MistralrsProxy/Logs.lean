import Mathlib.Data.Finset.Insert
import MistralrsProxy.Machine

/-! Records of the audit log as a reader sees them. A record has the members that following and summarising
the log read; the others are only displayed. -/

namespace MistralrsProxy

def unattributed : String := "(unattributed)"

/-- One request record; every member is optional in the file and reads as its default. -/
structure LogRecord where
  startedAt : String := ""
  startedAtUnixMs : Nat := 0
  durationMs : Nat := 0
  timeToFirstByteMs : Option Nat := none
  uri : String := ""
  authorized : Bool := false
  keyName : Option String := none
  openwebuiUserName : Option String := none
  openwebuiUserId : Option String := none
  backendId : Option String := none
  proxyQueueMs : Option Nat := none
  status : Option Nat := none
  streaming : Bool := false
  responseBytes : Nat := 0
  inputTokens : Option Nat := none
  outputTokens : Option Nat := none
  cachedTokens : Option Nat := none
  complete : Bool := false
  deriving DecidableEq, Repr, Inhabited

namespace LogRecord

/-- The forwarded Open WebUI user, by display name when one was sent. -/
def openwebuiUser (record : LogRecord) : Option String := record.openwebuiUserName.or record.openwebuiUserId

/-- The key name for grouping, with a bucket for unauthenticated traffic. -/
def keyBucket (record : LogRecord) : String := record.keyName.getD "(unauthenticated)"

/-- The key, or `key:user` for forwarded Open WebUI traffic; the rest of such a key is `key:(unattributed)`. -/
def principalBucket (openwebuiKeys : Finset String) (record : LogRecord) : String :=
  match record.openwebuiUser with
  | some user => record.keyBucket ++ ":" ++ user
  | none =>
      if record.keyBucket ∈ openwebuiKeys then record.keyBucket ++ ":" ++ unattributed else record.keyBucket

/-- The URI without its query. -/
def path (record : LogRecord) : String := String.ofList (record.uri.toList.takeWhile (· ≠ '?'))

def isError (record : LogRecord) : Bool := !record.complete || record.status.all (400 ≤ ·)

end LogRecord

end MistralrsProxy
