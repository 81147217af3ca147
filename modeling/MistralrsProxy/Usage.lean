import MistralrsProxy.Bytes

/-! Incremental token accounting: a state machine over the bytes of a response body that keeps the counts
of the last `usage` object it saw. Decoding one captured object is left to a JSON decoder. -/

namespace MistralrsProxy

def maxObjectBytes : Nat := 4096

/-- The bytes of `"usage"`, quotes included. -/
def needle : List UInt8 := [34, 117, 115, 97, 103, 101, 34]

/-- The bytes of `null`. -/
def nullBytes : List UInt8 := [110, 117, 108, 108]

/-- Token counts recovered from a response. -/
structure Usage where
  inputTokens : Option Nat
  outputTokens : Option Nat
  totalTokens : Option Nat
  cachedTokens : Option Nat
  deriving DecidableEq, Repr

/-- Nothing recovered. -/
def Usage.unknown : Usage := ⟨none, none, none, none⟩

def Usage.isInformative (usage : Usage) : Bool :=
  usage.inputTokens.isSome || usage.outputTokens.isSome || usage.totalTokens.isSome

structure TokensDetails where
  cachedTokens : Option Nat
  deriving DecidableEq, Repr

/-- The members both APIs use for their counts. -/
structure UsageFields where
  promptTokens : Option Nat
  completionTokens : Option Nat
  inputTokens : Option Nat
  outputTokens : Option Nat
  totalTokens : Option Nat
  promptTokensDetails : Option TokensDetails
  inputTokensDetails : Option TokensDetails
  deriving DecidableEq, Repr

def UsageFields.usage (fields : UsageFields) : Usage where
  inputTokens := fields.inputTokens.or fields.promptTokens
  outputTokens := fields.outputTokens.or fields.completionTokens
  totalTokens := fields.totalTokens
  cachedTokens := (fields.promptTokensDetails.or fields.inputTokensDetails).bind (·.cachedTokens)

inductive SnifferState where
  | searching (matched : Nat)
  | awaitingColon
  | awaitingValue
  | skippingNull (matched : Nat)
  | capturing (depth : Nat) (inString escaped : Bool)
  deriving DecidableEq, Repr

structure UsageSniffer where
  state : SnifferState
  object : List UInt8
  latest : Option Usage
  deriving DecidableEq, Repr

namespace UsageSniffer

def new : UsageSniffer := ⟨.searching 0, [], none⟩

/-- After a mismatch only an opening quote can begin a new match. -/
def restart (byte : UInt8) (sniffer : UsageSniffer) : UsageSniffer :=
  { sniffer with object := [], state := .searching (if byte = 34 then 1 else 0) }

def finishObject (decode : List UInt8 → Option UsageFields) (sniffer : UsageSniffer) : UsageSniffer :=
  let latest :=
    match decode sniffer.object with
    | some fields => if fields.usage.isInformative then some fields.usage else sniffer.latest
    | none => sniffer.latest
  ⟨.searching 0, [], latest⟩

/-- Depth and string state after one more byte of a captured object. -/
def captureByte (byte : UInt8) (depth : Nat) (inString escaped : Bool) : Nat × Bool × Bool :=
  if inString then
    if escaped then (depth, true, false)
    else if byte = 92 then (depth, true, true)
    else if byte = 34 then (depth, false, false)
    else (depth, true, false)
  else if byte = 34 then (depth, true, escaped)
  else if byte = 123 then (depth + 1, false, escaped)
  else if byte = 125 then (depth - 1, false, escaped)
  else (depth, false, escaped)

def feedByte (decode : List UInt8 → Option UsageFields) (byte : UInt8) (sniffer : UsageSniffer) : UsageSniffer :=
  match sniffer.state with
  | .searching matched =>
      if needle[matched]? = some byte then
        if matched + 1 = needle.length then { sniffer with state := .awaitingColon }
        else { sniffer with state := .searching (matched + 1) }
      else { sniffer with state := .searching (if byte = 34 then 1 else 0) }
  | .awaitingColon =>
      if byte = 58 then { sniffer with state := .awaitingValue }
      else if Bytes.isAsciiWhitespace byte then sniffer
      else sniffer.restart byte
  | .awaitingValue =>
      if byte = 123 then { sniffer with object := [123], state := .capturing 1 false false }
      else if byte = 110 then { sniffer with state := .skippingNull 1 }
      else if Bytes.isAsciiWhitespace byte then sniffer
      else sniffer.restart byte
  | .skippingNull matched =>
      if nullBytes[matched]? = some byte then
        if matched + 1 = nullBytes.length then { sniffer with state := .searching 0 }
        else { sniffer with state := .skippingNull (matched + 1) }
      else sniffer.restart byte
  | .capturing depth inString escaped =>
      let (depth, inString, escaped) := captureByte byte depth inString escaped
      let captured : UsageSniffer :=
        { sniffer with object := sniffer.object ++ [byte], state := .capturing depth inString escaped }
      if depth = 0 then captured.finishObject decode
      else if maxObjectBytes ≤ captured.object.length then
        { captured with object := [], state := .searching 0 }
      else captured

def feed (decode : List UInt8 → Option UsageFields) (bytes : List UInt8) (sniffer : UsageSniffer) : UsageSniffer :=
  bytes.foldl (fun sniffer byte => sniffer.feedByte decode byte) sniffer

def usage (sniffer : UsageSniffer) : Option Usage := sniffer.latest

end UsageSniffer

end MistralrsProxy
