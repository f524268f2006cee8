import Tronc.Json
import Tronc.Library.Text

namespace Tronc.Mcp

def TRACEPARENT : String := "traceparent"

def TRACESTATE : String := "tracestate"

/-- The longest `tracestate` kept. -/
def MAX_TRACESTATE_LEN : Nat := 512

/-- The length of a version `00` `traceparent`. -/
def TRACEPARENT_LEN : Nat := 55

def isLowerHex (b : UInt8) : Bool := (48 ≤ b && b ≤ 57) || (97 ≤ b && b ≤ 102)

/-- Whether the bytes are those of a `traceparent`: version, trace, parent and flags, with dashes
between. -/
def isValidTraceparent (value : String) : Bool :=
  let bytes := Text.utf8 value
  let range (a b : Nat) := (bytes.take b).drop a
  let lowerHex (l : List UInt8) := l.all isLowerHex
  let notZero (l : List UInt8) := l.any (· != 48)
  let version := range 0 2
  let traceId := range 3 35
  let parentId := range 36 52
  let flags := range 53 55
  let dash (i : Nat) := bytes[i]? == some 45
  let tailOk := bytes.length == TRACEPARENT_LEN ||
    (version != [48, 48] && dash TRACEPARENT_LEN)
  decide (TRACEPARENT_LEN ≤ bytes.length) && (dash 2 && dash 35 && dash 52) && tailOk &&
    lowerHex version && version != [102, 102] && lowerHex traceId && notZero traceId &&
    lowerHex parentId && notZero parentId && lowerHex flags

def isUsableTracestate (value : String) : Bool :=
  let bytes := Text.utf8 value
  !bytes.isEmpty && decide (bytes.length ≤ MAX_TRACESTATE_LEN) &&
    bytes.all fun b => 32 ≤ b && b ≤ 126

/-- The trace an inbound request belongs to. -/
structure TraceContext where
  traceparent : String
  tracestate : Option String
  valid : isValidTraceparent traceparent = true
  usable : ∀ state ∈ tracestate, isUsableTracestate state = true
  deriving DecidableEq

namespace TraceContext

def parse (traceparent : String) (tracestate : Option String) : Option TraceContext :=
  if h : isValidTraceparent (Text.trim traceparent) = true then
    some
      { traceparent := Text.trim traceparent
        tracestate := (tracestate.map Text.trim).filter isUsableTracestate
        valid := h
        usable := fun _ hs => (Option.filter_eq_some_iff.mp hs).2 }
  else none

/-- The trace context in `params._meta`. -/
def fromMeta (params : Option Json) : Option TraceContext := do
  let requestMeta ← (← params).get "_meta"
  let traceparent ← (← requestMeta.get TRACEPARENT).asStr
  parse traceparent ((requestMeta.get TRACESTATE).bind Json.asStr)

end TraceContext

end Tronc.Mcp
