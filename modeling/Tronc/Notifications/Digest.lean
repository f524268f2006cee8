import Tronc.Json
import Tronc.Library.Retain
import Tronc.Library.Slices
import Tronc.Notifications.Dispatcher

namespace Tronc.Notifications

open Transition

/-- `NotificationConfig`, as far as dispatching a batch reads it. -/
structure NotificationConfig where
  errorChannel : Option String
  maxMessagesPerMinute : UInt32
  dedupWindow : Nat
  serviceName : String
  environment : String
  host : Option String
  deriving DecidableEq

/-- The target, and the first 80 characters of the message. -/
def ErrorEvent.dedupKey (event : ErrorEvent) : String :=
  event.target ++ "::" ++ .ofList (event.message.toList.take 80)

/-- One line of a digest: an event, and how many of the batch have its key. -/
structure Entry where
  key : String
  event : ErrorEvent
  count : Nat
  deriving DecidableEq

abbrev Grouped := AList fun _ : String => ErrorEvent × Nat

def addEvent (grouped : Grouped) (event : ErrorEvent) : Grouped :=
  match grouped.lookup event.dedupKey with
  | some (first, count) => grouped.insert event.dedupKey (first, count + 1)
  | none => grouped.insert event.dedupKey (event, 1)

def group (batch : List ErrorEvent) : Grouped := batch.foldl addEvent ∅

def Grouped.toEntries (grouped : Grouped) : List Entry :=
  grouped.entries.map fun e => ⟨e.1, e.2.1, e.2.2⟩

inductive Channel where
  | slack
  | email
  deriving DecidableEq

/-- A message that went out, and when. -/
structure Digest where
  channel : Channel
  time : Nat
  entries : List Entry
  deriving DecidableEq

def Digest.keys (d : Digest) : List String := d.entries.map Entry.key

def truncateMessage (msg : String) (maxLen : Nat) : String :=
  if msg.utf8ByteSize ≤ maxLen then msg
  else .ofList (msg.toList.take (maxLen - 3)) ++ "..."

/-- A message is cut to the limit if and only if it is within the limit already or what is kept of it
is ASCII: the length is in bytes, and the cut is made in characters. -/
theorem truncateMessage_iff (msg : String) (maxLen : Nat) (hlimit : 3 ≤ maxLen) :
    ((truncateMessage msg maxLen).utf8ByteSize ≤ maxLen ∧
      (truncateMessage msg maxLen = msg ∨ ∃ kept rest, rest ≠ "" ∧ msg = kept ++ rest ∧
        truncateMessage msg maxLen = kept ++ "...")) ↔
    msg.utf8ByteSize ≤ maxLen ∨ ∀ c ∈ msg.toList.take (maxLen - 3), c.toNat ≤ 127 := by
  by_cases hshort : msg.utf8ByteSize ≤ maxLen
  · have hself : truncateMessage msg maxLen = msg := if_pos hshort
    rw [hself]
    exact iff_of_true ⟨hshort, .inl rfl⟩ (.inl hshort)
  · have hcut : truncateMessage msg maxLen = .ofList (msg.toList.take (maxLen - 3)) ++ "..." :=
      if_neg hshort
    have hsize : (truncateMessage msg maxLen).utf8ByteSize =
        (Slices.encode (msg.toList.take (maxLen - 3))).length + 3 := by
      rw [hcut, String.utf8ByteSize_append, Slices.utf8ByteSize_ofList]
      rfl
    have hwhole : (Slices.encode msg.toList).length = msg.utf8ByteSize := by
      rw [← Slices.utf8ByteSize_ofList, String.ofList_toList]
    have hlower := Slices.length_le_encode (msg.toList.take (maxLen - 3))
    -- a message of fewer characters is kept whole, and its bytes are too many
    have hlong (hkept : (Slices.encode (msg.toList.take (maxLen - 3))).length ≤ maxLen - 3) :
        maxLen - 3 < msg.toList.length := by
      by_contra hfew
      rw [List.take_of_length_le (by omega)] at hkept
      omega
    rw [or_iff_right hshort, ← Slices.length_encode_eq]
    constructor
    · rintro ⟨hbound, -⟩
      have hmany := hlong (by omega)
      rw [List.length_take] at hlower ⊢
      omega
    · intro hascii
      rw [List.length_take] at hascii
      have hmany := hlong (by omega)
      refine ⟨by omega, .inr ⟨.ofList (msg.toList.take (maxLen - 3)),
        .ofList (msg.toList.drop (maxLen - 3)), ?_, ?_, hcut⟩⟩
      · intro hempty
        have hnil : msg.toList.drop (maxLen - 3) = [] := by
          rw [← String.toList_ofList (l := msg.toList.drop (maxLen - 3)), hempty]
          rfl
        have hle := List.drop_eq_nil_iff.mp hnil
        omega
      · rw [← String.ofList_append, List.take_append_drop, String.ofList_toList]

theorem truncateMessage_plain : ((truncateMessage "plain" 4).utf8ByteSize ≤ 4 ∧
    (truncateMessage "plain" 4 = "plain" ∨ ∃ kept rest, rest ≠ "" ∧ "plain" = kept ++ rest ∧
      truncateMessage "plain" 4 = kept ++ "...")) :=
  (truncateMessage_iff "plain" 4 (by decide)).mpr (.inr (by decide))

/-- Seven bytes where five are allowed. -/
theorem truncateMessage_accented : truncateMessage "ééé" 5 = "éé..." ∧
    ¬ (truncateMessage "ééé" 5).utf8ByteSize ≤ 5 := by
  decide +kernel

def contextLine (environment : String) (host : Option String) (errorCount : Nat) : String :=
  match host with
  | none => "*Environment:* " ++ environment ++ " | *Errors:* " ++ toString errorCount
  | some h => "*Environment:* " ++ environment ++ " | *Host:* " ++ h ++ " | *Errors:* " ++
      toString errorCount

def countSuffix (count : Nat) : String :=
  if 1 < count then " (x" ++ toString count ++ ")" else ""

def mrkdwn (text : String) : Json := .object [("type", .string "mrkdwn"), ("text", .string text)]

def slackLine (entry : Entry) : Json :=
  let pairs := (entry.event.fields.take 4).map fun f => "\x60" ++ f.1 ++ "\x60: " ++ f.2
  let fields := if pairs = [] then "" else "\n" ++ " | ".intercalate pairs
  let fence := "\x60\x60\x60"
  .object [("type", .string "section"), ("text", mrkdwn
    ("*" ++ entry.event.target ++ "*" ++ countSuffix entry.count ++ "\n" ++ fence ++
      truncateMessage entry.event.message 500 ++ fence ++ fields))]

/-- `send_slack_digest`: the channel and the blocks, eight lines at most. -/
def slackDigest (config : NotificationConfig) (entries : List Entry) : String × List Json :=
  let limit := min entries.length 8
  let header := Json.object [("type", .string "header"),
    ("text", .object [("type", .string "plain_text"),
      ("text", .string ("Error Alert — " ++ config.serviceName))])]
  let context (text : String) := Json.object [("type", .string "context"),
    ("elements", .array [mrkdwn text])]
  let top := [header, context (contextLine config.environment config.host entries.length),
    .object [("type", .string "divider")]]
  let more := if limit < entries.length
    then [context ("...and " ++ toString (entries.length - limit) ++ " more errors")] else []
  (config.errorChannel.getD "#errors", top ++ (entries.take limit).map slackLine ++ more)

/-- `send_email_digest`: the subject and the body. -/
def emailDigest (config : NotificationConfig) (entries : List Entry) : String × String :=
  let subject := "[" ++ config.environment ++ "] " ++ toString entries.length ++
    " error(s) in " ++ config.serviceName
  let place := match config.host with
    | none => " (" ++ config.environment ++ ")\n\n"
    | some host => " (" ++ config.environment ++ " on " ++ host ++ ")\n\n"
  let line (entry : Entry) := "--- " ++ entry.event.target ++ " ---" ++ countSuffix entry.count ++
    "\n" ++ entry.event.message ++ "\n" ++
    String.join (entry.event.fields.map fun f => "  " ++ f.1 ++ ": " ++ f.2 ++ "\n") ++ "\n"
  (subject, "Error digest for " ++ config.serviceName ++ place ++
    String.join (entries.map line))

/-- What `dispatch_batch` works on, and the messages it sent. -/
structure Digester where
  config : NotificationConfig
  slack : Bool
  email : Bool
  lastNotified : AList fun _ : String => Nat
  recentSends : List Nat
  clock : Nat
  sent : List Digest
  deriving DecidableEq

def oneMinute : Nat := 60 * 10^9

namespace Digester

inductive Event where
  /-- `dispatch_batch` of the batch, whose groups the map gives in the order named. -/
  | dispatch (batch : List ErrorEvent) (order : List Entry)
  | tick (now : Nat)
  deriving DecidableEq

variable (d : Digester)

/-- Whether the key was not notified within the window. -/
def isDue (key : String) : Bool :=
  (d.lastNotified.lookup key).all fun last => d.config.dedupWindow ≤ d.clock - last

/-- The lines left after the filter on recently notified keys. -/
def fresh (order : List Entry) : List Entry := order.filter fun e => d.isDue e.key

def pruneRecentSends : Digester :=
  { d with recentSends := d.recentSends.filter fun ts => d.clock - ts < oneMinute }

/-- The length is cast to 32 bits. -/
def underRateLimit : Bool := d.recentSends.length % 2^32 < d.config.maxMessagesPerMinute.toNat

/-- What `send_slack_digest` and `send_email_digest` send. -/
def digests (entries : List Entry) : List Digest :=
  (if d.slack then [⟨.slack, d.clock, entries⟩] else []) ++
    if d.email then [⟨.email, d.clock, entries⟩] else []

def markNotified (entries : List Entry) : AList fun _ : String => Nat :=
  entries.foldl (fun notified e => notified.insert e.key d.clock) d.lastNotified

def send (entries : List Entry) : Digester :=
  { d with
    sent := d.sent ++ d.digests entries
    lastNotified := d.markNotified entries
    recentSends := d.recentSends ++ [d.clock] }

def dispatchBatch (order : List Entry) : Digester :=
  let entries := d.fresh order
  if entries = [] then d
  else if d.pruneRecentSends.underRateLimit then d.pruneRecentSends.send entries
  else d.pruneRecentSends

def step : Event → Option Digester
  | .dispatch batch order =>
    if order.Perm (group batch).toEntries then some (d.dispatchBatch order) else none
  | .tick now => if d.clock ≤ now then some { d with clock := now } else none

end Digester

/-- The dispatcher of a configuration, with the clients it was given. -/
def digester (config : NotificationConfig) (slack email : Bool) : Lts Digester Digester.Event where
  init d := ∃ clock, d = ⟨config, slack, email, ∅, [], clock, []⟩
  step d e d' := d.step e = some d'

end Tronc.Notifications
