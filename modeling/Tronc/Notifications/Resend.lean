import Tronc.Library.Deliveries
import Tronc.ServiceClient.Response

namespace Tronc.Notifications

open Courier Transition
open Mcp (HeaderMap HeaderValue Serde)
open Server

/-- `Duration::from_millis`, in nanoseconds. -/
def fromMillis (millis : Nat) : Nat := millis * 1000000

/-- `Duration::from_secs`, in nanoseconds. -/
def fromSecs (secs : Nat) : Nat := secs * 1000000000

def RESEND_API_URL : String := "https://api.resend.com/emails"

/-- How often a send is made again after a `429`. -/
def MAX_RETRIES : Nat := 3

/-- The longest reset that is waited for. -/
def MAX_RETRY_DELAY : Nat := fromSecs 5

/-- The wait after a `429` that names no reset. -/
def DEFAULT_RETRY_DELAY : Nat := fromSecs 1

def RETRY_DELAY_FLOOR : Nat := fromMillis 200

inductive ResendBody where
  | text (text : String)
  | html (html : String)
  deriving DecidableEq

structure ResendEmail where
  «from» : String
  «to» : List String
  subject : String
  body : ResendBody
  deriving DecidableEq

/-- The JSON that the send-email endpoint takes. -/
def ResendEmail.payload (email : ResendEmail) : Json :=
  let (text, html) : Option String × Option String := match email.body with
    | .text text => (some text, none)
    | .html html => (none, some html)
  .object (Record.compact
    [("from", some (.string email.from)), ("to", some (.array (email.«to».map .string))),
      ("subject", some (.string email.subject)), ("text", text.map .string),
      ("html", html.map .string)])

/-- What Resend acknowledged. -/
structure ResendReceipt where
  id : Option String
  deriving DecidableEq

inductive ResendError where
  | missingApiKey
  | transport (reason : String)
  | api (status : StatusCode) (body : String)
  deriving DecidableEq

/-- A client with its key, which is not empty. -/
structure ResendClient where
  apiKey : String
  keyed : apiKey ≠ ""
  deriving DecidableEq

def ResendClient.new (apiKey : String) : Except ResendError ResendClient :=
  if h : apiKey = "" then .error .missingApiKey else .ok ⟨apiKey, h⟩

/-- A request as it is handed to the HTTP client. -/
structure ResendPost where
  url : String
  bearer : String
  json : Json
  deriving DecidableEq

def ResendClient.post (client : ResendClient) (email : ResendEmail) : ResendPost :=
  ⟨RESEND_API_URL, client.apiKey, email.payload⟩

/-- A response: its body arrives, or not. -/
structure ResendReply where
  status : StatusCode
  headers : HeaderMap
  body : Option (List UInt8)
  deriving DecidableEq

/-- What comes of a post; why none came is as `describe_request_error` has it. -/
inductive ResendAnswer where
  | failed (reason : String)
  | replied (reply : ResendReply)
  deriving DecidableEq

/-- How a body is read: as JSON, and as a text in the encoding that the headers name. -/
structure Reading where
  serde : Serde
  text : HeaderMap → List UInt8 → String

/-- The id in a success answer. -/
def acceptedId (serde : Serde) (body : List UInt8) : Option String :=
  (ServiceClient.fromSlice serde body).bind
    (Record.read ["id"] 1 fun field => (field "id").bind Json.asStr)

def parseRetryDelay (retryAfter ratelimitReset : Option String) : Option Nat :=
  let secs (v : Option String) : Option Nat := v.bind fun s => Notify.parseU64 (Text.trim s)
  ((secs retryAfter).or (secs ratelimitReset)).map fromSecs

/-- Whether a `429` is followed by another send, and the wait before it. -/
def planRetry (attempt : Nat) (hint : Option Nat) : Option Nat :=
  if MAX_RETRIES ≤ attempt then none
  else
    let delay := hint.getD DEFAULT_RETRY_DELAY
    if delay ≤ MAX_RETRY_DELAY then some (max delay RETRY_DELAY_FLOOR) else none

def retryDelayFromHeaders (headers : HeaderMap) : Option Nat :=
  let get (name : String) : Option String := (getHeader headers name).bind HeaderValue.toStr
  parseRetryDelay (get "retry-after") (get "ratelimit-reset")

/-- An email with the client that it goes through. -/
abbrev Mail := ResendClient × ResendEmail

/-- `send_with_receipt`: the same request over again. -/
def sendWithRetry (reading : Reading) :
    Loop Mail ResendPost Nat ResendAnswer (Except ResendError ResendReceipt) where
  start := 0
  request mail := mail.1.post mail.2
  judge attempt
    | .failed reason => .done (.error (.transport reason))
    | .replied reply =>
      if reply.status.isSuccess then
        .done (.ok ⟨reply.body.bind (acceptedId reading.serde)⟩)
      else
        let retry := if reply.status = .TOO_MANY_REQUESTS then
            planRetry attempt (retryDelayFromHeaders reply.headers)
          else none
        match retry with
        | some delay => .again delay (attempt + 1)
        | none => .done (.error
            (.api reply.status ((reply.body.map (reading.text reply.headers)).getD "no body")))

/-- Resend takes an email in where it answers with a success, and not where it answers `429`; another
answer, or none, leaves it open. -/
def resendHonesty : Honesty ResendAnswer where
  tells fate
    | .failed _ => True
    | .replied reply => (reply.status.isSuccess = true → fate = .taken) ∧
        (reply.status = .TOO_MANY_REQUESTS → fate = .refused)
  early fate a h := by
    cases a with
    | failed reason => trivial
    | replied reply =>
      refine ⟨?_, ?_⟩
      · intro hs
        cases h.1 hs
      · intro hs
        cases h.2 hs

abbrev Mailer := Sender Mail Nat (Except ResendError ResendReceipt)

abbrev Mailroom := World Mail ResendPost Nat (Except ResendError ResendReceipt)

/-- Emails sent through any clients, each over again as its answers ask, and what Resend makes of
them. -/
abbrev mailing (reading : Reading) : Lts Mailroom (World.Event Mail ResendAnswer) :=
  deliveries (sendWithRetry reading) resendHonesty

/-- The client of error alerts: its sends go through `resend`. -/
structure EmailClient where
  resend : ResendClient
  fromAddress : String
  toAddresses : List String
  deriving DecidableEq

/-- The email of an alert. -/
def EmailClient.alert (client : EmailClient) (subject body : String) : ResendEmail :=
  ⟨client.fromAddress, client.toAddresses, subject, .text body⟩

end Tronc.Notifications
