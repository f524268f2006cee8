import Tronc.Library.Deliveries
import Tronc.Notifications.Resend
import Tronc.Notify.Spans

namespace Tronc.Notifications

open Courier Transition
open Server

def DEFAULT_POSTHOG_HOST : String := "https://us.i.posthog.com"

/-- How often an event is sent, the first time included. -/
def MAX_ATTEMPTS : Nat := 3

def FIRST_BACKOFF : Nat := fromMillis 500

/-- `Duration::MAX`. -/
def DURATION_MAX : Nat := fromSecs (2 ^ 64 - 1) + 999999999

structure PostHogClient where
  apiKey : String
  host : String
  firstBackoff : Nat
  deriving DecidableEq

/-- When an event was captured, and the id it was given. -/
structure Stamp where
  timestamp : String
  uuid : String
  deriving DecidableEq

/-- An event with its stamp. -/
abbrev Capture := Stamp × Notify.Captured

namespace PostHogClient

def withHost (apiKey host : String) : PostHogClient := ⟨apiKey, host, FIRST_BACKOFF⟩

def new (apiKey : String) : PostHogClient := withHost apiKey DEFAULT_POSTHOG_HOST

/-- The body of an event, which every send of it carries. -/
def eventBody (client : PostHogClient) (capture : Capture) : Json :=
  .object [("api_key", .string client.apiKey), ("event", .string capture.2.event),
    ("distinct_id", .string capture.2.distinctId), ("timestamp", .string capture.1.timestamp),
    ("uuid", .string capture.1.uuid), ("properties", capture.2.properties)]

/-- A request as it is handed to the HTTP client. -/
structure Post where
  url : String
  json : Json
  deriving DecidableEq

def post (client : PostHogClient) (capture : Capture) : Post :=
  ⟨client.host ++ "/capture/", client.eventBody capture⟩

end PostHogClient

/-- How the delivery of one event ended. -/
inductive Delivery where
  | accepted
  | refused
  | gaveUp
  deriving DecidableEq

/-- What comes of one send. -/
inductive Sent where
  | replied (status : StatusCode)
  | failed (reason : String)
  deriving DecidableEq

/-- An answer that another send may change. -/
def Sent.isFailure : Sent → Bool
  | .replied status => !status.isSuccess && status.isServerError
  | .failed _ => true

/-- The attempt that is made, and the wait there would be after it. -/
structure Attempt where
  number : Nat
  backoff : Nat
  deriving DecidableEq

/-- The next attempt, which waits twice as long. -/
def Attempt.next (attempt : Attempt) : Attempt :=
  ⟨attempt.number + 1, min (2 * attempt.backoff) DURATION_MAX⟩

/-- After a failure. -/
def Attempt.failed (attempt : Attempt) : Verdict Attempt Delivery :=
  if MAX_ATTEMPTS ≤ attempt.number then .done .gaveUp else .again attempt.backoff attempt.next

def PostHogClient.send (client : PostHogClient) :
    Loop Capture PostHogClient.Post Attempt Sent Delivery where
  start := ⟨1, client.firstBackoff⟩
  request := client.post
  judge attempt
    | .replied status =>
      if status.isSuccess then .done .accepted
      else if status.isServerError then attempt.failed
      else .done .refused
    | .failed _ => attempt.failed

/-- PostHog takes in what it answers with a success; another answer, or none, leaves it open. -/
def postHogHonesty : Honesty Sent where
  tells fate
    | .replied status => status.isSuccess = true → fate = .taken
    | .failed _ => True
  early fate a h := by
    cases a with
    | replied status =>
      intro hs
      cases h hs
    | failed reason => trivial

/-- The captures of a client, and what it posted of them. -/
abbrev Postbox := World Capture PostHogClient.Post Attempt Delivery

/-- The captures of a client: each has an id of its own, and is sent over again as its answers ask. -/
def capturing (client : PostHogClient) : Lts Postbox (World.Event Capture Sent) :=
  (deliveries client.send postHogHonesty).restrict fun s e => ∀ capture, e = .send capture →
    ∀ sender ∈ s.senders, sender.parcel.1.uuid ≠ capture.1.uuid

/-- What PostHog documents of what it records of the bodies it takes in: one of each uuid. -/
structure Deduplicates (recorded : List Json → List Json) : Prop where
  sound : ∀ bodies, ∀ body ∈ recorded bodies, body ∈ bodies
  complete : ∀ bodies, ∀ body ∈ bodies, ∃ kept ∈ recorded bodies, kept.get "uuid" = body.get "uuid"
  distinct : ∀ bodies, (recorded bodies).Pairwise fun a b => a.get "uuid" ≠ b.get "uuid"

/-- The bodies that were taken in. -/
def takenBodies (s : Postbox) : List Json :=
  (s.copies.filter fun c => c.fate = .taken).map fun c => c.request.json

end Tronc.Notifications
