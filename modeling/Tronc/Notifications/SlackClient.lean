import Tronc.Library.Transition
import Tronc.Server.Answers

namespace Tronc.Notifications

open Mcp (Crates toText)
open Server (StatusCode)
open Transition

def SLACK_POST_MESSAGE_URL : String := "https://slack.com/api/chat.postMessage"

def SLACK_CHAT_UPDATE_URL : String := "https://slack.com/api/chat.update"

def SLACK_VIEWS_OPEN_URL : String := "https://slack.com/api/views.open"

/-- Reserves an upload URL for one file. -/
def SLACK_GET_UPLOAD_URL_URL : String := "https://slack.com/api/files.getUploadURLExternal"

/-- Shares uploaded files into a channel. -/
def SLACK_COMPLETE_UPLOAD_URL : String := "https://slack.com/api/files.completeUploadExternal"

/-- Where a call's requests may go with the token. -/
def SLACK_API_URLS : List String :=
  [SLACK_POST_MESSAGE_URL, SLACK_CHAT_UPDATE_URL, SLACK_VIEWS_OPEN_URL, SLACK_GET_UPLOAD_URL_URL,
    SLACK_COMPLETE_UPLOAD_URL]

/-- How a call ended. -/
inductive SlackResult where
  | ok
  | apiError (error : String)
  | httpError (error : String)
  deriving DecidableEq

structure SlackFile where
  filename : String
  title : Option String
  altText : Option String
  bytes : List UInt8
  deriving DecidableEq

structure SlackClient where
  botToken : String
  deriving DecidableEq

inductive SlackBody where
  | json (payload : Json)
  | form (fields : List (String × String))
  | bytes (bytes : List UInt8)
  deriving DecidableEq

/-- A request as it is handed to the HTTP client. -/
structure SlackPost where
  url : String
  bearer : Option String
  body : SlackBody
  deriving DecidableEq

/-- A response: what its body is read as, or why it is not. -/
structure SlackReply where
  status : StatusCode
  json : Except String Json

/-- What comes of a request; why none came is as `describe_request_error` has it. -/
inductive SlackAnswer where
  | failed (reason : String)
  | replied (reply : SlackReply)

/-- What a reservation names: where to post the file, and the id it is shared under. -/
structure ReservedUpload where
  uploadUrl : String
  fileId : String
  deriving DecidableEq

section Answers

/-- The body of an answer that says `ok`. -/
def okBody (body : Json) : Except SlackResult Json :=
  if (body.get "ok").bind Record.readBool = some true then .ok body
  else .error (.apiError (((body.get "error").bind Json.asStr).getD "unknown"))

variable (display : StatusCode → String)

/-- `display` writes a status. -/
def readSlackResponse : SlackAnswer → Except SlackResult Json
  | .failed reason => .error (.httpError reason)
  | .replied reply =>
    if !reply.status.isSuccess then .error (.httpError ("HTTP " ++ display reply.status))
    else
      match reply.json with
      | .error reason => .error (.httpError ("response parse: " ++ reason))
      | .ok body => okBody body

def reservedUpload (body : Json) : Except SlackResult ReservedUpload :=
  match (body.get "upload_url").bind Json.asStr, (body.get "file_id").bind Json.asStr with
  | some uploadUrl, some fileId => .ok ⟨uploadUrl, fileId⟩
  | _, _ =>
    .error (.apiError "files.getUploadURLExternal answered without upload_url and file_id")

/-- `post_upload_bytes`, once its request is out. -/
def readUploadResponse : SlackAnswer → Except SlackResult Unit
  | .failed reason => .error (.httpError reason)
  | .replied reply =>
    if reply.status.isSuccess then .ok ()
    else .error (.httpError ("file upload HTTP " ++ display reply.status))

end Answers

def viewsOpenPayload (triggerId : String) (view : Json) : Json :=
  .object [("trigger_id", .string triggerId), ("view", view)]

/-- The file's name and its length in bytes, and the alt text where it has one. -/
def reserveUploadForm (file : SlackFile) : List (String × String) :=
  [("filename", file.filename), ("length", toString file.bytes.length)] ++
    (file.altText.map fun altText => ("alt_txt", altText)).toList

def completeUploadForm (crates : Crates) (fileId title channel : String)
    (initialComment : Option String) : List (String × String) :=
  [("files", toText crates
      (.array [.object [("id", .string fileId), ("title", .string title)]])),
    ("channel_id", channel)] ++
    (initialComment.map fun comment => ("initial_comment", comment)).toList

/-- What a client is asked to do. -/
inductive SlackCall where
  | postMessage (channel : String) (blocks : Json)
  | updateMessage (channel messageTs : String) (blocks : Json)
  | openView (triggerId : String) (view : Json)
  | uploadFile (channel : String) (file : SlackFile) (initialComment : Option String)
  deriving DecidableEq

/-- Where a call is: at its first request, at a later one of an upload, or at its end. -/
inductive SlackStage where
  | calling
  | posting (reserved : ReservedUpload)
  | completing (reserved : ReservedUpload)
  | ended (result : SlackResult)
  deriving DecidableEq

namespace SlackClient

variable (crates : Crates) (display : StatusCode → String) (client : SlackClient)

def json (url : String) (payload : Json) : SlackPost := ⟨url, some client.botToken, .json payload⟩

def form (url : String) (fields : List (String × String)) : SlackPost :=
  ⟨url, some client.botToken, .form fields⟩

/-- The request that is out. -/
def request : SlackCall → SlackStage → Option SlackPost
  | .postMessage channel blocks, .calling => some (client.json SLACK_POST_MESSAGE_URL
      (.object [("channel", .string channel), ("blocks", blocks)]))
  | .updateMessage channel messageTs blocks, .calling => some (client.json SLACK_CHAT_UPDATE_URL
      (.object [("channel", .string channel), ("ts", .string messageTs), ("blocks", blocks)]))
  | .openView triggerId view, .calling =>
    some (client.json SLACK_VIEWS_OPEN_URL (viewsOpenPayload triggerId view))
  | .uploadFile _ file _, .calling =>
    some (client.form SLACK_GET_UPLOAD_URL_URL (reserveUploadForm file))
  -- the URL is signed for this one file, so the token stays out
  | .uploadFile _ file _, .posting reserved => some ⟨reserved.uploadUrl, none, .bytes file.bytes⟩
  | .uploadFile channel file initialComment, .completing reserved =>
    some (client.form SLACK_COMPLETE_UPLOAD_URL (completeUploadForm crates reserved.fileId
      (file.title.getD file.filename) channel initialComment))
  | _, _ => none

/-- What a call ends with on what its last answer is read as. -/
def resultOf {α : Type} : Except SlackResult α → SlackResult
  | .ok _ => .ok
  | .error failure => failure

/-- What a call makes of an answer. -/
def heard (call : SlackCall) (answer : SlackAnswer) : SlackStage → SlackStage
  | .calling =>
    match call with
    | .uploadFile _ _ _ =>
      match (readSlackResponse display answer).bind reservedUpload with
      | .ok reserved => .posting reserved
      | .error failure => .ended failure
    | .postMessage _ _ | .updateMessage _ _ _ | .openView _ _ =>
      .ended (resultOf (readSlackResponse display answer))
  | .posting reserved =>
    match readUploadResponse display answer with
    | .ok _ => .completing reserved
    | .error failure => .ended failure
  | .completing _ => .ended (resultOf (readSlackResponse display answer))
  | .ended result => .ended result

end SlackClient

/-- A call of a client and where it is. -/
structure SlackEntry where
  client : SlackClient
  call : SlackCall
  stage : SlackStage
  deriving DecidableEq

/-- A request that was sent, by which call and at which of its stages, and whether it has come to
Slack. -/
structure SlackSent where
  owner : Nat
  stage : SlackStage
  post : SlackPost
  landed : Bool
  deriving DecidableEq

/-- What Slack keeps of a file it has yet to be sent. -/
structure SlackUpload where
  filename : String
  length : String
  altText : Option String
  deriving DecidableEq

/-- What a request asks of Slack. -/
inductive SlackAsk where
  | post (channel : String) (blocks : Json)
  | update (channel messageTs : String) (blocks : Json)
  | openView (triggerId : String) (view : Json)
  | reserve (upload : SlackUpload)
  | fill (url : String) (bytes : List UInt8)
  | share (fileId title channel : String) (initialComment : Option String)
  deriving DecidableEq

/-- The JSON of the one file that is shared. -/
def sharedFile (fileId title : String) : Json :=
  .array [.object [("id", .string fileId), ("title", .string title)]]

/-- What Slack documents that it reads of a request: the members of a payload and the fields of a form
by their names, the list of files as JSON, and what is posted to a URL as the file itself. -/
structure SlackApi (crates : Crates) (reads : SlackPost → Option SlackAsk) : Prop where
  post : ∀ token payload channel blocks, payload.get "channel" = some (.string channel) →
    payload.get "blocks" = some blocks →
    reads ⟨SLACK_POST_MESSAGE_URL, some token, .json payload⟩ = some (.post channel blocks)
  update : ∀ token payload channel messageTs blocks,
    payload.get "channel" = some (.string channel) → payload.get "ts" = some (.string messageTs) →
    payload.get "blocks" = some blocks →
    reads ⟨SLACK_CHAT_UPDATE_URL, some token, .json payload⟩ =
      some (.update channel messageTs blocks)
  openView : ∀ token payload triggerId view,
    payload.get "trigger_id" = some (.string triggerId) → payload.get "view" = some view →
    reads ⟨SLACK_VIEWS_OPEN_URL, some token, .json payload⟩ = some (.openView triggerId view)
  reserve : ∀ token fields filename length, fields.lookup "filename" = some filename →
    fields.lookup "length" = some length →
    reads ⟨SLACK_GET_UPLOAD_URL_URL, some token, .form fields⟩ =
      some (.reserve ⟨filename, length, fields.lookup "alt_txt"⟩)
  fill : ∀ url bytes, url ∉ SLACK_API_URLS →
    reads ⟨url, none, .bytes bytes⟩ = some (.fill url bytes)
  share : ∀ token fields fileId title channel,
    fields.lookup "files" = some (toText crates (sharedFile fileId title)) →
    fields.lookup "channel_id" = some channel →
    reads ⟨SLACK_COMPLETE_UPLOAD_URL, some token, .form fields⟩ =
      some (.share fileId title channel (fields.lookup "initial_comment"))

/-- An upload that Slack reserved, for which call, and the bytes posted to it. -/
structure SlackSlot where
  owner : Nat
  upload : SlackUpload
  reserved : ReservedUpload
  bytes : Option (List UInt8)
  deriving DecidableEq

/-- What a call did in the workspace. -/
inductive SlackEffect where
  | did (ask : SlackAsk)
  /-- A file was shared, with the bytes that were posted. -/
  | shared (upload : SlackUpload) (title channel : String) (initialComment : Option String)
      (bytes : List UInt8)
  deriving DecidableEq

/-- Every call so far and the requests they sent; and the workspace: its uploads, and what was done
in it. -/
structure SlackWorld where
  entries : List SlackEntry
  sent : List SlackSent
  slots : List SlackSlot
  effects : List (Nat × SlackEffect)
  deriving DecidableEq

inductive SlackEvent where
  | call (client : SlackClient) (call : SlackCall)
  /-- A request comes to Slack, late perhaps; a reservation is of an upload that is not taken yet. -/
  | land (i : Nat) (stage : SlackStage) (fresh : ReservedUpload)
  /-- A call is told what came of its request. -/
  | hear (i : Nat) (answer : SlackAnswer)

/-- Bytes that are posted to a URL are the file of the upload that it was reserved for. -/
def SlackSlot.fill (url : String) (bytes : List UInt8) (slot : SlackSlot) : SlackSlot :=
  if slot.reserved.uploadUrl = url then { slot with bytes := some bytes } else slot

namespace SlackWorld

variable (crates : Crates) (display : StatusCode → String) (reads : SlackPost → Option SlackAsk)
  (s : SlackWorld)

def sentOf (i : Nat) : List SlackSent := s.sent.filter fun x => x.owner = i

def slotsOf (i : Nat) : List SlackSlot := s.slots.filter fun slot => slot.owner = i

def effectsOf (i : Nat) : List SlackEffect :=
  (s.effects.filter fun e => e.1 = i).map Prod.snd

/-- A call is among these now, and sends the request of its stage, if there is one. -/
def send (entries : List SlackEntry) (i : Nat) (entry : SlackEntry) : SlackWorld :=
  { s with
    entries
    sent := s.sent ++ ((entry.client.request crates entry.call entry.stage).map fun post =>
      ⟨i, entry.stage, post, false⟩).toList }

/-- What Slack does on what it is asked; the URL it reserves is none of its methods'. -/
def take (i : Nat) (fresh : ReservedUpload) : SlackAsk → Option SlackWorld
  | .reserve upload =>
    if (s.slots.any fun slot => slot.reserved.uploadUrl = fresh.uploadUrl ||
        slot.reserved.fileId = fresh.fileId) || SLACK_API_URLS.contains fresh.uploadUrl then none
    else some { s with slots := s.slots ++ [⟨i, upload, fresh, none⟩] }
  | .fill url bytes => some { s with slots := s.slots.map (SlackSlot.fill url bytes) }
  | .share fileId title channel initialComment =>
    match s.slots.find? fun slot => slot.reserved.fileId = fileId with
    | some ⟨_, upload, _, some bytes⟩ =>
      some { s with
        effects := s.effects ++ [(i, .shared upload title channel initialComment bytes)] }
    | _ => none
  | ask => some { s with effects := s.effects ++ [(i, .did ask)] }

def arrived (i : Nat) (stage : SlackStage) : SlackWorld :=
  { s with
    sent := s.sent.map fun x => if x.owner = i ∧ x.stage = stage then { x with landed := true } else x }

def step : SlackEvent → Option SlackWorld
  | .call client call =>
    let entry : SlackEntry := ⟨client, call, .calling⟩
    some (s.send crates (s.entries ++ [entry]) s.entries.length entry)
  | .land i stage fresh =>
    match s.sent.find? (fun x => x.owner = i ∧ x.stage = stage) with
    | some ⟨_, _, post, false⟩ => (reads post).bind ((s.arrived i stage).take i fresh)
    | _ => none
  | .hear i answer =>
    match s.entries[i]? with
    | some entry =>
      match entry.stage with
      | .ended _ => none
      | stage =>
        let entry := { entry with stage := SlackClient.heard display entry.call answer stage }
        some (s.send crates (s.entries.set i entry) i entry)
    | none => none

/-- Slack says that it did what it did, and says of an upload what it reserved; it may also fail to say
so. -/
def honest : SlackEvent → Bool
  | .call _ _ | .land _ _ _ => true
  | .hear i answer =>
    match s.entries[i]? with
    | some entry =>
      match SlackClient.heard display entry.call answer entry.stage with
      | .posting reserved => s.slots.any fun slot => slot.owner = i && slot.reserved = reserved
      | .completing _ | .ended .ok =>
        s.sent.any fun x => x.owner = i && x.stage = entry.stage && x.landed
      | .calling | .ended _ => true
    | none => true

end SlackWorld

/-- Any calls of any clients, in any order, and a workspace that reads its requests so and is honest in
its answers. -/
def slack (crates : Crates) (display : StatusCode → String) (reads : SlackPost → Option SlackAsk) :
    Lts SlackWorld SlackEvent where
  init s := s = ⟨[], [], [], []⟩
  step s e t := s.step crates display reads e = some t ∧ s.honest display e = true

end Tronc.Notifications
