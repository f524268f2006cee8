import Tronc.Library.Overlay
import Tronc.Library.Text
import Tronc.Notify.Layer
import Tronc.Secrets.Redact

namespace Tronc.Notify

open Transition

/-- The field that names the event. -/
def EVENT_FIELD : String := "event"

def NOTIFY_TARGET : String := "notify"

/-- A value as a visitor is handed it. -/
inductive Recorded where
  | str (value : String)
  /-- A value with its `Debug` rendering. -/
  | debug (rendered : String)
  /-- A number or a boolean, with its text. -/
  | shown (text : String)
  deriving DecidableEq

/-- `strip_debug_quotes`: one pair of quotes goes, where both are there. -/
def stripDebugQuotes (s : String) : String :=
  ((Text.stripPrefix s "\"").bind fun rest => Text.stripSuffix rest "\"").getD s

def Recorded.text : Recorded → String
  | .str value => value
  | .debug rendered => stripDebugQuotes rendered
  | .shown text => text

/-- The values one call records, in order. -/
abbrev Values := List (String × Recorded)

structure NotifyVisitor where
  eventName : Option String
  fields : Fields
  deriving DecidableEq

namespace NotifyVisitor

def new : NotifyVisitor := ⟨none, ∅⟩

/-- `record_str` and its siblings. Only the two that take a text look for the event's name. -/
def record (visitor : NotifyVisitor) (field : String) : Recorded → NotifyVisitor
  | .str value =>
    if field = EVENT_FIELD then { visitor with eventName := some value }
    else { visitor with fields := visitor.fields.insert field value }
  | .debug rendered =>
    if field = EVENT_FIELD then { visitor with eventName := some (stripDebugQuotes rendered) }
    else { visitor with fields := visitor.fields.insert field (stripDebugQuotes rendered) }
  | .shown text => { visitor with fields := visitor.fields.insert field text }

def visit (values : Values) : NotifyVisitor :=
  values.foldl (fun visitor value => visitor.record value.1 value.2) new

/-- What a span keeps of a visit: an `event` is a field like the others. -/
def kept (visitor : NotifyVisitor) (fields : Fields) : Fields :=
  match visitor.eventName with
  | some name => (fields.extend visitor.fields).insert EVENT_FIELD name
  | none => fields.extend visitor.fields

end NotifyVisitor

/-- A span of the registry: itself and the spans around it, the innermost first, and the stash the
layer put in its extensions. -/
structure Span where
  scope : List Nat
  stash : Option Fields
  deriving DecidableEq

structure AnalyticsCapture where
  distinctId : String
  properties : Json
  deriving DecidableEq

/-- What the host attached to the layer. -/
structure Attached where
  enricher : Option (String → Fields → Fields)
  /-- An analytics provider, where there is a client to send with. -/
  analytics : Option (String → Fields → Option AnalyticsCapture)
  actions : Option (String → Fields → Option (List Json))

def Attached.enrich (attached : Attached) (name : String) (fields : Fields) : Fields :=
  match attached.enricher with
  | some enrich => enrich name fields
  | none => fields

/-- A tracing event: where it was emitted, what it records, and what the routing provider answers
and the sampling counter gives if it is asked. -/
structure Occurrence where
  target : String
  span : Option Nat
  values : Values
  route : Option RoutingRule
  drawn : Bool
  deriving DecidableEq

/-- What `posthog.capture` was called with. -/
structure Captured where
  distinctId : String
  event : String
  properties : Json
  deriving DecidableEq

/-- The spans so far, the registered secrets, and the two sinks. -/
structure Tracing where
  spans : List Span
  secrets : List String
  slack : Option NotifyLayer
  captured : List Captured
  deriving DecidableEq

namespace Tracing

inductive Event where
  | newSpan (parent : Option Nat) (attrs : Values)
  /-- A span the layer is not told about. -/
  | hiddenSpan (parent : Option Nat)
  | record (id : Nat) (values : Values)
  | event (occurrence : Occurrence)
  /-- `secrets::register`. -/
  | register (value : String)
  /-- Something else the Slack side does: time passes, a line is buffered, the flusher works. -/
  | slack (event : NotifyLayer.Event)
  deriving DecidableEq

variable (attached : Attached) (s : Tracing)

/-- The scope of a span, or of what is emitted outside any. -/
def scopeOf (span : Option Nat) : List Nat :=
  ((span.bind fun id => s.spans[id]?).map Span.scope).getD []

def stashOf (id : Nat) : Option Fields := s.spans[id]?.bind Span.stash

/-- The registry makes a span inside another one. -/
def opened (parent : Option Nat) (stash : Option Fields) : Tracing :=
  { s with spans := s.spans ++ [⟨s.spans.length :: s.scopeOf parent, stash⟩] }

def onNewSpan (parent : Option Nat) (attrs : Values) : Tracing :=
  s.opened parent (some ((NotifyVisitor.visit attrs).kept ∅))

def onRecord (id : Nat) (values : Values) : Tracing :=
  match s.spans[id]? with
  | none => s
  | some span =>
    let fields := (NotifyVisitor.visit values).kept (span.stash.getD ∅)
    { s with spans := s.spans.set id { span with stash := some fields } }

/-- The fields of the spans around, outermost first, and the event's own over them. -/
def merged (scope : List Nat) (own : Fields) : Fields :=
  let inherited : Fields := scope.reverse.foldl (fun merged id =>
    match s.stashOf id with
    | some stash => merged.extend stash
    | none => merged) ∅
  inherited.extend own

/-- What both sinks are given. -/
def enriched (name : String) (fields : Fields) : Fields :=
  (attached.enrich name fields).mapValues (Secrets.redact s.secrets)

def captureAnalytics (name : String) (fields : Fields) : Tracing :=
  match attached.analytics with
  | none => s
  | some captureFor =>
    match captureFor name fields with
    | none => s
    | some capture =>
      { s with captured := s.captured ++ [⟨capture.distinctId, name, capture.properties⟩] }

/-- `dispatch`; there is nothing to do without a Slack sink. -/
def dispatchTo (occurrence : Occurrence) (name : String) (fields : Fields) : Tracing :=
  let actions := attached.actions.bind fun actionsFor => actionsFor name fields
  let emitted : Emitted := ⟨name, fields, occurrence.route, occurrence.drawn, actions⟩
  { s with slack := s.slack.map fun layer => layer.dispatch emitted }

def onEvent (occurrence : Occurrence) : Tracing :=
  if occurrence.target ≠ NOTIFY_TARGET then s
  else
    let visitor := NotifyVisitor.visit occurrence.values
    match visitor.eventName with
    | none => s
    | some name =>
      let fields := s.enriched attached name (s.merged (s.scopeOf occurrence.span) visitor.fields)
      (s.captureAnalytics attached name fields).dispatchTo attached occurrence name fields

def step : Event → Option Tracing
  | .newSpan parent attrs => some (s.onNewSpan parent attrs)
  | .hiddenSpan parent => some (s.opened parent none)
  | .record id values => some (s.onRecord id values)
  | .event occurrence => some (s.onEvent attached occurrence)
  | .register value => some { s with secrets := Secrets.register s.secrets value }
  | .slack (.dispatch _) => none
  | .slack event =>
    match s.slack with
    | none => none
    | some layer => (layer.step event).map fun layer => { s with slack := some layer }

end Tracing

/-- A layer from before the first span, and whatever is traced from then on. -/
def tracing (attached : Attached) : Lts Tracing Tracing.Event where
  init s := s.spans = [] ∧ s.secrets = [] ∧ s.captured = []
  step s a t := s.step attached a = some t

end Tronc.Notify
