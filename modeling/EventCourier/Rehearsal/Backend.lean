import EventCourier.Record.Store

/-!
# Rehearsed backends

Stand-ins for backends: a scripted one takes its answers from a list and may make the asker wait at a gate
or for a while; a recording one keeps every event and always answers alike.
-/

namespace EventCourier.Rehearsal

/-- An answer of a scripted backend: whether it waits at the gate first, how long it then takes, and what it
says. -/
structure Reply where
  gate : Bool
  delay : Nat
  result : Except SinkError Unit

/-- A stand-in for a backend. -/
inductive Backend where
  | scripted (script : List Reply) (always : Option Reply)
  | recording (failure : Option SinkError) (kept : List (String × Event))

/-- What a backend is asked: to store what one of the two sinks of the service made, or an event as it is,
in the name of a sink. -/
inductive Question where
  | store (r : StoreRequest)
  | keep (sink : String) (e : Event)

/-- A question to the backend at a place in the list of all. -/
structure Ask where
  backend : Nat
  question : Question

/-- Success at once. -/
def Reply.success : Reply := ⟨false, 0, .ok ()⟩

/-- The reply of a backend, and the backend afterwards. Scripted answers come first, then the standing one.
-/
def Backend.ask (b : Backend) (q : Question) : Reply × Backend :=
  match b with
  | .scripted (r :: rest) always => (r, .scripted rest always)
  | .scripted [] always => (always.getD .success, b)
  | .recording failure kept =>
    let kept := match q with
      | .keep sink e => kept ++ [(sink, e)]
      | .store _ => kept
    (⟨false, 0, match failure with
      | some e => .error e
      | none => .ok ()⟩, .recording failure kept)

/-- True of backends whose questions are listed. -/
def Backend.isScripted : Backend → Bool
  | .scripted .. => true
  | .recording .. => false

/-- A sink that keeps events as they are in a backend. -/
def keeper (name : String) (backend : Nat) : Sink Ask where
  name := name
  request e := .ok ⟨backend, .keep name e⟩

/-- A sink of the service whose backend is a stand-in. -/
def stored (sink : Sink StoreRequest) (backend : Nat) : Sink Ask where
  name := sink.name
  request e := match sink.request e with
    | .ok r => .ok ⟨backend, .store r⟩
    | .error fault => .error fault

/-- Backends, the questions they were asked so far, and the permits left at the gate. -/
structure Backends where
  all : List Backend
  asked : List Question
  permits : Nat

/-- Asks a backend. -/
def Backends.ask (bs : Backends) (a : Ask) : Reply × Backends :=
  match bs.all[a.backend]? with
  | none => (.success, bs)
  | some b =>
    let (reply, b') := b.ask a.question
    (reply, { bs with
      all := bs.all.set a.backend b'
      asked := if b.isScripted then bs.asked ++ [a.question] else bs.asked })

/-- The events that the recording backends have kept and in the name of which sink, a list for each. -/
def Backends.recorded (bs : Backends) : List (List (String × Event)) :=
  bs.all.filterMap fun b => match b with
    | .recording _ kept => some kept
    | .scripted .. => none

/-- The router and the backends of the service, each backend scripted. -/
def serviceBackends (points documents : Backend) : Router (Sink Ask) × Backends :=
  (.forEvents (stored StoreRequest.timeSeries 0) (stored StoreRequest.documents 1),
    ⟨[points, documents], [], 0⟩)

/-- The router and the backends of a fallback and further routes, each with a name and a backend of its own.
-/
def namedBackends (fallback : String × Backend) (routes : List (String × String × Backend)) :
    Router (Sink Ask) × Backends :=
  let start : Router (Sink Ask) := .only (keeper fallback.1 0)
  (routes.zipIdx.foldl (fun r route => r.route route.1.1 (keeper route.1.2.1 (route.2 + 1))) start,
    ⟨fallback.2 :: routes.map (·.2.2), [], 0⟩)

/-- The verdict of a backend, and the backends afterwards. -/
def Backends.verdict (a : Ask) (bs : Backends) : Verdict × Backends :=
  let (reply, bs) := bs.ask a
  (⟨reply.result, reply.delay⟩, bs)

/-- Handles a message, with what it comes to. -/
def process (router : Router (Sink Ask)) (policy : RejectPolicy) (clock : Instant) (d : Delivery)
    (bs : Backends) : Outcome × Journal × Backends :=
  let handled := Pipeline.process router policy (Sink.persist Backends.verdict) d clock .empty bs
  (handled.outcome, handled.journal, handled.outside)

end EventCourier.Rehearsal
