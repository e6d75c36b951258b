import EventCourier.Text.Utf8
import EventCourier.Json.Reader

/-!
# Failures

What can go wrong while a message is handled and while the worker as a whole runs. A failure is transient
when the same message may succeed later; it is fatal when it ends the worker. Each cause has its words in
one place, `message`.
-/

namespace EventCourier

/-- Whether the same message may succeed later. -/
inductive Category where
  | transient
  | permanent
deriving DecidableEq, Repr

/-- The category as a word. -/
def Category.name : Category → String
  | .transient => "transient"
  | .permanent => "permanent"

/-- Why a sink did not store an event: a field is missing or of the wrong kind, the backend could not serve
the request, or it refused the write. -/
inductive SinkError where
  | mapping (reason : String)
  | unavailable (reason : String)
  | rejected (reason : String)
deriving DecidableEq, Repr

namespace SinkError

/-- The failure in words. -/
def message : SinkError → String
  | .mapping reason => "mapping error: " ++ reason
  | .unavailable reason => "sink unavailable: " ++ reason
  | .rejected reason => "sink rejected write: " ++ reason

/-- Only a backend that could not serve the request may do so later. -/
def category : SinkError → Category
  | .unavailable _ => .transient
  | .mapping _ | .rejected _ => .permanent

end SinkError

/-- Why a message or the worker as a whole fails. -/
inductive WorkerError where
  | connection (reason : String)
  | topology (reason : String)
  | decode (reason : String)
  | sink (error : SinkError)
  | reconnectExhausted (attempts : Nat) (lastError : String)
  | config (reason : String)
  | shutdown
deriving DecidableEq, Repr

namespace WorkerError

/-- The failure in words. -/
def message : WorkerError → String
  | .connection reason => "connection error: " ++ reason
  | .topology reason => "topology error: " ++ reason
  | .decode reason => "decode error: " ++ reason
  | .sink error => error.message
  | .reconnectExhausted attempts lastError =>
    s!"could not connect after {toString attempts} attempts: {lastError}"
  | .config reason => "configuration error: " ++ reason
  | .shutdown => "shutdown requested"

/-- Broker and backend may come back; nothing else changes by waiting. -/
def category : WorkerError → Category
  | .connection _ => .transient
  | .sink error => error.category
  | .topology _ | .decode _ | .reconnectExhausted _ _ | .config _ | .shutdown => .permanent

/-- A short label for logs and metrics. -/
def kind : WorkerError → String
  | .connection _ => "connection"
  | .topology _ => "topology"
  | .decode _ => "decode"
  | .sink (.mapping _) => "mapping"
  | .sink _ => "sink"
  | .reconnectExhausted _ _ => "reconnect_exhausted"
  | .config _ => "config"
  | .shutdown => "shutdown"

/-- True of the failures that end the worker and not only one message. -/
def isFatal : WorkerError → Bool
  | .topology _ | .reconnectExhausted _ _ | .config _ => true
  | _ => false

/-- A text that is not a document cannot be decoded. -/
def ofReadError (e : Json.Reader.ReadError) : WorkerError := .decode e.message

/-- Bytes that are not UTF-8 cannot be decoded. -/
def ofUtf8Fault (f : Utf8.Fault) : WorkerError := .decode ("payload is not valid UTF-8: " ++ f.message)

end WorkerError

/-- What happens to a message that could not be handled: it is dropped to the dead letters, or a transient
failure puts it back into its queue. -/
inductive RejectPolicy where
  | deadLetter
  | requeueTransient
deriving DecidableEq, Repr, Inhabited

namespace RejectPolicy

/-- The policy as a word. -/
def name : RejectPolicy → String
  | .deadLetter => "dead_letter"
  | .requeueTransient => "requeue_transient"

/-- The policy a word stands for. -/
def ofName? (s : String) : Option RejectPolicy :=
  if s = "dead_letter" then some .deadLetter
  else if s = "requeue_transient" then some .requeueTransient
  else none

/-- Messages are dropped unless a setting says otherwise. -/
def standard : RejectPolicy := .deadLetter

/-- Whether a failure puts its message back into the queue. -/
def shouldRequeue (policy : RejectPolicy) (error : WorkerError) : Bool :=
  match policy with
  | .deadLetter => false
  | .requeueTransient => decide (error.category = .transient)

end RejectPolicy
end EventCourier
