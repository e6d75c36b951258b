import EventCourier.Journal
import EventCourier.Record.Point

/-!
# Metrics

The metrics are counted from the marks of a journal. A counter is the number of its samples, a gauge the
last of them, and a summary their number and sum. `exposition` writes them in the text format of Prometheus.
-/

namespace EventCourier

namespace Metrics

/-- What becomes of the samples of a metric. -/
inductive Measure where
  | counter
  | gauge
  | summary
deriving DecidableEq, Repr

/-- The measure as a word. -/
def Measure.name : Measure → String
  | .counter => "counter"
  | .gauge => "gauge"
  | .summary => "summary"

/-- One sample of a metric with its labels. The amount counts for gauges, and for summaries in milliseconds.
-/
structure Sample where
  measure : Measure
  name : String
  labels : List (String × String)
  amount : Nat
deriving DecidableEq, Repr

/-- A truth value as a label. -/
def flagText (b : Bool) : String := if b then "true" else "false"

/-- The samples of a mark that a worker made. -/
def samples (worker : String) (m : Mark) : List Sample :=
  let counter (name : String) (labels : List (String × String)) : Sample :=
    ⟨.counter, name, ("worker", worker) :: labels, 1⟩
  match m with
  | .received key => [counter "amqp_worker_deliveries_received_total" [("routing_key", key)]]
  | .acked sink duration =>
    [counter "amqp_worker_deliveries_acked_total" [("sink", sink)],
      ⟨.summary, "amqp_worker_sink_duration_seconds", [("worker", worker), ("sink", sink)], duration⟩]
  | .rejected kind requeued =>
    [counter "amqp_worker_deliveries_rejected_total" [("kind", kind), ("requeued", flagText requeued)]]
  | .stale => [counter "amqp_worker_stale_deliveries_total" []]
  | .attempt success =>
    [counter "amqp_worker_connect_attempts_total" [("status", if success then "success" else "failed")]]
  | .lost => [counter "amqp_worker_connection_lost_total" []]
  | .state s => [⟨.gauge, "amqp_worker_connection_state", [("worker", worker)], s.gauge⟩]

/-- A metric with its labels and all its samples. -/
structure Series where
  measure : Measure
  name : String
  labels : List (String × String)
  amounts : List Nat
deriving DecidableEq, Repr

/-- Adds a sample to the series it belongs to. -/
def add (s : Sample) : List Series → List Series
  | [] => [⟨s.measure, s.name, s.labels, [s.amount]⟩]
  | t :: ts =>
    if t.name = s.name ∧ t.labels = s.labels then { t with amounts := t.amounts ++ [s.amount] } :: ts
    else t :: add s ts

/-- The series of marks, each with the worker that made it. -/
def series (marks : List (String × Mark)) : List Series :=
  (marks.flatMap fun m => samples m.1 m.2).foldl (fun ts s => add s ts) []

/-- What a series shows as a number. -/
def Series.value (s : Series) : Nat :=
  match s.measure with
  | .counter | .summary => s.amounts.length
  | .gauge => s.amounts.getLast?.getD 0

/-- A series by its name and labels. -/
def Series.text (s : Series) : String :=
  s.name ++ "\x7b" ++ ",".intercalate (s.labels.map fun l => l.1 ++ "=" ++ l.2) ++ "\x7d"

/-! ## Exposition -/

/-- A label value in quotes: quotes, backslashes and line feeds behind a backslash. A backslash that already
stands in front of one of them is taken as its escape; `pending` tells that one has been seen. -/
def labelChars (pending : Bool) : List Char → List Char
  | [] => if pending then ['\\', '\\'] else []
  | c :: cs =>
    if c = '\n' then '\\' :: 'n' :: labelChars false cs
    else if c = '"' then '\\' :: '"' :: labelChars false cs
    else if c = '\\' then (if pending then ['\\', '\\'] else []) ++ labelChars (!pending) cs
    else (if pending then ['\\', '\\'] else []) ++ c :: labelChars false cs

/-- A sample line. -/
def sampleLine (name suffix : String) (labels : List (String × String)) (value : String) : String :=
  let label (l : String × String) : String :=
    l.1 ++ "=\"" ++ String.ofList (labelChars false l.2.toList) ++ "\""
  name ++ suffix ++ "\x7b" ++ ",".intercalate (labels.map label) ++ "\x7d " ++ value

/-- The sum of durations in seconds, rounded after every step. -/
def sumSeconds (millis : List Nat) : Double :=
  millis.foldl (fun sum n => sum.add ((Double.ofInt (n / 1000 : Nat)).add (.ofQuotient false (n % 1000) 1000)))
    (.ofInt 0)

/-- The lines of a series. -/
def Series.lines (s : Series) : List String :=
  match s.measure with
  | .counter | .gauge => [sampleLine s.name "" s.labels (toString s.value)]
  | .summary =>
    [sampleLine s.name "_sum" s.labels (String.ofList (Point.realLayout.chars (sumSeconds s.amounts))),
      sampleLine s.name "_count" s.labels (toString s.value)]

/-- The lines of all metrics: the type of each, and its samples. -/
def exposition (marks : List (String × Mark)) : List String :=
  let all := series marks
  (all.map fun s => "# TYPE " ++ s.name ++ " " ++ s.measure.name).eraseDups ++ all.flatMap Series.lines

end Metrics
end EventCourier
