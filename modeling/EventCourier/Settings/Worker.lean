import EventCourier.Settings.Environment

/-!
# Tuning of the worker

How the worker consumes and reconnects. The setters keep prefetch and attempts at one or more; the settings
read from an environment refuse zero for both.
-/

namespace EventCourier

/-- How the worker consumes. Delays are in milliseconds, the heartbeat interval in seconds. -/
structure WorkerConfig where
  consumerTag : String
  prefetch : Nat
  maxAttempts : Nat
  reconnectDelay : Nat
  heartbeatInterval : Nat
  declareExchanges : Bool
  rejectPolicy : RejectPolicy
  requeueDelay : Nat
deriving DecidableEq, Repr

namespace WorkerConfig

/-- The configuration of a worker of which nothing is set, told apart from others by an identifier. -/
def standard (identifier : String) : WorkerConfig where
  consumerTag := "metrics-worker-" ++ identifier
  prefetch := 1
  maxAttempts := 3
  reconnectDelay := 3000
  heartbeatInterval := 5
  declareExchanges := false
  rejectPolicy := .deadLetter
  requeueDelay := 1000

/-- Sets how many deliveries may be unresolved at a time, at least one. -/
def withPrefetch (c : WorkerConfig) (n : Nat) : WorkerConfig := { c with prefetch := max n 1 }

/-- Sets how often and at what distance a connection is tried, at least once. -/
def withReconnect (c : WorkerConfig) (attempts delay : Nat) : WorkerConfig :=
  { c with maxAttempts := max attempts 1, reconnectDelay := delay }

/-- The consumer tag on a queue. -/
def consumerTagFor (c : WorkerConfig) (queue : String) : String := c.consumerTag ++ "-" ++ queue

/-- How many deliveries are buffered between broker and worker: as many as may be unresolved. -/
def deliveryBuffer (c : WorkerConfig) : Nat := max c.prefetch 1

end WorkerConfig

/-- The tuning that an environment asks for. -/
structure WorkerSettings where
  prefetch : Nat
  maxAttempts : Nat
  reconnectDelay : Nat
  declareExchanges : Bool
  heartbeatInterval : Nat
  rejectPolicy : RejectPolicy
  requeueDelay : Nat
deriving DecidableEq, Repr

namespace WorkerSettings

/-- Refuses zero. -/
def atLeastOne (key : String) (n : Nat) : Except SettingError Nat :=
  if n = 0 then .error (.invalid key "must be at least 1") else .ok n

/-- The settings of an environment, read in this order. -/
def ofEnvironment (env : Environment) : Except SettingError WorkerSettings := do
  let prefetch ← atLeastOne "AMQP_PREFETCH" (← env.parsed (readNumber 0x10000) "AMQP_PREFETCH" 1)
  let maxAttempts ← atLeastOne "AMQP_MAX_RECONNECT_ATTEMPTS"
    (← env.parsed (readNumber 0x100000000) "AMQP_MAX_RECONNECT_ATTEMPTS" 3)
  let reconnectDelay ← env.parsed (readNumber 0x10000000000000000) "AMQP_RECONNECT_DELAY_MS" 3000
  let declareExchanges ← env.parsed readBool "AMQP_DECLARE_EXCHANGES" false
  let heartbeatInterval ← env.parsed (readNumber 0x10000000000000000) "HEARTBEAT_INTERVAL_SECS" 5
  let rejectPolicy ← env.parsed readPolicy "REJECT_POLICY" .deadLetter
  let requeueDelay ← env.parsed (readNumber 0x10000000000000000) "REQUEUE_DELAY_MS" 1000
  return ⟨prefetch, maxAttempts, reconnectDelay, declareExchanges, heartbeatInterval, rejectPolicy,
    requeueDelay⟩

/-- The worker's configuration under these settings. -/
def workerConfig (s : WorkerSettings) (consumerTag : String) : WorkerConfig :=
  { ((WorkerConfig.standard "").withPrefetch s.prefetch).withReconnect s.maxAttempts s.reconnectDelay with
    consumerTag := consumerTag
    heartbeatInterval := s.heartbeatInterval
    declareExchanges := s.declareExchanges
    rejectPolicy := s.rejectPolicy
    requeueDelay := s.requeueDelay }

end WorkerSettings
end EventCourier
