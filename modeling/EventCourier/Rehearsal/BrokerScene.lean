import EventCourier.Rehearsal.Outside

/-!
# Scenes with the broker alone

The in-memory broker is called directly, on sessions that are numbered in the order in which they were
opened. After every step the forwarders settle.
-/

namespace EventCourier.Rehearsal

/-- A step of a scene with the broker alone. -/
inductive BrokerStep where
  | outside (a : Outside)
  | openSession (generation : Nat)
  | call (session : Nat) (call : Nat → Call Broker)
  | receive (count : Option Nat)
  | shut
  | idle

/-- The broker alone: the sessions opened so far and the notices of the last step. -/
structure BrokerScene where
  relay : Relay
  sessions : List Nat
  notices : List Notice

namespace BrokerScene

/-- The scene before the first step. -/
def start (exchanges : List String) (capacity : Nat) : BrokerScene :=
  ⟨⟨.withExchanges exchanges, .empty capacity, []⟩, [], []⟩

/-- The scene with another broker. -/
def withBroker (s : BrokerScene) (b : Broker) : BrokerScene := { s with relay := { s.relay with broker := b } }

/-- Does a step, before the forwarders settle. -/
def act (s : BrokerScene) : BrokerStep → StepResult × BrokerScene
  | .outside a =>
    let (notice?, b) := a.act s.relay.broker
    (.nothing, { s.withBroker b with notices := (notice?.map (·.2)).toList })
  | .openSession generation =>
    match Broker.openSession 0 generation true s.relay.broker with
    | (.ok (), b) => (.called (.ok ()), { s.withBroker b with sessions := s.sessions ++ [generation] })
    | (.error e, b) => (.called (.error e), s.withBroker b)
  | .call session call =>
    match s.sessions[session]? with
    | none => (.noSession, s)
    | some generation =>
      let (result, b) := call generation s.relay.broker
      (.called result, s.withBroker b)
  | .receive count =>
    let (ds, r) := s.relay.take count
    (.received ds, { s with relay := r })
  | .shut => (.nothing, { s with relay := s.relay.shut })
  | .idle => (.nothing, s)

/-- Does a step and lets the forwarders settle. -/
def play (s : BrokerScene) (step : BrokerStep) : StepResult × BrokerScene :=
  let (result, s) := { s with notices := [] }.act step
  (result, { s with relay := s.relay.settle })

end BrokerScene
end EventCourier.Rehearsal
