import EventCourier.Broker.Interface

/-!
# A broker that cannot be reached

Every attempt to open a session fails for the same cause, so that no other call has a session to act on.
-/

namespace EventCourier

/-- The broker behind a network that fails for a cause. -/
def BrokerApi.unreachable (cause : String) : BrokerApi Unit :=
  let failed : Call Unit := fun b => (.error (.connection ("failed to connect to RabbitMQ: " ++ cause)), b)
  { openSession := fun _ _ => failed
    assertExchange := fun _ _ => failed
    declareExchange := fun _ _ => failed
    declareQueue := fun _ _ => failed
    setPrefetch := fun _ _ => failed
    consume := fun _ _ _ => failed
    ack := fun _ _ => failed
    reject := fun _ _ _ => failed
    close := fun _ => Call.skip }

end EventCourier
