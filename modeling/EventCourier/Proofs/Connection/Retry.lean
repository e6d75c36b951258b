import EventCourier.Proofs.Connection.Change

/-!
# One step of a series of attempts

`Retry.Stepped` lists the steps of a series, each with where it leads and what it makes of the connection; there
are no others (`Retry.stepped_of_step?`).
-/

namespace EventCourier

variable {β : Type}

open Connection

/-- True of a topology that is not usable. -/
def WorkerError.isTopology : WorkerError → Bool
  | .topology _ => true
  | _ => false

namespace Retry

variable {api : BrokerApi β} {shutdown : Bool} {r r' : Retry} {c c' : Connection β}

/-- What one step of a series leads to. -/
inductive Stepped (api : BrokerApi β) (shutdown : Bool) (c : Connection β) :
    Retry → Retry → Connection β → Prop where
  | cancelled {n : Nat} (flag : shutdown = true) : Stepped api shutdown c (.trying n) (.done (.error .shutdown)) c
  | begun {n : Nat} (flag : shutdown = false) :
      Stepped api shutdown c (.trying n) (.attempting n .opening) (c.startAttempt api)
  | went {n : Nat} {a : Attempt} (h : a.isOver = false) :
      Stepped api shutdown c (.attempting n a) (.attempting n (a.step api c).1) (a.step api c).2
  | succeeded {n : Nat} :
      Stepped api shutdown c (.attempting n (.over (.ok ()))) (.done (.ok ())) (c.mark (.attempt true))
  | unusable {n : Nat} {e : WorkerError} (h : e.isTopology = true) :
      Stepped api shutdown c (.attempting n (.over (.error e))) (.done (.error e))
        ((c.mark (.attempt false)).record (.topologyUnusable e))
  | paused {n : Nat} {e : WorkerError} (h : e.isTopology = false) (hn : n < c.config.maxAttempts) :
      Stepped api shutdown c (.attempting n (.over (.error e))) (.pausing n)
        ((c.mark (.attempt false)).record (.attemptFailed n c.config.maxAttempts e))
  | exhausted {n : Nat} {e : WorkerError} (h : e.isTopology = false) (hn : ¬n < c.config.maxAttempts) :
      Stepped api shutdown c (.attempting n (.over (.error e)))
        (.done (.error (.reconnectExhausted c.config.maxAttempts e.message)))
        ((c.mark (.attempt false)).record (.attemptFailed n c.config.maxAttempts e))
  | interrupted {n : Nat} (flag : shutdown = true) :
      Stepped api shutdown c (.pausing n) (.done (.error .shutdown)) c

theorem stepped_afterFailure (n : Nat) (e : WorkerError) :
    Stepped api shutdown c (.attempting n (.over (.error e))) (afterFailure n c.config.maxAttempts e c).1
      (afterFailure n c.config.maxAttempts e c).2 := by
  cases e with
  | topology reason => exact .unusable rfl
  | _ =>
    simp only [afterFailure]
    split
    · exact .paused rfl ‹_›
    · exact .exhausted rfl ‹_›

/-- A series makes no other steps than those listed. -/
theorem stepped_of_step? (h : r.step? api shutdown c = some (r', c')) : Stepped api shutdown c r r' c' := by
  cases r with
  | trying n =>
    cases shutdown with
    | true => cases h; exact .cancelled rfl
    | false => cases h; exact .begun rfl
  | attempting n a =>
    match a with
    | .opening | .settingUp left | .undoing e => cases h; exact .went rfl
    | .over (.ok ()) => cases h; exact .succeeded
    | .over (.error e) =>
      have hstep : afterFailure n c.config.maxAttempts e c = (r', c') := Option.some.inj h
      have hafter : Stepped api shutdown c (.attempting n (.over (.error e))) _ _ := stepped_afterFailure n e
      rwa [hstep] at hafter
  | pausing n =>
    cases shutdown with
    | true => cases h; exact .interrupted rfl
    | false => cases h
  | done result => cases h

end Retry
end EventCourier
