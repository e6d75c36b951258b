import EventCourier.Proofs.Connection.Ledger
import EventCourier.Proofs.Connection.Retry

/-!
# Generations are counted

From any moment on, the generations under which sessions are asked for follow each other one by one up to the
current one, which is still to come as long as an attempt has not made its first call (`Numbered`). Every change
of a connection keeps this (`numbered_change`), whatever the broker answers.
-/

namespace EventCourier

variable {β : Type}

/-- The generations under which a session was asked for, in order. -/
def attempts (log : List SessionEvent) : List Nat :=
  log.filterMap fun
    | .attempted g => some g
    | _ => none

theorem attempts_append (log events : List SessionEvent) :
    attempts (log ++ events) = attempts log ++ attempts events :=
  List.filterMap_append

/-- True of an attempt that has made no call. -/
def Attempt.isOpening : Attempt → Bool
  | .opening => true
  | .settingUp _ | .undoing _ | .over _ => false

open Connection

variable {api : BrokerApi β} {l : Option (Tag × Outcome)} {a a' : Option Attempt} {c c' : Connection (Logged β)}

/-- The generation that is still to be asked for. -/
def Connection.announced (c : Connection (Logged β)) (a : Option Attempt) : List Nat :=
  if a.any Attempt.isOpening then [c.generation] else []

/-- After those that a log begins with, sessions were asked for under all generations from `g` up to the current
one, each once. -/
structure Numbered (before : List Nat) (g : Nat) (c : Connection (Logged β)) (a : Option Attempt) : Prop where
  reached : g ≤ c.generation
  attempts : attempts c.broker.log ++ c.announced a = before ++ List.range' (g + 1) (c.generation - g)

variable {before : List Nat} {g : Nat}

theorem numbered_closed (bindings : List Binding) (config : WorkerConfig) (notify : Bool) (state : β) :
    Numbered [] 0 (.closed bindings config notify ⟨state, []⟩) none := ⟨Nat.le_refl 0, rfl⟩

/-- A connection with no attempt under way is numbered from where it is. -/
theorem numbered_self (c : Connection (Logged β)) : Numbered (attempts c.broker.log) c.generation c none where
  reached := Nat.le_refl _
  attempts := by rw [Nat.sub_self]; rfl

/-- Without an attempt that is about to begin, a session was asked for under every generation. -/
theorem Numbered.attempts_eq (h : Numbered before g c a) (ha : a.any Attempt.isOpening = false) :
    EventCourier.attempts c.broker.log = before ++ List.range' (g + 1) (c.generation - g) := by
  have := h.attempts
  rwa [announced, ha, if_neg Bool.false_ne_true, List.append_nil] at this

/-- The numbering stays if no attempt is made and none begins. -/
theorem Numbered.of_eq (h : Numbered before g c a)
    (hlog : EventCourier.attempts c'.broker.log = EventCourier.attempts c.broker.log)
    (hgeneration : c'.generation = c.generation) (ha : a'.any Attempt.isOpening = a.any Attempt.isOpening) :
    Numbered before g c' a' where
  reached := hgeneration ▸ h.reached
  attempts := by
    rw [announced, hlog, hgeneration, ha]
    exact h.attempts

theorem attempts_release (api : BrokerApi β) (c : Connection (Logged β)) :
    attempts (c.release api.logged).broker.log = attempts c.broker.log := by
  rw [log_release, attempts_append]
  cases c.session with
  | none => exact List.append_nil _
  | some g => exact List.append_nil _

/-- A call to open a session is entered in the log. -/
theorem attempts_openSession {g : Nat} {notify : Bool} {s s' : Logged β} {result : Except WorkerError Unit}
    (call : api.logged.openSession g notify s = (result, s')) : attempts s'.log = attempts s.log ++ [g] := by
  simp only [BrokerApi.logged] at call
  split at call <;> cases call <;> simp [attempts]

/-- **Every change of a connection keeps the generations counted.** -/
theorem numbered_change (hc : Change api.logged c c' l a a') (h : Numbered before g c a) :
    Numbered before g c' a' := by
  have hmade : ∀ {result s' x}, api.logged.openSession c.generation c.notify c.broker = (result, s') →
      Same { c with broker := s' } c' → a = some .opening → a' = some x → x.isOpening = false →
      Numbered before g c' a' := by
    rintro result s' x call hsame rfl rfl hx
    refine ⟨hsame.generation ▸ h.reached, ?_⟩
    rw [announced, Option.any_some, hx, if_neg Bool.false_ne_true, List.append_nil, hsame.broker,
      hsame.generation, attempts_openSession call]
    exact h.attempts
  cases hc with
  | quiet hsame => exact h.of_eq (by rw [hsame.broker]) hsame.generation rfl
  | reported hsame => exact h.of_eq (by rw [hsame.broker]) hsame.generation rfl
  | started hsame =>
    have hgeneration : c'.generation = c.generation + 1 := by
      rw [hsame.generation]
      exact congrArg (· + 1) (release_generation _ c)
    have hlog : EventCourier.attempts c'.broker.log = before ++ List.range' (g + 1) (c.generation - g) := by
      rw [hsame.broker]
      exact (attempts_release api c).trans (h.attempts_eq rfl)
    have hreached := h.reached
    refine ⟨by omega, ?_⟩
    show EventCourier.attempts c'.broker.log ++ [c'.generation] = _
    rw [hlog, hgeneration, Nat.succ_sub hreached, List.range'_concat, List.append_assoc,
      show g + 1 + 1 * (c.generation - g) = c.generation + 1 by omega]
  | refused call hsame => exact hmade call hsame rfl rfl rfl
  | opened call hsame => exact hmade call hsame rfl rfl rfl
  | called hsame => exact h.of_eq (by rw [hsame.broker, setup_logged]; rfl) hsame.generation rfl
  | failed hsame => exact h.of_eq (by rw [hsame.broker, setup_logged]; rfl) hsame.generation rfl
  | established hsame => exact h.of_eq (by rw [hsame.broker]) hsame.generation rfl
  | undone hsame =>
    refine h.of_eq ?_ hsame.generation rfl
    rw [hsame.broker]
    exact (attempts_append _ _).trans (List.append_nil _)
  | released hsame =>
    refine h.of_eq ?_ (hsame.generation.trans (release_generation _ c)) rfl
    rw [hsame.broker]
    exact attempts_release api c
  | resolved session current hsame =>
    exact h.of_eq (by rw [hsame.broker, resolve_logged]; rfl) hsame.generation rfl

theorem numbered_disturb (h : Numbered before g c a) (f : β → β) : Numbered before g (c.disturb f) a :=
  ⟨h.reached, h.attempts⟩

end EventCourier
