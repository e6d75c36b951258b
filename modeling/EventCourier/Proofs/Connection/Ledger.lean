import EventCourier.Proofs.Connection.Change
import Mathlib.Data.List.Nodup

/-!
# Sessions are accounted for

`logged` puts a log in front of any broker: of every attempt to open a session, of every session that was
opened, and of every close. `Accounts` says of a log that sessions were opened in increasing order, one at a
time, each closed before the next was asked for; `Accounted` says so of the log of a connection, whose own
session, or the one that an attempt under way has opened, is the one that is not closed. Every change of the
connection keeps it (`accounted_change`), whatever the broker answers.
-/

namespace EventCourier

variable {β : Type}

/-- What becomes of sessions. -/
inductive SessionEvent where
  | attempted (generation : Nat)
  | opened (generation : Nat)
  | closed (generation : Nat)
deriving DecidableEq, Repr

/-- The state of a broker, and the log in front of it. -/
structure Logged (β : Type) where
  broker : β
  log : List SessionEvent

/-- A call that the log does not mention. -/
def Call.unnoted (call : Call β) : Call (Logged β) := fun s =>
  ((call s.broker).1, { s with broker := (call s.broker).2 })

/-- A broker with a log in front of it. A session counts as closed once it was told to close, whatever it
answers. -/
def BrokerApi.logged (api : BrokerApi β) : BrokerApi (Logged β) where
  openSession generation notify := fun s =>
    match api.openSession generation notify s.broker with
    | (.error e, b) => (.error e, ⟨b, s.log ++ [.attempted generation]⟩)
    | (.ok (), b) => (.ok (), ⟨b, s.log ++ [.attempted generation] ++ [.opened generation]⟩)
  assertExchange generation exchange := Call.unnoted (api.assertExchange generation exchange)
  declareExchange generation exchange := Call.unnoted (api.declareExchange generation exchange)
  declareQueue generation t := Call.unnoted (api.declareQueue generation t)
  setPrefetch generation count := Call.unnoted (api.setPrefetch generation count)
  consume generation queue consumerTag := Call.unnoted (api.consume generation queue consumerTag)
  ack generation tag := Call.unnoted (api.ack generation tag)
  reject generation tag requeue := Call.unnoted (api.reject generation tag requeue)
  close generation := fun s =>
    ((api.close generation s.broker).1, ⟨(api.close generation s.broker).2, s.log ++ [.closed generation]⟩)

/-! ## Logs -/

/-- The sessions that were opened, in order. -/
def openings (log : List SessionEvent) : List Nat :=
  log.filterMap fun
    | .opened g => some g
    | _ => none

/-- The sessions that were closed, in order. -/
def closings (log : List SessionEvent) : List Nat :=
  log.filterMap fun
    | .closed g => some g
    | _ => none

/-- The sessions of a log were opened in increasing order. At every moment all of them were closed but at most
one, at the end all but `left`; when a session was asked for, all were. -/
structure Accounts (log : List SessionEvent) (left : Option Nat) : Prop where
  left : openings log = closings log ++ left.toList
  increasing : (openings log).Pairwise (· < ·)
  oneLeft : ∀ before, before <+: log → ∃ s : Option Nat, openings before = closings before ++ s.toList
  noneLeft : ∀ before g, before ++ [.attempted g] <+: log → openings before = closings before

namespace Accounts

variable {log : List SessionEvent} {left : Option Nat} {g : Nat}

theorem nil : Accounts [] none where
  left := rfl
  increasing := List.Pairwise.nil
  oneLeft before h := ⟨none, by rw [List.prefix_nil.mp h]; rfl⟩
  noneLeft before g h := by simp at h

/-- A log keeps its accounts by an event that leaves at most one session. -/
theorem append (h : Accounts log left) (e : SessionEvent) {left' : Option Nat}
    (hleft : openings (log ++ [e]) = closings (log ++ [e]) ++ left'.toList)
    (hincreasing : (openings (log ++ [e])).Pairwise (· < ·)) (hnone : ∀ g, e = .attempted g → left = none) :
    Accounts (log ++ [e]) left' where
  left := hleft
  increasing := hincreasing
  oneLeft before hb := by
    rcases List.prefix_concat_iff.mp hb with rfl | hb
    · exact ⟨left', hleft⟩
    · exact h.oneLeft before hb
  noneLeft before g hb := by
    rcases List.prefix_concat_iff.mp hb with heq | hb
    · obtain ⟨rfl, he⟩ := List.append_inj' heq rfl
      have := h.left
      rwa [hnone g (List.singleton_inj.mp he).symm, Option.toList_none, List.append_nil] at this
    · exact h.noneLeft before g hb

/-- A session is asked for when all are closed. -/
theorem attempted (h : Accounts log none) (g : Nat) : Accounts (log ++ [.attempted g]) none := by
  refine h.append _ ?_ ?_ fun _ _ => rfl
  · simpa [openings, closings] using h.left
  · simpa [openings] using h.increasing

/-- A session is opened under a generation beyond those before it. -/
theorem opened (h : Accounts log none) (hg : ∀ k ∈ openings log, k < g) :
    Accounts (log ++ [.opened g]) (some g) := by
  have hopen : openings (log ++ [.opened g]) = openings log ++ [g] := by simp [openings]
  have hclosed : closings (log ++ [.opened g]) = closings log := by simp [closings]
  refine h.append _ ?_ ?_ fun _ hne => by cases hne
  · rw [hopen, hclosed, h.left]
    simp
  · rw [hopen]
    exact List.pairwise_append.mpr ⟨h.increasing, List.pairwise_singleton _ _, fun k hk j hj =>
      List.mem_singleton.mp hj ▸ hg k hk⟩

/-- The session that is left is closed. -/
theorem closed (h : Accounts log (some g)) : Accounts (log ++ [.closed g]) none := by
  have hopen : openings (log ++ [.closed g]) = openings log := by simp [openings]
  have hclosed : closings (log ++ [.closed g]) = closings log ++ [g] := by simp [closings]
  refine h.append _ ?_ ?_ fun _ hne => by cases hne
  · rw [hopen, hclosed, h.left]
    simp
  · rw [hopen]
    exact h.increasing

/-- A session that was opened was closed once, or it is the one that is left and was not closed. -/
theorem once (h : Accounts log left) (hg : g ∈ openings log) :
    (closings log).count g = 1 ∧ left ≠ some g ∨ (closings log).count g = 0 ∧ left = some g := by
  have hone : (openings log).count g = 1 :=
    List.count_eq_one_of_mem (h.increasing.imp fun hlt => Nat.ne_of_lt hlt) hg
  rw [h.left, List.count_append] at hone
  by_cases hleft : left = some g
  · rw [hleft, Option.toList_some, List.count_singleton_self] at hone
    exact Or.inr ⟨by omega, hleft⟩
  · have hnot : left.toList.count g = 0 := List.count_eq_zero.mpr fun hmem => hleft (Option.mem_toList.mp hmem)
    exact Or.inl ⟨by omega, hleft⟩

end Accounts

/-! ## The log of a connection -/

open Connection

variable {api : BrokerApi β} {l : Option (Tag × Outcome)} {a a' : Option Attempt} {c c' : Connection (Logged β)}

/-- The sessions of a connection are accounted for: the one in hand is the one that is not closed, and none was
opened under a generation still to come. -/
structure Accounted (c : Connection (Logged β)) (a : Option Attempt) : Prop where
  accounts : Accounts c.broker.log (c.inHand a)
  steady : c.Steady a
  reached : ∀ k ∈ openings c.broker.log, k ≤ c.generation
  fresh : a = some .opening → ∀ k ∈ openings c.broker.log, k < c.generation

theorem accounted_closed (bindings : List Binding) (config : WorkerConfig) (notify : Bool) (state : β) :
    Accounted (.closed bindings config notify ⟨state, []⟩) none where
  accounts := .nil
  steady := .of_none rfl _
  reached _ hk := by cases hk
  fresh h := by cases h

theorem setup_logged (api : BrokerApi β) (g : Nat) (call : SetupCall) :
    call.run api.logged g = (call.run api g).unnoted := by
  cases call <;> rfl

theorem resolve_logged (api : BrokerApi β) (g tag : Nat) (outcome : Outcome) :
    api.logged.resolve g tag outcome = (api.resolve g tag outcome).unnoted := by
  cases outcome <;> rfl

/-- To let go of the session closes it, if there is one. -/
theorem log_release (api : BrokerApi β) (c : Connection (Logged β)) :
    (c.release api.logged).broker.log = c.broker.log ++ c.session.toList.map .closed := by
  unfold release
  cases c.session with
  | none => simp
  | some g => rfl

/-- Sessions stay accounted for if the log and the session in hand stay the same. -/
theorem Accounted.of_eq (h : Accounted c a) (hs : c'.Steady a') (hlog : c'.broker.log = c.broker.log)
    (hgeneration : c'.generation = c.generation) (hhand : c'.inHand a' = c.inHand a)
    (ha : a' = some .opening → a = some .opening) : Accounted c' a' where
  accounts := by
    rw [hlog, hhand]
    exact h.accounts
  steady := hs
  reached := by
    rw [hlog, hgeneration]
    exact h.reached
  fresh h' := by
    rw [hlog, hgeneration]
    exact h.fresh (ha h')

theorem Accounted.same (h : Accounted c a) (hs : Same c c') : Accounted c' a :=
  h.of_eq (hs.steady h.steady) (by rw [hs.broker]) hs.generation (hs.inHand a) id

/-- To let go of the session leaves none. -/
theorem Accounted.release (h : Accounted c none) (api : BrokerApi β) :
    Accounts (c.release api.logged).broker.log none ∧
      openings (c.release api.logged).broker.log = openings c.broker.log := by
  have haccounts := h.accounts
  rw [inHand_of_not_halfway rfl] at haccounts
  rw [log_release]
  cases hs : c.session with
  | none =>
    rw [hs] at haccounts
    simpa using haccounts
  | some g =>
    rw [hs] at haccounts
    exact ⟨haccounts.closed, by simp [openings]⟩

/-- **Every change of a connection keeps its sessions accounted for.** -/
theorem accounted_change (hc : Change api.logged c c' l a a') (h : Accounted c a) : Accounted c' a' := by
  have hs : c'.Steady a' := hc.steady h.steady
  cases hc with
  | quiet hsame => exact h.same hsame
  | reported hsame =>
    refine h.of_eq hs (by rw [hsame.broker]) hsame.generation ?_ fun ha => by cases ha
    rw [inHand_of_not_halfway rfl, inHand_of_not_halfway rfl, hsame.session]
  | started hsame =>
    obtain ⟨haccounts, hopen⟩ := h.release api
    have hgeneration : c'.generation = c.generation + 1 := by
      rw [hsame.generation]
      exact congrArg (· + 1) (release_generation _ c)
    have hlt : ∀ k ∈ openings c'.broker.log, k < c'.generation := by
      intro k hk
      rw [hsame.broker] at hk
      rw [hgeneration]
      exact Nat.lt_succ_of_le (h.reached k (hopen ▸ hk))
    refine ⟨?_, hs, fun k hk => Nat.le_of_lt (hlt k hk), fun _ => hlt⟩
    rw [inHand_of_not_halfway rfl, hs.free _ rfl rfl, hsame.broker]
    exact haccounts
  | refused call hsame =>
    have hnone : c.session = none := h.steady.free _ rfl rfl
    have haccounts := h.accounts
    rw [inHand_of_not_halfway rfl, hnone] at haccounts
    have hlog : c'.broker.log = c.broker.log ++ [.attempted c.generation] := by
      rw [hsame.broker]
      simp only [BrokerApi.logged] at call
      split at call <;> cases call
      rfl
    have hopen : openings c'.broker.log = openings c.broker.log := by rw [hlog]; simp [openings]
    refine ⟨?_, hs, ?_, fun ha => by cases ha⟩
    · rw [inHand_of_not_halfway rfl, hsame.session, hlog]
      rw [show ({ c with broker := _ } : Connection (Logged β)).session = none from hnone]
      exact haccounts.attempted _
    · rw [hopen, hsame.generation]
      exact h.reached
  | opened call hsame =>
    have hnone : c.session = none := h.steady.free _ rfl rfl
    have haccounts := h.accounts
    rw [inHand_of_not_halfway rfl, hnone] at haccounts
    have hlog : c'.broker.log = c.broker.log ++ [.attempted c.generation] ++ [.opened c.generation] := by
      rw [hsame.broker]
      simp only [BrokerApi.logged] at call
      split at call <;> cases call
      rfl
    have hopen : openings (c.broker.log ++ [.attempted c.generation]) = openings c.broker.log := by
      simp [openings]
    refine ⟨?_, hs, ?_, fun ha => by cases ha⟩
    · rw [inHand_of_halfway (hs.free _ rfl rfl) rfl, hsame.generation, hlog]
      refine (haccounts.attempted _).opened ?_
      rw [hopen]
      exact h.fresh rfl
    · intro k hk
      rw [hlog] at hk
      rw [hsame.generation]
      have : k ∈ openings c.broker.log ∨ k = c.generation := by simpa [openings] using hk
      rcases this with hk | rfl
      · exact h.reached k hk
      · exact Nat.le_refl _
  | called hsame =>
    refine h.of_eq hs (by rw [hsame.broker, setup_logged]; rfl) hsame.generation ?_ fun ha => by cases ha
    rw [inHand_of_halfway (hs.free _ rfl rfl) rfl, inHand_of_halfway (h.steady.free _ rfl rfl) rfl]
    exact congrArg some hsame.generation
  | failed hsame =>
    refine h.of_eq hs (by rw [hsame.broker, setup_logged]; rfl) hsame.generation ?_ fun ha => by cases ha
    rw [inHand_of_halfway (hs.free _ rfl rfl) rfl, inHand_of_halfway (h.steady.free _ rfl rfl) rfl]
    exact congrArg some hsame.generation
  | established hsame =>
    refine h.of_eq hs (by rw [hsame.broker]) hsame.generation ?_ fun ha => by cases ha
    rw [inHand_of_halfway (h.steady.free _ rfl rfl) rfl, inHand_of_not_halfway rfl]
    exact hsame.session
  | undone hsame =>
    have haccounts := h.accounts
    rw [inHand_of_halfway (h.steady.free _ rfl rfl) rfl] at haccounts
    have hlog : c'.broker.log = c.broker.log ++ [.closed c.generation] := by rw [hsame.broker]; rfl
    have hopen : openings c'.broker.log = openings c.broker.log := by rw [hlog]; simp [openings]
    refine ⟨?_, hs, ?_, fun ha => by cases ha⟩
    · rw [inHand_of_not_halfway rfl, hsame.session, hlog]
      rw [show ({ c with broker := _ } : Connection (Logged β)).session = none from h.steady.free _ rfl rfl]
      exact haccounts.closed
    · rw [hopen, hsame.generation]
      exact h.reached
  | released hsame =>
    obtain ⟨haccounts, hopen⟩ := h.release api
    refine ⟨?_, hs, ?_, fun ha => by cases ha⟩
    · rw [inHand_of_not_halfway rfl, hsame.session, release_session, hsame.broker]
      exact haccounts
    · rw [hsame.broker, hsame.generation, release_generation, hopen]
      exact h.reached
  | resolved session current hsame =>
    refine h.of_eq hs (by rw [hsame.broker, resolve_logged]; rfl) hsame.generation ?_ fun ha => by cases ha
    rw [inHand_of_not_halfway rfl, inHand_of_not_halfway rfl]
    exact hsame.session

/-- Something happens to the broker that has nothing to do with the connection. -/
def Connection.disturb (f : β → β) (c : Connection (Logged β)) : Connection (Logged β) :=
  { c with broker := { c.broker with broker := f c.broker.broker } }

theorem accounted_disturb (h : Accounted c a) (f : β → β) : Accounted (c.disturb f) a :=
  h.of_eq ⟨h.steady.current, h.steady.free⟩ rfl rfl rfl id

end EventCourier
