import EventCourier.Proofs.Settings.Environment
import EventCourier.Settings.Worker

/-!
# The tuning of the worker is what the environment says

Seven variables are read in their order (`inTurn_ofEnvironment`). The settings are what these variables say
(`ofEnvironment_eq_ok_iff`), and there are none just if one of them has no value. Neither of the two counts is zero, so
the configuration takes over what was read as it is (`unaltered_of_tuned`).
-/

namespace EventCourier

/-! ## Counts -/

section Counts

variable {key : String} {bits default n m : Nat} {env : Environment} {e : SettingError}

/-- A variable for numbers of so many bits that are not zero. -/
def Variable.count (key : String) (bits default : Nat) : Variable Nat where
  key := key
  default := default
  Writes t n := WritesNumber t n ∧ n < Nat.pow 2 bits ∧ n ≠ 0
  Refuses t e := (∃ fault, RefusesNumber (Nat.pow 2 bits) t fault ∧ e = .unreadable key fault) ∨
    WritesNumber t 0 ∧ e = .invalid key "must be at least 1"
  key_of_refuses := by
    rintro _ _ (⟨_, -, rfl⟩ | ⟨-, rfl⟩) <;> rfl

theorem Variable.ne_zero_of_gives (hdefault : default ≠ 0) (h : (count key bits default).Gives env n) : n ≠ 0 := by
  cases h with
  | vacant => exact hdefault
  | written _ hn => exact hn.2.2

theorem atLeastOne_eq_ok_iff : WorkerSettings.atLeastOne key n = .ok m ↔ n ≠ 0 ∧ n = m := by
  unfold WorkerSettings.atLeastOne
  split_ifs with h <;> simp [h]

theorem atLeastOne_eq_error_iff :
    WorkerSettings.atLeastOne key n = .error e ↔ n = 0 ∧ e = .invalid key "must be at least 1" := by
  unfold WorkerSettings.atLeastOne
  split_ifs with h <;> simp [h, eq_comm]

/-- A count is read as a number is, and zero is refused. -/
theorem Variable.ReadBy.count (env : Environment) (key : String) (bits : Nat) {default : Nat} (hdefault : default ≠ 0) :
    (Variable.count key bits default).ReadBy env
      (env.parsed (readNumber (Nat.pow 2 bits)) key default >>= WorkerSettings.atLeastOne key) := by
  have hnumber := ReadBy.number env key bits default
  constructor
  · intro n
    simp only [bind_eq_ok_iff, hnumber.ok, atLeastOne_eq_ok_iff]
    constructor
    · rintro ⟨_, h | ⟨h, hn, hlt⟩, hne, rfl⟩
      · exact .vacant h
      · exact .written h ⟨hn, hlt, hne⟩
    · rintro (h | ⟨h, hn, hlt, hne⟩)
      · exact ⟨default, .vacant h, hdefault, rfl⟩
      · exact ⟨n, .written h ⟨hn, hlt⟩, hne, rfl⟩
  · intro e
    simp only [bind_eq_error, hnumber.error, hnumber.ok, atLeastOne_eq_error_iff]
    constructor
    · rintro (⟨t, h, ht⟩ | ⟨_, h | ⟨h, hn, -⟩, rfl, he⟩)
      · exact ⟨t, h, Or.inl ht⟩
      · exact absurd rfl hdefault
      · exact ⟨_, h, Or.inr ⟨hn, he⟩⟩
    · rintro ⟨t, h, ht | ⟨hn, he⟩⟩
      · exact Or.inl ⟨t, h, ht⟩
      · exact Or.inr ⟨0, .written h ⟨hn, Nat.two_pow_pos bits⟩, rfl, he⟩

/-- A number of so many bits that is not zero. -/
def Reading.count (key : String) (bits default : Nat) (hdefault : default ≠ 0) : Reading Nat where
  toVariable := .count key bits default
  read env := env.parsed (readNumber (Nat.pow 2 bits)) key default >>= WorkerSettings.atLeastOne key
  readBy env := .count env key bits hdefault

end Counts

/-! ## The seven variables -/

namespace Tuning

def prefetch : Reading Nat := .count "AMQP_PREFETCH" 16 1 (by decide)
def maxAttempts : Reading Nat := .count "AMQP_MAX_RECONNECT_ATTEMPTS" 32 3 (by decide)
def reconnectDelay : Reading Nat := .number "AMQP_RECONNECT_DELAY_MS" 64 3000
def declareExchanges : Reading Bool := .bool "AMQP_DECLARE_EXCHANGES" false
def heartbeatInterval : Reading Nat := .number "HEARTBEAT_INTERVAL_SECS" 64 5
def rejectPolicy : Reading RejectPolicy := .policy "REJECT_POLICY" .deadLetter
def requeueDelay : Reading Nat := .number "REQUEUE_DELAY_MS" 64 1000

/-- The variables, in the order in which they are read. -/
def readings : List (Σ α, Reading α) :=
  [⟨_, prefetch⟩, ⟨_, maxAttempts⟩, ⟨_, reconnectDelay⟩, ⟨_, declareExchanges⟩, ⟨_, heartbeatInterval⟩,
    ⟨_, rejectPolicy⟩, ⟨_, requeueDelay⟩]

/-- Settings are what the variables say. -/
structure Tuned (env : Environment) (s : WorkerSettings) : Prop where
  prefetch : prefetch.Gives env s.prefetch
  maxAttempts : maxAttempts.Gives env s.maxAttempts
  reconnectDelay : reconnectDelay.Gives env s.reconnectDelay
  declareExchanges : declareExchanges.Gives env s.declareExchanges
  heartbeatInterval : heartbeatInterval.Gives env s.heartbeatInterval
  rejectPolicy : rejectPolicy.Gives env s.rejectPolicy
  requeueDelay : requeueDelay.Gives env s.requeueDelay

/-- The configuration takes over settings as they are: the setters that keep counts at one or more put in what they are
given, and the buffer is as large as what is prefetched. -/
structure Unaltered (s : WorkerSettings) : Prop where
  config : ∀ tag, s.workerConfig tag = {
    consumerTag := tag
    prefetch := s.prefetch
    maxAttempts := s.maxAttempts
    reconnectDelay := s.reconnectDelay
    heartbeatInterval := s.heartbeatInterval
    declareExchanges := s.declareExchanges
    rejectPolicy := s.rejectPolicy
    requeueDelay := s.requeueDelay }
  withPrefetch : ∀ c : WorkerConfig, c.withPrefetch s.prefetch = { c with prefetch := s.prefetch }
  withReconnect : ∀ (c : WorkerConfig) (delay : Nat),
    c.withReconnect s.maxAttempts delay = { c with maxAttempts := s.maxAttempts, reconnectDelay := delay }
  deliveryBuffer : ∀ tag, (s.workerConfig tag).deliveryBuffer = s.prefetch

variable {env env' : Environment} {s : WorkerSettings}

/-- One reading after the other; the check that a count is not zero belongs to its variable. -/
theorem ofEnvironment_eq (env : Environment) : WorkerSettings.ofEnvironment env = (do
    let prefetch ← prefetch.read env
    let maxAttempts ← maxAttempts.read env
    let reconnectDelay ← reconnectDelay.read env
    let declareExchanges ← declareExchanges.read env
    let heartbeatInterval ← heartbeatInterval.read env
    let rejectPolicy ← rejectPolicy.read env
    let requeueDelay ← requeueDelay.read env
    return ⟨prefetch, maxAttempts, reconnectDelay, declareExchanges, heartbeatInterval, rejectPolicy,
      requeueDelay⟩) := by
  simp only [WorkerSettings.ofEnvironment, prefetch, maxAttempts, reconnectDelay, declareExchanges, heartbeatInterval,
    rejectPolicy, requeueDelay, Reading.count, Reading.number, Reading.bool, Reading.policy, bind_assoc]

/-- All variables are read in their order. -/
theorem inTurn_ofEnvironment (env : Environment) :
    InTurn (fun r => r.2.Sound env) (fun r => r.2.Blames env) readings (WorkerSettings.ofEnvironment env) := by
  rw [ofEnvironment_eq]
  refine Reading.inTurn fun prefetch => ?_
  refine Reading.inTurn fun maxAttempts => ?_
  refine Reading.inTurn fun reconnectDelay => ?_
  refine Reading.inTurn fun declareExchanges => ?_
  refine Reading.inTurn fun heartbeatInterval => ?_
  refine Reading.inTurn fun rejectPolicy => ?_
  exact Reading.inTurn fun requeueDelay => .nil _

/-- Settings are read just if they are what the variables say. -/
theorem ofEnvironment_eq_ok_iff : WorkerSettings.ofEnvironment env = .ok s ↔ Tuned env s := by
  rw [ofEnvironment_eq]
  simp only [bind_eq_ok_iff, Reading.read_eq_ok]
  constructor
  · rintro ⟨_, hprefetch, _, hattempts, _, hdelay, _, hdeclare, _, hheartbeat, _, hpolicy, _, hrequeue, h⟩
    cases h
    exact ⟨hprefetch, hattempts, hdelay, hdeclare, hheartbeat, hpolicy, hrequeue⟩
  · intro h
    exact ⟨_, h.prefetch, _, h.maxAttempts, _, h.reconnectDelay, _, h.declareExchanges, _, h.heartbeatInterval, _,
      h.rejectPolicy, _, h.requeueDelay, rfl⟩

theorem max_one {n : Nat} (h : n ≠ 0) : max n 1 = n := Nat.max_eq_left (Nat.one_le_iff_ne_zero.mpr h)

/-- Counts that are not zero stay what they are. -/
theorem unaltered_of_tuned (h : Tuned env s) : Unaltered s := by
  have hprefetch := max_one (Variable.ne_zero_of_gives (by decide) h.prefetch)
  have hattempts := max_one (Variable.ne_zero_of_gives (by decide) h.maxAttempts)
  have hconfig : ∀ tag, s.workerConfig tag = ⟨tag, s.prefetch, s.maxAttempts, s.reconnectDelay, s.heartbeatInterval,
      s.declareExchanges, s.rejectPolicy, s.requeueDelay⟩ := by
    intro tag
    simp only [WorkerSettings.workerConfig, WorkerConfig.withPrefetch, WorkerConfig.withReconnect, hprefetch, hattempts]
  exact {
    config := hconfig
    withPrefetch := fun c => by rw [WorkerConfig.withPrefetch, hprefetch]
    withReconnect := fun c delay => by rw [WorkerConfig.withReconnect, hattempts]
    deliveryBuffer := fun tag => by rw [hconfig, WorkerConfig.deliveryBuffer, hprefetch] }

/-- Nothing but the seven variables has a part in the settings. -/
theorem ofEnvironment_congr (h : ∀ r ∈ readings, env'.raw r.2.key = env.raw r.2.key) :
    WorkerSettings.ofEnvironment env' = WorkerSettings.ofEnvironment env := by
  simp only [readings, List.forall_mem_cons] at h
  obtain ⟨hprefetch, hattempts, hdelay, hdeclare, hheartbeat, hpolicy, hrequeue, -⟩ := h
  simp only [ofEnvironment_eq, Reading.read_congr hprefetch, Reading.read_congr hattempts, Reading.read_congr hdelay,
    Reading.read_congr hdeclare, Reading.read_congr hheartbeat, Reading.read_congr hpolicy, Reading.read_congr hrequeue]

/-- **The worker is tuned just as the environment says.** There are settings just if each of the seven variables is
vacant or writes a value of its kind, and they are these values and defaults. The configuration has just the numbers,
flags and delays of the settings, so that no setter changes a value and the buffer is as large as what is prefetched.
Otherwise the error is what is wrong with the first variable without a value, and names it. Other variables make no
difference. -/
theorem settings_unaltered (env : Environment) :
    ((∃ s, WorkerSettings.ofEnvironment env = .ok s) ↔ ∀ r ∈ readings, r.2.Sound env) ∧
    (∀ s, WorkerSettings.ofEnvironment env = .ok s ↔ Tuned env s) ∧
    (∀ s, WorkerSettings.ofEnvironment env = .ok s → Unaltered s) ∧
    (∀ e, WorkerSettings.ofEnvironment env = .error e ↔ ∃ before r behind, readings = before ++ r :: behind ∧
      (∀ q ∈ before, q.2.Sound env) ∧ r.2.Blames env e) ∧
    (∀ r ∈ readings, ((∃ e, r.2.Blames env e) ↔ ¬r.2.Sound env) ∧
      ∀ e, r.2.Blames env e → e.key = r.2.key ∧ ∃ front back, e.message = front ++ r.2.key ++ back) ∧
    ∀ env' : Environment, (∀ r ∈ readings, env'.raw r.2.key = env.raw r.2.key) →
      WorkerSettings.ofEnvironment env' = WorkerSettings.ofEnvironment env :=
  ⟨(inTurn_ofEnvironment env).ok, fun _ => ofEnvironment_eq_ok_iff,
    fun _ hs => unaltered_of_tuned (ofEnvironment_eq_ok_iff.mp hs), (inTurn_ofEnvironment env).error,
    fun _ _ => ⟨Reading.blames_iff, fun _ he => he.names_key⟩, fun _ => ofEnvironment_congr⟩

/-- The greatest counts and the greatest delay, with white space, a sign and zeros around them; a policy; and three
variables that are vacant, one because of its bytes. -/
def greatest : Environment where
  raw key := [("AMQP_PREFETCH", Utf8.encode " +0065535\u00A0"),
    ("AMQP_MAX_RECONNECT_ATTEMPTS", Utf8.encode "4294967295"),
    ("AMQP_RECONNECT_DELAY_MS", Utf8.encode "18446744073709551615"), ("AMQP_DECLARE_EXCHANGES", [0x31, 0xFF]),
    ("HEARTBEAT_INTERVAL_SECS", Utf8.encode "\u2003\t"), ("REJECT_POLICY", Utf8.encode "requeue_transient\n")].lookup key

/-- The settings of this environment. -/
def greatestSettings : WorkerSettings :=
  ⟨65535, 4294967295, 18446744073709551615, false, 5, .requeueTransient, 1000⟩

/-- The same environment without any attempt to connect and with a policy that is none. -/
def noAttempts : Environment where
  raw key :=
    if key = "AMQP_MAX_RECONNECT_ATTEMPTS" then some (Utf8.encode "+0")
    else if key = "REJECT_POLICY" then some (Utf8.encode "Dead_Letter")
    else greatest.raw key

/-- All of this is read as it is written, and zero attempts are refused before the policy is looked at. -/
theorem settings_unaltered_greatest :
    WorkerSettings.ofEnvironment greatest = .ok greatestSettings ∧ Unaltered greatestSettings ∧
      WorkerSettings.ofEnvironment ⟨fun key => if key = "APP_ENV" then some [0xFF] else greatest.raw key⟩ =
        .ok greatestSettings ∧
      ∃ before r behind, readings = before ++ r :: behind ∧ (∀ q ∈ before, q.2.Sound noAttempts) ∧
        r.2.Blames noAttempts (.invalid "AMQP_MAX_RECONNECT_ATTEMPTS" "must be at least 1") := by
  have hread : WorkerSettings.ofEnvironment greatest = .ok greatestSettings := by decide +kernel
  refine ⟨hread, (settings_unaltered greatest).2.2.1 _ hread, ?_,
    ((settings_unaltered noAttempts).2.2.2.1 _).mp (by decide +kernel)⟩
  refine ((settings_unaltered greatest).2.2.2.2.2 _ ?_).trans hread
  simp only [readings, List.forall_mem_cons]
  exact ⟨rfl, rfl, rfl, rfl, rfl, rfl, rfl, nofun⟩

end Tuning
end EventCourier
