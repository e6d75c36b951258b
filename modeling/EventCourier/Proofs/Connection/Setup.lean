import EventCourier.Connection
import EventCourier.Proofs.Broker.Layout

/-!
# What the calls of a set-up do

A call that sets up a session succeeds only on the live session, and then changes what it is for and nothing else
(`call_succeeded`); a call that fails changes nothing and says why (`call_failed`). `Made` is what the calls that
were made have made of the broker, one call at a time (`Made.concat`); others may take from it only by dropping the
connection (`Made.of_laid`).
-/

namespace EventCourier

open Broker Connection

variable {receiver g : Nat} {before b b' : Broker}

/-! ## Calls of the set-up -/

namespace SetupCall

/-- The exchange that is there after the call. -/
def exchange? : SetupCall → Option String
  | .declareExchange exchange | .assertExchange exchange => some exchange
  | _ => none

/-- The binding that the call makes. -/
def binding? : SetupCall → Option Binding
  | .declareQueue t => some t
  | _ => none

/-- The window that the call sets. -/
def window? : SetupCall → Option Nat
  | .setPrefetch count => some count
  | _ => none

/-- The queue and the tag of the consumer that the call adds. -/
def subscription? : SetupCall → Option (String × String)
  | .consume queue consumerTag => some (queue, consumerTag)
  | _ => none

/-- The exchange without which the call fails. -/
def needs? : SetupCall → Option String
  | .assertExchange exchange => some exchange
  | .declareQueue t => some t.exchange
  | _ => none

end SetupCall

/-! What a whole set-up is for. -/

theorem exchanges_setupCalls (bindings : List Binding) (config : WorkerConfig) :
    (setupCalls bindings config).filterMap SetupCall.exchange? = Topology.exchanges bindings := by
  unfold setupCalls
  cases config.declareExchanges <;>
    simp [List.filterMap_append, List.filterMap_map, Function.comp_def, SetupCall.exchange?]

theorem bindings_setupCalls (bindings : List Binding) (config : WorkerConfig) :
    (setupCalls bindings config).filterMap SetupCall.binding? = bindings := by
  unfold setupCalls
  cases config.declareExchanges <;>
    simp [List.filterMap_append, List.filterMap_map, Function.comp_def, SetupCall.binding?]

theorem windows_setupCalls (bindings : List Binding) (config : WorkerConfig) :
    (setupCalls bindings config).filterMap SetupCall.window? = [config.prefetch] := by
  unfold setupCalls
  cases config.declareExchanges <;>
    simp [List.filterMap_append, List.filterMap_map, Function.comp_def, SetupCall.window?]

theorem subscriptions_setupCalls (bindings : List Binding) (config : WorkerConfig) :
    (setupCalls bindings config).filterMap SetupCall.subscription? =
      bindings.map fun t => (t.queue, config.consumerTagFor t.queue) := by
  unfold setupCalls
  cases config.declareExchanges <;>
    simp [List.filterMap_append, List.filterMap_map, Function.comp_def, SetupCall.subscription?,
      List.filterMap_cons]

/-- The queues that a session consumes from, each with the tag of its consumer, in the order in which they were
subscribed. -/
def Broker.subscriptions (b : Broker) (g : Nat) : List (String × String) :=
  (b.consumers.filter fun k => k.generation == g).map fun k => (k.queue, k.tag)

/-- Subscriptions are read off the roles of consumers. -/
theorem subscriptions_eq_roles (b : Broker) (g : Nat) :
    b.subscriptions g = ((b.consumers.map Consumer.role).filter fun r => r.1 == g).map (·.2) := by
  unfold subscriptions
  rw [List.filter_map, List.map_map]
  rfl

theorem Broker.LaidAlike.subscriptions (h : LaidAlike b b') (g : Nat) : b'.subscriptions g = b.subscriptions g := by
  rw [subscriptions_eq_roles, subscriptions_eq_roles, h.roles]

/-- What a call that succeeds makes of a broker: it was made on the live session, and changes what it is for. -/
structure Effect (g : Nat) (call : SetupCall) (b b' : Broker) : Prop where
  live : b.live = some g
  exchanges : ∀ x, x ∈ b.exchanges ∨ call.exchange? = some x → x ∈ b'.exchanges
  bindings : ∀ t, t ∈ b.bindings ∨ call.binding? = some t → t ∈ b'.bindings
  undeclared : (∀ x, call ≠ .declareExchange x) → b'.exchanges = b.exchanges
  unbound : (∀ t, call ≠ .declareQueue t) → b'.bindings = b.bindings
  window : b'.prefetch = call.window?.or b.prefetch
  subscriptions : b'.subscriptions g = b.subscriptions g ++ call.subscription?.toList

/-- What leaves the layout as it is may follow. -/
theorem Effect.of_laid {call : SetupCall} {b'' : Broker} (h : Effect g call b b') (hlaid : LaidAlike b' b'') :
    Effect g call b b'' where
  live := h.live
  exchanges := hlaid.exchanges ▸ h.exchanges
  bindings := hlaid.bindings ▸ h.bindings
  undeclared hne := hlaid.exchanges.trans (h.undeclared hne)
  unbound hne := hlaid.bindings.trans (h.unbound hne)
  window := hlaid.prefetch.trans h.window
  subscriptions := (hlaid.subscriptions g).trans h.subscriptions

/-- A call on a session succeeds only if that is live. -/
theorem onLive_ok {call : Call Broker} (h : onLive g call b = (.ok (), b')) :
    b.live = some g ∧ call b = (.ok (), b') := by
  unfold onLive at h
  split at h
  · rename_i hl
    exact ⟨hl, h⟩
  · cases h

/-- A list with one more entry, unless it is there, has that entry and the others. -/
theorem mem_of_added {α : Type} [DecidableEq α] {x y : α} {l : List α} (h : x ∈ l ∨ some y = some x) :
    x ∈ if l.contains y then l else l ++ [y] := by
  split
  · rename_i hy
    rcases h with h | h
    · exact h
    · cases h
      exact List.contains_iff_mem.mp hy
  · rcases h with h | h
    · exact List.mem_append_left _ h
    · cases h
      exact List.mem_append_right _ (List.mem_singleton_self _)

/-- **What each call of the set-up does**, if it succeeds. -/
theorem call_succeeded {call : SetupCall} (h : call.run (Broker.api receiver) g b = (.ok (), b')) :
    Effect g call b b' := by
  -- what a call is not for, it adds nothing to
  have hkept : ∀ {α : Type} {x : α} {l : List α} {o : Option α},
      o = none → x ∈ l ∨ o = some x → x ∈ l := by
    rintro α x l o rfl (h | h)
    · exact h
    · cases h
  cases call with
  | declareExchange exchange =>
    simp only [SetupCall.run, api, Broker.declareExchange] at h
    obtain ⟨hl, h⟩ := onLive_ok h
    cases h
    exact ⟨hl, fun x hx => mem_of_added hx, fun t => hkept rfl, fun hne => absurd rfl (hne exchange), fun _ => rfl, rfl,
      (List.append_nil _).symm⟩
  | assertExchange exchange =>
    simp only [SetupCall.run, api, Broker.assertExchange] at h
    obtain ⟨hl, h⟩ := onLive_ok h
    split at h
    · rename_i hfound
      cases h
      refine ⟨hl, fun x hx => ?_, fun t => hkept rfl, fun _ => rfl, fun _ => rfl, rfl, (List.append_nil _).symm⟩
      rcases hx with hx | hx
      · exact hx
      · cases hx
        exact List.contains_iff_mem.mp hfound
    · cases h
  | declareQueue t =>
    simp only [SetupCall.run, api, Broker.declareQueue] at h
    obtain ⟨hl, h⟩ := onLive_ok h
    split at h
    · cases h
      exact ⟨hl, fun x => hkept rfl, fun t ht => mem_of_added ht, fun _ => rfl, fun hne => absurd rfl (hne t), rfl,
        (List.append_nil _).symm⟩
    · cases h
  | setPrefetch count =>
    simp only [SetupCall.run, api, Broker.setPrefetch] at h
    obtain ⟨hl, h⟩ := onLive_ok h
    cases h
    have heffect : Effect g (.setPrefetch count) b { b with prefetch := some count } :=
      ⟨hl, fun x => hkept rfl, fun t => hkept rfl, fun _ => rfl, fun _ => rfl, rfl, (List.append_nil _).symm⟩
    exact heffect.of_laid (laid_dispatch _)
  | consume queue consumerTag =>
    simp only [SetupCall.run, api, Broker.consume] at h
    obtain ⟨hl, h⟩ := onLive_ok h
    cases h
    have hsubscribed : (b.subscribe receiver g queue consumerTag).subscriptions g =
        b.subscriptions g ++ [(queue, consumerTag)] := by
      simp [subscriptions, subscribe]
    have heffect : Effect g (.consume queue consumerTag) b (b.subscribe receiver g queue consumerTag) :=
      ⟨hl, fun x => hkept rfl, fun t => hkept rfl, fun _ => rfl, fun _ => rfl, rfl, hsubscribed⟩
    exact heffect.of_laid (laid_dispatch _)

/-- Why a call fails: its session is not live, or the exchange it needs is missing. -/
inductive Failure (g : Nat) (call : SetupCall) (b : Broker) : WorkerError → Prop where
  | lost (gone : b.live ≠ some g) : Failure g call b channelClosed
  | missing (x : String) (needed : call.needs? = some x) (missing : x ∉ b.exchanges) :
      Failure g call b (exchangeMissing x)

/-- **A call that fails changes nothing.** -/
theorem call_failed {call : SetupCall} {e : WorkerError} (h : call.run (Broker.api receiver) g b = (.error e, b')) :
    b' = b ∧ Failure g call b e := by
  have hlost : ∀ {f : Call Broker}, onLive g f b = (.error e, b') →
      (f b = (.error e, b') → b' = b ∧ Failure g call b e) →
      b' = b ∧ Failure g call b e := by
    intro f h hf
    unfold onLive at h
    split at h
    · exact hf h
    · rename_i hl
      cases h
      exact ⟨rfl, .lost hl⟩
  cases call with
  | declareExchange exchange =>
    simp only [SetupCall.run, api, Broker.declareExchange] at h
    exact hlost h nofun
  | assertExchange exchange =>
    simp only [SetupCall.run, api, Broker.assertExchange] at h
    refine hlost h fun hf => ?_
    split at hf
    · cases hf
    · rename_i hmissing
      cases hf
      exact ⟨rfl, .missing exchange rfl fun hmem => hmissing (List.contains_iff_mem.mpr hmem)⟩
  | declareQueue t =>
    simp only [SetupCall.run, api, Broker.declareQueue] at h
    refine hlost h fun hf => ?_
    split at hf
    · cases hf
    · rename_i hmissing
      cases hf
      exact ⟨rfl, .missing t.exchange rfl fun hmem => hmissing (List.contains_iff_mem.mpr hmem)⟩
  | setPrefetch count =>
    simp only [SetupCall.run, api, Broker.setPrefetch] at h
    exact hlost h nofun
  | consume queue consumerTag =>
    simp only [SetupCall.run, api, Broker.consume] at h
    exact hlost h nofun

/-! ## What the calls have made -/

/-- What the calls `done` on the session `g` have made of the broker since it was as `before`. Exchanges and bindings
stay, window and consumers are there as long as the session is live. -/
structure Made (before : Broker) (g : Nat) (done : List SetupCall) (b : Broker) : Prop where
  exchanges : ∀ x ∈ done.filterMap SetupCall.exchange?, x ∈ b.exchanges
  bindings : ∀ t ∈ done.filterMap SetupCall.binding?, t ∈ b.bindings
  undeclared : (∀ x, .declareExchange x ∉ done) → b.exchanges = before.exchanges
  unbound : (∀ t, .declareQueue t ∉ done) → b.bindings = before.bindings
  window : b.live = some g → b.prefetch = (done.filterMap SetupCall.window?).getLast?
  subscriptions : b.live = some g → b.subscriptions g = done.filterMap SetupCall.subscription?

namespace Made

variable {done : List SetupCall} {call : SetupCall}

/-- One more call. -/
theorem concat (h : Made before g done b) (heffect : Effect g call b b') : Made before g (done ++ [call]) b' where
  exchanges x hx := by
    rw [List.filterMap_append] at hx
    refine heffect.exchanges x ((List.mem_append.mp hx).imp (h.exchanges x) fun hx => ?_)
    simpa using hx
  bindings t ht := by
    rw [List.filterMap_append] at ht
    refine heffect.bindings t ((List.mem_append.mp ht).imp (h.bindings t) fun ht => ?_)
    simpa using ht
  undeclared hnot := by
    rw [heffect.undeclared fun x heq => hnot x (List.mem_append_right _ (List.mem_singleton.mpr heq.symm))]
    exact h.undeclared fun x hx => hnot x (List.mem_append_left _ hx)
  unbound hnot := by
    rw [heffect.unbound fun t heq => hnot t (List.mem_append_right _ (List.mem_singleton.mpr heq.symm))]
    exact h.unbound fun t ht => hnot t (List.mem_append_left _ ht)
  window _ := by
    rw [heffect.window, h.window heffect.live, List.filterMap_append, List.getLast?_append]
    cases hwindow : call.window? <;> simp [hwindow]
  subscriptions _ := by
    rw [heffect.subscriptions, h.subscriptions heffect.live, List.filterMap_append]
    cases hsub : call.subscription? <;> simp [hsub]

/-- The same topology; and the same window and consumers, unless the session is lost. -/
theorem of_laid (h : Made before g done b) (hsame : LaidAlike b b' ∨ SameTopology b b' ∧ b'.live = none) :
    Made before g done b' := by
  have htopology : SameTopology b b' := by
    rcases hsame with hsame | hsame
    · exact hsame.topology
    · exact hsame.1
  have hlaid : b'.live = some g → LaidAlike b b' := by
    intro hl
    rcases hsame with hsame | ⟨-, hnone⟩
    · exact hsame
    · rw [hnone] at hl
      cases hl
  obtain ⟨hexchanges, hbindings⟩ := htopology
  refine ⟨hexchanges ▸ h.exchanges, hbindings ▸ h.bindings, fun hnot => hexchanges.trans (h.undeclared hnot),
    fun hnot => hbindings.trans (h.unbound hnot), fun hl => ?_, fun hl => ?_⟩
  · rw [(hlaid hl).prefetch]
    exact h.window ((hlaid hl).live ▸ hl)
  · rw [(hlaid hl).subscriptions]
    exact h.subscriptions ((hlaid hl).live ▸ hl)

end Made
end EventCourier
