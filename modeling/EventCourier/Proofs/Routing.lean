import EventCourier.Proofs.Router
import EventCourier.Proofs.Settings.Topics
import EventCourier.Proofs.Topology
import EventCourier.Worker

/-!
# From configured topics to queues and sinks

What is configured, bound, decoded and routed fits together for every topic that is accepted (`topics_agree`).
Queues are kept apart only if no two topics overlap (`queues_distinct_iff`): an entity and an event with dashes
in them can make the name of another topic's queue.
-/

namespace EventCourier

/-! ## Queues and consumer tags -/

/-- The consumer tag of a call that subscribes. -/
def SetupCall.consumerTag? : SetupCall → Option String
  | .consume _ consumerTag => some consumerTag
  | _ => none

/-- A session is set up with one consumer tag for each binding. -/
theorem consumerTags_setupCalls (bindings : List Binding) (config : WorkerConfig) :
    (Connection.setupCalls bindings config).filterMap SetupCall.consumerTag? =
      bindings.map fun b => config.consumerTagFor b.queue := by
  have hexchanges : ((Topology.exchanges bindings).map
      (if config.declareExchanges then SetupCall.declareExchange else SetupCall.assertExchange)).filterMap
        SetupCall.consumerTag? = [] := by
    split <;> simp [List.filterMap_map, Function.comp_def, SetupCall.consumerTag?]
  simp only [Connection.setupCalls, List.filterMap_append, hexchanges, List.filterMap_map, Function.comp_def]
  simp [SetupCall.consumerTag?]

theorem consumerTagFor_injective (config : WorkerConfig) : Function.Injective config.consumerTagFor := by
  intro q r h
  have := congrArg String.toList h
  simpa [WorkerConfig.consumerTagFor, String.toList_inj] using this

namespace Topology

/-- No two of the normalized topics overlap. -/
def Apart (topics : List Topic) : Prop := ∀ a ∈ normalized topics, ∀ b ∈ normalized topics, ¬a.Overlaps b

variable {topics : List Topic}

/-- Topics that are apart are the same if their queues are. -/
theorem Apart.eq_of_queue_eq (h : Apart topics) {a b : Topic} (ha : a ∈ normalized topics)
    (hb : b ∈ normalized topics) (hqueue : a.binding.queue = b.binding.queue) : a = b := by
  rcases Topic.queue_eq_iff.mp hqueue with hab | hab | hba
  · exact hab
  · exact absurd hab (h a ha b hb)
  · exact absurd hba (h b hb a ha)

theorem nodup_queues_iff : ((resolve topics).map (·.queue)).Nodup ↔ Apart topics := by
  rw [resolve, List.map_map, List.nodup_map_iff_inj_on (nodup_normalized topics)]
  constructor
  · intro hinj a ha b hb hoverlap
    exact hoverlap.ne (hinj a ha b hb (Topic.queue_eq_iff.mpr (Or.inr (Or.inl hoverlap))))
  · intro hapart a ha b hb hqueue
    exact hapart.eq_of_queue_eq ha hb hqueue

/-- Topics that overlap want their queue for different routing keys. -/
theorem routingKey_ne_of_overlaps {a b : Topic} (h : a.Overlaps b) :
    a.binding.routingKey ≠ b.binding.routingKey := by
  obtain ⟨mid, he, -⟩ := h
  intro hkey
  have hchars := congrArg String.toList hkey
  simp [Topic.toList_routingKey, he] at hchars

theorem one_key_iff :
    (∀ b ∈ resolve topics, ∀ c ∈ resolve topics, b.queue = c.queue → b.routingKey = c.routingKey) ↔
      Apart topics := by
  simp only [resolve, List.forall_mem_map]
  constructor
  · intro hkey a ha b hb hoverlap
    exact routingKey_ne_of_overlaps hoverlap
      (hkey a ha b hb (Topic.queue_eq_iff.mpr (Or.inr (Or.inl hoverlap))))
  · intro hapart a ha b hb hqueue
    rw [hapart.eq_of_queue_eq ha hb hqueue]

/-! ## Normalized tokens -/

/-- Normalizing adds nothing that stands before the letters. -/
theorem mem_of_mem_lower_trim {c : Char} (hc : c.toNat < 65) {s : String} (h : c ∈ (lower (trim s)).toList) :
    c ∈ s.toList := by
  rw [toList_lower, LetterCase.mem_lowerFrom_iff hc, trim, String.toList_ofList] at h
  exact mem_of_mem_trimChars h

/-- Without dashes on one side of the dots, no two topics overlap. -/
theorem apart_of_no_dash (h : (∀ t ∈ topics, '-' ∉ t.entity.toList) ∨ ∀ t ∈ topics, '-' ∉ t.event.toList) :
    Apart topics := by
  intro a ha b hb hoverlap
  obtain ⟨s, hs, has⟩ := mem_normalized.mp ha
  obtain ⟨t, ht, hbt⟩ := mem_normalized.mp hb
  obtain ⟨-, -, rfl⟩ := normalizeTopic?_eq_some.mp has
  obtain ⟨-, -, rfl⟩ := normalizeTopic?_eq_some.mp hbt
  obtain ⟨hentity, hevent⟩ := hoverlap.dash
  rcases h with h | h
  · exact h t ht (mem_of_mem_lower_trim (by decide) hentity)
  · exact h s hs (mem_of_mem_lower_trim (by decide) hevent)

/-- The topic that two tokens are normalized to. -/
theorem normalizeTopic?_of_isToken {t : Topic} (he : IsToken t.entity) (hv : IsToken t.event) :
    normalizeTopic? t = some ⟨lower (trim t.entity), lower (trim t.event)⟩ :=
  normalizeTopic?_eq_some.mpr ⟨he.trim_ne, hv.trim_ne, rfl⟩

end Topology

/-- What a binding leads to, for the topic it was made for: its messages are decoded to events of this topic, and
the time series gets them just if they are redirects of links. -/
structure Topic.Served (n : Topic) (b : Binding) : Prop where
  event : ∀ (body : List UInt8) (receivedAt : Instant),
    Message.event? ⟨b.exchange, b.routingKey, body⟩ receivedAt =
      (Payload.decode body).map fun payload => ⟨b.exchange, n.event, b.routingKey, receivedAt, payload⟩
  sink : ∀ {α : Type} (timeSeries documents : α), (Router.forEvents timeSeries documents).select b.routingKey =
    if n = ⟨"link", "redirected"⟩ then timeSeries else documents

/-- A topic in lower case whose entity holds no dot is served by its binding. -/
theorem Topic.served_binding {n : Topic} (hdot : '.' ∉ n.entity.toList)
    (hentity : ∀ c ∈ n.entity.toList, LetterCase.Small c) (hevent : ∀ c ∈ n.event.toList, LetterCase.Small c) :
    n.Served n.binding where
  event body receivedAt := by
    simp only [Message.event?, Topic.eventTypeOf_routingKey hdot]
    cases Payload.decode body <;> rfl
  sink timeSeries documents := by
    have hkey : n.binding.routingKey = "link.redirected" ↔ n = ⟨"link", "redirected"⟩ := by
      constructor
      · exact Topic.routingKey_inj (b := ⟨"link", "redirected"⟩) hdot (by decide)
      · rintro rfl
        rfl
    rw [Router.select_forEvents, Topic.lower_routingKey hentity hevent]
    simp only [hkey]

/-- What the tokens of a topic are normalized to holds no dot in its entity and is served. -/
theorem Topic.served_of_normalizeTopic? {t n : Topic} (he : IsToken t.entity)
    (h : Topology.normalizeTopic? t = some n) : '.' ∉ n.entity.toList ∧ n.Served n.binding := by
  obtain ⟨-, -, rfl⟩ := Topology.normalizeTopic?_eq_some.mp h
  have hdot := fun hmem => he.dot_notMem (Topology.mem_of_mem_lower_trim (c := '.') (by decide) hmem)
  exact ⟨hdot, Topic.served_binding hdot (fun _ => small_of_mem_lower) fun _ => small_of_mem_lower⟩

/-! ## The main results -/

/-- **When queues are kept apart.** Of all configured topics, the queues are distinct if and only if no two
topics overlap; so are the consumer tags of a session, and just then no queue is bound for two routing keys. It
is so if no configured entity holds a dash, or no configured event. -/
theorem queues_distinct_iff (t : Topics) (config : WorkerConfig) :
    (((Topology.resolve t.all).map (·.queue)).Nodup ↔ Topology.Apart t.all) ∧
      (((Connection.setupCalls (Topology.resolve t.all) config).filterMap SetupCall.consumerTag?).Nodup ↔
        Topology.Apart t.all) ∧
      ((∀ b ∈ Topology.resolve t.all, ∀ c ∈ Topology.resolve t.all,
        b.queue = c.queue → b.routingKey = c.routingKey) ↔ Topology.Apart t.all) ∧
      ((∀ topic ∈ t.all, '-' ∉ topic.entity.toList) ∨ (∀ topic ∈ t.all, '-' ∉ topic.event.toList) →
        Topology.Apart t.all) := by
  refine ⟨Topology.nodup_queues_iff, ?_, Topology.one_key_iff, Topology.apart_of_no_dash⟩
  have htags : ((Topology.resolve t.all).map fun b => config.consumerTagFor b.queue) =
      ((Topology.resolve t.all).map (·.queue)).map config.consumerTagFor := by
    rw [List.map_map]
    rfl
  rw [consumerTags_setupCalls, htags, List.nodup_map_iff (consumerTagFor_injective config),
    Topology.nodup_queues_iff]

/-- Two topics that are accepted and share a queue. -/
theorem queues_distinct_sharedQueue : ∃ t, Topics.read none none (some "a-b.c,a.b-c") = .ok t ∧
    Topology.resolve t.all = [⟨"a", "a-b-c-queue", "a.b-c"⟩, ⟨"a-b", "a-b-c-queue", "a-b.c"⟩] ∧
    ¬((Topology.resolve t.all).map (·.queue)).Nodup :=
  ⟨⟨[], [], [⟨"a-b", "c"⟩, ⟨"a", "b-c"⟩]⟩, by decide +kernel, by decide +kernel, by decide +kernel⟩

/-- **Configuration, topology, decoding and routing agree.** Topics that are accepted give a worker something to
run for. Every binding is made for a configured topic and serves it, every configured topic has its binding, and
topics that differ when they are normalized have different routing keys. -/
theorem topics_agree {entities? events? pairs? : Option String} {t : Topics}
    (h : Topics.read entities? events? pairs? = .ok t) :
    Topology.resolve t.all ≠ [] ∧
      (∀ (β ρ : Type) (name : String) (router : Router (Sink ρ)) (config : WorkerConfig) (broker : β)
        (clock : Instant), (Worker.start name router (Topology.resolve t.all) config broker clock).activity =
          .connecting (.start config)) ∧
      (∀ b ∈ Topology.resolve t.all, ∃ topic ∈ t.all, ∃ n, Topology.normalizeTopic? topic = some n ∧
        b = n.binding ∧ n.Served b) ∧
      (∀ topic ∈ t.all, ∃ n, Topology.normalizeTopic? topic = some n ∧ n.binding ∈ Topology.resolve t.all) ∧
      (∀ topic ∈ t.all, ∀ topic' ∈ t.all, ∀ n n', Topology.normalizeTopic? topic = some n →
        Topology.normalizeTopic? topic' = some n' → n ≠ n' → n.binding.routingKey ≠ n'.binding.routingKey) := by
  obtain ⟨hany, htokens⟩ := Topics.read_spec h
  have hbound : ∀ topic ∈ t.all, ∃ n, Topology.normalizeTopic? topic = some n ∧
      n.binding ∈ Topology.resolve t.all := by
    intro topic htopic
    have hn := Topology.normalizeTopic?_of_isToken (htokens topic htopic).1 (htokens topic htopic).2
    exact ⟨_, hn, Topology.mem_resolve.mpr ⟨_, Topology.mem_normalized.mpr ⟨topic, htopic, hn⟩, rfl⟩⟩
  have hsome : Topology.resolve t.all ≠ [] := by
    obtain ⟨topic, htopic⟩ := List.exists_mem_of_ne_nil _ hany
    obtain ⟨n, -, hn⟩ := hbound topic htopic
    exact List.ne_nil_of_mem hn
  refine ⟨hsome, ?_, ?_, hbound, ?_⟩
  · intro β ρ name router config broker clock
    exact if_neg (by rwa [List.isEmpty_iff])
  · intro b hb
    obtain ⟨n, hn, rfl⟩ := Topology.mem_resolve.mp hb
    obtain ⟨topic, htopic, hn⟩ := Topology.mem_normalized.mp hn
    exact ⟨topic, htopic, n, hn, rfl, (Topic.served_of_normalizeTopic? (htokens topic htopic).1 hn).2⟩
  · intro topic htopic topic' htopic' n n' hn hn' hne hkey
    exact hne (Topic.routingKey_inj (Topic.served_of_normalizeTopic? (htokens topic htopic).1 hn).1
      (Topic.served_of_normalizeTopic? (htokens topic' htopic').1 hn').1 hkey)

/-- One entity and one event, in lists. -/
def linkTopics : Topics := ⟨["Link"], ["Redirected"], []⟩

theorem topics_agree_links :
    Topics.read (some " Link") (some "Redirected ") none = .ok linkTopics ∧
      Topology.resolve linkTopics.all = [⟨"link", "link-redirected-queue", "link.redirected"⟩] ∧
      ∀ b ∈ Topology.resolve linkTopics.all, ∃ topic ∈ linkTopics.all, ∃ n,
        Topology.normalizeTopic? topic = some n ∧ b = n.binding ∧ n.Served b := by
  have hread : Topics.read (some " Link") (some "Redirected ") none = .ok linkTopics := by decide +kernel
  exact ⟨hread, by decide +kernel, (topics_agree hread).2.2.1⟩

end EventCourier
