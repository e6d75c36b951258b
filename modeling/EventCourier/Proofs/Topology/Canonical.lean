import EventCourier.Proofs.Text.Normal
import EventCourier.Proofs.Text.Utf8
import EventCourier.Proofs.Topology
import Mathlib.Data.Finset.Prod
import Mathlib.Data.List.Dedup

/-!
# Bindings are canonical

Normalizing forgets white space around tokens and the case of ASCII letters (`normalize?_restyled`), and normalized
topics stay as they are (`normalizeTopic?_of_mem`). As an increasing list is known by its members, all lists with the
same normalized topics are resolved to the same bindings (`normalized_congr`, `resolution_canonical`).
-/

namespace EventCourier

/-! ## Tokens -/

/-- A token with other white space around it, and with ASCII letters in other case. -/
def Restyled (s t : String) : Prop :=
  ∃ front text back, IsBlank front ∧ IsBlank back ∧ t = front ++ text ++ back ∧ SameLetters s text

namespace Topology

variable {s t : String} {topics topics' : List Topic}

/-- A token is known by its text without white space and in lower case, which is empty just if nothing is left. -/
theorem normalize?_eq (s : String) :
    normalize? s = if lower (trim s) = "" then none else some (lower (trim s)) := by
  simp only [normalize?, String.isEmpty_iff, lower_eq_empty_iff]

theorem normalize?_restyled (h : Restyled s t) : normalize? t = normalize? s := by
  obtain ⟨front, text, back, hfront, hback, rfl, hsame⟩ := h
  rw [normalize?_eq, normalize?_eq, trim_padded hfront hback, hsame.lower_trim]

/-- What is left of a token in lower case is trimmed and in lower case. -/
theorem normalized_token (h : trim s ≠ "") :
    lower (trim s) ≠ "" ∧ trim (lower (trim s)) = lower (trim s) ∧ lower (lower (trim s)) = lower (trim s) :=
  ⟨mt lower_eq_empty_iff.mp h, trim_lower (trim_trim s), lower_lower (trim s)⟩

/-- What a token is normalized to stays as it is. -/
theorem normalize?_normalize? (h : normalize? s = some t) : normalize? t = some t := by
  rw [normalize?_eq, Option.ite_none_left_eq_some] at h
  obtain ⟨hne, h⟩ := h
  obtain rfl := Option.some.inj h
  obtain ⟨-, htrim, hlower⟩ := normalized_token (mt lower_eq_empty_iff.mpr hne)
  rw [normalize?_eq, htrim, hlower, if_neg hne]

/-! ## Topics -/

/-- Both tokens of a topic are restyled. -/
def RestyledTopic (a b : Topic) : Prop := Restyled a.entity b.entity ∧ Restyled a.event b.event

theorem normalizeTopic?_restyled {a b : Topic} (h : RestyledTopic a b) : normalizeTopic? b = normalizeTopic? a := by
  rw [normalizeTopic?, normalizeTopic?, normalize?_restyled h.1, normalize?_restyled h.2]

theorem normalizeTopic?_eq_some_iff {a n : Topic} : normalizeTopic? a = some n ↔
    normalize? a.entity = some n.entity ∧ normalize? a.event = some n.event := by
  cases n
  cases hentity : normalize? a.entity <;> cases hevent : normalize? a.event <;>
    simp [normalizeTopic?, hentity, hevent]

theorem normalizeTopic?_of_mem {n : Topic} (h : n ∈ normalized topics) : normalizeTopic? n = some n := by
  obtain ⟨a, -, ha⟩ := mem_normalized.mp h
  obtain ⟨hentity, hevent⟩ := normalizeTopic?_eq_some_iff.mp ha
  exact normalizeTopic?_eq_some_iff.mpr ⟨normalize?_normalize? hentity, normalize?_normalize? hevent⟩

/-! ## Lists of topics -/

/-- Only the normalized topics count. -/
theorem normalized_congr
    (h : ∀ n, (∃ t ∈ topics, normalizeTopic? t = some n) ↔ ∃ t ∈ topics', normalizeTopic? t = some n) :
    normalized topics = normalized topics' := by
  refine Topic.eq_of_increasing (increasing_normalized topics) (increasing_normalized topics') fun n => ?_
  rw [mem_normalized, mem_normalized, h n]

theorem normalized_of_mem_iff (h : ∀ t, t ∈ topics ↔ t ∈ topics') : normalized topics = normalized topics' :=
  normalized_congr fun n => by simp only [h]

theorem normalized_restyled (h : List.Forall₂ RestyledTopic topics topics') :
    normalized topics' = normalized topics := by
  have hfilter : topics'.filterMap normalizeTopic? = topics.filterMap normalizeTopic? := by
    induction h with
    | nil => rfl
    | cons hhead _ ih => rw [List.filterMap_cons, List.filterMap_cons, normalizeTopic?_restyled hhead, ih]
  rw [normalized, normalized, hfilter]

theorem normalized_normalized (topics : List Topic) : normalized (normalized topics) = normalized topics := by
  refine normalized_congr fun n => Iff.trans ?_ mem_normalized
  constructor
  · rintro ⟨m, hm, h⟩
    rw [normalizeTopic?_of_mem hm] at h
    exact Option.some.inj h ▸ hm
  · intro h
    exact ⟨n, h, normalizeTopic?_of_mem h⟩

theorem mem_crossProduct {es vs : List String} {t : Topic} :
    t ∈ crossProduct es vs ↔ t.entity ∈ es ∧ t.event ∈ vs := by
  cases t
  simp [crossProduct, List.mem_flatMap, and_comm]

/-- The distinct tokens of a list that are left without white space, in lower case. -/
def distinctTokens (names : List String) : Finset String :=
  ((names.filter fun s => trim s ≠ "").map fun s => lower (trim s)).toFinset

theorem mem_distinctTokens {names : List String} :
    t ∈ distinctTokens names ↔ ∃ s ∈ names, trim s ≠ "" ∧ t = lower (trim s) := by
  simp only [distinctTokens, List.mem_toFinset, List.mem_map, List.mem_filter, decide_eq_true_eq, and_assoc,
    @eq_comm _ _ t]

/-- The normalized topics of a cross product are the pairs of the distinct tokens. -/
theorem length_normalized_crossProduct (es vs : List String) :
    (normalized (crossProduct es vs)).length = (distinctTokens es).card * (distinctTokens vs).card := by
  have hpair : Function.Injective fun p : String × String => Topic.mk p.1 p.2 := by
    rintro ⟨e, v⟩ ⟨e', v'⟩ h
    cases h
    rfl
  have himage : (normalized (crossProduct es vs)).toFinset =
      (distinctTokens es ×ˢ distinctTokens vs).image fun p => Topic.mk p.1 p.2 := by
    ext n
    simp only [List.mem_toFinset, mem_normalized, normalizeTopic?_eq_some, Finset.mem_image, Finset.mem_product,
      mem_distinctTokens]
    constructor
    · rintro ⟨t, ht, hentity, hevent, rfl⟩
      obtain ⟨he, hv⟩ := mem_crossProduct.mp ht
      exact ⟨(lower (trim t.entity), lower (trim t.event)), ⟨⟨_, he, hentity, rfl⟩, _, hv, hevent, rfl⟩, rfl⟩
    · rintro ⟨⟨_, _⟩, ⟨⟨e, he, hentity, rfl⟩, v, hv, hevent, rfl⟩, rfl⟩
      exact ⟨⟨e, v⟩, mem_crossProduct.mpr ⟨he, hv⟩, hentity, hevent, rfl⟩
  rw [← List.toFinset_card_of_nodup (nodup_normalized _), himage, Finset.card_image_of_injective _ hpair,
    Finset.card_product]

/-! ## Exchanges -/

/-- A list that does not decrease increases once it holds nothing twice. -/
theorem pairwise_eraseDups : ∀ {names : List String}, (names.Pairwise fun a b => ¬b < a) →
    names.eraseDups.Pairwise fun a b => a < b
  | [], _ => by simp
  | a :: names, h => by
    obtain ⟨ha, hnames⟩ := List.pairwise_cons.mp h
    rw [List.eraseDups_cons]
    refine List.pairwise_cons.mpr ⟨fun b hb => ?_, pairwise_eraseDups (hnames.filter _)⟩
    rw [List.mem_eraseDups, List.mem_filter] at hb
    exact Dictionary.lt_of_not_lt (ha b hb.1) (by simpa using hb.2)
  termination_by names => names.length
  decreasing_by exact Nat.lt_succ_of_le (List.length_filter_le _ _)

theorem exchanges_resolve (topics : List Topic) :
    exchanges (resolve topics) = ((normalized topics).map Topic.entity).eraseDups := by
  simp only [exchanges, resolve, List.map_map]
  rfl

theorem increasing_exchanges (topics : List Topic) : (exchanges (resolve topics)).Pairwise fun a b => a < b := by
  rw [exchanges_resolve]
  refine pairwise_eraseDups (List.pairwise_map.mpr ((increasing_normalized topics).imp ?_))
  intro a b hab hba
  rcases decide_eq_true_eq.mp hab with hlt | ⟨heq, -⟩
  · exact String.lt_irrefl _ (String.lt_trans hlt hba)
  · exact String.lt_irrefl _ (heq ▸ hba)

/-! ## The bindings -/

theorem binding_injective : Function.Injective Topic.binding := by
  intro a b h
  obtain ⟨hentity, -, hkey⟩ := Binding.mk.inj h
  cases a
  cases b
  cases hentity
  simpa using hkey

/-- **Resolution is canonical.** The bindings are those of the normalized topics, in the order of the bytes of entities
and then of events, each once. Neither the order of topics nor repetitions count, nor white space around tokens, nor
the case of ASCII letters; and the normalized topics are resolved to the same bindings. All ways to list the pairs of
some entities and some events are resolved to one binding for each pair of normalized tokens. The exchanges of the
bindings are the entities of the normalized topics in their order, each once. -/
theorem resolution_canonical (topics : List Topic) (es vs : List String) :
    (∃ ns : List Topic, (resolve topics).Nodup ∧
      resolve topics = ns.map (fun n =>
        ⟨n.entity, n.entity ++ "-" ++ n.event ++ "-queue", n.entity ++ "." ++ n.event⟩) ∧
      (ns.Pairwise fun a b => Utf8.encode a.entity < Utf8.encode b.entity ∨
        a.entity = b.entity ∧ Utf8.encode a.event < Utf8.encode b.event) ∧
      (∀ n, n ∈ ns ↔ ∃ t ∈ topics, trim t.entity ≠ "" ∧ trim t.event ≠ "" ∧
        n = ⟨lower (trim t.entity), lower (trim t.event)⟩) ∧
      (∀ n ∈ ns, ∀ s ∈ [n.entity, n.event], s ≠ "" ∧ trim s = s ∧ lower s = s) ∧
      resolve ns = resolve topics) ∧
    (∀ topics', (∀ t, t ∈ topics' ↔ t ∈ topics) → resolve topics' = resolve topics) ∧
    (∀ topics', List.Forall₂ RestyledTopic topics topics' → resolve topics' = resolve topics) ∧
    (∀ pairs : List Topic, (∀ t, t ∈ pairs ↔ t.entity ∈ es ∧ t.event ∈ vs) →
      resolve pairs = resolve (crossProduct es vs)) ∧
    (resolve (crossProduct es vs)).length = (distinctTokens es).card * (distinctTokens vs).card ∧
    ((exchanges (resolve topics)).Pairwise fun a b => Utf8.encode a < Utf8.encode b) ∧
    ∀ e, e ∈ exchanges (resolve topics) ↔
      ∃ t ∈ topics, trim t.entity ≠ "" ∧ trim t.event ≠ "" ∧ e = lower (trim t.entity) := by
  have hmem : ∀ n, n ∈ normalized topics ↔ ∃ t ∈ topics, trim t.entity ≠ "" ∧ trim t.event ≠ "" ∧
      n = ⟨lower (trim t.entity), lower (trim t.event)⟩ := by
    intro n
    simp only [mem_normalized, normalizeTopic?_eq_some]
  have hresolve : ∀ {ts us : List Topic}, normalized ts = normalized us → resolve ts = resolve us := fun h => by
    rw [resolve, resolve, h]
  refine ⟨⟨normalized topics, ?_, rfl, ?_, hmem, ?_, hresolve (normalized_normalized topics)⟩,
    ?_, ?_, ?_, ?_, ?_, ?_⟩
  · exact (nodup_normalized topics).map binding_injective
  · refine (increasing_normalized topics).imp fun {a b} h => ?_
    rw [Utf8.encode_lt_encode, Utf8.encode_lt_encode]
    exact decide_eq_true_eq.mp h
  · intro n hn s hs
    obtain ⟨t, -, hentity, hevent, rfl⟩ := (hmem n).mp hn
    simp only [List.mem_cons, List.not_mem_nil, or_false] at hs
    rcases hs with rfl | rfl
    · exact normalized_token hentity
    · exact normalized_token hevent
  · exact fun topics' h => hresolve (normalized_of_mem_iff h)
  · exact fun topics' h => hresolve (normalized_restyled h)
  · exact fun pairs h => hresolve (normalized_of_mem_iff fun t => (h t).trans mem_crossProduct.symm)
  · rw [resolve, List.length_map, length_normalized_crossProduct]
  · simp only [Utf8.encode_lt_encode]
    exact increasing_exchanges topics
  · intro e
    rw [exchanges_resolve, List.mem_eraseDups, List.mem_map]
    constructor
    · rintro ⟨n, hn, rfl⟩
      obtain ⟨t, ht, he, hv, rfl⟩ := (hmem n).mp hn
      exact ⟨t, ht, he, hv, rfl⟩
    · rintro ⟨t, ht, he, hv, rfl⟩
      exact ⟨_, (hmem _).mpr ⟨t, ht, he, hv, rfl⟩, rfl⟩

/-- Capitals, a tabulator and an ideographic space make no difference, nor do repetitions, nor which list is gone
through first. -/
theorem resolution_canonical_links :
    resolve [⟨"LINK", "\tCreated\u3000"⟩] = resolve [⟨"link", "created"⟩] ∧
    resolve [⟨"user", "created"⟩, ⟨"link", "created"⟩, ⟨"user", "created"⟩] =
      resolve [⟨"link", "created"⟩, ⟨"user", "created"⟩] ∧
    resolve (["created", "deleted"].flatMap fun event => ["link", "user"].map fun entity => ⟨entity, event⟩) =
      resolve (crossProduct ["link", "user"] ["created", "deleted"]) := by
  obtain ⟨-, -, hstyle, -⟩ := resolution_canonical [⟨"link", "created"⟩] [] []
  obtain ⟨-, hlist, -⟩ := resolution_canonical [⟨"link", "created"⟩, ⟨"user", "created"⟩] [] []
  obtain ⟨-, -, -, hpairs, -⟩ := resolution_canonical [] ["link", "user"] ["created", "deleted"]
  refine ⟨hstyle _ (.cons ⟨?_, ?_⟩ .nil), hlist _ fun t => ?_, hpairs _ fun t => ?_⟩
  · exact ⟨"", "LINK", "", nofun, nofun, by simp, by simp [SameLetters]⟩
  · exact ⟨"\t", "Created", "\u3000", by simp [IsBlank, isBlank], by simp [IsBlank, isBlank], by simp,
      by simp [SameLetters]⟩
  · simp only [List.mem_cons, List.not_mem_nil]
    grind
  · cases t
    simp
    grind

end Topology
end EventCourier
