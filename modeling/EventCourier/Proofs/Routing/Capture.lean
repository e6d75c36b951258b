import EventCourier.Proofs.Routing
import EventCourier.Proofs.Text.Normal
import EventCourier.Proofs.Text.Sigma

/-!
# Routes for configured topics

A route may be registered under a topic as it is configured. The router puts the whole key in lower case, and the
topology each token; both come to the same unless the dot between the tokens parts them (`lower_routingKey_iff`). Then
the route captures every message of the queue that is bound for the topic; otherwise it captures none of them
(`route_captures`).
-/

namespace EventCourier

namespace Topic

/-- The dot between the tokens passes for the end of a word. -/
def Parted (t : Topic) : Prop := LetterCase.Parted t.entity.toList t.event.toList

/-- Between trimmed tokens there is nothing to trim but at their ends. -/
theorem trim_routingKey {t : Topic} (he : trim t.entity = t.entity) (hv : trim t.event = t.event) :
    trim t.binding.routingKey = t.binding.routingKey := by
  have htrimmed : ∀ s, trim s = s → trimChars s.toList = s.toList := fun s h => by rw [← toList_trim, h]
  rw [← String.toList_inj, toList_trim, toList_routingKey]
  refine trimChars_of_ends (fun c hc => ?_) fun c hc => ?_
  · cases hentity : t.entity.toList with
    | nil =>
      rw [hentity] at hc
      cases hc
      decide
    | cons d ds =>
      rw [hentity] at hc
      have hhead := isBlank_head_trimChars t.entity.toList c
      rw [htrimmed _ he, hentity] at hhead
      exact hhead hc
  · cases hevent : t.event.toList with
    | nil =>
      rw [hevent, List.getLast?_concat] at hc
      cases hc
      decide
    | cons d ds =>
      rw [hevent, List.getLast?_append, List.getLast?_cons_cons] at hc
      have hlast := isBlank_getLast_trimChars t.event.toList c
      rw [htrimmed _ hv, hevent] at hlast
      refine hlast ?_
      simpa using hc

/-- The key in lower case is made of the tokens in lower case, unless the dot parts them. -/
theorem lower_routingKey_iff {t : Topic} :
    lower t.binding.routingKey = (Topic.mk (lower t.entity) (lower t.event)).binding.routingKey ↔ ¬t.Parted := by
  rw [← String.toList_inj, toList_lower, toList_routingKey, toList_routingKey, toList_lower, toList_lower]
  exact LetterCase.lowerFrom_join_iff

end Topic

theorem Topology.resolve_singleton {t n : Topic} (h : normalizeTopic? t = some n) : resolve [t] = [n.binding] := by
  simp [resolve, normalized, h, Topic.insert]

/-! ## The main result -/

/-- **What a route captures.** A topic that is accepted has one binding. Registered under the topic as it is
configured, a route takes the messages of the queue bound for the topic, and just the keys that are the routing key of
this binding in lower case, as long as the dot does not part the tokens; it never does if there is no capital sigma. If
it does, the messages of the queue go to the fallback. -/
theorem route_captures {entities? events? pairs? : Option String} {t : Topics}
    (h : Topics.read entities? events? pairs? = .ok t) {topic : Topic} (htopic : topic ∈ t.all) :
    ∃ b, Topology.resolve [topic] = [b] ∧ b ∈ Topology.resolve t.all ∧
      (¬topic.Parted → ∀ {α : Type} (s f : α),
        ((Router.only f).route (topic.entity ++ "." ++ topic.event) s).select b.routingKey = s ∧
        ∀ key, ((Router.only f).route (topic.entity ++ "." ++ topic.event) s).select key =
          if lower key = b.routingKey then s else f) ∧
      (topic.Parted → ∀ {α : Type} (s f : α),
        ((Router.only f).route (topic.entity ++ "." ++ topic.event) s).select b.routingKey = f) ∧
      ('\u03a3' ∉ topic.entity.toList → '\u03a3' ∉ topic.event.toList → ¬topic.Parted) := by
  obtain ⟨entity, event, hentity, hevent, rfl⟩ := (Topics.read_eq_ok_iff.mp h).exists_trim htopic
  set topic : Topic := ⟨trim entity, trim event⟩
  set n : Topic := ⟨lower topic.entity, lower topic.event⟩
  have hn : Topology.normalizeTopic? topic = some n := by
    have htokens := (Topics.read_spec h).2 topic htopic
    rw [Topology.normalizeTopic?_of_isToken htokens.1 htokens.2, trim_trim, trim_trim]
  have hselect : ∀ {α : Type} (s f : α) (key : String),
      ((Router.only f).route (topic.entity ++ "." ++ topic.event) s).select key =
        if lower key = lower topic.binding.routingKey then s else f := by
    intro α s f key
    have htrim : trim (topic.entity ++ "." ++ topic.event) = topic.binding.routingKey :=
      Topic.trim_routingKey (trim_trim entity) (trim_trim event)
    rw [Router.select_route, Router.select_only, htrim]
  have hsmall : lower n.binding.routingKey = n.binding.routingKey :=
    Topic.lower_routingKey (fun _ => small_of_mem_lower) fun _ => small_of_mem_lower
  refine ⟨n.binding, Topology.resolve_singleton hn, ?_, fun hjoined α s f => ?_, fun hparted α s f => ?_,
    LetterCase.not_parted⟩
  · exact Topology.mem_resolve.mpr ⟨n, Topology.mem_normalized.mpr ⟨topic, htopic, hn⟩, rfl⟩
  · have hkey := Topic.lower_routingKey_iff.mpr hjoined
    refine ⟨?_, fun key => by rw [hselect, hkey]⟩
    rw [hselect, hkey, hsmall, if_pos rfl]
  · rw [hselect, hsmall, if_neg]
    exact fun heq => Topic.lower_routingKey_iff.mp heq.symm hparted

theorem route_captures_links :
    Topics.read none none (some "Link.Redirected") = .ok ⟨[], [], [⟨"Link", "Redirected"⟩]⟩ ∧
      ((Router.only 0).route "Link.Redirected" 1).select "link.redirected" = 1 ∧
      ((Router.only 0).route "Link.Redirected" 1).select "link.created" = 0 := by
  have hread : Topics.read none none (some "Link.Redirected") = .ok ⟨[], [], [⟨"Link", "Redirected"⟩]⟩ := by
    decide +kernel
  obtain ⟨b, hb, -, hcaptured, -, hplain⟩ := route_captures hread List.mem_cons_self
  have hkey : b.routingKey = "link.redirected" := by
    have hresolved : Topology.resolve [⟨"Link", "Redirected"⟩] =
        [⟨"link", "link-redirected-queue", "link.redirected"⟩] := by decide +kernel
    rw [hresolved] at hb
    rw [← List.cons.inj hb |>.1]
  obtain ⟨htaken, hall⟩ := hcaptured (hplain (by decide) (by decide)) 1 0
  rw [hkey] at htaken
  refine ⟨hread, htaken, (hall "link.created").trans ?_⟩
  rw [hkey]
  decide +kernel

/-- A sigma at the end of an entity, and one that is an event. -/
theorem route_captures_parted :
    Topics.read none none (some "ΑΣ.x,a.Σ") = .ok ⟨[], [], [⟨"ΑΣ", "x"⟩, ⟨"a", "Σ"⟩]⟩ ∧
      Topology.resolve [⟨"ΑΣ", "x"⟩] = [⟨"ας", "ας-x-queue", "ας.x"⟩] ∧
      ((Router.only 0).route "ΑΣ.x" 1).select "ας.x" = 0 ∧
      Topology.resolve [⟨"a", "Σ"⟩] = [⟨"a", "a-σ-queue", "a.σ"⟩] ∧
      ((Router.only 0).route "a.Σ" 1).select "a.σ" = 0 := by
  decide +kernel

end EventCourier
