import EventCourier.Delivery
import EventCourier.Proofs.Dictionary
import EventCourier.Proofs.Text.Lower
import EventCourier.Proofs.Text.Split
import EventCourier.Topology
import Mathlib.Data.List.Nodup

/-!
# Topics and the names made of them

Normalizing gives the distinct normalized topics in their order (`mem_normalized`, `increasing_normalized`), and an
increasing list is known by its members (`Topic.eq_of_increasing`). The routing key of a topic names it as long as
entities hold no dot (`routingKey_inj`), and its event is read off it (`eventTypeOf_routingKey`). The queue names it up
to the place of one dash: two topics share a queue just if they are the same or overlap (`queue_eq_iff`).
-/

namespace EventCourier

/-! ## Event types -/

/-- The event type is what stands behind the first dot. -/
theorem eventTypeOf_of_dot {key : String} {as bs : List Char} (ha : '.' ∉ as) (h : key.toList = as ++ '.' :: bs) :
    eventTypeOf key = String.ofList bs := by
  have hdrop : key.toList.dropWhile (· ≠ '.') = '.' :: bs := by
    rw [h, dropWhile_append_stop (by decide), dropWhile_ne ha, List.nil_append]
  simp only [eventTypeOf, hdrop]

/-- A key without a dot is the event type. -/
theorem eventTypeOf_of_no_dot {key : String} (h : '.' ∉ key.toList) : eventTypeOf key = key := by
  simp only [eventTypeOf, dropWhile_ne h]

namespace Topic

/-! ## The order of topics -/

theorem not_before_self (t : Topic) : ¬t.before t = true := by simp [before]

theorem before_trans {s t u : Topic} (hst : s.before t = true) (htu : t.before u = true) :
    s.before u = true := by
  simp only [before, decide_eq_true_eq] at hst htu ⊢
  rcases hst with hst | ⟨hst, hst'⟩ <;> rcases htu with htu | ⟨htu, htu'⟩
  · exact Or.inl (String.lt_trans hst htu)
  · exact Or.inl (htu ▸ hst)
  · exact Or.inl (hst.symm ▸ htu)
  · exact Or.inr ⟨hst.trans htu, String.lt_trans hst' htu'⟩

/-- Of two topics, one is before the other or they are the same. -/
theorem before_of_not_before {t u : Topic} (hne : t ≠ u) (h : ¬t.before u = true) : u.before t = true := by
  simp only [before, decide_eq_true_eq, not_or, not_and] at h ⊢
  by_cases he : t.entity = u.entity
  · refine Or.inr ⟨he.symm, Dictionary.lt_of_not_lt (h.2 he) fun hv => hne ?_⟩
    cases t
    cases u
    exact congrArg₂ Topic.mk he hv
  · exact Or.inl (Dictionary.lt_of_not_lt h.1 he)

theorem mem_insert {n t : Topic} {us : List Topic} : n ∈ t.insert us ↔ n = t ∨ n ∈ us := by
  induction us with
  | nil => simp [insert]
  | cons u us ih =>
    unfold insert
    split
    · rename_i h
      simp [h]
    · split
      · simp
      · simp [ih, or_left_comm]

/-- An increasing list stays increasing. -/
theorem pairwise_insert (t : Topic) {us : List Topic} (h : us.Pairwise fun a b => a.before b = true) :
    (t.insert us).Pairwise fun a b => a.before b = true := by
  induction us with
  | nil => exact List.pairwise_singleton _ _
  | cons u us ih =>
    obtain ⟨hu, hus⟩ := List.pairwise_cons.mp h
    unfold insert
    split
    · exact h
    · rename_i hne
      split
      · rename_i ht
        refine List.pairwise_cons.mpr ⟨fun v hv => ?_, h⟩
        rcases List.mem_cons.mp hv with rfl | hv
        · exact ht
        · exact before_trans ht (hu v hv)
      · rename_i ht
        refine List.pairwise_cons.mpr ⟨fun v hv => ?_, ih hus⟩
        rcases mem_insert.mp hv with rfl | hv
        · exact before_of_not_before hne ht
        · exact hu v hv

/-- A list of topics that are put in one after the other. -/
theorem foldl_insert_spec (ts : List Topic) {us : List Topic} (h : us.Pairwise fun a b => a.before b = true) :
    (ts.foldl (fun us t => t.insert us) us).Pairwise (fun a b => a.before b = true) ∧
      ∀ n, n ∈ ts.foldl (fun us t => t.insert us) us ↔ n ∈ us ∨ n ∈ ts := by
  induction ts generalizing us with
  | nil => simp [h]
  | cons t ts ih =>
    obtain ⟨hpairwise, hmem⟩ := ih (pairwise_insert t h)
    refine ⟨hpairwise, fun n => ?_⟩
    rw [List.foldl_cons, hmem, mem_insert, List.mem_cons, or_assoc, or_left_comm]

/-- An increasing list holds nothing twice. -/
theorem nodup_of_increasing {ts : List Topic} (h : ts.Pairwise fun a b => a.before b = true) : ts.Nodup := by
  refine h.imp ?_
  rintro a b hab rfl
  exact not_before_self a hab

/-- An increasing list is known by its members. -/
theorem eq_of_increasing {as bs : List Topic} (ha : as.Pairwise fun a b => a.before b = true)
    (hb : bs.Pairwise fun a b => a.before b = true) (h : ∀ t, t ∈ as ↔ t ∈ bs) : as = bs := by
  refine List.Perm.eq_of_pairwise (fun a b _ _ hab hba => ?_) ha hb
    ((List.perm_ext_iff_of_nodup (nodup_of_increasing ha) (nodup_of_increasing hb)).mpr h)
  exact absurd (before_trans hab hba) (not_before_self a)

/-! ## Routing keys -/

theorem toList_routingKey (t : Topic) :
    t.binding.routingKey.toList = t.entity.toList ++ '.' :: t.event.toList := by
  simp [binding]

/-- A topic is known by its routing key, if entities hold no dot. -/
theorem routingKey_inj {a b : Topic} (ha : '.' ∉ a.entity.toList) (hb : '.' ∉ b.entity.toList)
    (h : a.binding.routingKey = b.binding.routingKey) : a = b := by
  have hjoin := congrArg String.toList h
  rw [toList_routingKey, toList_routingKey, join_eq_iff] at hjoin
  rcases hjoin with ⟨he, hv⟩ | ⟨mid, he, -⟩ | ⟨mid, he, -⟩
  · cases a
    cases b
    exact congrArg₂ Topic.mk (String.toList_inj.mp he) (String.toList_inj.mp hv)
  · exact absurd (he ▸ by simp) hb
  · exact absurd (he ▸ by simp) ha

/-- The event is what stands behind the first dot of the routing key. -/
theorem eventTypeOf_routingKey {t : Topic} (h : '.' ∉ t.entity.toList) :
    eventTypeOf t.binding.routingKey = t.event := by
  rw [eventTypeOf_of_dot h (toList_routingKey t), String.ofList_toList]

/-- The routing key of a topic in lower case is in lower case. -/
theorem lower_routingKey {t : Topic} (he : ∀ c ∈ t.entity.toList, LetterCase.Small c)
    (hv : ∀ c ∈ t.event.toList, LetterCase.Small c) : lower t.binding.routingKey = t.binding.routingKey := by
  refine lower_of_small fun c hc => ?_
  rw [toList_routingKey, List.mem_append, List.mem_cons] at hc
  rcases hc with hc | rfl | hc
  · exact he c hc
  · exact LetterCase.small_special.2.2.2.2
  · exact hv c hc

/-! ## Queues -/

/-- The entity of `b` is that of `a` with a dash and more, which is missing at the front of the event of `b`: read
without the dots, both are the same text. -/
def Overlaps (a b : Topic) : Prop := ∃ mid, b.entity = a.entity ++ "-" ++ mid ∧ a.event = mid ++ "-" ++ b.event

theorem Overlaps.ne {a b : Topic} (h : a.Overlaps b) : a ≠ b := by
  rintro rfl
  obtain ⟨mid, he, -⟩ := h
  have hlength := congrArg String.length he
  simp only [String.length_append] at hlength
  have hdash : "-".length = 1 := rfl
  omega

/-- One of the topics that overlap has a dash in its event, and the other one in its entity. -/
theorem Overlaps.dash {a b : Topic} (h : a.Overlaps b) : '-' ∈ b.entity.toList ∧ '-' ∈ a.event.toList := by
  obtain ⟨mid, he, hv⟩ := h
  rw [he, hv]
  simp

/-- Two topics share a queue just if they are the same or overlap. -/
theorem queue_eq_iff {a b : Topic} :
    a.binding.queue = b.binding.queue ↔ a = b ∨ a.Overlaps b ∨ b.Overlaps a := by
  have hqueue : ∀ t : Topic, t.binding.queue.toList =
      (t.entity.toList ++ '-' :: t.event.toList) ++ "-queue".toList := fun t => by simp [binding]
  have hsame : a = b ↔ a.entity.toList = b.entity.toList ∧ a.event.toList = b.event.toList := by
    cases a
    cases b
    simp [String.toList_inj]
  have hoverlaps : ∀ s t : Topic, s.Overlaps t ↔ ∃ mid, t.entity.toList = s.entity.toList ++ '-' :: mid ∧
      s.event.toList = mid ++ '-' :: t.event.toList := by
    intro s t
    constructor
    · rintro ⟨mid, he, hv⟩
      exact ⟨mid.toList, by simp [he], by simp [hv]⟩
    · rintro ⟨mid, he, hv⟩
      exact ⟨String.ofList mid, String.toList_inj.mp (by simp [he]), String.toList_inj.mp (by simp [hv])⟩
  rw [← String.toList_inj, hqueue, hqueue, List.append_left_inj, join_eq_iff, hsame, hoverlaps, hoverlaps]

end Topic

namespace Topology

/-! ## Normalized topics -/

theorem normalizeTopic?_eq_some {t n : Topic} : normalizeTopic? t = some n ↔
    trim t.entity ≠ "" ∧ trim t.event ≠ "" ∧ n = ⟨lower (trim t.entity), lower (trim t.event)⟩ := by
  simp only [normalizeTopic?, normalize?, String.isEmpty_iff]
  by_cases he : trim t.entity = "" <;> by_cases hv : trim t.event = "" <;> simp [he, hv, @eq_comm _ n]

theorem mem_normalized {n : Topic} {topics : List Topic} :
    n ∈ normalized topics ↔ ∃ t ∈ topics, normalizeTopic? t = some n := by
  rw [normalized, (Topic.foldl_insert_spec _ List.Pairwise.nil).2]
  simp

theorem increasing_normalized (topics : List Topic) : (normalized topics).Pairwise fun a b => a.before b = true :=
  (Topic.foldl_insert_spec _ List.Pairwise.nil).1

theorem nodup_normalized (topics : List Topic) : (normalized topics).Nodup :=
  Topic.nodup_of_increasing (increasing_normalized topics)

theorem mem_resolve {b : Binding} {topics : List Topic} :
    b ∈ resolve topics ↔ ∃ n ∈ normalized topics, n.binding = b := List.mem_map

end Topology
end EventCourier
