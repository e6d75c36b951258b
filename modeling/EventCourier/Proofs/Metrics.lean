import EventCourier.Metrics
import Mathlib.Algebra.GroupWithZero.Nat
import Mathlib.Data.List.Induction

/-!
# What the metrics show

All samples of a metric under one set of labels are in one series (`amounts_collect`). So the series of a counter
show together, over any choice of labels, how many samples there were with such labels (`shown_collect`), and the
series of a gauge shows the last one. For the marks of one worker this says what each metric counts
(`shown_received`, `shown_acked`, `shown_rejected`, `shown_stale`, `shown_attempts`, `gauge_state`).
-/

namespace EventCourier

namespace Mark

/-- True of a delivery that was received. -/
def isReceived : Mark → Bool
  | .received _ => true
  | _ => false

/-- The sink of a delivery that was acked. -/
def acked? : Mark → Option String
  | .acked sink _ => some sink
  | _ => none

/-- True of a delivery that was rejected. -/
def isRejected : Mark → Bool
  | .rejected _ _ => true
  | _ => false

/-- Whether an attempt to connect succeeded. -/
def attempt? : Mark → Option Bool
  | .attempt success => some success
  | _ => none

end Mark

namespace Metrics

variable {measure : Measure} {name worker : String} {labels : List (String × String)}
  {p : List (String × String) → Bool} {s : Sample} {ts : List Series}

/-! ## Series -/

/-- The series of samples, in order. -/
def collect (samples : List Sample) : List Series := samples.foldl (fun ts s => add s ts) []

theorem collect_concat (samples : List Sample) (s : Sample) :
    collect (samples ++ [s]) = add s (collect samples) := by
  unfold collect
  rw [List.foldl_append]
  rfl

/-- What the series of a metric show together, over all labels with a property. -/
def shown (name : String) (p : List (String × String) → Bool) (ts : List Series) : Nat :=
  ((ts.filter fun t => t.name = name ∧ p t.labels).map Series.value).sum

/-- The amounts of the series of a metric under some labels. -/
def amounts (name : String) (labels : List (String × String)) (ts : List Series) : List (List Nat) :=
  (ts.filter fun t => t.name = name ∧ t.labels = labels).map Series.amounts

/-- All series of a metric have one measure. -/
def Measured (measure : Measure) (name : String) (ts : List Series) : Prop :=
  ∀ t ∈ ts, t.name = name → t.measure = measure

theorem measured_add (h : Measured measure name ts) (hs : s.name = name → s.measure = measure) :
    Measured measure name (add s ts) := by
  induction ts with
  | nil =>
    intro t ht hname
    rw [List.mem_singleton.mp ht] at hname ⊢
    exact hs hname
  | cons t ts ih =>
    obtain ⟨hhead, hrest⟩ := List.forall_mem_cons.mp h
    unfold add
    split
    · exact List.forall_mem_cons.mpr ⟨hhead, hrest⟩
    · exact List.forall_mem_cons.mpr ⟨hhead, ih hrest⟩

theorem measured_collect {samples : List Sample} (h : ∀ s ∈ samples, s.name = name → s.measure = measure) :
    Measured measure name (collect samples) := by
  induction samples using List.reverseRecOn with
  | nil => exact fun _ ht => absurd ht List.not_mem_nil
  | append_singleton samples s ih =>
    rw [collect_concat]
    exact measured_add (ih fun s hs => h s (List.mem_append_left _ hs))
      (h s (List.mem_append_right _ (List.mem_singleton_self s)))

/-! ## Counters -/

theorem shown_cons (t : Series) (ts : List Series) :
    shown name p (t :: ts) = (if t.name = name ∧ p t.labels then t.value else 0) + shown name p ts := by
  unfold shown
  by_cases h : t.name = name ∧ p t.labels = true
  · rw [List.filter_cons_of_pos (by simpa using h), if_pos h, List.map_cons, List.sum_cons]
  · rw [List.filter_cons_of_neg (by simpa using h), if_neg h, Nat.zero_add]

/-- One more sample of a counter counts once, in whatever series it is. -/
theorem shown_add (h : Measured .counter name ts) (hs : s.name = name → s.measure = .counter) :
    shown name p (add s ts) = shown name p ts + if s.name = name ∧ p s.labels then 1 else 0 := by
  induction ts with
  | nil =>
    rw [add, shown_cons]
    by_cases hmatch : s.name = name ∧ p s.labels = true
    · simp [hmatch, shown, Series.value, hs hmatch.1]
    · simp [hmatch, shown]
  | cons t ts ih =>
    obtain ⟨hhead, hrest⟩ := List.forall_mem_cons.mp h
    unfold add
    by_cases hkey : t.name = s.name ∧ t.labels = s.labels
    · obtain ⟨hname, hlabels⟩ := hkey
      rw [if_pos ⟨hname, hlabels⟩, shown_cons, shown_cons]
      simp only [hname, hlabels]
      by_cases hmatch : s.name = name ∧ p s.labels = true
      · have hcounter : t.measure = .counter := hhead (hname.trans hmatch.1)
        simp only [if_pos hmatch, Series.value, hcounter, List.length_append, List.length_singleton]
        omega
      · simp only [if_neg hmatch]
        omega
    · rw [if_neg hkey, shown_cons, shown_cons, ih hrest, Nat.add_assoc]

/-- **The series of a counter show how many samples there were.** -/
theorem shown_collect {samples : List Sample} (h : ∀ s ∈ samples, s.name = name → s.measure = .counter) :
    shown name p (collect samples) = samples.countP fun s => s.name = name ∧ p s.labels := by
  induction samples using List.reverseRecOn with
  | nil => rfl
  | append_singleton samples s ih =>
    have hbefore : ∀ s ∈ samples, s.name = name → s.measure = .counter :=
      fun s hs => h s (List.mem_append_left _ hs)
    have hlast := h s (List.mem_append_right _ (List.mem_singleton_self s))
    rw [collect_concat, shown_add (measured_collect hbefore) hlast, ih hbefore, List.countP_append,
      List.countP_singleton]
    simp only [decide_eq_true_eq]

/-! ## Gauges -/

theorem amounts_cons (t : Series) (ts : List Series) : amounts name labels (t :: ts) =
    if t.name = name ∧ t.labels = labels then t.amounts :: amounts name labels ts
    else amounts name labels ts := by
  unfold amounts
  by_cases ht : t.name = name ∧ t.labels = labels
  · rw [List.filter_cons_of_pos (by simpa using ht), if_pos ht, List.map_cons]
  · rw [List.filter_cons_of_neg (by simpa using ht), if_neg ht]

/-- One more sample is the last of its series, which begins with it if it is the first. -/
theorem amounts_add (s : Sample) (ts : List Series) :
    amounts name labels (add s ts) = if s.name = name ∧ s.labels = labels then
      match amounts name labels ts with
        | [] => [[s.amount]]
        | first :: rest => (first ++ [s.amount]) :: rest
      else amounts name labels ts := by
  induction ts with
  | nil =>
    rw [add, amounts_cons]
    rfl
  | cons t ts ih =>
    unfold add
    by_cases hkey : t.name = s.name ∧ t.labels = s.labels
    · obtain ⟨hname, hlabels⟩ := hkey
      rw [if_pos ⟨hname, hlabels⟩, amounts_cons, amounts_cons]
      simp only [hname, hlabels]
      split <;> rfl
    · rw [if_neg hkey, amounts_cons, amounts_cons, ih]
      by_cases ht : t.name = name ∧ t.labels = labels
      · have hs : ¬(s.name = name ∧ s.labels = labels) := fun hs =>
          hkey ⟨ht.1.trans hs.1.symm, ht.2.trans hs.2.symm⟩
        simp only [if_pos ht, if_neg hs]
      · simp only [if_neg ht]

/-- **There is one series for a metric under some labels**, if there is a sample of it, with all these samples. -/
theorem amounts_collect (samples : List Sample) : amounts name labels (collect samples) =
    match (samples.filter fun s => s.name = name ∧ s.labels = labels).map Sample.amount with
      | [] => []
      | all => [all] := by
  induction samples using List.reverseRecOn with
  | nil => rfl
  | append_singleton samples s ih =>
    rw [collect_concat, amounts_add, ih, List.filter_append, List.map_append]
    by_cases hs : s.name = name ∧ s.labels = labels
    · rw [if_pos hs, List.filter_cons_of_pos (by simpa using hs), List.filter_nil, List.map_singleton]
      cases (samples.filter fun s => s.name = name ∧ s.labels = labels).map Sample.amount <;> rfl
    · rw [if_neg hs, List.filter_cons_of_neg (by simpa using hs), List.filter_nil, List.map_nil, List.append_nil]

/-- What the series of a gauge show. -/
theorem map_value_of_gauge (h : Measured .gauge name ts) :
    (ts.filter fun t => t.name = name ∧ t.labels = labels).map Series.value =
      (amounts name labels ts).map fun all => all.getLast?.getD 0 := by
  unfold amounts
  rw [List.map_map]
  refine List.map_congr_left fun t ht => ?_
  obtain ⟨hmem, hkey⟩ := List.mem_filter.mp ht
  have hgauge := h t hmem (of_decide_eq_true hkey).1
  simp only [Series.value, hgauge, Function.comp]

/-! ## The marks of a worker -/

/-- The series of the marks of one worker. -/
def seriesOf (worker : String) (marks : List Mark) : List Series := series (marks.map (worker, ·))

theorem seriesOf_eq (worker : String) (marks : List Mark) :
    seriesOf worker marks = collect (marks.flatMap (samples worker)) := by
  unfold seriesOf series collect
  rw [List.flatMap_map]

/-- A counter that has one sample for each mark of a kind counts the marks of that kind. -/
theorem shown_marks {q : Mark → Bool} (hcounter : ∀ m, ∀ s ∈ samples worker m, s.name = name → s.measure = .counter)
    (hone : ∀ m, ((samples worker m).countP fun s => s.name = name ∧ p s.labels) = if q m then 1 else 0)
    (marks : List Mark) : shown name p (seriesOf worker marks) = marks.countP q := by
  rw [seriesOf_eq, shown_collect]
  · induction marks with
    | nil => rfl
    | cons m marks ih =>
      rw [List.flatMap_cons, List.countP_append, hone, ih, List.countP_cons, Nat.add_comm]
  · intro s hs
    obtain ⟨m, -, hm⟩ := List.mem_flatMap.mp hs
    exact hcounter m s hm

/-- Received deliveries are counted under their routing keys. -/
theorem shown_received (worker : String) (marks : List Mark) :
    shown "amqp_worker_deliveries_received_total" (fun _ => true) (seriesOf worker marks) =
      marks.countP Mark.isReceived := by
  apply shown_marks <;> intro m <;> cases m <;> simp [samples, Mark.isReceived]

/-- Acked deliveries are counted under the names of their sinks. -/
theorem shown_acked (worker : String) (marks : List Mark) :
    shown "amqp_worker_deliveries_acked_total" (fun _ => true) (seriesOf worker marks) =
        (marks.filterMap Mark.acked?).length ∧
      ∀ sink, shown "amqp_worker_deliveries_acked_total" (· = [("worker", worker), ("sink", sink)])
        (seriesOf worker marks) = (marks.filterMap Mark.acked?).count sink := by
  constructor
  · rw [← List.countP_true, List.countP_filterMap]
    apply shown_marks <;> intro m <;> cases m <;> simp [samples, Mark.acked?]
  · intro sink
    rw [List.count_filterMap]
    apply shown_marks <;> intro m <;> cases m <;> simp [samples, Mark.acked?, List.countP_cons]

/-- Rejected deliveries are counted under the kinds of failures and by whether they went back. -/
theorem shown_rejected (worker : String) (marks : List Mark) :
    shown "amqp_worker_deliveries_rejected_total" (fun _ => true) (seriesOf worker marks) =
      marks.countP Mark.isRejected := by
  apply shown_marks <;> intro m <;> cases m <;> simp [samples, Mark.isRejected]

theorem shown_stale (worker : String) (marks : List Mark) :
    shown "amqp_worker_stale_deliveries_total" (fun _ => true) (seriesOf worker marks) = marks.count .stale := by
  rw [List.count]
  apply shown_marks <;> intro m <;> cases m <;> simp [samples]

/-- Attempts are counted by whether they succeeded. -/
theorem shown_attempts (worker : String) (marks : List Mark) (success : Bool) :
    shown "amqp_worker_connect_attempts_total"
        (· = [("worker", worker), ("status", if success then "success" else "failed")]) (seriesOf worker marks) =
      (marks.filterMap Mark.attempt?).count success := by
  rw [List.count_filterMap]
  apply shown_marks
  · intro m
    cases m <;> simp [samples]
  · intro m
    cases m with
    | attempt success' => cases success <;> cases success' <;> simp [samples, Mark.attempt?]
    | _ => simp [samples, Mark.attempt?]

/-- The samples of the state are the states that were published. -/
theorem state_samples (worker : String) (j : Journal) :
    ((j.marks.flatMap (samples worker)).filter fun s =>
        s.name = "amqp_worker_connection_state" ∧ s.labels = [("worker", worker)]).map Sample.amount =
      j.states.map ConnectionState.gauge := by
  unfold Journal.states
  induction j.marks with
  | nil => rfl
  | cons m marks ih =>
    rw [List.flatMap_cons, List.filter_append, List.map_append, ih]
    cases m <;> simp [samples]

/-- The gauge shows the state that was published last. -/
theorem gauge_state (worker : String) {j : Journal} {s : ConnectionState} (h : j.states.getLast? = some s) :
    ((seriesOf worker j.marks).filter fun t =>
      t.name = "amqp_worker_connection_state" ∧ t.labels = [("worker", worker)]).map Series.value = [s.gauge] := by
  have hgauge : ∀ s ∈ j.marks.flatMap (samples worker), s.name = "amqp_worker_connection_state" →
      s.measure = .gauge := by
    intro s hs
    obtain ⟨m, -, hm⟩ := List.mem_flatMap.mp hs
    cases m with
    | acked sink duration =>
      rcases List.mem_cons.mp hm with rfl | hm
      · simp
      · rw [List.mem_singleton.mp hm]
        simp
    | _ =>
      rw [List.mem_singleton.mp hm]
      simp
  obtain ⟨before, hstates⟩ := List.getLast?_eq_some_iff.mp h
  rw [seriesOf_eq, map_value_of_gauge (measured_collect hgauge), amounts_collect, state_samples, hstates,
    List.map_append]
  cases before.map ConnectionState.gauge with
  | nil => rfl
  | cons first rest =>
    show [((first :: rest) ++ [s.gauge]).getLast?.getD 0] = [s.gauge]
    rw [List.getLast?_concat]
    rfl

end Metrics
end EventCourier
