import EventCourier.Proofs.Except
import EventCourier.Proofs.Record.Line
import EventCourier.Record.Redirect

/-!
# Redirects are written faithfully

What `Redirect.ofPayload` accepts is described by five members of the payload (`ofPayload_eq_ok`). Its three
checks on tags are enough for the line to be read back: `written_faithfully` says that every redirect has a
point, and that the line of the point has no line breaks and says just what the payload says.
-/

namespace EventCourier

namespace Redirect

variable {p : Payload} {r : Redirect} {field s : String}

/-! ## What is accepted -/

/-- A text that is fit for a tag. -/
structure TagText (s : String) : Prop where
  nonempty : s ≠ ""
  unbroken : Line.Unbroken s.toList
  unescaping : s.toList.getLast? ≠ some '\\'

/-- A payload has a text under a field that is fit for a tag. -/
structure IsTag (p : Payload) (field s : String) : Prop extends TagText s where
  member : p.get? field = some (.string s)

/-- A payload describes a redirect. -/
structure Describes (p : Payload) (r : Redirect) : Prop where
  id : IsTag p "id" r.id
  target : IsTag p "original" r.target
  short : IsTag p "shortened" r.short
  latency : ∃ n, p.get? "latency" = some (.number n) ∧ n.toInt64? = some r.latency
  timestamp : ∃ text, p.get? "timestamp" = some (.string text) ∧ Instant.read text = .ok r.timestamp
  inRange : -0x8000000000000000 ≤ r.timestamp.unixNanos ∧ r.timestamp.unixNanos < 0x8000000000000000

theorem required_eq_ok {v : Payload} : required p field = .ok v ↔ p.get? field = some v ∧ v ≠ .null := by
  unfold required
  cases p.get? field with
  | none => simp
  | some value => cases value <;> simp [Payload.isNull] <;> rintro rfl <;> simp

theorem requiredString_eq_ok : requiredString p field = .ok s ↔ p.get? field = some (.string s) := by
  unfold requiredString
  rw [bind_eq_ok_iff]
  constructor
  · rintro ⟨v, hv, h⟩
    obtain ⟨hget, -⟩ := required_eq_ok.mp hv
    cases v with
    | string text =>
      obtain rfl := Except.ok.inj h
      exact hget
    | _ => cases h
  · intro h
    exact ⟨.string s, required_eq_ok.mpr ⟨h, nofun⟩, rfl⟩

/-- The three checks of a tag are passed by texts that are fit for one. -/
theorem requiredTag_eq_ok : requiredTag p field = .ok s ↔ IsTag p field s := by
  have hbreaks : (s.toList.any fun c => c = '\n' || c = '\r') = false ↔ Line.Unbroken s.toList := by
    simp [Line.Unbroken]
  unfold requiredTag
  rw [bind_eq_ok_iff]
  constructor
  · rintro ⟨text, hget, h⟩
    split at h
    · cases h
    · rename_i hempty
      split at h
      · cases h
      · rename_i hbreak
        split at h
        · cases h
        · rename_i hlast
          obtain rfl := Except.ok.inj h
          refine ⟨⟨?_, hbreaks.mp (Bool.eq_false_iff.mpr hbreak), hlast⟩, requiredString_eq_ok.mp hget⟩
          rintro rfl
          exact hempty rfl
  · intro h
    refine ⟨s, requiredString_eq_ok.mpr h.member, ?_⟩
    rw [if_neg (mt String.isEmpty_iff.mp h.nonempty), if_neg (Bool.eq_false_iff.mp (hbreaks.mpr h.unbroken)),
      if_neg h.unescaping]
    rfl

theorem requiredInteger_eq_ok {n : Int} : requiredInteger p field = .ok n ↔
    ∃ k, p.get? field = some (.number k) ∧ k.toInt64? = some n := by
  unfold requiredInteger
  rw [bind_eq_ok_iff]
  constructor
  · rintro ⟨v, hv, h⟩
    obtain ⟨hget, -⟩ := required_eq_ok.mp hv
    split at h
    · rename_i k hk
      obtain rfl := Except.ok.inj h
      cases v with
      | number k' => exact ⟨k', hget, hk⟩
      | _ => cases hk
    · cases h
  · rintro ⟨k, hget, hk⟩
    refine ⟨.number k, required_eq_ok.mpr ⟨hget, nofun⟩, ?_⟩
    simp only [Payload.asInt64?, hk]
    rfl

theorem readTime_eq_ok {t : Instant} : readTime s = .ok t ↔ Instant.read s = .ok t := by
  unfold readTime
  cases Instant.read s <;> simp

theorem unixNanos?_isNone {t : Instant} : t.unixNanos?.isNone = true ↔
    ¬(-0x8000000000000000 ≤ t.unixNanos ∧ t.unixNanos < 0x8000000000000000) := by
  unfold Instant.unixNanos?
  split <;> simp_all

/-- What is accepted are the redirects that the payload describes. -/
theorem ofPayload_eq_ok : ofPayload p = .ok r ↔ Describes p r := by
  unfold ofPayload
  simp only [bind_eq_ok_iff, requiredTag_eq_ok, requiredInteger_eq_ok, requiredString_eq_ok, readTime_eq_ok]
  constructor
  · rintro ⟨id, hid, target, htarget, short, hshort, latency, hlatency, text, htext, timestamp, htime, h⟩
    split at h
    · cases h
    · rename_i hrange
      obtain rfl := Except.ok.inj h
      exact ⟨hid, htarget, hshort, hlatency, ⟨text, htext, htime⟩, not_not.mp (mt unixNanos?_isNone.mpr hrange)⟩
  · rintro ⟨hid, htarget, hshort, hlatency, ⟨text, htext, htime⟩, hrange⟩
    refine ⟨_, hid, _, htarget, _, hshort, _, hlatency, text, htext, _, htime, ?_⟩
    rw [if_neg (mt unixNanos?_isNone.mp (not_not.mpr hrange))]
    rfl

/-- The payload of an accepted redirect describes it. -/
theorem describes_of_ofPayload (h : ofPayload p = .ok r) : Describes p r := ofPayload_eq_ok.mp h

/-- A signed 64-bit integer of a document fits 64 bits. -/
theorem toInt64?_range {k : Number} {n : Int} (h : k.toInt64? = some n) :
    -0x8000000000000000 ≤ n ∧ n < 0x8000000000000000 := by
  cases k with
  | integer m lower upper =>
    simp only [Number.toInt64?, Option.ite_none_right_eq_some, Option.some.injEq] at h
    omega
  | real x => cases h

/-! ## The point -/

/-- The point of a redirect that a payload describes. -/
def point (r : Redirect) : Point :=
  ⟨measurement, [("link", r.id), ("original", r.target), ("shortened", r.short)],
    [("latency", .integer r.latency)], r.timestamp.unixNanos⟩

/-- The tags are put in the order of their keys. -/
theorem insert_tags (id target short : String) :
    Dictionary.insert "shortened" short (Dictionary.insert "original" target (Dictionary.insert "link" id [])) =
      [("link", id), ("original", target), ("shortened", short)] := by
  have htarget : ¬"original" < "link" ∧ "original" ≠ "link" := by decide
  have hlink : ¬"shortened" < "link" ∧ "shortened" ≠ "link" := by decide
  have hshort : ¬"shortened" < "original" ∧ "shortened" ≠ "original" := by decide
  simp only [Dictionary.insert, if_neg htarget.1, if_neg htarget.2, if_neg hlink.1, if_neg hlink.2,
    if_neg hshort.1, if_neg hshort.2]

theorem point?_eq_ok
    (h : -0x8000000000000000 ≤ r.timestamp.unixNanos ∧ r.timestamp.unixNanos < 0x8000000000000000) :
    r.point? = .ok r.point := by
  have hat : Point.at? measurement r.timestamp = .ok (.empty measurement r.timestamp.unixNanos) := by
    rw [Point.at?, Instant.unixNanos?, if_pos h]
  unfold point?
  rw [hat]
  simp only [Point.tag, Point.field, Point.empty, insert_tags, bind, Except.bind, pure, Except.pure]
  rfl

theorem IsTag.nameable (h : IsTag p field s) : Line.Nameable s :=
  ⟨h.nonempty, fun hc => (h.unbroken _ hc).1 rfl, h.unescaping⟩

/-- The point of a redirect that a payload describes can be read back from its line. -/
theorem Describes.legible (h : Describes p r) : Line.Legible r.point := by
  have hname : ∀ s ∈ [measurement, "link", "original", "shortened", "latency"], Line.Nameable s := by
    intro s hs
    refine ⟨?_, ?_, ?_⟩ <;> revert s <;> decide +kernel
  obtain ⟨n, -, hn⟩ := h.latency
  refine ⟨hname measurement (by simp), ?_, by simp [point], ?_, h.inRange⟩
  · simp only [point, List.forall_mem_cons, List.not_mem_nil, false_implies, implies_true, and_true]
    exact ⟨⟨hname _ (by simp), h.id.nameable⟩, ⟨hname _ (by simp), h.target.nameable⟩,
      ⟨hname _ (by simp), h.short.nameable⟩⟩
  · simp only [point, List.forall_mem_cons, List.not_mem_nil, false_implies, implies_true, and_true]
    exact ⟨hname _ (by simp), Line.reads_integer (toInt64?_range hn)⟩

/-- There are no line breaks in the line. -/
theorem Describes.unbroken (h : Describes p r) : Line.Unbroken r.point.lineChars := by
  have hname : ∀ s ∈ [measurement, "link", "original", "shortened", "latency"], Line.Unbroken s.toList := by
    decide +kernel
  refine Line.unbroken_lineChars (hname measurement (by simp)) ?_ (by simp [point]) ?_
  · simp only [point, List.forall_mem_cons, List.not_mem_nil, false_implies, implies_true, and_true]
    exact ⟨⟨hname _ (by simp), h.id.unbroken⟩, ⟨hname _ (by simp), h.target.unbroken⟩,
      ⟨hname _ (by simp), h.short.unbroken⟩⟩
  · simp only [point, List.forall_mem_cons, List.not_mem_nil, false_implies, implies_true, and_true]
    exact ⟨hname _ (by simp), Line.unbroken_append (Line.unbroken_integerChars _) (by decide)⟩

/-- **Every redirect is written faithfully.** A redirect that is accepted has a point. Its line has no line breaks,
and is read back as one line with the three texts of the payload as tags, its latency as the only field, and the
nanoseconds of its time, which fit 64 bits. -/
theorem written_faithfully (p : Payload) (r : Redirect) (h : ofPayload p = .ok r) :
    ∃ (id target short time : String) (latency : Payload) (n : Int) (t : Instant) (point : Point),
      p.get? "id" = some (.string id) ∧ p.get? "original" = some (.string target) ∧
      p.get? "shortened" = some (.string short) ∧
      p.get? "latency" = some latency ∧ latency.asInt64? = some n ∧
      p.get? "timestamp" = some (.string time) ∧ Instant.read time = .ok t ∧
      -0x8000000000000000 ≤ t.seconds * 1000000000 + t.nanos ∧
      t.seconds * 1000000000 + t.nanos < 0x8000000000000000 ∧
      r.point? = .ok point ∧ '\n' ∉ point.line.toList ∧ '\r' ∉ point.line.toList ∧
      Line.read point.line = some
        [⟨"link-redirects", [("link", id), ("original", target), ("shortened", short)],
          [("latency", .integer n)], t.seconds * 1000000000 + t.nanos⟩] := by
  have hdesc := describes_of_ofPayload h
  obtain ⟨number, hlatency, hn⟩ := hdesc.latency
  obtain ⟨time, htime, hread⟩ := hdesc.timestamp
  have hline : r.point.line.toList = r.point.lineChars := String.toList_ofList
  refine ⟨r.id, r.target, r.short, time, .number number, r.latency, r.timestamp, r.point, hdesc.id.member,
    hdesc.target.member, hdesc.short.member, hlatency, hn, htime, hread, hdesc.inRange.1, hdesc.inRange.2,
    point?_eq_ok hdesc.inRange, ?_, ?_, Line.read_line hdesc.legible⟩
  · exact fun hc => (hdesc.unbroken _ (hline ▸ hc)).1 rfl
  · exact fun hc => (hdesc.unbroken _ (hline ▸ hc)).2 rfl

/-- Texts with separators, quotes and backslashes of every kind, at the last nanosecond that fits. -/
theorem written_faithfully_separators :
    ∃ (p : Payload) (r : Redirect) (point : Point),
      p.get? "id" = some (.string "a\\,b=\\ c\\\\d") ∧ p.get? "original" = some (.string "=, \\\\=\"é") ∧
      p.get? "shortened" = some (.string ",link=x i=1i 0 ") ∧
      ofPayload p = .ok r ∧ r.point? = .ok point ∧
      Line.read point.line = some
        [⟨"link-redirects",
          [("link", "a\\,b=\\ c\\\\d"), ("original", "=, \\\\=\"é"), ("shortened", ",link=x i=1i 0 ")],
          [("latency", .integer (-7))], 9223372036854775807⟩] := by
  let p : Payload := .object
    [("id", .string "a\\,b=\\ c\\\\d"), ("latency", .number (.integer (-7) (by decide) (by decide))),
      ("original", .string "=, \\\\=\"é"), ("shortened", .string ",link=x i=1i 0 "),
      ("timestamp", .string "2262-04-11T23:47:16.854775807Z")]
  have haccepted : ofPayload p = .ok
      ⟨"a\\,b=\\ c\\\\d", "=, \\\\=\"é", ",link=x i=1i 0 ", -7, ⟨9223372036, 854775807⟩⟩ := rfl
  obtain ⟨id, target, short, time, latency, n, t, point, hid, htarget, hshort, hlatency, hn, htime, hread, -, -,
    hpoint, -, -, hline⟩ := written_faithfully p _ haccepted
  obtain rfl : id = "a\\,b=\\ c\\\\d" := by cases hid; rfl
  obtain rfl : target = "=, \\\\=\"é" := by cases htarget; rfl
  obtain rfl : short = ",link=x i=1i 0 " := by cases hshort; rfl
  obtain rfl : time = "2262-04-11T23:47:16.854775807Z" := by cases htime; rfl
  obtain rfl : n = -7 := by cases hlatency; cases hn; rfl
  obtain rfl : t = ⟨9223372036, 854775807⟩ := by cases hread; rfl
  exact ⟨p, _, point, rfl, rfl, rfl, haccepted, hpoint, hline⟩

end Redirect
end EventCourier
