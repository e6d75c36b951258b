import EventCourier.Proofs.Dictionary
import EventCourier.Proofs.Record.Store

/-!
# Batches of points are unambiguous

A point is built by setting tags and fields one after the other; what was set last under a key is what it holds
(`point_eq`, with `Dictionary.mem_ofList_iff`). So its line does not depend on the order of the settings beyond that
(`point_eq_of_last`). A batch of points whose names can be written is sent as one text, from which all lines are read
back in order, whatever the texts in the fields are (`batch_read_back`).
-/

namespace EventCourier

/-! ## How points are built -/

/-- A tag or a field that is set on a point. -/
inductive Setting where
  | tag (key value : String)
  | field (key : String) (value : FieldValue)

namespace Setting

/-- The point with a setting more. -/
def apply (p : Point) : Setting → Point
  | .tag key value => p.tag key value
  | .field key value => p.field key value

/-- A tag that is set. -/
def tag? : Setting → Option (String × String)
  | .tag key value => some (key, value)
  | .field _ _ => none

/-- A field that is set. -/
def field? : Setting → Option (String × FieldValue)
  | .tag _ _ => none
  | .field key value => some (key, value)

end Setting

/-- How a point is built: by a number of settings, in order. -/
structure Draft where
  measurement : String
  timestamp : Int
  settings : List Setting

namespace Draft

variable {d d' : Draft}

/-- The point that is built. -/
def point (d : Draft) : Point := d.settings.foldl Setting.apply (.empty d.measurement d.timestamp)

/-- The tags that are set, in order. -/
def tags (d : Draft) : List (String × String) := d.settings.filterMap Setting.tag?

/-- The fields that are set, in order. -/
def fields (d : Draft) : List (String × FieldValue) := d.settings.filterMap Setting.field?

/-- Each setting changes the tags or the fields, and nothing else. -/
theorem foldl_apply (settings : List Setting) (p : Point) : settings.foldl Setting.apply p =
    { p with
      tags := (settings.filterMap Setting.tag?).foldl (fun d e => Dictionary.insert e.1 e.2 d) p.tags
      fields := (settings.filterMap Setting.field?).foldl (fun d e => Dictionary.insert e.1 e.2 d) p.fields } := by
  induction settings generalizing p with
  | nil => rfl
  | cons s settings ih =>
    rw [List.foldl_cons, ih]
    cases s <;> rfl

/-- The point that is built holds the dictionaries of what was set. -/
theorem point_eq (d : Draft) :
    d.point = ⟨d.measurement, .ofList d.tags, .ofList d.fields, d.timestamp⟩ := foldl_apply d.settings _

/-- Two drafts whose last settings are the same build the same point. -/
theorem point_eq_of_last (hm : d.measurement = d'.measurement) (ht : d.timestamp = d'.timestamp)
    (htags : ∀ e, Dictionary.Last d.tags e ↔ Dictionary.Last d'.tags e)
    (hfields : ∀ e, Dictionary.Last d.fields e ↔ Dictionary.Last d'.fields e) : d.point = d'.point := by
  rw [point_eq, point_eq, hm, ht, Dictionary.ofList_eq_of_last htags, Dictionary.ofList_eq_of_last hfields]

/-- If each key is set once, the order of the settings makes no difference. -/
theorem point_eq_of_perm (hm : d.measurement = d'.measurement) (ht : d.timestamp = d'.timestamp)
    (hperm : d.settings.Perm d'.settings) (htags : (d.tags.map (·.1)).Nodup) (hfields : (d.fields.map (·.1)).Nodup) :
    d.point = d'.point := by
  have htags' : d.tags.Perm d'.tags := hperm.filterMap _
  have hfields' : d.fields.Perm d'.fields := hperm.filterMap _
  rw [point_eq, point_eq, hm, ht, Dictionary.ofList_eq_of_perm htags' htags,
    Dictionary.ofList_eq_of_perm hfields' hfields]

/-! ## What is read back -/

/-- The names on a point can be written, its numbers fit 64 bits, and there is a field. -/
structure Writable (p : Point) : Prop where
  measurement : Line.Nameable p.measurement
  tags : ∀ t ∈ p.tags, Line.Nameable t.1 ∧ Line.Nameable t.2
  field : p.fields ≠ []
  fields : ∀ f ∈ p.fields, Line.Nameable f.1 ∧ Line.Fits f.2
  timestamp : -0x8000000000000000 ≤ p.timestamp ∧ p.timestamp < 0x8000000000000000

instance (p : Point) : Decidable (Writable p) :=
  decidable_of_iff (Line.Nameable p.measurement ∧ (∀ t ∈ p.tags, Line.Nameable t.1 ∧ Line.Nameable t.2) ∧
      p.fields ≠ [] ∧ (∀ f ∈ p.fields, Line.Nameable f.1 ∧ Line.Fits f.2) ∧
      -0x8000000000000000 ≤ p.timestamp ∧ p.timestamp < 0x8000000000000000)
    ⟨fun h => ⟨h.1, h.2.1, h.2.2.1, h.2.2.2.1, h.2.2.2.2⟩,
      fun h => ⟨h.measurement, h.tags, h.field, h.fields, h.timestamp⟩⟩

theorem Writable.legible {p : Point} (h : Writable p) : Line.Legible p where
  measurement := h.measurement
  tags := h.tags
  field := h.field
  fields f hf := (h.fields f hf).imp id Line.reads_value
  timestamp := h.timestamp

/-- A line says what was set last under each key, with the keys in increasing order. -/
structure ReadAs (d : Draft) (l : Line) : Prop where
  measurement : l.measurement = d.measurement
  tags : l.tags.Pairwise fun a b => a.1 < b.1
  tag : ∀ t, t ∈ l.tags ↔ Dictionary.Last d.tags t
  fields : l.fields.Pairwise fun a b => a.1 < b.1
  field : ∀ key value, (key, value) ∈ l.fields ↔ ∃ v, Dictionary.Last d.fields (key, v) ∧ value = .ofField v
  timestamp : l.timestamp = d.timestamp

theorem readAs_ofPoint (d : Draft) : d.ReadAs (Line.ofPoint d.point) := by
  rw [point_eq]
  constructor
  · rfl
  · exact Dictionary.increasing_ofList d.tags
  · exact fun t => Dictionary.mem_ofList_iff
  · exact List.pairwise_map.mpr (Dictionary.increasing_ofList d.fields)
  · intro key value
    simp only [Line.ofPoint, List.mem_map, Prod.mk.injEq]
    constructor
    · rintro ⟨⟨k, v⟩, hf, rfl, rfl⟩
      exact ⟨v, Dictionary.mem_ofList_iff.mp hf, rfl⟩
    · rintro ⟨v, hlast, rfl⟩
      exact ⟨(key, v), Dictionary.mem_ofList_iff.mpr hlast, rfl, rfl⟩
  · rfl

end Draft

/-! ## The main result -/

namespace InfluxEndpoint

variable {read : Http.UrlReading} {e : InfluxEndpoint} {points : List Point} {r : Http.Request}

/-- The body of a request is the text of the lines. -/
theorem body_of_request (h : e.request read points = .ok r) : r.body = Point.lines points := by
  obtain ⟨r', hr', hbody⟩ := request_of_request ⟨points, r, h⟩ points
  rw [h] at hr'
  rw [Except.ok.inj hr', hbody]

/-- Points are written with one request, if one can be built, whatever the server says. -/
theorem sent_of_ne_nil (read : Http.UrlReading) (server : Http.Server) (e : InfluxEndpoint) (h : points ≠ []) :
    (writeAt (.once read server) e points).2 = (e.request read points).toOption.toList := by
  cases hrequest : e.request read points with
  | ok r => exact (writeAt_reported h hrequest _).1
  | error failure =>
    have hempty : points.isEmpty = false := List.isEmpty_eq_false_iff.mpr h
    simp only [writeAt, hempty, Http.Client.once, hrequest, Http.exchange]
    rfl

end InfluxEndpoint

/-- **Batches of points are unambiguous.** However the points of a batch are built, if there is one at least, each has
a field and all names on them can be written, then the text that is sent, to any endpoint that requests can be built
for, however URLs are read and whatever the server says, is read back to one line for each point, in order: with its
measurement and its time, and with what was set last under each key of a tag or a field. What was set under a key
before that, or in which order keys were set, makes no difference to a line. -/
theorem batch_read_back (read : Http.UrlReading) (server : Http.Server) (e : InfluxEndpoint) (batch : List Draft)
    (hne : batch ≠ []) (hbatch : ∀ d ∈ batch, Draft.Writable d.point) :
    (∀ r ∈ (e.writeAt (.once read server) (batch.map Draft.point)).2,
      ∃ lines, Line.read r.body = some lines ∧ List.Forall₂ Draft.ReadAs batch lines) ∧
    ((∃ points r, e.request read points = .ok r) →
      ∃ r, (e.writeAt (.once read server) (batch.map Draft.point)).2 = [r]) ∧
    ∀ d d' : Draft, d.measurement = d'.measurement → d.timestamp = d'.timestamp →
      ((∀ t, Dictionary.Last d.tags t ↔ Dictionary.Last d'.tags t) →
        (∀ f, Dictionary.Last d.fields f ↔ Dictionary.Last d'.fields f) → d.point.line = d'.point.line) ∧
      (d.settings.Perm d'.settings → (d.tags.map (·.1)).Nodup → (d.fields.map (·.1)).Nodup →
        d.point.line = d'.point.line) := by
  have hpoints : batch.map Draft.point ≠ [] := fun h => hne (List.map_eq_nil_iff.mp h)
  have hsent := InfluxEndpoint.sent_of_ne_nil read server e hpoints
  refine ⟨?_, ?_, ?_⟩
  · intro r hr
    rw [hsent] at hr
    have hrequest : e.request read (batch.map Draft.point) = .ok r := by
      cases h : e.request read (batch.map Draft.point) with
      | error failure => simp [h, Except.toOption] at hr
      | ok r' => simpa [h, Except.toOption, eq_comm] using hr
    have hlegible : ∀ p ∈ batch.map Draft.point, Line.Legible p := by
      intro p hp
      obtain ⟨d, hd, rfl⟩ := List.mem_map.mp hp
      exact (hbatch d hd).legible
    refine ⟨_, by rw [InfluxEndpoint.body_of_request hrequest, Line.read_lines hpoints hlegible], ?_⟩
    rw [List.forall₂_map_right_iff, List.forall₂_map_right_iff, List.forall₂_same]
    exact fun d _ => d.readAs_ofPoint
  · intro h
    obtain ⟨r, hr, -⟩ := InfluxEndpoint.request_of_request h (batch.map Draft.point)
    exact ⟨r, by rw [hsent, hr]; rfl⟩
  · intro d d' hm ht
    refine ⟨?_, ?_⟩
    · intro htags hfields
      rw [Draft.point_eq_of_last hm ht htags hfields]
    · intro hperm htags hfields
      rw [Draft.point_eq_of_perm hm ht hperm htags hfields]

/-- Two points: one with a tag that is set twice and a text that looks like the end of a line and another line, and
one with a double. -/
def sampleBatch : List Draft :=
  [⟨"m s", 7, [.tag "k=" "old", .field "note" (.text "a\" 8\nm f=\\\",\n"), .tag "back\\slash" "x", .tag "k=" "a,b",
      .field "count" (.integer (-3))]⟩,
    ⟨"m=", -1, [.field "ratio" (.real ⟨0x3FE0000000000000⟩)]⟩]

theorem batch_read_back_sample :
    ∃ r, (sampleInflux.writeAt (.plain fun _ => none) (sampleBatch.map Draft.point)).2 = [r] ∧
      r.body = "m\\ s,back\\slash=x,k\\==a\\,b count=-3i,note=\"a\\\" 8\nm f=\\\\\\\",\n\" 7\nm= ratio=0.5 -1" ∧
      (∃ lines, Line.read r.body = some lines ∧ List.Forall₂ Draft.ReadAs sampleBatch lines) ∧
      (Draft.point ⟨"m", 0, [.tag "a" "1", .field "f" (.bool true)]⟩).line =
        (Draft.point ⟨"m", 0, [.field "f" (.bool true), .tag "a" "1"]⟩).line := by
  have hwritable : ∀ d ∈ sampleBatch, Draft.Writable d.point := by decide +kernel
  have h := batch_read_back Http.Client.readPlain (fun _ => none) sampleInflux sampleBatch (by decide) hwritable
  obtain ⟨r, hr⟩ : ∃ r, (sampleInflux.writeAt (.plain fun _ => none) (sampleBatch.map Draft.point)).2 = [r] :=
    h.2.1 ⟨[], _, by rfl⟩
  have hmem : r ∈ (sampleInflux.writeAt (.plain fun _ => none) (sampleBatch.map Draft.point)).2 := by
    rw [hr]
    exact List.mem_singleton_self r
  have hbody : ∀ r ∈ (sampleInflux.writeAt (.plain fun _ => none) (sampleBatch.map Draft.point)).2,
      r.body = "m\\ s,back\\slash=x,k\\==a\\,b count=-3i,note=\"a\\\" 8\nm f=\\\\\\\",\n\" 7\nm= ratio=0.5 -1" := by
    decide +kernel
  have hline := (h.2.2 ⟨"m", 0, [.tag "a" "1", .field "f" (.bool true)]⟩
    ⟨"m", 0, [.field "f" (.bool true), .tag "a" "1"]⟩ rfl rfl).2 (.swap _ _ _) (by decide) (by decide)
  exact ⟨r, hr, hbody r hmem, h.1 r hmem, hline⟩

end EventCourier
