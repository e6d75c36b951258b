import EventCourier.Proofs.Instant
import EventCourier.Proofs.Instant.Calendar
import EventCourier.Proofs.Record.Document

/-!
# Times that are printed are read back

A number padded with zeros is its digits (`digitsValue_padded`), and the digits behind the point write the nanoseconds
(`exists_fractionChars`). What a clock shows at an instant stands for that instant (`toInstant_toClockTime`), so the
text of an instant is a stamp that is read as it (`exists_stamp_of_instant`, `printed_times_read_back`).
-/

namespace EventCourier.Instant

variable {w n : Nat}

/-! ## Digits -/

theorem digitsValue_eq (ds : List Char) : digitsValue ds = Nat.ofDigitChars 10 ds 0 := by
  unfold digitsValue Nat.ofDigitChars
  congr 1
  funext n c
  rw [Nat.mul_comm]
  rfl

theorem length_padded (hw : 0 < w) (h : n < Nat.pow 10 w) : (padded w n).length = w := by
  have hle := (Nat.length_toDigits_le_iff (by decide) hw).mpr h
  simp only [padded, List.length_append, List.length_replicate]
  omega

theorem isDigit_of_mem_padded {c : Char} (h : c ∈ padded w n) : c.isDigit = true := by
  rcases List.mem_append.mp h with h | h
  · rw [List.eq_of_mem_replicate h]
    rfl
  · exact Nat.isDigit_of_mem_toDigits (by decide) (by decide) h

theorem digitsValue_padded (w n : Nat) : digitsValue (padded w n) = n := by
  rw [digitsValue_eq, padded, Nat.ofDigitChars_append, Nat.ofDigitChars_replicate_zero, Nat.mul_zero,
    Nat.ofDigitChars_ten_toDigits]

/-- A number as digits of a given width. -/
def Digits.ofNat (hw : 0 < w) (n : Nat) (h : n < Nat.pow 10 w) : Digits w :=
  ⟨padded w n, length_padded hw h, fun _ => isDigit_of_mem_padded⟩

theorem Digits.value_ofNat (hw : 0 < w) (h : n < Nat.pow 10 w) : (Digits.ofNat hw n h).value = n :=
  digitsValue_padded w n

/-- Up to nine digits behind a point write their number in units of the last digit. -/
theorem fraction_padded (hw : 0 < w) (hw' : w ≤ 9) (h : n < Nat.pow 10 w) :
    fractionText (padded w n) = '.' :: padded w n ∧ fractionNanos (padded w n) = n * Nat.pow 10 (9 - w) := by
  have hlength : (padded w n).length = w := length_padded hw h
  constructor
  · refine if_neg fun hnil => ?_
    rw [hnil] at hlength
    exact absurd hlength (Nat.ne_of_lt hw)
  · rw [fractionNanos, List.take_of_length_le (hlength.symm ▸ hw'), digitsValue_padded, hlength]

/-- A fraction of a second is printed with no, three, six or nine digits, which write it. -/
theorem exists_fractionChars (h : n < nanosPerSecond) : ∃ ds, (∀ c ∈ ds, c.isDigit = true) ∧
    ds.length ∈ [0, 3, 6, 9] ∧ fractionText ds = fractionChars n ∧ fractionNanos ds = n := by
  have hpadded : ∀ w scale : Nat, 0 < w → w ≤ 9 → w ∈ [0, 3, 6, 9] → scale < Nat.pow 10 w →
      scale * Nat.pow 10 (9 - w) = n → fractionChars n = '.' :: padded w scale →
      ∃ ds, (∀ c ∈ ds, c.isDigit = true) ∧ ds.length ∈ [0, 3, 6, 9] ∧ fractionText ds = fractionChars n ∧
        fractionNanos ds = n := by
    intro w scale hw hw' hmem hscale hn hchars
    obtain ⟨htext, hvalue⟩ := fraction_padded hw hw' hscale
    refine ⟨padded w scale, fun _ => isDigit_of_mem_padded, ?_, htext.trans hchars.symm, hvalue.trans hn⟩
    rwa [length_padded hw hscale]
  unfold nanosPerSecond at h
  by_cases h0 : n = 0
  · subst h0
    exact ⟨[], nofun, by simp, rfl, rfl⟩
  by_cases h3 : n % 1000000 = 0
  · exact hpadded 3 (n / 1000000) (by decide) (by decide) (by simp) (by simp; omega) (by simp; omega)
      (by simp [fractionChars, h0, h3])
  by_cases h6 : n % 1000 = 0
  · exact hpadded 6 (n / 1000) (by decide) (by decide) (by simp) (by simp; omega) (by simp; omega)
      (by simp [fractionChars, h0, h3, h6])
  · exact hpadded 9 n (by decide) (by decide) (by simp) (by simpa using h) (by simp)
      (by simp [fractionChars, h0, h3, h6])

/-! ## What clocks show -/

/-- Clocks show the instant: past its second there is less than a second, or less than two if the second is the last
of a minute, behind which a leap second is put. -/
def OnClock (t : Instant) : Prop :=
  t.nanos < nanosPerSecond ∨ t.seconds % 60 = 59 ∧ t.nanos < 2 * nanosPerSecond

/-- The instant lies in the years from 0 to 9999: their first and last seconds, counted from 1970. -/
def FourDigitYear (t : Instant) : Prop := -62167219200 ≤ t.seconds ∧ t.seconds < 253402300800

instance (t : Instant) : Decidable t.OnClock := inferInstanceAs (Decidable (_ ∨ _))

instance (t : Instant) : Decidable t.FourDigitYear := inferInstanceAs (Decidable (_ ∧ _))

variable {t : Instant}

theorem toClockTime_bounds (h : t.OnClock) : t.toClockTime.hour ≤ 23 ∧ t.toClockTime.minute ≤ 59 ∧
    t.toClockTime.second ≤ 60 ∧ t.toClockTime.nanos < nanosPerSecond := by
  unfold OnClock nanosPerSecond at h
  simp only [toClockTime, nanosPerSecond]
  by_cases hleap : 1000000000 ≤ t.nanos <;> simp only [hleap, if_true, if_false] <;> omega

/-- The instant of what a clock shows at an instant is that instant. -/
theorem toInstant_toClockTime (h : t.OnClock) : t.toClockTime.toInstant 0 = t := by
  obtain ⟨seconds, nanos⟩ := t
  have hday : seconds = seconds / 86400 * 86400 + seconds % 86400 := by omega
  unfold OnClock nanosPerSecond at h
  dsimp only at h
  simp only [ClockTime.toInstant, toClockTime, Calendar.dayNumber_ofDayNumber, nanosPerSecond, Instant.mk.injEq]
  by_cases hleap : 1000000000 ≤ nanos
  · have hsecond : (seconds % 86400).toNat % 60 + 1 = 60 := by omega
    simp only [hleap, hsecond, if_true]
    omega
  · have hsecond : (seconds % 86400).toNat % 60 ≠ 60 := by omega
    simp only [hleap, hsecond, if_false, and_true]
    omega

/-- Just then its year is one of them. -/
theorem fourDigitYear_iff :
    t.FourDigitYear ↔ 0 ≤ t.toClockTime.date.year ∧ t.toClockTime.date.year ≤ 9999 := by
  have hlast : Calendar.daysBeforeYear 10000 = 3652425 := by decide
  show _ ↔ 0 ≤ Calendar.yearOfDay (t.seconds / 86400 + Calendar.epochDay) ∧
    Calendar.yearOfDay (t.seconds / 86400 + Calendar.epochDay) ≤ 9999
  rw [Calendar.yearOfDay_range, hlast, FourDigitYear, Calendar.epochDay]
  omega

/-! ## What is printed -/

/-- What a clock shows is printed as a stamp, with as few of no, three, six or nine digits behind the point as
hold its nanoseconds. -/
theorem exists_stamp_of_clock {c : ClockTime} (hyear : 0 ≤ c.date.year ∧ c.date.year ≤ 9999)
    (hdate : c.date.exists = true) (hhour : c.hour ≤ 23) (hminute : c.minute ≤ 59) (hsecond : c.second ≤ 60)
    (hnanos : c.nanos < nanosPerSecond) :
    ∃ s : Stamp, s.Valid ∧ s.clock = c ∧ s.fraction.length ∈ [0, 3, 6, 9] ∧
      ∀ tail, s.chars 'T' tail = clockChars c ++ tail := by
  obtain ⟨⟨year, month, day⟩, hour, minute, second, nanos⟩ := c
  obtain ⟨hmonth, hday⟩ := Calendar.Date.bounds hdate
  obtain ⟨fraction, hdigits, hlength, htext, hvalue⟩ := exists_fractionChars hnanos
  dsimp only at *
  obtain ⟨year, rfl⟩ := Int.eq_ofNat_of_zero_le hyear.1
  let s : Stamp := ⟨.ofNat (by decide) year (by simp; omega), .ofNat (by decide) month (by simp; omega),
    .ofNat (by decide) day (by simp; omega), .ofNat (by decide) hour (by simp; omega),
    .ofNat (by decide) minute (by simp; omega), .ofNat (by decide) second (by simp; omega), fraction, hdigits⟩
  have hclock : s.clock = ⟨⟨year, month, day⟩, hour, minute, second, nanos⟩ := by
    simp only [s, Stamp.clock, Digits.value_ofNat, hvalue]
  refine ⟨s, ⟨?_, ?_, ?_, ?_, ?_, ?_⟩, hclock, hlength, fun tail => ?_⟩
  · simpa only [s, Digits.value_ofNat] using hmonth
  · simpa only [s, Digits.value_ofNat] using hday
  · simpa only [s, Digits.value_ofNat] using hhour
  · simpa only [s, Digits.value_ofNat] using hminute
  · simpa only [s, Digits.value_ofNat] using hsecond
  · rw [hclock]
    exact hdate
  · simp [s, Stamp.chars, clockChars, Digits.ofNat, yearChars, hyear.2, htext]

/-- What is printed for an instant is a stamp and a zone, and the stamp is that of the instant. -/
theorem exists_stamp_of_instant (hclock : t.OnClock) (hyear : t.FourDigitYear) :
    ∃ s : Stamp, s.Valid ∧ s.clock.toInstant 0 = t ∧ s.fraction.length ∈ [0, 3, 6, 9] ∧
      t.rfc3339 = s.text ++ "+00:00" ∧ t.rfc3339Zulu = s.text ++ "Z" := by
  have hyear := fourDigitYear_iff.mp hyear
  obtain ⟨hhour, hminute, hsecond, hnanos⟩ := toClockTime_bounds hclock
  have hdate : t.toClockTime.date.exists = true := by
    refine Calendar.exists_ofDayNumber ?_
    have hyear : 0 ≤ Calendar.yearOfDay _ ∧ Calendar.yearOfDay _ ≤ 9999 := hyear
    omega
  obtain ⟨s, hvalid, hstamp, hlength, hchars⟩ := exists_stamp_of_clock hyear hdate hhour hminute hsecond hnanos
  refine ⟨s, hvalid, ?_, hlength, ?_, ?_⟩
  · rw [hstamp, toInstant_toClockTime hclock]
  · rw [rfc3339, ← hchars, ← s.text_append]
    rfl
  · rw [rfc3339Zulu, ← hchars, ← s.text_append]

/-! ## Times in documents -/

/-- Date and time in figures hold digits and four marks. -/
theorem Stamp.mem_chars {s : Stamp} {c : Char} {tail : List Char} (h : c ∈ s.chars 'T' tail) :
    c.isDigit = true ∨ c ∈ ['-', 'T', ':', '.'] ∨ c ∈ tail := by
  have hfraction : c ∈ fractionText s.fraction → c.isDigit = true ∨ c = '.' := by
    unfold fractionText
    split
    · exact nofun
    · intro hc
      exact (List.mem_cons.mp hc).elim Or.inr fun hc => Or.inl (s.digits c hc)
  have hyear := s.year.digits c
  have hmonth := s.month.digits c
  have hday := s.day.digits c
  have hhour := s.hour.digits c
  have hminute := s.minute.digits c
  have hsecond := s.second.digits c
  simp only [Stamp.chars, List.mem_append, List.mem_cons] at h
  simp only [List.mem_cons, List.not_mem_nil, or_false]
  grind

theorem escapeChar_digit {c : Char} (h : c.isDigit = true) : Json.escapeChar c = [c] := by
  have hrange := isDigit_range h
  have hne : ∀ k : Char, k.isDigit = false → c ≠ k := by
    rintro k hk rfl
    rw [h] at hk
    cases hk
  unfold Json.escapeChar
  rw [if_neg (hne _ rfl), if_neg (hne _ rfl), if_neg (hne _ rfl), if_neg (hne _ rfl), if_neg (hne _ rfl),
    if_neg (hne _ rfl), if_neg (hne _ rfl), if_neg (by omega)]

/-- A time stands in a document as it is. -/
theorem Stamp.quote_zulu (s : Stamp) : Json.quote (s.text ++ "Z") = '"' :: ((s.text ++ "Z").toList ++ ['"']) := by
  have hplain : ∀ c ∈ (s.text ++ "Z").toList, Json.escapeChar c = [c] := by
    intro c hc
    rw [show "Z" = String.ofList ['Z'] from rfl, s.text_append, String.toList_ofList] at hc
    rcases Stamp.mem_chars hc with hdigit | hmark | hzone
    · exact escapeChar_digit hdigit
    · simp only [List.mem_cons, List.not_mem_nil, or_false] at hmark
      rcases hmark with rfl | rfl | rfl | rfl <;> rfl
    · rw [List.mem_singleton.mp hzone]
      rfl
  rw [Json.quote, List.flatMap_congr hplain, List.flatMap_singleton']
  rfl

end EventCourier.Instant

namespace EventCourier

/-- The text of the document of an event, around the text of its time. -/
theorem Document.chars_receivedAt {e : Event} {text : String} (h : Json.quote e.receivedAt.rfc3339Zulu =
    '"' :: (text.toList ++ ['"'])) :
    (Document.ofEvent e).chars = "\x7b\"entity\":".toList ++ Json.quote e.entity ++ ",\"type\":".toList ++
      Json.quote e.eventType ++ ",\"received_at\":\"".toList ++ text.toList ++ "\",\"data\":".toList ++
      e.payload.chars ++ ['\x7d'] := by
  have hkeys : Json.quote "entity" = "\"entity\"".toList ∧ Json.quote "type" = "\"type\"".toList ∧
      Json.quote "received_at" = "\"received_at\"".toList ∧ Json.quote "data" = "\"data\"".toList := by
    decide +kernel
  simp [Document.chars, Document.ofEvent, h, hkeys]

/-- **Times survive printing.** An instant of the years from 0 to 9999, leap seconds included, is printed as date and
time in figures with no, three, six or nine digits behind the point, and the offset `+00:00` or the zone `Z`. Both
texts are read as just that instant. The second one stands as it is in the document of every event that was received
at the instant; so it is the member of the document once that is decoded. -/
theorem printed_times_read_back (t : Instant) (hclock : t.OnClock) (hyear : t.FourDigitYear) :
    (∃ s : Instant.Stamp, s.fraction.length ∈ [0, 3, 6, 9] ∧ t.rfc3339 = s.text ++ "+00:00" ∧
      t.rfc3339Zulu = s.text ++ "Z") ∧
    Redirect.readTime t.rfc3339 = .ok t ∧ Redirect.readTime t.rfc3339Zulu = .ok t ∧
    ∀ e : Event, e.receivedAt = t → ∃ text : String, Redirect.readTime text = .ok t ∧
      (Document.ofEvent e).chars = "\x7b\"entity\":".toList ++ Json.quote e.entity ++ ",\"type\":".toList ++
        Json.quote e.eventType ++ ",\"received_at\":\"".toList ++ text.toList ++ "\",\"data\":".toList ++
        e.payload.chars ++ ['\x7d'] ∧
      ∀ body, Payload.decode body = .ok e.payload → e.payload.hasReal = false → e.payload.depth ≤ 126 →
        ∃ q, Payload.decode (Utf8.encode (Document.ofEvent e).render) = .ok q ∧
          q.get? "received_at" = some (.string text) := by
  obtain ⟨s, hvalid, hstamp, hlength, hoffset, hzulu⟩ := Instant.exists_stamp_of_instant hclock hyear
  have hread : ∀ tail, Instant.Means tail 0 → Redirect.readTime (s.text ++ String.ofList tail) = .ok t := by
    intro tail htail
    rw [Redirect.readTime_eq_ok, s.text_append, Instant.read_eq_ok htail]
    exact ⟨hvalid, hstamp.symm⟩
  have hreadOffset : Redirect.readTime t.rfc3339 = .ok t := hoffset ▸ hread "+00:00".toList (Or.inr rfl)
  have hreadZulu : Redirect.readTime t.rfc3339Zulu = .ok t := hzulu ▸ hread ['Z'] (Or.inr rfl)
  refine ⟨⟨s, hlength, hoffset, hzulu⟩, hreadOffset, hreadZulu, ?_⟩
  rintro e rfl
  refine ⟨e.receivedAt.rfc3339Zulu, hreadZulu, Document.chars_receivedAt ?_, ?_⟩
  · rw [hzulu]
    exact s.quote_zulu
  · intro body hbody hreal hdepth
    exact ⟨_, Document.decode_render_document (d := .ofEvent e) (Payload.decode_spec hbody).1 hreal hdepth, rfl⟩

/-- An event without data that was received in a leap second. -/
def leapSecondEvent : Event := ⟨"link", "created", "link.created", ⟨1483228799, 1120000000⟩, .null⟩

/-- A leap second with a fraction, and the first second of year 0, before 1970. -/
theorem printed_times_read_back_leapSecond :
    (Instant.rfc3339 ⟨1483228799, 1120000000⟩ = "2016-12-31T23:59:60.120+00:00" ∧
      Redirect.readTime "2016-12-31T23:59:60.120+00:00" = .ok ⟨1483228799, 1120000000⟩) ∧
    (Instant.rfc3339Zulu ⟨-62167219200, 0⟩ = "0000-01-01T00:00:00Z" ∧
      Redirect.readTime "0000-01-01T00:00:00Z" = .ok ⟨-62167219200, 0⟩) ∧
    ∃ q, Payload.decode (Utf8.encode (Document.ofEvent leapSecondEvent).render) = .ok q ∧
      ∃ text, q.get? "received_at" = some (.string text) ∧ Redirect.readTime text = .ok ⟨1483228799, 1120000000⟩ := by
  have hleap := printed_times_read_back ⟨1483228799, 1120000000⟩ (by decide) (by decide)
  have hfirst := printed_times_read_back ⟨-62167219200, 0⟩ (by decide) (by decide)
  have hoffset : Instant.rfc3339 ⟨1483228799, 1120000000⟩ = "2016-12-31T23:59:60.120+00:00" := by decide +kernel
  have hzulu : Instant.rfc3339Zulu ⟨-62167219200, 0⟩ = "0000-01-01T00:00:00Z" := by decide +kernel
  obtain ⟨text, htext, -, hmember⟩ := hleap.2.2.2 leapSecondEvent rfl
  have hread : Json.Reader.read "null".toList = .ok .null := Json.Reader.read_of_same (by decide +kernel)
  have hnull : Payload.decode (Utf8.encode "null") = .ok .null := by
    simpa [Payload.ofJson] using Payload.decode_encode hread
  obtain ⟨q, hq, hget⟩ := hmember _ hnull rfl (by decide)
  exact ⟨⟨hoffset, hoffset ▸ hleap.2.1⟩, ⟨hzulu, hzulu ▸ hfirst.2.2.1⟩, q, hq, text, hget, htext⟩

end EventCourier
