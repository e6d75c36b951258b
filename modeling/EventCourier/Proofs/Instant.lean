import EventCourier.Proofs.Except
import EventCourier.Proofs.Record.Redirect
import EventCourier.Proofs.Text.Blank

/-!
# The two forms of times agree

Date and time in figures (`Stamp`) are read alike by the reader of RFC 3339 and by the one that knows no zones, but for
what stands behind them (`readRfc3339_chars`, `readLocal_chars`). What the first accepts has that form, with a zone
behind it (`exists_stamp`), so that the second, which wants nothing there, accepts none of it (`not_both`).
-/

namespace EventCourier.Instant

variable {ds rest cs : List Char} {c : Char} {n w low high : Nat}

/-! ## Digits -/

/-- A number in decimal digits, of which there are a given number. -/
structure Digits (width : Nat) where
  chars : List Char
  length : chars.length = width
  digits : ∀ c ∈ chars, c.isDigit = true

/-- The number that the digits write. -/
def Digits.value (d : Digits w) : Nat := digitsValue d.chars

/-- True of what stands behind all digits of a number. -/
def NoDigit (rest : List Char) : Prop := ∀ c ∈ rest.head?, c.isDigit = false

theorem isDigit_range (h : c.isDigit = true) : 48 ≤ c.toNat ∧ c.toNat ≤ 57 := by
  simpa [Char.isDigit, UInt32.le_iff_toNat_le] using h

theorem foldl_digits_lt (h : ∀ c ∈ ds, c.isDigit = true) (n : Nat) :
    ds.foldl (fun n c => n * 10 + (c.toNat - 48)) n < (n + 1) * Nat.pow 10 ds.length := by
  induction ds generalizing n with
  | nil => simp
  | cons c ds ih =>
    obtain ⟨hc, hds⟩ := List.forall_mem_cons.mp h
    have hrange := isDigit_range hc
    have hstep : n * 10 + (c.toNat - 48) + 1 ≤ (n + 1) * 10 := by omega
    calc (c :: ds).foldl (fun n c => n * 10 + (c.toNat - 48)) n
        < (n * 10 + (c.toNat - 48) + 1) * Nat.pow 10 ds.length := ih hds _
      _ ≤ (n + 1) * 10 * Nat.pow 10 ds.length := Nat.mul_le_mul_right _ hstep
      _ = (n + 1) * (Nat.pow 10 ds.length * 10) := by rw [Nat.mul_assoc, Nat.mul_comm 10]

theorem digitsValue_lt (h : ∀ c ∈ ds, c.isDigit = true) : digitsValue ds < Nat.pow 10 ds.length := by
  have hlt := foldl_digits_lt h 0
  rwa [Nat.zero_add, Nat.one_mul] at hlt

/-- Four digits write a number below ten thousand. -/
theorem value_lt (d : Digits 4) : d.value < 10000 := by
  have hvalue : d.value < Nat.pow 10 d.chars.length := digitsValue_lt d.digits
  rwa [d.length] at hvalue

/-- At most eighteen digits are read as their value, if they are as many as may be or no digit follows. -/
theorem number_digits (least most : Nat) (hds : ∀ c ∈ ds, c.isDigit = true) (hleast : least ≤ ds.length)
    (hmost : ds.length ≤ most) (hstop : ds.length = most ∨ NoDigit rest) (hsmall : ds.length ≤ 18) :
    number least most (ds ++ rest) = .ok (digitsValue ds, rest) := by
  have htake : ((ds ++ rest).take most).takeWhile Char.isDigit = ds := by
    rw [List.take_append, List.take_of_length_le hmost, List.takeWhile_append_of_pos hds]
    rcases hstop with rfl | hstop
    · rw [Nat.sub_self, List.take_zero, List.takeWhile_nil, List.append_nil]
    · cases rest with
      | nil => rw [List.take_nil, List.takeWhile_nil, List.append_nil]
      | cons c rest =>
        have hc : c.isDigit = false := hstop c rfl
        cases most - ds.length <;> simp [hc]
  have hvalue : digitsValue ds < 0x8000000000000000 :=
    calc digitsValue ds < Nat.pow 10 ds.length := digitsValue_lt hds
      _ ≤ Nat.pow 10 18 := Nat.pow_le_pow_right (by decide) hsmall
      _ < 0x8000000000000000 := by decide
  have hlength : ¬(ds ++ rest).length < least := by
    rw [List.length_append]
    omega
  unfold number
  simp only [htake]
  rw [if_neg hlength, if_neg (Nat.not_lt.mpr hleast), if_neg (Nat.not_le.mpr hvalue), List.drop_left]

/-- As many digits as may be are read as their value, whatever follows them. -/
theorem number_value (least : Nat) (d : Digits w) (hleast : least ≤ w) (hw : w ≤ 18) (rest : List Char) :
    number least w (d.chars ++ rest) = .ok (d.value, rest) :=
  number_digits least w d.digits (d.length.symm ▸ hleast) (Nat.le_of_eq d.length) (Or.inl d.length)
    (d.length.symm ▸ hw)

/-- A number of a given width is read, whatever follows it. -/
theorem exactly_digits (d : Digits w) (hw : w ≤ 18) (rest : List Char) :
    exactly w low high (d.chars ++ rest) = within low high d.value >>= fun _ => pure (d.value, rest) := by
  unfold exactly
  rw [number_value w d (Nat.le_refl w) hw]
  rfl

/-- A number is read from digits only. -/
theorem exists_of_number {least most : Nat} (h : number least most cs = .ok (n, rest)) :
    ∃ ds, cs = ds ++ rest ∧ (∀ c ∈ ds, c.isDigit = true) ∧ least ≤ ds.length ∧ ds.length ≤ most := by
  unfold number at h
  dsimp only at h
  split at h
  · cases h
  split at h
  · cases h
  split at h
  · cases h
  rename_i hleast _
  cases h
  have hfront : (cs.take most).takeWhile Char.isDigit <+: cs.take most := List.takeWhile_prefix _
  refine ⟨(cs.take most).takeWhile Char.isDigit, ?_, ?_, Nat.le_of_not_lt hleast, ?_⟩
  · exact (List.prefix_iff_eq_append.mp (hfront.trans (List.take_prefix most cs))).symm
  · exact List.all_eq_true.mp List.all_takeWhile
  · have hlength := hfront.length_le
    rw [List.length_take] at hlength
    omega

/-- A number of a given width is read from that many digits. -/
theorem exists_digits (h : exactly w low high cs = .ok (n, rest)) : ∃ d : Digits w, cs = d.chars ++ rest := by
  obtain ⟨⟨m, rest'⟩, hnumber, h⟩ := bind_eq_ok h
  obtain ⟨-, -, h⟩ := bind_eq_ok h
  cases h
  obtain ⟨ds, rfl, hds, hleast, hmost⟩ := exists_of_number hnumber
  exact ⟨⟨ds, Nat.le_antisymm hmost hleast, hds⟩, rfl⟩

/-- No white space is in front of a digit. -/
theorem trimStart_digits (d : Digits (w + 1)) (rest : List Char) :
    trimStart (d.chars ++ rest) = d.chars ++ rest := by
  obtain ⟨c, cs, hcs⟩ := List.exists_cons_of_length_eq_add_one d.length
  refine trimStart_of_head ?_
  rw [hcs]
  intro c' hc'
  obtain rfl := Option.some.inj hc'
  have hrange := isDigit_range (d.digits c (hcs ▸ List.mem_cons_self))
  simp only [isBlank, Bool.or_eq_false_iff, Bool.and_eq_false_iff, decide_eq_false_iff_not, beq_eq_false_iff_ne]
  omega

/-- The numbers of a clock are read alike where they may be short. -/
theorem short_digits (d : Digits 2) (rest : List Char) :
    short low high (d.chars ++ rest) = within low high d.value >>= fun _ => pure (d.value, rest) := by
  unfold short
  rw [trimStart_digits, number_value 1 d (by decide) (by decide)]
  rfl

/-- A year of four digits is read alike where it may be longer. -/
theorem readYear_digits (d : Digits 4) (rest : List Char) :
    readYear (d.chars ++ rest) = .ok ((d.value : Int), rest) := by
  have hvalue := value_lt d
  obtain ⟨c, cs, hcs⟩ := List.exists_cons_of_length_eq_add_one d.length
  have hc := d.digits c (hcs ▸ List.mem_cons_self)
  have hsign : ∀ k : Char, k.isDigit = false → ∀ tail, d.chars ++ rest ≠ k :: tail := by
    intro k hk tail heq
    rw [hcs, List.cons_append] at heq
    rw [(List.cons.inj heq).1, hk] at hc
    cases hc
  unfold readYear
  rw [trimStart_digits]
  split
  · rename_i heq
    exact absurd heq (hsign '-' (by decide) _)
  · rename_i heq
    exact absurd heq (hsign '+' (by decide) _)
  · rw [number_value 1 d (by decide) (by decide)]
    have hrange : -0x80000000 ≤ (d.value : Int) ∧ (d.value : Int) < 0x80000000 := by omega
    rw [ok_bind]
    dsimp only
    rw [pure_bind]
    dsimp only
    rw [if_pos hrange]
    rfl

/-! ## Fractions -/

/-- A fraction of a second, if there is one. -/
def fractionText (ds : List Char) : List Char := if ds = [] then [] else '.' :: ds

/-- The nanoseconds that the first nine digits behind a point write. -/
def fractionNanos (ds : List Char) : Nat := digitsValue (ds.take 9) * Nat.pow 10 (9 - (ds.take 9).length)

/-- True of what may stand behind date and time: neither a digit nor a point. -/
def Follows (rest : List Char) : Prop := ∀ c ∈ rest.head?, c.isDigit = false ∧ c ≠ '.'

theorem dropWhile_digits (hds : ∀ c ∈ ds, c.isDigit = true) (hrest : NoDigit rest) :
    (ds ++ rest).dropWhile Char.isDigit = rest := by
  rw [List.dropWhile_append_of_pos hds]
  cases rest with
  | nil => rfl
  | cons c rest => rw [List.dropWhile_cons_of_neg (Bool.eq_false_iff.mp (hrest c rfl))]

/-- Of a fraction the first nine digits are read, and the others are skipped. -/
theorem fraction_digits (hne : ds ≠ []) (hds : ∀ c ∈ ds, c.isDigit = true) (hrest : NoDigit rest) :
    fraction (ds ++ rest) = .ok (fractionNanos ds, rest) := by
  have hfirst : ∀ c ∈ ds.take 9, c.isDigit = true := fun c hc => hds c (List.mem_of_mem_take hc)
  have hlater : ∀ c ∈ ds.drop 9, c.isDigit = true := fun c hc => hds c (List.mem_of_mem_drop hc)
  have hpos : 0 < ds.length := List.length_pos_iff.mpr hne
  have hlength : (ds.take 9).length = min 9 ds.length := List.length_take
  have hstop : (ds.take 9).length = 9 ∨ NoDigit (ds.drop 9 ++ rest) := by
    by_cases hlong : 9 ≤ ds.length
    · exact Or.inl (by omega)
    · rw [List.drop_of_length_le (by omega)]
      exact Or.inr hrest
  have hnumber := number_digits 1 9 hfirst (by omega) (by omega) hstop (by omega)
  rw [← List.append_assoc, List.take_append_drop] at hnumber
  have htaken : (ds ++ rest).length - (ds.drop 9 ++ rest).length = (ds.take 9).length := by
    simp only [List.length_append, List.length_drop]
    omega
  unfold fraction
  rw [hnumber]
  simp only [bind, Except.bind, pure, Except.pure, htaken, dropWhile_digits hlater hrest]
  rfl

theorem optionalFraction_text (hds : ∀ c ∈ ds, c.isDigit = true) (hrest : Follows rest) :
    optionalFraction (fractionText ds ++ rest) = .ok (fractionNanos ds, rest) := by
  by_cases hne : ds = []
  · subst hne
    show optionalFraction rest = .ok (0, rest)
    unfold optionalFraction
    split
    · exact absurd rfl (hrest '.' rfl).2
    · rfl
  · rw [fractionText, if_neg hne]
    exact fraction_digits hne hds fun c hc => (hrest c hc).1

/-- What is read as a fraction is nothing, or a point and digits. -/
theorem exists_fraction (h : optionalFraction cs = .ok (n, rest)) :
    ∃ ds, (∀ c ∈ ds, c.isDigit = true) ∧ cs = fractionText ds ++ rest := by
  unfold optionalFraction at h
  split at h
  · obtain ⟨⟨m, rest'⟩, hnumber, h⟩ := bind_eq_ok h
    cases h
    obtain ⟨ds, rfl, hds, hleast, -⟩ := exists_of_number hnumber
    have hne : ds ++ rest'.takeWhile Char.isDigit ≠ [] := by
      intro hnil
      rw [(List.append_eq_nil_iff.mp hnil).1] at hleast
      exact absurd hleast (by decide)
    refine ⟨ds ++ rest'.takeWhile Char.isDigit, ?_, ?_⟩
    · intro c hc
      rcases List.mem_append.mp hc with hc | hc
      · exact hds c hc
      · exact List.all_eq_true.mp List.all_takeWhile c hc
    · rw [fractionText, if_neg hne, List.cons_append, List.append_assoc, List.takeWhile_append_dropWhile]
  · cases h
    exact ⟨[], nofun, rfl⟩

/-! ## Zones -/

/-- An offset from universal time: a sign, hours and minutes. -/
structure Offset where
  sign : Char
  hours : Digits 2
  minutes : Digits 2
  signed : sign = '+' ∨ sign = '-' ∨ sign = '\u2212'
  hours_le : hours.value ≤ 23
  minutes_le : minutes.value ≤ 59

namespace Offset

/-- The text of an offset. -/
def chars (o : Offset) : List Char := o.sign :: (o.hours.chars ++ ':' :: o.minutes.chars)

/-- The seconds by which a clock with the offset is ahead of universal time. -/
def seconds (o : Offset) : Int :=
  if o.sign = '+' then ((o.hours.value * 60 + o.minutes.value) * 60 : Nat)
  else -((o.hours.value * 60 + o.minutes.value) * 60 : Nat)

end Offset

theorem within_of (h : low ≤ n ∧ n ≤ high) : within low high n = .ok () := if_pos h

theorem zone_offset (o : Offset) : zone o.chars = .ok (o.seconds, []) := by
  have hdigits : offsetDigits (o.hours.chars ++ ':' :: o.minutes.chars) =
      .ok (((o.hours.value * 60 + o.minutes.value) * 60 : Nat), []) := by
    have hminutes : exactly 2 0 59 o.minutes.chars =
        within 0 59 o.minutes.value >>= fun _ => pure (o.minutes.value, []) := by
      simpa using exactly_digits o.minutes (by decide) []
    unfold offsetDigits
    rw [exactly_digits o.hours (by decide), within_of ⟨Nat.zero_le _, o.hours_le⟩]
    simp only [bind, Except.bind, pure, Except.pure, literal, if_true]
    rw [hminutes, within_of ⟨Nat.zero_le _, o.minutes_le⟩]
    rfl
  unfold Offset.chars Offset.seconds
  rcases o.signed with h | h | h <;> rw [h]
  · exact hdigits
  · show (offsetDigits (o.hours.chars ++ ':' :: o.minutes.chars) >>= _) = _
    rw [hdigits]
    rfl
  · show (offsetDigits (o.hours.chars ++ ':' :: o.minutes.chars) >>= _) = _
    rw [hdigits]
    rfl

/-- A zone begins with something that may stand behind date and time. -/
theorem follows_of_zone {o : Int} (h : zone cs = .ok (o, rest)) : cs ≠ [] ∧ Follows cs := by
  have hfollows : ∀ c tail, c.isDigit = false → c ≠ '.' → c :: tail ≠ [] ∧ Follows (c :: tail) := by
    intro c tail hdigit hpoint
    refine ⟨List.cons_ne_nil c tail, ?_⟩
    intro c' hc'
    obtain rfl := Option.some.inj hc'
    exact ⟨hdigit, hpoint⟩
  unfold zone at h
  split at h
  · exact hfollows _ _ (by decide) (by decide)
  · exact hfollows _ _ (by decide) (by decide)
  · exact hfollows _ _ (by decide) (by decide)
  · exact hfollows _ _ (by decide) (by decide)
  · exact hfollows _ _ (by decide) (by decide)
  · cases h

/-! ## Date and time -/

/-- Date and time in figures, with any number of digits behind the point of the second. -/
structure Stamp where
  year : Digits 4
  month : Digits 2
  day : Digits 2
  hour : Digits 2
  minute : Digits 2
  second : Digits 2
  fraction : List Char
  digits : ∀ c ∈ fraction, c.isDigit = true

namespace Stamp

variable (s : Stamp) (mark : Char) (tail : List Char)

/-- Date and time with a mark between them and something behind them. -/
def chars : List Char :=
  s.year.chars ++ '-' :: (s.month.chars ++ '-' :: (s.day.chars ++ mark :: (s.hour.chars ++
    ':' :: (s.minute.chars ++ ':' :: (s.second.chars ++ (fractionText s.fraction ++ tail))))))

/-- The text of date and time. -/
def text : String := String.ofList (s.chars 'T' [])

/-- What a clock with that date and time shows. -/
def clock : ClockTime :=
  ⟨⟨s.year.value, s.month.value, s.day.value⟩, s.hour.value, s.minute.value, s.second.value,
    fractionNanos s.fraction⟩

/-- The numbers are within their bounds. -/
def checked : Except Fault Unit := do
  within 1 12 s.month.value
  within 1 31 s.day.value
  within 0 23 s.hour.value
  within 0 59 s.minute.value
  within 0 60 s.second.value

/-- When nothing is left, the calendar must have the date, and the instant is the one at an offset. -/
def finish (offset : Int) (tail : List Char) : Except Fault Instant :=
  if tail.isEmpty then do
    let t ← validated s.clock
    return t.toInstant offset
  else .error .trailingInput

/-- The numbers are within their bounds, and the calendar has the date. -/
structure Valid : Prop where
  month : 1 ≤ s.month.value ∧ s.month.value ≤ 12
  day : 1 ≤ s.day.value ∧ s.day.value ≤ 31
  hour : s.hour.value ≤ 23
  minute : s.minute.value ≤ 59
  second : s.second.value ≤ 60
  date : s.clock.date.exists = true

end Stamp

theorem literal_self (c : Char) (cs : List Char) : literal c (c :: cs) = .ok cs := if_pos rfl

theorem within_year (d : Digits 4) : within 0 9999 d.value = .ok () :=
  within_of ⟨Nat.zero_le _, Nat.le_of_lt_succ (value_lt d)⟩

/-- The reader of RFC 3339 checks the numbers, wants a zone and nothing behind it, and then looks at the calendar. -/
theorem readRfc3339_chars (s : Stamp) {tail : List Char} (h : Follows tail) :
    readRfc3339 (s.chars 'T' tail) = s.checked >>= fun _ => zone tail >>= fun z => s.finish z.1 z.2 := by
  have hmark : ∀ cs, dateTimeMark ('T' :: cs) = .ok cs := fun _ => rfl
  unfold readRfc3339 Stamp.chars Stamp.checked
  simp only [exactly_digits _ (show 4 ≤ 18 by decide), exactly_digits _ (show 2 ≤ 18 by decide), within_year,
    literal_self, hmark, optionalFraction_text s.digits h, ok_bind, pure_bind, bind_assoc]
  rfl

/-- The reader that knows no zones checks the numbers, wants nothing behind them, and then looks at the calendar. -/
theorem readLocal_chars (s : Stamp) {tail : List Char} (h : Follows tail) :
    readLocal (s.chars 'T' tail) = s.checked >>= fun _ => s.finish 0 tail := by
  unfold readLocal Stamp.chars Stamp.checked
  simp only [readYear_digits, short_digits, literal_self, optionalFraction_text s.digits h, ok_bind, pure_bind,
    bind_assoc]
  rfl

theorem within_eq_ok : within low high n = .ok () ↔ low ≤ n ∧ n ≤ high := by
  unfold within
  split <;> simp [*]

/-- Just the stamps whose numbers are within their bounds and whose date the calendar has are valid. -/
theorem valid_iff {s : Stamp} : s.Valid ↔ s.checked = .ok () ∧ s.clock.date.exists = true := by
  constructor
  · intro h
    refine ⟨?_, h.date⟩
    unfold Stamp.checked
    rw [within_of h.month, within_of h.day, within_of ⟨Nat.zero_le _, h.hour⟩, within_of ⟨Nat.zero_le _, h.minute⟩,
      within_of ⟨Nat.zero_le _, h.second⟩]
    rfl
  · rintro ⟨hchecked, hdate⟩
    obtain ⟨_, hmonth, hchecked⟩ := bind_eq_ok hchecked
    obtain ⟨_, hday, hchecked⟩ := bind_eq_ok hchecked
    obtain ⟨_, hhour, hchecked⟩ := bind_eq_ok hchecked
    obtain ⟨_, hminute, hsecond⟩ := bind_eq_ok hchecked
    exact ⟨within_eq_ok.mp hmonth, within_eq_ok.mp hday, (within_eq_ok.mp hhour).2, (within_eq_ok.mp hminute).2,
      (within_eq_ok.mp hsecond).2, hdate⟩

/-- With nothing left, just the valid stamps are accepted. -/
theorem finish_nil {s : Stamp} (hchecked : s.checked = .ok ()) (offset : Int) (t : Instant) :
    s.finish offset [] = .ok t ↔ s.Valid ∧ t = s.clock.toInstant offset := by
  rw [valid_iff, and_iff_right hchecked]
  show (validated s.clock >>= fun t => pure (t.toInstant offset)) = .ok t ↔ _
  unfold validated
  split
  · rename_i hdate
    simp only [hdate, true_and, ok_bind]
    exact ⟨fun h => (Except.ok.inj h).symm, fun h => congrArg Except.ok h.symm⟩
  · rename_i hdate
    exact iff_of_false nofun fun h => hdate h.1

/-! ## The three forms -/

/-- What may stand behind date and time, and the offset that it means: nothing, or a zone. -/
def Means (tail : List Char) (offset : Int) : Prop := tail = [] ∧ offset = 0 ∨ zone tail = .ok (offset, [])

theorem Means.follows {tail : List Char} {offset : Int} (h : Means tail offset) : Follows tail := by
  rcases h with ⟨rfl, -⟩ | h
  · exact nofun
  · exact (follows_of_zone h).2

/-- In each form just the valid stamps are read, as the instant at their offset. -/
theorem read_eq_ok {s : Stamp} {tail : List Char} {offset : Int} (h : Means tail offset) (t : Instant) :
    read (String.ofList (s.chars 'T' tail)) = .ok t ↔ s.Valid ∧ t = s.clock.toInstant offset := by
  have hrfc := readRfc3339_chars s h.follows
  have hlocal := readLocal_chars s h.follows
  unfold read
  rw [String.toList_ofList, hrfc, hlocal]
  cases hchecked : s.checked with
  | error f =>
    refine iff_of_false nofun ?_
    rintro ⟨hvalid, -⟩
    rw [(valid_iff.mp hvalid).1] at hchecked
    cases hchecked
  | ok _ =>
    rcases h with ⟨rfl, rfl⟩ | hzone
    · exact finish_nil hchecked 0 t
    · have hfinish : (.ok () >>= fun _ => zone tail >>= fun z => s.finish z.1 z.2) = s.finish offset [] := by
        rw [ok_bind, hzone, ok_bind]
      have hleft : s.finish 0 tail = .error .trailingInput :=
        if_neg fun hempty => (follows_of_zone hzone).1 (List.isEmpty_iff.mp hempty)
      rw [hfinish, ← finish_nil hchecked, ok_bind, hleft]
      cases s.finish offset [] with
      | ok t' => rfl
      | error f => exact iff_of_false nofun nofun

/-- The same stamp with other digits behind the point of its second. -/
def Stamp.withFraction (s : Stamp) (ds : List Char) (hds : ∀ c ∈ ds, c.isDigit = true) : Stamp :=
  { s with fraction := ds, digits := hds }

/-- Only the first nine digits of a fraction matter. -/
theorem read_withFraction (s : Stamp) {ds : List Char} (hds : ∀ c ∈ ds, c.isDigit = true)
    (h : ds.take 9 = s.fraction.take 9) {tail : List Char} (htail : Follows tail) :
    read (String.ofList ((s.withFraction ds hds).chars 'T' tail)) = read (String.ofList (s.chars 'T' tail)) := by
  have hclock : (s.withFraction ds hds).clock = s.clock := by
    simp only [Stamp.clock, Stamp.withFraction, fractionNanos, h]
  have hfinish : ∀ offset rest, (s.withFraction ds hds).finish offset rest = s.finish offset rest := by
    intro offset rest
    unfold Stamp.finish
    rw [hclock]
  have hchecked : (s.withFraction ds hds).checked = s.checked := rfl
  simp only [read, String.toList_ofList, readRfc3339_chars _ htail, readLocal_chars _ htail, hfinish, hchecked]

/-! ## No text has both forms -/

theorem eq_cons_of_literal (h : literal c cs = .ok rest) : cs = c :: rest := by
  unfold literal at h
  split at h
  · cases h
  · split at h
    · rename_i heq
      cases h
      rw [heq]
    · cases h

theorem exists_mark (h : dateTimeMark cs = .ok rest) : ∃ mark, cs = mark :: rest := by
  unfold dateTimeMark at h
  split at h <;> cases h <;> exact ⟨_, rfl⟩

/-- What is read as RFC 3339 is date and time in figures with a zone behind them. -/
theorem exists_stamp {t : Instant} (h : readRfc3339 cs = .ok t) :
    ∃ (s : Stamp) (mark : Char) (tail : List Char), cs = s.chars mark tail ∧ tail ≠ [] ∧ Follows tail := by
  obtain ⟨⟨_, _⟩, hyear, h⟩ := bind_eq_ok h
  obtain ⟨_, hdash₁, h⟩ := bind_eq_ok h
  obtain ⟨⟨_, _⟩, hmonth, h⟩ := bind_eq_ok h
  obtain ⟨_, hdash₂, h⟩ := bind_eq_ok h
  obtain ⟨⟨_, _⟩, hday, h⟩ := bind_eq_ok h
  obtain ⟨_, hmark, h⟩ := bind_eq_ok h
  obtain ⟨⟨_, _⟩, hhour, h⟩ := bind_eq_ok h
  obtain ⟨_, hcolon₁, h⟩ := bind_eq_ok h
  obtain ⟨⟨_, _⟩, hminute, h⟩ := bind_eq_ok h
  obtain ⟨_, hcolon₂, h⟩ := bind_eq_ok h
  obtain ⟨⟨_, _⟩, hsecond, h⟩ := bind_eq_ok h
  obtain ⟨⟨_, rest⟩, hfraction, h⟩ := bind_eq_ok h
  obtain ⟨⟨_, _⟩, hzone, -⟩ := bind_eq_ok h
  -- each part of the text is what its reader takes off the front
  obtain ⟨year, rfl⟩ := exists_digits hyear
  obtain rfl := eq_cons_of_literal hdash₁
  obtain ⟨month, rfl⟩ := exists_digits hmonth
  obtain rfl := eq_cons_of_literal hdash₂
  obtain ⟨day, rfl⟩ := exists_digits hday
  obtain ⟨mark, rfl⟩ := exists_mark hmark
  obtain ⟨hour, rfl⟩ := exists_digits hhour
  obtain rfl := eq_cons_of_literal hcolon₁
  obtain ⟨minute, rfl⟩ := exists_digits hminute
  obtain rfl := eq_cons_of_literal hcolon₂
  obtain ⟨second, rfl⟩ := exists_digits hsecond
  obtain ⟨fraction, hdigits, rfl⟩ := exists_fraction hfraction
  exact ⟨⟨year, month, day, hour, minute, second, fraction, hdigits⟩, mark, rest, rfl, follows_of_zone hzone⟩

/-- **No text is read in both forms.** -/
theorem not_both {t : Instant} (h : readRfc3339 cs = .ok t) (t' : Instant) : readLocal cs ≠ .ok t' := by
  obtain ⟨s, mark, tail, rfl, hne, hfollows⟩ := exists_stamp h
  intro hlocal
  by_cases hmark : mark = 'T'
  · rw [hmark, readLocal_chars s hfollows] at hlocal
    obtain ⟨_, -, hfinish⟩ := bind_eq_ok hlocal
    rw [Stamp.finish, if_neg fun hempty => hne (List.isEmpty_iff.mp hempty)] at hfinish
    cases hfinish
  · -- only a `T` stands between date and time without a zone
    have hliteral : ∀ cs, literal 'T' (mark :: cs) = .error .invalidCharacters := fun _ => if_neg hmark
    unfold readLocal Stamp.chars at hlocal
    simp only [readYear_digits, short_digits, literal_self, hliteral, ok_bind, pure_bind, bind_assoc] at hlocal
    obtain ⟨_, -, hlocal⟩ := bind_eq_ok hlocal
    obtain ⟨_, -, hlocal⟩ := bind_eq_ok hlocal
    cases hlocal

/-! ## The main result -/

/-- The text of an offset. -/
def Offset.text (o : Offset) : String := String.ofList o.chars

theorem Stamp.text_append (s : Stamp) (tail : List Char) :
    s.text ++ String.ofList tail = String.ofList (s.chars 'T' tail) := by
  rw [Stamp.text, ← String.ofList_append]
  simp [Stamp.chars]

theorem toInstant_offset (t : ClockTime) (offset : Int) :
    t.toInstant offset = ⟨(t.toInstant 0).seconds - offset, (t.toInstant 0).nanos⟩ := by
  simp [ClockTime.toInstant]

end EventCourier.Instant

namespace EventCourier

/-- A text that is not read fails with a fault that names it, and events with such a time fail to be mapped. -/
theorem Redirect.readTime_of_not_read {text : String} (h : ∀ t, Instant.read text ≠ .ok t) :
    (∃ fault, Redirect.readTime text = .error (.invalidTime text fault)) ∧
      ∀ e : Event, e.payload.get? "timestamp" = some (.string text) →
        ∃ reason, Redirect.pointOfEvent e = .error (.mapping reason) := by
  constructor
  · cases hread : Instant.read text with
    | ok t => exact absurd hread (h t)
    | error fault => exact ⟨fault, by rw [Redirect.readTime, hread]⟩
  · intro e he
    unfold Redirect.pointOfEvent
    cases hpayload : Redirect.ofPayload e.payload with
    | ok r =>
      obtain ⟨text', htext', hread⟩ := (Redirect.describes_of_ofPayload hpayload).timestamp
      rw [he] at htext'
      cases htext'
      exact absurd hread (h _)
    | error fault => exact ⟨_, rfl⟩

open Instant

/-- **The forms of times agree.** Date and time in figures, with any number of digits behind the point of the second,
are read without a zone, with `Z` and with an offset behind them, if their numbers are within bounds and the calendar
has the date: the first two as the same instant, the third as that instant less the offset, with the same part of a
second, which runs on in a leap second. Otherwise none of the three is read, and an event with such a time fails with
a mapping error. Of the digits behind the point only the first nine matter. And no text at all is
read both as RFC 3339 and without a zone. -/
theorem time_forms_agree (s : Stamp) (o : Offset) :
    (s.Valid → Redirect.readTime s.text = .ok (s.clock.toInstant 0) ∧
      Redirect.readTime (s.text ++ "Z") = .ok (s.clock.toInstant 0) ∧
      Redirect.readTime (s.text ++ o.text) =
        .ok ⟨(s.clock.toInstant 0).seconds - o.seconds, (s.clock.toInstant 0).nanos⟩) ∧
    (¬s.Valid → ∀ text ∈ [s.text, s.text ++ "Z", s.text ++ o.text],
      (∃ fault, Redirect.readTime text = .error (.invalidTime text fault)) ∧
        ∀ e : Event, e.payload.get? "timestamp" = some (.string text) →
          ∃ reason, Redirect.pointOfEvent e = .error (.mapping reason)) ∧
    (∀ (ds : List Char) (hds : ∀ c ∈ ds, c.isDigit = true), ds.take 9 = s.fraction.take 9 →
      ∀ tail ∈ ["", "Z", o.text], Instant.read ((s.withFraction ds hds).text ++ tail) = Instant.read (s.text ++ tail)) ∧
    ∀ (text : String) (t t' : Instant), ¬(readRfc3339 text.toList = .ok t ∧ readLocal text.toList = .ok t') := by
  have hnone : Means [] 0 := Or.inl ⟨rfl, rfl⟩
  have hzulu : Means ['Z'] 0 := Or.inr rfl
  have hoffset : Means o.chars o.seconds := Or.inr (zone_offset o)
  have htext : s.text = String.ofList (s.chars 'T' []) := rfl
  have hZ : s.text ++ "Z" = String.ofList (s.chars 'T' ['Z']) := s.text_append ['Z']
  have hO : s.text ++ o.text = String.ofList (s.chars 'T' o.chars) := s.text_append o.chars
  refine ⟨?_, ?_, ?_, ?_⟩
  · intro hvalid
    simp only [Redirect.readTime_eq_ok]
    refine ⟨?_, ?_, ?_⟩
    · rw [htext, read_eq_ok hnone]
      exact ⟨hvalid, rfl⟩
    · rw [hZ, read_eq_ok hzulu]
      exact ⟨hvalid, rfl⟩
    · rw [hO, read_eq_ok hoffset]
      exact ⟨hvalid, (toInstant_offset s.clock o.seconds).symm⟩
  · intro hvalid text hmem
    refine Redirect.readTime_of_not_read fun t ht => hvalid ?_
    simp only [List.mem_cons, List.not_mem_nil, or_false] at hmem
    rcases hmem with rfl | rfl | rfl
    · exact ((read_eq_ok hnone t).mp (htext ▸ ht)).1
    · exact ((read_eq_ok hzulu t).mp (hZ ▸ ht)).1
    · exact ((read_eq_ok hoffset t).mp (hO ▸ ht)).1
  · intro ds hds htake tail hmem
    have hsame : ∀ {cs : List Char}, Follows cs →
        Instant.read ((s.withFraction ds hds).text ++ String.ofList cs) =
          Instant.read (s.text ++ String.ofList cs) := by
      intro cs hcs
      rw [Stamp.text_append, Stamp.text_append, read_withFraction s hds htake hcs]
    simp only [List.mem_cons, List.not_mem_nil, or_false] at hmem
    rcases hmem with rfl | rfl | rfl
    · exact hsame hnone.follows
    · exact hsame hzulu.follows
    · exact hsame hoffset.follows
  · rintro text t t' ⟨hrfc, hlocal⟩
    exact not_both hrfc t' hlocal

/-- A leap second at the end of a year, and ten digits behind its point. -/
def leapSecond : Stamp :=
  ⟨⟨['2', '0', '1', '6'], rfl, by simp⟩, ⟨['1', '2'], rfl, by simp⟩, ⟨['3', '1'], rfl, by simp⟩,
    ⟨['2', '3'], rfl, by simp⟩, ⟨['5', '9'], rfl, by simp⟩, ⟨['6', '0'], rfl, by simp⟩, "1234567891".toList,
    by simp⟩

/-- The same stamp in a February that has no such day. -/
def noSuchDay : Stamp := { leapSecond with month := ⟨['0', '2'], rfl, by simp⟩ }

/-- Behind universal time by an hour and a half. -/
def behind : Offset :=
  ⟨'-', ⟨['0', '1'], rfl, by simp⟩, ⟨['3', '0'], rfl, by simp⟩, Or.inr (Or.inl rfl), by decide, by decide⟩

theorem time_forms_agree_leapSecond :
    (leapSecond.text = "2016-12-31T23:59:60.1234567891" ∧ behind.text = "-01:30" ∧
      Redirect.readTime leapSecond.text = .ok ⟨1483228799, 1123456789⟩ ∧
      Redirect.readTime (leapSecond.text ++ "Z") = .ok ⟨1483228799, 1123456789⟩ ∧
      Redirect.readTime (leapSecond.text ++ behind.text) = .ok ⟨1483234199, 1123456789⟩) ∧
    ((∃ fault, Redirect.readTime (noSuchDay.text ++ "Z") = .error (.invalidTime (noSuchDay.text ++ "Z") fault)) ∧
      ∃ reason, Redirect.pointOfEvent ⟨"link", "redirected", "link.redirected", ⟨0, 0⟩,
        .object [("timestamp", .string (noSuchDay.text ++ "Z"))]⟩ = .error (.mapping reason)) ∧
    Instant.read ((leapSecond.withFraction "1234567890".toList (by simp)).text ++ "") =
      Instant.read (leapSecond.text ++ "") := by
  have h := time_forms_agree leapSecond behind
  have hvalid : leapSecond.Valid :=
    ⟨by decide +kernel, by decide +kernel, by decide +kernel, by decide +kernel, by decide +kernel, by decide +kernel⟩
  have hclock : leapSecond.clock.toInstant 0 = ⟨1483228799, 1123456789⟩ := by decide +kernel
  have hseconds : behind.seconds = -5400 := by decide +kernel
  have hread := h.1 hvalid
  rw [hclock, hseconds] at hread
  have hinvalid : ¬noSuchDay.Valid := fun hvalid => absurd hvalid.date (by decide +kernel)
  obtain ⟨hfault, hevent⟩ := (time_forms_agree noSuchDay behind).2.1 hinvalid (noSuchDay.text ++ "Z") (by simp)
  exact ⟨⟨by decide +kernel, by decide +kernel, hread⟩, ⟨hfault, hevent _ rfl⟩,
    h.2.2.1 _ (by simp) (by simp [leapSecond]) "" (by simp)⟩

end EventCourier
