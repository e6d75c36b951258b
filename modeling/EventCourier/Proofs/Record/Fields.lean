import EventCourier.Proofs.Dictionary
import EventCourier.Proofs.Record.Redirect

/-!
# The fields of a redirect

What each of the five fields may hold is `Fits`, and what is wrong with it otherwise is `Offends`: each check of
`Redirect.ofPayload` succeeds on the one and fails with the other (`Checks`). So the checks in their order fail at
the first field that offends (`Checks.bind`, `checksAll_ofPayload`). This field decides the error, and neither the
fields behind it nor the other members of the payload make a difference (`accepted_or_first_fault`).
-/

namespace EventCourier.Redirect

/-! ## What a field may hold -/

/-- What a field is used for. -/
inductive Kind where
  | tag
  | latency
  | time
deriving DecidableEq, Repr

/-- The fields, in the order in which they are looked at. -/
def fields : List (String × Kind) :=
  [("id", .tag), ("original", .tag), ("shortened", .tag), ("latency", .latency), ("timestamp", .time)]

/-- The nanoseconds from 1970 to an instant fit 64 bits. -/
def InRange (t : Instant) : Prop :=
  -0x8000000000000000 ≤ t.seconds * 1000000000 + t.nanos ∧ t.seconds * 1000000000 + t.nanos < 0x8000000000000000

/-- What stands under a field is as it should be. -/
inductive Fits : Kind → Option Payload → Prop
  | tag {s : String} : TagText s → Fits .tag (some (.string s))
  | latency {n : Int} {lower upper} : n < 0x8000000000000000 →
      Fits .latency (some (.number (.integer n lower upper)))
  | time {s : String} {t : Instant} : readTime s = .ok t → InRange t → Fits .time (some (.string s))

/-- What is wrong with what stands under a field. -/
inductive Offends (field : String) : Kind → Option Payload → Fault → Prop
  | missing {kind : Kind} {v : Option Payload} : v = none ∨ v = some .null → Offends field kind v (.missing field)
  | notString {kind : Kind} {v : Payload} : kind ≠ .latency → v ≠ .null → (∀ s, v ≠ .string s) →
      Offends field kind (some v) (.notString field v.typeName)
  | empty : Offends field .tag (some (.string "")) (.empty field)
  | lineBreak {s : String} : '\n' ∈ s.toList ∨ '\r' ∈ s.toList →
      Offends field .tag (some (.string s)) (.lineBreak field)
  | trailingBackslash {s : String} : '\n' ∉ s.toList → '\r' ∉ s.toList → s.toList.getLast? = some '\\' →
      Offends field .tag (some (.string s)) (.trailingBackslash field)
  | notInteger {v : Payload} : v ≠ .null →
      (∀ n lower upper, n < 0x8000000000000000 → v ≠ .number (.integer n lower upper)) →
      Offends field .latency (some v) (.notInteger field v.typeName)
  | invalidTime {s : String} {fault : Instant.Fault} : Instant.read s = .error fault →
      Offends field .time (some (.string s)) (.invalidTime s fault)
  | timeOutOfRange {s : String} {t : Instant} : readTime s = .ok t → ¬InRange t →
      Offends field .time (some (.string s)) (.timeOutOfRange t)

/-! ## One field -/

section

variable {p : Payload} {field s : String} {fault : Fault}

/-- A check succeeds just if the field fits, and fails with what is wrong with it. -/
structure Checks {α : Type} (p : Payload) (field : String) (kind : Kind) (x : Except Fault α) : Prop where
  ok : (∃ a, x = .ok a) ↔ Fits kind (p.get? field)
  error : ∀ fault, x = .error fault ↔ Offends field kind (p.get? field) fault

theorem required_eq_error : required p field = .error fault ↔
    (p.get? field = none ∨ p.get? field = some .null) ∧ fault = .missing field := by
  unfold required
  cases p.get? field with
  | none => simp [eq_comm]
  | some value => cases value <;> simp [Payload.isNull, eq_comm]

/-- There is no text under a field that is missing or holds something else. -/
theorem requiredString_eq_error (kind : Kind) (hkind : kind ≠ .latency) : requiredString p field = .error fault ↔
    Offends field kind (p.get? field) fault ∧ ∀ s, p.get? field ≠ some (.string s) := by
  unfold requiredString
  simp only [bind_eq_error, required_eq_error, required_eq_ok]
  constructor
  · rintro (⟨hv, rfl⟩ | ⟨v, ⟨hv, hnull⟩, h⟩)
    · refine ⟨.missing hv, ?_⟩
      rcases hv with hv | hv <;> rw [hv] <;> nofun
    · rw [hv]
      cases v with
      | string s => cases h
      | _ =>
        cases h
        exact ⟨.notString hkind hnull nofun, nofun⟩
  · rintro ⟨h, htext⟩
    generalize hv : p.get? field = v at h htext
    cases h with
    | missing hmissing => exact Or.inl ⟨hmissing, rfl⟩
    | @notString _ v _ hnull hne =>
      refine Or.inr ⟨v, ⟨rfl, hnull⟩, ?_⟩
      cases v with
      | string s => exact absurd rfl (hne s)
      | _ => rfl
    | notInteger => exact absurd rfl hkind
    | _ => exact absurd rfl (htext _)

/-- What is read from a text fails with what is wrong with the field, if it does so for every text. -/
theorem requiredString_bind_eq_error {α : Type} {f : String → Except Fault α} (kind : Kind) (hkind : kind ≠ .latency)
    (hf : ∀ s, f s = .error fault ↔ Offends field kind (some (.string s)) fault) :
    requiredString p field >>= f = .error fault ↔ Offends field kind (p.get? field) fault := by
  rw [bind_eq_error, requiredString_eq_error kind hkind]
  -- Both sides are split alike: there is no text under the field, or there is one and `f` finds fault with it.
  constructor
  · rintro (⟨h, -⟩ | ⟨s, hs, h⟩)
    · exact h
    · rw [requiredString_eq_ok.mp hs]
      exact (hf s).mp h
  · intro h
    by_cases htext : ∀ s, p.get? field ≠ some (.string s)
    · exact Or.inl ⟨h, htext⟩
    · obtain ⟨s, hs⟩ := not_forall_not.mp htext
      rw [hs] at h
      exact Or.inr ⟨s, requiredString_eq_ok.mpr hs, (hf s).mpr h⟩

theorem any_lineBreak :
    (s.toList.any fun c => c = '\n' || c = '\r') = true ↔ '\n' ∈ s.toList ∨ '\r' ∈ s.toList := by
  simp [List.any_eq_true, and_or_left, exists_or]

theorem checks_requiredTag (p : Payload) (field : String) : Checks p field .tag (requiredTag p field) where
  ok := by
    simp only [requiredTag_eq_ok]
    constructor
    · rintro ⟨s, hs⟩
      rw [hs.member]
      exact .tag hs.toTagText
    · intro h
      generalize hv : p.get? field = v at h
      cases h with
      | tag hs => exact ⟨_, hs, hv⟩
  error fault := by
    refine requiredString_bind_eq_error .tag (by decide) fun s => ?_
    constructor
    · intro h
      split at h
      · rename_i hempty
        obtain rfl := String.isEmpty_iff.mp hempty
        cases h
        exact .empty
      · split at h
        · rename_i hbreak
          cases h
          exact .lineBreak (any_lineBreak.mp hbreak)
        · rename_i hbreak
          split at h
          · rename_i hlast
            cases h
            obtain ⟨hn, hr⟩ := not_or.mp (mt any_lineBreak.mpr hbreak)
            exact .trailingBackslash hn hr hlast
          · cases h
    · intro h
      cases h with
      | missing hmissing => rcases hmissing with h | h <;> cases h
      | notString _ _ hne => exact absurd rfl (hne s)
      | empty => rfl
      | lineBreak hbreak =>
        rw [if_neg, if_pos (any_lineBreak.mpr hbreak)]
        intro hempty
        obtain rfl := String.isEmpty_iff.mp hempty
        exact hbreak.elim nofun nofun
      | trailingBackslash hn hr hlast =>
        rw [if_neg, if_neg (mt any_lineBreak.mp (not_or.mpr ⟨hn, hr⟩)), if_pos hlast]
        intro hempty
        rw [String.isEmpty_iff.mp hempty] at hlast
        cases hlast

/-- The integers of a document with 64 bits and a sign are those below 2^63. -/
theorem toInt64?_eq_some {k : Number} {n : Int} : k.toInt64? = some n ↔
    ∃ lower upper, k = .integer n lower upper ∧ n < 0x8000000000000000 := by
  cases k with
  | integer m lower upper =>
    simp only [Number.toInt64?, Option.ite_none_right_eq_some, Option.some.injEq, Number.integer.injEq]
    constructor
    · rintro ⟨hm, rfl⟩
      exact ⟨lower, upper, rfl, hm⟩
    · rintro ⟨-, -, rfl, hm⟩
      exact ⟨hm, rfl⟩
  | real x => simp [Number.toInt64?]

theorem checks_requiredInteger (p : Payload) (field : String) :
    Checks p field .latency (requiredInteger p field) where
  ok := by
    simp only [requiredInteger_eq_ok, toInt64?_eq_some]
    constructor
    · rintro ⟨n, k, hget, lower, upper, rfl, hn⟩
      rw [hget]
      exact .latency hn
    · intro h
      generalize hv : p.get? field = v at h
      cases h with
      | latency hn => exact ⟨_, _, rfl, _, _, rfl, hn⟩
  error fault := by
    unfold requiredInteger
    simp only [bind_eq_error, required_eq_error, required_eq_ok]
    constructor
    · rintro (⟨hv, rfl⟩ | ⟨v, ⟨hv, hnull⟩, h⟩)
      · exact .missing hv
      · rw [hv]
        split at h
        · cases h
        · rename_i hint
          cases h
          refine .notInteger hnull ?_
          rintro n lower upper hn rfl
          have hsome := toInt64?_eq_some.mpr ⟨lower, upper, rfl, hn⟩
          rw [Payload.asInt64?, hsome] at hint
          cases hint
    · intro h
      generalize hv : p.get? field = v at h
      cases h with
      | missing hmissing => exact Or.inl ⟨hmissing, rfl⟩
      | notString hkind => exact absurd rfl hkind
      | @notInteger v hnull hne =>
        refine Or.inr ⟨v, ⟨rfl, hnull⟩, ?_⟩
        split
        · rename_i n hn
          cases v with
          | number k =>
            obtain ⟨lower, upper, rfl, hlt⟩ := toInt64?_eq_some.mp hn
            exact absurd rfl (hne n lower upper hlt)
          | _ => cases hn
        · rfl

theorem readTime_eq_error : readTime s = .error fault ↔
    ∃ cause, Instant.read s = .error cause ∧ fault = .invalidTime s cause := by
  unfold readTime
  cases Instant.read s <;> simp [eq_comm]

/-- The last check: a time that is in range, from which the rest is made. -/
theorem checks_time {α : Type} (p : Payload) (field : String) (make : Instant → α) :
    Checks p field .time (do
      let t ← readTime (← requiredString p field)
      if t.unixNanos?.isNone then .error (.timeOutOfRange t) else return make t) where
  ok := by
    simp only [bind_eq_ok_iff, requiredString_eq_ok]
    constructor
    · rintro ⟨a, s, hs, t, ht, h⟩
      rw [hs]
      split at h
      · cases h
      · rename_i hrange
        exact .time ht (not_not.mp (mt unixNanos?_isNone.mpr hrange))
    · intro h
      generalize hv : p.get? field = v at h
      cases h with
      | @time s t ht hrange =>
        refine ⟨make t, s, rfl, t, ht, ?_⟩
        rw [if_neg (mt unixNanos?_isNone.mp (not_not.mpr hrange))]
        rfl
  error fault := by
    refine requiredString_bind_eq_error .time (by decide) fun s => ?_
    rw [bind_eq_error]
    constructor
    · rintro (h | ⟨t, ht, h⟩)
      · obtain ⟨cause, hcause, rfl⟩ := readTime_eq_error.mp h
        exact .invalidTime hcause
      · split at h
        · rename_i hrange
          cases h
          exact .timeOutOfRange ht (unixNanos?_isNone.mp hrange)
        · cases h
    · intro h
      cases h with
      | missing hmissing => rcases hmissing with h | h <;> cases h
      | notString _ _ hne => exact absurd rfl (hne s)
      | invalidTime hcause => exact Or.inl (readTime_eq_error.mpr ⟨_, hcause, rfl⟩)
      | @timeOutOfRange _ t ht hrange =>
        refine Or.inr ⟨t, ht, ?_⟩
        rw [if_pos (unixNanos?_isNone.mpr hrange)]

end

/-! ## One field after the other -/

section

variable {α β : Type} {p q : Payload} {field : String} {kind : Kind} {rest : List (String × Kind)} {fault : Fault}

/-- A fault is what is wrong with the first field of a list that does not fit. -/
def FirstOffends (p : Payload) (fault : Fault) : List (String × Kind) → Prop
  | [] => False
  | (field, kind) :: rest =>
    Offends field kind (p.get? field) fault ∨ Fits kind (p.get? field) ∧ FirstOffends p fault rest

/-- A computation succeeds just if all fields of a list fit, and fails at the first that offends. -/
structure ChecksAll (p : Payload) (fs : List (String × Kind)) (x : Except Fault α) : Prop where
  ok : (∃ a, x = .ok a) ↔ ∀ f ∈ fs, Fits f.2 (p.get? f.1)
  error : ∀ fault, x = .error fault ↔ FirstOffends p fault fs

theorem Checks.single {x : Except Fault α} (hx : Checks p field kind x) : ChecksAll p [(field, kind)] x where
  ok := by simpa using hx.ok
  error fault := by simpa [FirstOffends] using hx.error fault

/-- The fields in front of the first that offends fit. -/
theorem firstOffends_iff {fs : List (String × Kind)} : FirstOffends p fault fs ↔
    ∃ before field kind behind, fs = before ++ (field, kind) :: behind ∧ (∀ f ∈ before, Fits f.2 (p.get? f.1)) ∧
      Offends field kind (p.get? field) fault := by
  induction fs with
  | nil => simp [FirstOffends]
  | cons f fs ih =>
    have hfirst := exists_first_cons (P := fun f => Fits f.2 (p.get? f.1))
      (Q := fun f => Offends f.1 f.2 (p.get? f.1) fault) (i := f) (l := fs)
    simp only [Prod.exists] at hfirst
    rw [FirstOffends, ih, hfirst]

theorem checksAll_iff {fs : List (String × Kind)} {x : Except Fault α} : ChecksAll p fs x ↔
    InTurn (fun f => Fits f.2 (p.get? f.1)) (fun f => Offends f.1 f.2 (p.get? f.1)) fs x := by
  have herror : ∀ fault, FirstOffends p fault fs ↔ ∃ before f behind, fs = before ++ f :: behind ∧
      (∀ f ∈ before, Fits f.2 (p.get? f.1)) ∧ Offends f.1 f.2 (p.get? f.1) fault := by
    simpa only [Prod.exists] using fun fault => firstOffends_iff
  constructor
  · intro h
    exact ⟨h.ok, fun fault => (h.error fault).trans (herror fault)⟩
  · intro h
    exact ⟨h.ok, fun fault => (h.error fault).trans (herror fault).symm⟩

/-- A check goes in front of those that follow. -/
theorem Checks.bind {x : Except Fault α} {f : α → Except Fault β} (hx : Checks p field kind x)
    (hf : ∀ a, ChecksAll p rest (f a)) : ChecksAll p ((field, kind) :: rest) (x >>= f) :=
  checksAll_iff.mpr (InTurn.cons hx.ok hx.error fun a => checksAll_iff.mp (hf a))

/-- All fields are looked at in their order. -/
theorem checksAll_ofPayload (p : Payload) : ChecksAll p fields (ofPayload p) := by
  -- The checks of `ofPayload` and the entries of `fields` are taken off one by one, in the same order.
  refine (checks_requiredTag p "id").bind fun id => ?_
  refine (checks_requiredTag p "original").bind fun target => ?_
  refine (checks_requiredTag p "shortened").bind fun short => ?_
  refine (checks_requiredInteger p "latency").bind fun latency => ?_
  exact (checks_time p "timestamp" fun t => (⟨id, target, short, latency, t⟩ : Redirect)).single

/-- Nothing but the five fields has a part in the result. -/
theorem ofPayload_congr (h : ∀ f ∈ fields, q.get? f.1 = p.get? f.1) : ofPayload q = ofPayload p := by
  simp only [fields, List.forall_mem_cons] at h
  obtain ⟨hid, htarget, hshort, hlatency, htime, -⟩ := h
  simp only [ofPayload, requiredTag, requiredInteger, requiredString, required, hid, htarget, hshort, hlatency, htime]

/-- **Five fields decide whether a payload is a redirect.** A payload is accepted just if it is an object with three
texts that are fit for tags, a signed integer of 64 bits, and a time that can be read and is in range; these are
what the redirect holds. All others are refused with what is wrong with the first field that offends, which is the
reason of the mapping error. Members besides the five make no difference, and neither do fields behind the first
one that offends. -/
theorem accepted_or_first_fault (p : Payload) :
    (∀ r, ofPayload p = .ok r ↔
      (∃ members, p = .object members) ∧ IsTag p "id" r.id ∧ IsTag p "original" r.target ∧
        IsTag p "shortened" r.short ∧
        (∃ lower upper, p.get? "latency" = some (.number (.integer r.latency lower upper)) ∧
          r.latency < 0x8000000000000000) ∧
        ∃ text, p.get? "timestamp" = some (.string text) ∧ readTime text = .ok r.timestamp ∧ InRange r.timestamp) ∧
    ((∃ r, ofPayload p = .ok r) ↔ ∀ f ∈ fields, Fits f.2 (p.get? f.1)) ∧
    (∀ fault, ofPayload p = .error fault ↔
      ∃ before field kind behind, fields = before ++ (field, kind) :: behind ∧
        (∀ f ∈ before, Fits f.2 (p.get? f.1)) ∧ Offends field kind (p.get? field) fault) ∧
    (∀ e fault, e.payload = p → ofPayload p = .error fault → pointOfEvent e = .error (.mapping fault.message)) ∧
    (∀ q, (∀ f ∈ fields, q.get? f.1 = p.get? f.1) → ofPayload q = ofPayload p) ∧
    (∀ members key value, p = .object members → (∀ f ∈ fields, f.1 ≠ key) →
      ofPayload (.object (Dictionary.insert key value members)) = ofPayload p ∧
        ofPayload (.object (members.filter fun e => e.1 ≠ key)) = ofPayload p) ∧
    (∀ before field kind behind fault, fields = before ++ (field, kind) :: behind →
      (∀ f ∈ before, Fits f.2 (p.get? f.1)) → Offends field kind (p.get? field) fault →
      ∀ q, (∀ f ∈ before ++ [(field, kind)], q.get? f.1 = p.get? f.1) → ofPayload q = .error fault) := by
  have herror : ∀ p fault, ofPayload p = .error fault ↔ ∃ before field kind behind,
      fields = before ++ (field, kind) :: behind ∧ (∀ f ∈ before, Fits f.2 (p.get? f.1)) ∧
        Offends field kind (p.get? field) fault := fun p fault =>
    ((checksAll_ofPayload p).error fault).trans firstOffends_iff
  refine ⟨fun r => ?_, (checksAll_ofPayload p).ok, herror p, ?_, fun q => ofPayload_congr, ?_, ?_⟩
  · rw [ofPayload_eq_ok]
    constructor
    · intro h
      obtain ⟨k, hget, hk⟩ := h.latency
      obtain ⟨lower, upper, rfl, hlt⟩ := toInt64?_eq_some.mp hk
      obtain ⟨text, htext, hread⟩ := h.timestamp
      refine ⟨?_, h.id, h.target, h.short, ⟨lower, upper, hget, hlt⟩, text, htext, readTime_eq_ok.mpr hread, h.inRange⟩
      cases p with
      | object members => exact ⟨members, rfl⟩
      | _ => cases hget
    · rintro ⟨-, hid, htarget, hshort, ⟨lower, upper, hget, hlt⟩, text, htext, hread, hrange⟩
      exact ⟨hid, htarget, hshort, ⟨_, hget, toInt64?_eq_some.mpr ⟨lower, upper, rfl, hlt⟩⟩,
        ⟨text, htext, readTime_eq_ok.mp hread⟩, hrange⟩
  · rintro e fault rfl h
    rw [pointOfEvent, h]
  · rintro members key value rfl hkey
    constructor
    · exact ofPayload_congr fun f hf => (Dictionary.get?_insert ..).trans (if_neg (hkey f hf).symm)
    · exact ofPayload_congr fun f hf => Dictionary.get?_filter_ne members (hkey f hf)
  · intro before field kind behind fault hfields hbefore h q hq
    refine (herror q fault).mpr ⟨before, field, kind, behind, hfields, fun f hf => ?_, ?_⟩
    · rw [hq f (List.mem_append_left _ hf)]
      exact hbefore f hf
    · rw [hq (field, kind) (by simp)]
      exact h

/-- A payload with the latency as a text, and without a time. -/
def mistyped : Payload := .object
  [("id", .string "abc"), ("latency", .string "12"), ("original", .string "https://example.com"),
    ("shortened", .string "https://sho.rt/abc")]

/-- The members of a payload that describes a redirect, and one more. -/
def describing : Dictionary Payload :=
  [("id", .string "abc"), ("latency", .number (.integer 12 (by decide) (by decide))),
    ("original", .string "https://example.com"), ("shortened", .string "https://sho.rt/abc"),
    ("timestamp", .string "1970-01-01T00:00:01Z"), ("user", .null)]

/-- Of the first payload the latency is to blame, whatever the time is; the second is accepted, also without the member
that is not looked at. -/
theorem accepted_or_first_fault_mistyped :
    (∀ e : Event, e.payload = mistyped →
      pointOfEvent e = .error (.mapping "field 'latency' must be an integer, got string")) ∧
    (∀ q, (∀ f ∈ fields.take 4, q.get? f.1 = mistyped.get? f.1) →
      ofPayload q = .error (.notInteger "latency" "string")) ∧
    ofPayload (.object describing) = .ok ⟨"abc", "https://example.com", "https://sho.rt/abc", 12, ⟨1, 0⟩⟩ ∧
    ofPayload (.object (describing.filter fun e => e.1 ≠ "user")) =
      .ok ⟨"abc", "https://example.com", "https://sho.rt/abc", 12, ⟨1, 0⟩⟩ := by
  obtain ⟨-, -, herror, hpoint, -, -, hbehind⟩ := accepted_or_first_fault mistyped
  obtain ⟨hok, -, -, -, -, hothers, -⟩ := accepted_or_first_fault (.object describing)
  have htext : ∀ s, s ∈ ["abc", "https://example.com", "https://sho.rt/abc"] → TagText s := by
    intro s hs
    refine ⟨?_, ?_, ?_⟩ <;> revert s <;> decide +kernel
  have htag : ∀ s, s ∈ ["abc", "https://example.com", "https://sho.rt/abc"] → Fits .tag (some (.string s)) :=
    fun s hs => .tag (htext s hs)
  have hbefore : ∀ f ∈ fields.take 3, Fits f.2 (mistyped.get? f.1) := by
    simp only [fields, List.take_succ_cons, List.take_zero, List.forall_mem_cons]
    exact ⟨htag _ (by simp), htag _ (by simp), htag _ (by simp), nofun⟩
  have hget : mistyped.get? "latency" = some (.string "12") := rfl
  have hoffends : Offends "latency" .latency (mistyped.get? "latency") (.notInteger "latency" "string") := by
    rw [hget]
    refine .notInteger ?_ ?_ <;> simp
  have haccepted : ofPayload (.object describing) =
      .ok ⟨"abc", "https://example.com", "https://sho.rt/abc", 12, ⟨1, 0⟩⟩ :=
    (hok _).mpr ⟨⟨_, rfl⟩, ⟨htext _ (by simp), rfl⟩, ⟨htext _ (by simp), rfl⟩, ⟨htext _ (by simp), rfl⟩,
      ⟨_, _, rfl, by decide⟩, _, rfl, by decide +kernel, by simp [InRange]⟩
  refine ⟨fun e he => ?_, hbehind (fields.take 3) _ _ _ _ rfl hbefore hoffends, haccepted,
    ((hothers describing "user" .null rfl (by decide)).2).trans haccepted⟩
  exact hpoint e _ he ((herror _).mpr ⟨fields.take 3, _, _, _, rfl, hbefore, hoffends⟩)

end

end EventCourier.Redirect
