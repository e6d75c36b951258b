import EventCourier.Record.Line

/-!
# Points read back from their lines

A name is read back as it was written if it holds no line break and does not end in a backslash: a backslash
inside is then never in front of a separator that stands for itself (`scan_escape`). Values are read back as they
are shown, a text whatever it holds and a double as its text (`reads_value`). From names and values the line of a
point is put together (`line_lineChars`), and from such lines a text of several (`read_lines`); `read_line` is the
case of a single line.
-/

namespace EventCourier
namespace Line

variable {α β : Type} {ends : Char → Bool} {rest : List Char}

/-! ## Names -/

/-- True of what stands behind a name: its first character ends the name, or breaks the line. -/
def Stops (ends : Char → Bool) (rest : List Char) : Prop := ∀ c ∈ rest.head?, ends c = true ∨ c = '\n'

theorem stops_cons {c : Char} (h : ends c = true) : Stops ends (c :: rest) :=
  fun _ hd => Option.mem_some.mp hd ▸ Or.inl h

theorem scan_plain {c : Char} {cs : List Char} (hc : c ≠ '\\') :
    scan ends (c :: cs) =
      if ends c || c = '\n' then ([], c :: cs) else (c :: (scan ends cs).1, (scan ends cs).2) := by
  rw [scan]
  exact fun d tail h => absurd h hc

theorem scan_escaped {d : Char} {cs : List Char} (hd : ends d = true) :
    scan ends ('\\' :: d :: cs) = (d :: (scan ends cs).1, (scan ends cs).2) := by
  rw [scan, if_pos hd]

theorem scan_backslash {d : Char} {cs : List Char} (hd : ends d = false) :
    scan ends ('\\' :: d :: cs) = ('\\' :: (scan ends (d :: cs)).1, (scan ends (d :: cs)).2) := by
  rw [scan, if_neg (Bool.eq_false_iff.mp hd)]

theorem scan_stops (hends : ends '\\' = false) (h : Stops ends rest) : scan ends rest = ([], rest) := by
  cases rest with
  | nil => rfl
  | cons c rest =>
    have hc := h c rfl
    have hne : c ≠ '\\' := by
      rintro rfl
      exact hc.elim (Bool.eq_false_iff.mp hends) (by decide)
    rw [scan_plain hne, if_pos (by simpa using hc)]

theorem escape_cons (ends : Char → Bool) (c : Char) (cs : List Char) :
    Point.escape ends (String.ofList (c :: cs)) =
      (if ends c then ['\\', c] else [c]) ++ Point.escape ends (String.ofList cs) := by
  simp [Point.escape]

/-- An escaped text does not start with a character that ends a name. -/
theorem escape_head (hends : ends '\\' = false) {cs : List Char} (hcs : cs ≠ []) (rest : List Char) :
    ∃ d tail, Point.escape ends (String.ofList cs) ++ rest = d :: tail ∧ ends d = false := by
  obtain ⟨c, cs, rfl⟩ := List.exists_cons_of_ne_nil hcs
  rw [escape_cons]
  by_cases hc : ends c = true
  · exact ⟨'\\', c :: (Point.escape ends (String.ofList cs) ++ rest), by simp [hc], hends⟩
  · exact ⟨c, Point.escape ends (String.ofList cs) ++ rest, by simp [hc], by simpa using hc⟩

/-- A name without line breaks that does not end in a backslash is read back as it was written. -/
theorem scan_escape (hends : ends '\\' = false) (hrest : Stops ends rest) (cs : List Char)
    (hbreak : '\n' ∉ cs) (hlast : cs.getLast? ≠ some '\\') :
    scan ends (Point.escape ends (String.ofList cs) ++ rest) = (cs, rest) := by
  induction cs with
  | nil => exact scan_stops hends hrest
  | cons c cs ih =>
    have hc : c ≠ '\n' := fun h => hbreak (h ▸ List.mem_cons_self)
    have ih := ih (fun h => hbreak (List.mem_cons_of_mem _ h)) (fun h => hlast (by
      rw [List.getLast?_cons, h]
      rfl))
    rw [escape_cons, List.append_assoc]
    by_cases hend : ends c = true
    · rw [if_pos hend]
      show scan ends ('\\' :: c :: (Point.escape ends (String.ofList cs) ++ rest)) = _
      rw [scan_escaped hend, ih]
    · rw [if_neg hend]
      show scan ends (c :: (Point.escape ends (String.ofList cs) ++ rest)) = _
      by_cases hback : c = '\\'
      · -- a backslash stands for itself: it is not the last character, and what follows it is escaped
        subst hback
        have hcs : cs ≠ [] := by
          rintro rfl
          exact hlast rfl
        obtain ⟨d, tail, htail, hd⟩ := escape_head hends hcs rest
        rw [htail] at ih ⊢
        rw [scan_backslash hd, ih]
      · rw [scan_plain hback, if_neg (by simp [hend, hc]), ih]

/-- What can be written as a name. -/
structure Nameable (s : String) : Prop where
  nonempty : s ≠ ""
  unbroken : '\n' ∉ s.toList
  unescaping : s.toList.getLast? ≠ some '\\'

instance (s : String) : Decidable (Nameable s) :=
  decidable_of_iff (s ≠ "" ∧ '\n' ∉ s.toList ∧ s.toList.getLast? ≠ some '\\')
    ⟨fun h => ⟨h.1, h.2.1, h.2.2⟩, fun h => ⟨h.nonempty, h.unbroken, h.unescaping⟩⟩

/-- A name is read back, whatever ends it. -/
theorem name_escape (hends : ends '\\' = false) {s : String} (hs : Nameable s) (hrest : Stops ends rest) :
    name ends (Point.escape ends s ++ rest) = some (s, rest) := by
  have hscan := scan_escape hends hrest s.toList hs.unbroken hs.unescaping
  rw [String.ofList_toList] at hscan
  have hne : s.toList ≠ [] := fun h => hs.nonempty (String.toList_eq_nil_iff.mp h)
  unfold name
  rw [hscan]
  split
  · rename_i h
    exact absurd (congrArg Prod.fst h) hne
  · rename_i h
    obtain ⟨rfl, rfl⟩ := Prod.mk.inj h
    rw [String.ofList_toList]

/-! ## Integers -/

theorem digits?_toDigits (n : Nat) : digits? (Nat.toDigits 10 n) = some n := by
  have hall : (Nat.toDigits 10 n).all Char.isDigit = true :=
    List.all_eq_true.mpr fun _ hc => Nat.isDigit_of_mem_toDigits (by decide) (by decide) hc
  rw [digits?, if_pos ⟨Nat.toDigits_ne_nil, hall⟩, Nat.ofDigitChars_ten_toDigits]

/-- The characters of an integer are digits, after a minus. -/
theorem mem_integerChars {n : Int} {c : Char} (h : c ∈ Number.integerChars n) : c = '-' ∨ c.isDigit = true := by
  have hdigit : c ∈ Nat.toDigits 10 n.natAbs → c.isDigit = true :=
    Nat.isDigit_of_mem_toDigits (by decide) (by decide)
  unfold Number.integerChars at h
  split at h
  · exact (List.mem_cons.mp h).imp id hdigit
  · exact Or.inr (hdigit h)

theorem signed?_digits {ds : List Char} (h : ∀ c ∈ ds, c.isDigit = true) :
    signed? ds = (digits? ds).map fun (n : Nat) => (n : Int) := by
  unfold signed?
  split
  · exact absurd (h _ List.mem_cons_self) (by decide)
  · rfl

/-- An integer of 64 bits is read back. -/
theorem integer?_integerChars {n : Int} (hn : -0x8000000000000000 ≤ n ∧ n < 0x8000000000000000) :
    integer? (Number.integerChars n) = some n := by
  have hsigned : signed? (Number.integerChars n) = some n := by
    unfold Number.integerChars
    split
    · rename_i hneg
      show (digits? (Nat.toDigits 10 n.natAbs)).map (fun (k : Nat) => -(k : Int)) = _
      rw [digits?_toDigits, Option.map_some]
      exact congrArg some (by omega)
    · rename_i hpos
      rw [signed?_digits fun _ hc => Nat.isDigit_of_mem_toDigits (by decide) (by decide) hc, digits?_toDigits,
        Option.map_some]
      exact congrArg some (by omega)
  rw [integer?, hsigned, Option.filter_some, if_pos (decide_eq_true hn)]

/-! ## Values -/

/-- The characters are read as a value, whatever separator or line break follows them. -/
def Reads (value : List Char → Found α) (cs : List Char) (a : α) : Prop :=
  ∀ rest, Stops endsMeasurement rest → value (cs ++ rest) = some (a, rest)

theorem stops_name (h : Stops endsMeasurement rest) : Stops endsName rest := by
  intro c hc
  refine (h c hc).imp (fun hend => ?_) id
  rcases Bool.or_eq_true_iff.mp hend with h | h <;> simp [endsName, of_decide_eq_true h]

theorem reads_name {s : String} (h : Nameable s) : Reads (name endsName) (Point.nameChars s) s :=
  fun _ hrest => name_escape rfl h (stops_name hrest)

theorem inWord_of_stops (h : Stops endsMeasurement rest) {c : Char} (hc : c ∈ rest.head?) : inWord c = false := by
  have := h c hc
  simp only [endsMeasurement, inWord, Bool.or_eq_true, decide_eq_true_eq] at *
  rcases this with (rfl | rfl) | rfl <;> rfl

/-- A word that is not quoted is read as its value. -/
theorem reads_word {w : List Char} {v : LineValue} (hv : wordValue? w = some v) (hin : ∀ c ∈ w, inWord c = true)
    (hquote : w.head? ≠ some '"') : Reads fieldValue w v := by
  intro rest hrest
  have htake : (w ++ rest).takeWhile inWord = w := by
    rw [List.takeWhile_append_of_pos hin]
    cases rest with
    | nil => exact List.append_nil w
    | cons c rest =>
      rw [List.takeWhile_cons_of_neg (Bool.eq_false_iff.mp (inWord_of_stops hrest rfl)), List.append_nil]
  have hdrop : (w ++ rest).dropWhile inWord = rest := by
    rw [List.dropWhile_append_of_pos hin]
    cases rest with
    | nil => rfl
    | cons c rest => rw [List.dropWhile_cons_of_neg (Bool.eq_false_iff.mp (inWord_of_stops hrest rfl))]
  unfold fieldValue
  split
  · rename_i cs heq
    cases w with
    | nil => cases hv
    | cons c w => exact absurd (congrArg List.head? heq) hquote
  · rw [htake, hdrop, hv, Option.map_some]

theorem wordValue?_integer {w : List Char} {n : Int} (h : integer? w = some n) :
    wordValue? (w ++ ['i']) = some (.integer n) := by
  have hlast : (w ++ ['i']).getLast? = some 'i' := List.getLast?_concat
  have hno : ∀ names : List (List Char), (∀ cs ∈ names, cs.getLast? ≠ some 'i') → w ++ ['i'] ∉ names :=
    fun names hnames hmem => hnames _ hmem hlast
  rw [wordValue?, if_neg (by simp), if_neg (hno _ (by decide)), if_neg (hno _ (by decide)), if_pos hlast,
    List.dropLast_concat, h, Option.map_some]

/-- True of what a number in positional notation is written with. -/
def Figure (c : Char) : Prop := c.isDigit = true ∨ c = '.' ∨ c = '-'

instance (c : Char) : Decidable (Figure c) := inferInstanceAs (Decidable (_ ∨ _))

theorem inWord_of_figure {c : Char} (h : Figure c) : inWord c = true := by
  simp only [inWord, Bool.and_eq_true, decide_eq_true_eq]
  refine ⟨⟨?_, ?_⟩, ?_⟩ <;> rintro rfl <;> exact absurd h (by decide)

/-- An integer of 64 bits is read as the value of a field. -/
theorem reads_integer {n : Int} (hn : -0x8000000000000000 ≤ n ∧ n < 0x8000000000000000) :
    Reads fieldValue (Point.valueChars (.integer n)) (.integer n) := by
  have hfigure : ∀ c ∈ Number.integerChars n, Figure c := fun c hc =>
    (mem_integerChars hc).elim (fun hminus => Or.inr (Or.inr hminus)) Or.inl
  refine reads_word (wordValue?_integer (integer?_integerChars hn)) ?_ ?_
  · intro c hc
    rcases List.mem_append.mp hc with hc | hc
    · exact inWord_of_figure (hfigure c hc)
    · exact List.mem_singleton.mp hc ▸ rfl
  · intro hhead
    rcases List.mem_append.mp (List.mem_of_head? hhead) with hc | hc
    · exact absurd (hfigure _ hc) (by decide)
    · exact absurd (List.mem_singleton.mp hc) (by decide)

/-- A quoted text is read up to its quote, whatever stands in it. -/
theorem quoted_escape (cs rest : List Char) :
    quoted (Point.escape (fun c => c = '\\' || c = '"') (String.ofList cs) ++ '"' :: rest) = some (cs, rest) := by
  induction cs with
  | nil => rfl
  | cons c cs ih =>
    rw [escape_cons, List.append_assoc]
    by_cases hquote : c = '"'
    · subst hquote
      simp [quoted, ih]
    · by_cases hback : c = '\\'
      · subst hback
        simp [quoted, ih]
      · simp [quoted, hquote, hback, ih]

/-- Any text is read as the value of a field. -/
theorem reads_text (s : String) : Reads fieldValue (Point.valueChars (.text s)) (.text s) := by
  intro rest _
  have hquoted := quoted_escape s.toList rest
  rw [String.ofList_toList] at hquoted
  have hchars : Point.valueChars (.text s) ++ rest =
      '"' :: (Point.escape (fun c => c = '\\' || c = '"') s ++ '"' :: rest) := by
    simp [Point.valueChars, Point.textChars]
  rw [hchars, fieldValue, hquoted]
  simp only [Option.map_some, String.ofList_toList]

theorem reads_bool (b : Bool) : Reads fieldValue (Point.valueChars (.bool b)) (.bool b) := by
  cases b
  · exact reads_word (w := "false".toList) (by decide) (List.all_eq_true.mp rfl) (by decide)
  · exact reads_word (w := "true".toList) (by decide) (List.all_eq_true.mp rfl) (by decide)

/-- A word of figures is a number. -/
theorem reads_figures {w : List Char} (hne : w ≠ []) (hw : ∀ c ∈ w, Figure c) :
    Reads fieldValue w (.real (String.ofList w)) := by
  have hno : ∀ d : Char, ¬Figure d → d ∉ w := fun d hd hmem => hd (hw d hmem)
  have hwords : ∀ names : List (List Char), (∀ cs ∈ names, ∃ d ∈ cs, ¬Figure d) → w ∉ names := by
    intro names hnames hmem
    obtain ⟨d, hd, hfigure⟩ := hnames w hmem
    exact hno d hfigure hd
  refine reads_word ?_ (fun c hc => inWord_of_figure (hw c hc)) ?_
  · rw [wordValue?, if_neg hne, if_neg (hwords _ (by simp [Figure])), if_neg (hwords _ (by simp [Figure])), if_neg]
    exact fun hlast => hno 'i' (by decide) (List.mem_of_getLast? hlast)
  · exact fun hhead => hno '"' (by decide) (List.mem_of_head? hhead)

theorem figure_toDigits {n : Nat} {c : Char} (h : c ∈ Nat.toDigits 10 n) : Figure c :=
  Or.inl (Nat.isDigit_of_mem_toDigits (by decide) (by decide) h)

/-- Digits that are laid out around a point are figures still. -/
theorem plain_figures {ds : List Char} (hne : ds ≠ []) (hds : ∀ c ∈ ds, Figure c) (exponent : Int) :
    Layout.plain [] ds exponent ≠ [] ∧ ∀ c ∈ Layout.plain [] ds exponent, Figure c := by
  have hzero : Figure '0' := Or.inl (by decide)
  have hzeros : ∀ n c, c ∈ List.replicate n '0' → Figure c := fun n c hc => List.eq_of_mem_replicate hc ▸ hzero
  unfold Layout.plain
  split
  · simp only [List.append_nil, List.mem_append]
    exact ⟨by simp [hne], fun c hc => hc.elim (hds c) (hzeros _ c)⟩
  · dsimp only
    split
    · refine ⟨by simp, ?_⟩
      intro c hc
      rcases List.mem_append.mp hc with hc | hc
      · exact hds c (List.mem_of_mem_take hc)
      · rcases List.mem_cons.mp hc with rfl | hc
        · exact Or.inr (Or.inl rfl)
        · exact hds c (List.mem_of_mem_drop hc)
    · refine ⟨by simp, ?_⟩
      intro c hc
      rcases List.mem_cons.mp hc with rfl | hc
      · exact hzero
      · rcases List.mem_cons.mp hc with rfl | hc
        · exact Or.inr (Or.inl rfl)
        · rcases List.mem_append.mp hc with hc | hc
          · exact hzeros _ c hc
          · exact hds c hc

/-- A double is read as its text. -/
theorem reads_real (x : Double) :
    Reads fieldValue (Point.valueChars (.real x)) (.real (String.ofList (Point.realLayout.chars x))) := by
  show Reads fieldValue (Point.realLayout.chars x) _
  unfold Layout.chars
  split
  · exact reads_word (by decide) (List.all_eq_true.mp rfl) (by decide)
  · rename_i negative _
    cases negative <;> exact reads_word (by decide) (List.all_eq_true.mp rfl) (by decide)
  · rename_i negative m q _
    have hplain : ∀ n e, Layout.plain [] (Nat.toDigits 10 n) e ≠ [] ∧
        ∀ c ∈ Layout.plain [] (Nat.toDigits 10 n) e, Figure c :=
      fun n e => plain_figures Nat.toDigits_ne_nil (fun _ => figure_toDigits) e
    refine reads_figures (fun h => (hplain _ _).1 (List.append_eq_nil_iff.mp h).2) ?_
    intro c hc
    rcases List.mem_append.mp hc with hc | hc
    · split at hc
      · exact Or.inr (Or.inr (List.mem_singleton.mp hc))
      · cases hc
    · exact (hplain _ _).2 c hc

/-- The integer of a field fits 64 bits. -/
def Fits : FieldValue → Prop
  | .integer n => -0x8000000000000000 ≤ n ∧ n < 0x8000000000000000
  | _ => True

instance : DecidablePred Fits
  | .integer _ => inferInstanceAs (Decidable (_ ∧ _))
  | .text _ | .real _ | .bool _ => .isTrue trivial

/-- Every value is read back as the line shows it. -/
theorem reads_value {v : FieldValue} (h : Fits v) : Reads fieldValue (Point.valueChars v) (.ofField v) := by
  cases v with
  | text s => exact reads_text s
  | integer n => exact reads_integer h
  | real x => exact reads_real x
  | bool b => exact reads_bool b

/-! ## Pairs -/

/-- A key and its value. -/
def pairChars (shown : β → List Char) (e : String × β) : List Char := Point.nameChars e.1 ++ '=' :: shown e.2

variable {value : List Char → Found α} {shown : β → List Char} {f : β → α}

theorem pair_pairChars {e : String × β} (he : Nameable e.1) (hv : Reads value (shown e.2) (f e.2))
    (hrest : Stops endsMeasurement rest) :
    pair value (pairChars shown e ++ rest) = some ((e.1, f e.2), rest) := by
  have hname : name endsName (Point.nameChars e.1 ++ '=' :: (shown e.2 ++ rest)) =
      some (e.1, '=' :: (shown e.2 ++ rest)) := name_escape rfl he (stops_cons rfl)
  rw [pairChars, List.append_assoc, List.cons_append, pair, hname]
  simp only [hv rest hrest, Option.map_some]

theorem stops_flatMap {es : List (String × β)} {c : Char} {tail : List Char} (hc : endsMeasurement c = true) :
    Stops endsMeasurement (es.flatMap (fun e => ',' :: pairChars shown e) ++ c :: tail) := by
  cases es with
  | nil => exact stops_cons hc
  | cons e es => exact stops_cons rfl

/-- Pairs are read up to a blank. -/
theorem pairs_flatMap {es : List (String × β)} (h : ∀ e ∈ es, Nameable e.1 ∧ Reads value (shown e.2) (f e.2))
    {n : Nat} (hn : es.length ≤ n) (tail : List Char) :
    pairs value n (es.flatMap (fun e => ',' :: pairChars shown e) ++ ' ' :: tail) =
      some (es.map fun e => (e.1, f e.2), ' ' :: tail) := by
  induction es generalizing n with
  | nil => cases n <;> rfl
  | cons e es ih =>
    obtain ⟨n, rfl⟩ : ∃ m, n = m + 1 := ⟨n - 1, (Nat.sub_add_cancel (Nat.le_of_add_left_le hn)).symm⟩
    obtain ⟨⟨he, hv⟩, hes⟩ := List.forall_mem_cons.mp h
    have hstops : Stops endsMeasurement (es.flatMap (fun e => ',' :: pairChars shown e) ++ ' ' :: tail) :=
      stops_flatMap rfl
    rw [List.flatMap_cons, List.append_assoc, List.cons_append, pairs, pair_pairChars he hv hstops]
    simp only [ih hes (Nat.le_of_succ_le_succ hn), Option.map_some, List.map_cons]

theorem length_le_flatMap (es : List (String × β)) (tail : List Char) :
    es.length ≤ (es.flatMap (fun e => ',' :: pairChars shown e) ++ tail).length := by
  induction es with
  | nil => exact Nat.zero_le _
  | cons e es ih =>
    simp only [List.flatMap_cons, List.append_assoc, List.length_append, List.length_cons] at ih ⊢
    omega

/-! ## Lines -/

/-- What is needed for the line of a point to be read back: names that can be written, a field at least, values
that are read back, and a time of 64 bits. -/
structure Legible (p : Point) : Prop where
  measurement : Nameable p.measurement
  tags : ∀ t ∈ p.tags, Nameable t.1 ∧ Nameable t.2
  field : p.fields ≠ []
  fields : ∀ f ∈ p.fields, Nameable f.1 ∧ Reads fieldValue (Point.valueChars f.2) (.ofField f.2)
  timestamp : -0x8000000000000000 ≤ p.timestamp ∧ p.timestamp < 0x8000000000000000

theorem intercalate_cons (f : String × FieldValue) (fs : List (String × FieldValue)) :
    [','].intercalate ((f :: fs).map Point.fieldChars) =
      pairChars Point.valueChars f ++ fs.flatMap fun f => ',' :: pairChars Point.valueChars f := by
  induction fs generalizing f with
  | nil => simp [pairChars, Point.fieldChars]
  | cons g fs ih =>
    rw [List.map_cons, List.map_cons, List.intercalate_cons_cons, ← List.map_cons, ih g]
    simp [pairChars, Point.fieldChars]

theorem integer?_takeWhile {n : Int} (hn : -0x8000000000000000 ≤ n ∧ n < 0x8000000000000000)
    (hrest : ∀ c ∈ rest.head?, c = '\n') :
    integer? ((Number.integerChars n ++ rest).takeWhile (· ≠ '\n')) = some n ∧
      (Number.integerChars n ++ rest).dropWhile (· ≠ '\n') = rest := by
  have hin : ∀ c ∈ Number.integerChars n, decide (c ≠ '\n') = true := by
    intro c hc
    rw [decide_eq_true_eq]
    rintro rfl
    simpa using mem_integerChars hc
  rw [List.takeWhile_append_of_pos hin, List.dropWhile_append_of_pos hin]
  cases rest with
  | nil => exact ⟨by rw [List.takeWhile_nil, List.append_nil, integer?_integerChars hn], rfl⟩
  | cons c rest =>
    obtain rfl := hrest c rfl
    exact ⟨by simp [integer?_integerChars hn], by simp⟩

/-- The line of a point says what it is to say, before the end of a text or a line break. -/
theorem line_lineChars {p : Point} (h : Legible p) (hrest : ∀ c ∈ rest.head?, c = '\n') :
    line (p.lineChars ++ rest) = some (ofPoint p, rest) := by
  obtain ⟨f, fs, hfs⟩ := List.exists_cons_of_ne_nil h.field
  obtain ⟨⟨hf, hfv⟩, hfields⟩ := List.forall_mem_cons.mp (hfs ▸ h.fields)
  -- the text from each part on
  let time := Number.integerChars p.timestamp ++ rest
  let more := fs.flatMap (fun f => ',' :: pairChars Point.valueChars f) ++ ' ' :: time
  let tags := p.tags.flatMap (fun t => ',' :: pairChars Point.nameChars t) ++
    ' ' :: (pairChars Point.valueChars f ++ more)
  have htext : p.lineChars ++ rest = Point.escape endsMeasurement p.measurement ++ tags := by
    rw [Point.lineChars, hfs, intercalate_cons]
    simp only [List.append_assoc, List.cons_append]
    rfl
  have hmeasurement : name endsMeasurement (Point.escape endsMeasurement p.measurement ++ tags) =
      some (p.measurement, tags) := name_escape rfl h.measurement (stops_flatMap rfl)
  have htags : pairs (name endsName) tags.length tags =
      some (p.tags, ' ' :: (pairChars Point.valueChars f ++ more)) := by
    have hlen : p.tags.length ≤ tags.length := length_le_flatMap p.tags _
    have hread := pairs_flatMap (f := id) (fun t ht => (h.tags t ht).imp id reads_name) hlen
      (pairChars Point.valueChars f ++ more)
    simpa only [id, List.map_id'] using hread
  have hfield : pair fieldValue (pairChars Point.valueChars f ++ more) = some ((f.1, .ofField f.2), more) :=
    pair_pairChars hf hfv (stops_flatMap rfl)
  have hmore : pairs fieldValue more.length more = some (fs.map fun f => (f.1, .ofField f.2), ' ' :: time) :=
    pairs_flatMap hfields (length_le_flatMap fs _) time
  obtain ⟨htime, hleft⟩ :
      integer? (time.takeWhile (· ≠ '\n')) = some p.timestamp ∧ time.dropWhile (· ≠ '\n') = rest :=
    integer?_takeWhile h.timestamp hrest
  simp only [htext, line, hmeasurement, htags, hfield, hmore, htime, hleft, ofPoint, hfs, List.map_cons, bind,
    Option.bind, pure]

/-- Lines with line breaks between them are read one after the other. -/
theorem linesUpTo_intercalate {ps : List Point} (hne : ps ≠ []) (h : ∀ p ∈ ps, Legible p) {n : Nat}
    (hn : ps.length ≤ n) :
    linesUpTo n (['\n'].intercalate (ps.map Point.lineChars)) = some (ps.map ofPoint) := by
  induction ps generalizing n with
  | nil => exact absurd rfl hne
  | cons p ps ih =>
    obtain ⟨n, rfl⟩ : ∃ m, n = m + 1 := ⟨n - 1, (Nat.sub_add_cancel (Nat.le_of_add_left_le hn)).symm⟩
    obtain ⟨hp, hps⟩ := List.forall_mem_cons.mp h
    cases ps with
    | nil =>
      have hline : line (p.lineChars ++ []) = some (ofPoint p, []) := line_lineChars hp nofun
      rw [List.append_nil] at hline
      rw [List.map_singleton, List.intercalate_singleton, linesUpTo, hline]
      rfl
    | cons q qs =>
      let more := ['\n'].intercalate ((q :: qs).map Point.lineChars)
      have hmore : linesUpTo n more = some ((q :: qs).map ofPoint) :=
        ih (List.cons_ne_nil q qs) hps (Nat.le_of_succ_le_succ hn)
      have hline : line (p.lineChars ++ '\n' :: more) = some (ofPoint p, '\n' :: more) :=
        line_lineChars hp fun c hc => (Option.mem_some.mp hc).symm
      have htext : ['\n'].intercalate ((p :: q :: qs).map Point.lineChars) = p.lineChars ++ '\n' :: more := by
        rw [List.map_cons, List.map_cons, List.intercalate_cons_cons, ← List.map_cons]
        simp [more]
      rw [htext, linesUpTo, hline]
      simp only [hmore, Option.map_some, List.map_cons]

/-- There are no more lines than characters. -/
theorem length_le_intercalate {css : List (List Char)} (h : ∀ cs ∈ css, cs ≠ []) :
    css.length ≤ (['\n'].intercalate css).length := by
  induction css with
  | nil => exact Nat.zero_le _
  | cons cs css ih =>
    obtain ⟨hcs, hmore⟩ := List.forall_mem_cons.mp h
    have hpos : 0 < cs.length := List.length_pos_iff.mpr hcs
    cases css with
    | nil =>
      rw [List.intercalate_singleton]
      exact hpos
    | cons ds dss =>
      have hlen := ih hmore
      rw [List.intercalate_cons_cons]
      simp only [List.length_append, List.length_cons] at hlen ⊢
      omega

/-- **Lines are read back**, as many as there are points. -/
theorem read_lines {ps : List Point} (hne : ps ≠ []) (h : ∀ p ∈ ps, Legible p) :
    read (Point.lines ps) = some (ps.map ofPoint) := by
  have hchars : ∀ cs ∈ ps.map Point.lineChars, cs ≠ [] := by
    intro cs hcs
    obtain ⟨p, -, rfl⟩ := List.mem_map.mp hcs
    simp [Point.lineChars]
  have hlen := length_le_intercalate hchars
  rw [List.length_map] at hlen
  rw [read, Point.lines, String.length_ofList, String.toList_ofList, linesUpTo_intercalate hne h hlen]

theorem lines_singleton (p : Point) : Point.lines [p] = p.line := by simp [Point.lines, Point.line]

/-- A point that has a line of its own is read from it. -/
theorem read_line {p : Point} (h : Legible p) : read p.line = some [ofPoint p] := by
  rw [← lines_singleton]
  exact read_lines (List.cons_ne_nil p []) fun q hq => List.mem_singleton.mp hq ▸ h

/-! ## Line breaks -/

/-- There is neither a line feed nor a carriage return. -/
def Unbroken (cs : List Char) : Prop := ∀ c ∈ cs, c ≠ '\n' ∧ c ≠ '\r'

instance (cs : List Char) : Decidable (Unbroken cs) := List.decidableBAll _ cs

theorem unbroken_append {cs ds : List Char} (hc : Unbroken cs) (hd : Unbroken ds) : Unbroken (cs ++ ds) :=
  fun c h => (List.mem_append.mp h).elim (hc c) (hd c)

theorem unbroken_cons {c : Char} {cs : List Char} (hc : c ≠ '\n' ∧ c ≠ '\r') (hcs : Unbroken cs) :
    Unbroken (c :: cs) := List.forall_mem_cons.mpr ⟨hc, hcs⟩

theorem unbroken_flatMap {es : List β} {g : β → List Char} (h : ∀ e ∈ es, Unbroken (g e)) :
    Unbroken (es.flatMap g) := by
  intro c hc
  obtain ⟨e, he, hce⟩ := List.mem_flatMap.mp hc
  exact h e he c hce

theorem unbroken_escape {s : String} (h : Unbroken s.toList) : Unbroken (Point.escape ends s) :=
  unbroken_flatMap fun c hc => by
    split
    · exact unbroken_cons (by decide) (unbroken_cons (h c hc) (fun _ h => nomatch h))
    · exact unbroken_cons (h c hc) (fun _ h => nomatch h)

theorem unbroken_integerChars (n : Int) : Unbroken (Number.integerChars n) := by
  intro c hc
  constructor <;> rintro rfl <;> simpa using mem_integerChars hc

theorem unbroken_pairChars {e : String × β} (hk : Unbroken e.1.toList) (hv : Unbroken (shown e.2)) :
    Unbroken (pairChars shown e) := unbroken_append (unbroken_escape hk) (unbroken_cons (by decide) hv)

/-- There are no line breaks in a line but those of names and values. -/
theorem unbroken_lineChars {p : Point} (hm : Unbroken p.measurement.toList)
    (htags : ∀ t ∈ p.tags, Unbroken t.1.toList ∧ Unbroken t.2.toList) (hne : p.fields ≠ [])
    (hfields : ∀ f ∈ p.fields, Unbroken f.1.toList ∧ Unbroken (Point.valueChars f.2)) : Unbroken p.lineChars := by
  obtain ⟨f, fs, hfs⟩ := List.exists_cons_of_ne_nil hne
  obtain ⟨⟨hf, hfv⟩, hmore⟩ := List.forall_mem_cons.mp (hfs ▸ hfields)
  have hblank : (' ' : Char) ≠ '\n' ∧ ' ' ≠ '\r' := by decide
  have hcomma : (',' : Char) ≠ '\n' ∧ ',' ≠ '\r' := by decide
  rw [Point.lineChars, hfs, intercalate_cons]
  refine unbroken_append (unbroken_append (unbroken_append (unbroken_escape hm) ?_)
    (unbroken_cons hblank (unbroken_append (unbroken_pairChars hf hfv) ?_)))
    (unbroken_cons hblank (unbroken_integerChars _))
  · exact unbroken_flatMap fun t ht =>
      unbroken_cons hcomma (unbroken_pairChars (htags t ht).1 (unbroken_escape (htags t ht).2))
  · exact unbroken_flatMap fun f hf => unbroken_cons hcomma (unbroken_pairChars (hmore f hf).1 (hmore f hf).2)

end Line
end EventCourier
