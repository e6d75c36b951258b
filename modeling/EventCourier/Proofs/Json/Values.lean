import EventCourier.Proofs.Json.Shape
import EventCourier.Proofs.Json.Tokens

/-!
# Documents are read back

A text that `Json.chars` writes is read as the document it was written for, whatever follows it that does not go
on with a number. One step of the reader over arrays and objects is one lemma (`items_more`, `members_more`);
`reads_of_ordered` puts them together by induction on the document. An object whose keys do not increase is read
as the dictionary of its members (`valueWith_object`).
-/

namespace EventCourier.Json

/-! ## How documents are written -/

theorem chars_null : chars .null = ['n', 'u', 'l', 'l'] := rfl

theorem chars_true : chars (.bool true) = ['t', 'r', 'u', 'e'] := rfl

theorem chars_false : chars (.bool false) = ['f', 'a', 'l', 's', 'e'] := rfl

theorem chars_integer (n : Int) (lower upper) :
    chars (.number (.integer n lower upper)) = Number.integerChars n := rfl

theorem chars_string (s : String) : chars (.string s) = quote s := rfl

theorem chars_array_cons (item : Json) (items : List Json) :
    chars (.array (item :: items)) = '[' :: (chars item ++ itemsChars items) := rfl

theorem itemsChars_cons (item : Json) (items : List Json) :
    itemsChars (item :: items) = ',' :: (chars item ++ itemsChars items) := rfl

theorem chars_object_cons (m : String × Json) (ms : List (String × Json)) :
    chars (.object (m :: ms)) = '\x7b' :: (quote m.1 ++ ':' :: (chars m.2 ++ membersChars ms)) := rfl

theorem membersChars_cons (m : String × Json) (ms : List (String × Json)) :
    membersChars (m :: ms) = ',' :: (quote m.1 ++ ':' :: (chars m.2 ++ membersChars ms)) := rfl

namespace Reader

variable {rest : List Char} {v : ReaderOf Json} {d : Nat}

/-- A text that starts with what is neither white space nor the end of an array. -/
def Starts (cs : List Char) : Prop := ∃ c tail, cs = c :: tail ∧ isSpace c = false ∧ c ≠ ']'

theorem Starts.append {cs : List Char} (h : Starts cs) (rest : List Char) : Starts (cs ++ rest) := by
  obtain ⟨c, tail, rfl, hc⟩ := h
  exact ⟨c, tail ++ rest, rfl, hc⟩

theorem skipSpace_starts {cs : List Char} (h : Starts cs) : skipSpace cs = cs := by
  obtain ⟨c, tail, rfl, hspace, -⟩ := h
  simp [skipSpace, hspace]

/-- A document is read back, up to a character that does not go on with a number. -/
structure Reads (v : ReaderOf Json) (j : Json) : Prop where
  starts : Starts j.chars
  reads : ∀ rest, EndsNumber rest → v (j.chars ++ rest) = .ok (j, rest)

theorem exists_toDigits_eq_cons (n : Nat) : ∃ c tail, Nat.toDigits 10 n = c :: tail ∧ c.isDigit = true := by
  obtain ⟨c, tail, hdigits⟩ := List.exists_cons_of_ne_nil (Nat.toDigits_ne_nil (n := n) (b := 10))
  exact ⟨c, tail, hdigits, Nat.isDigit_of_mem_toDigits (by decide) (by decide) (hdigits ▸ List.mem_cons_self)⟩

theorem ne_of_isDigit {c k : Char} (hc : c.isDigit = true) (hk : k.isDigit = false) : c ≠ k := by
  rintro rfl
  rw [hk] at hc
  cases hc

theorem isSpace_of_isDigit {c : Char} (hc : c.isDigit = true) : isSpace c = false := by
  have hother := fun k => ne_of_isDigit (k := k) hc
  simp [isSpace, hother]

theorem starts_integerChars (n : Int) : Starts (Number.integerChars n) := by
  unfold Number.integerChars
  split
  · exact ⟨'-', _, rfl, rfl, by decide⟩
  · obtain ⟨c, tail, hdigits, hc⟩ := exists_toDigits_eq_cons n.natAbs
    exact ⟨c, tail, hdigits, isSpace_of_isDigit hc, ne_of_isDigit hc rfl⟩

theorem starts_chars {j : Json} (h : j.hasReal = false) : Starts j.chars := by
  cases j with
  | null => exact ⟨'n', _, rfl, rfl, by decide⟩
  | bool b => cases b with
    | false => exact ⟨'f', _, rfl, rfl, by decide⟩
    | true => exact ⟨'t', _, rfl, rfl, by decide⟩
  | number n => cases n with
    | integer n lower upper => exact starts_integerChars n
    | real x finite => cases h
  | string s => exact ⟨'"', _, rfl, rfl, by decide⟩
  | array items => cases items with
    | nil => exact ⟨'[', _, rfl, rfl, by decide⟩
    | cons => exact ⟨'[', _, rfl, rfl, by decide⟩
  | object members => cases members with
    | nil => exact ⟨'\x7b', _, rfl, rfl, by decide⟩
    | cons => exact ⟨'\x7b', _, rfl, rfl, by decide⟩

/-! ## Scalars -/

theorem valueWith_null (nested? : Option (ReaderOf Json)) (rest : List Char) :
    valueWith nested? (chars .null ++ rest) = .ok (.null, rest) := by
  simp [chars_null, valueWith, skipSpace, isSpace, word]

theorem valueWith_bool (nested? : Option (ReaderOf Json)) (b : Bool) (rest : List Char) :
    valueWith nested? (chars (.bool b) ++ rest) = .ok (.bool b, rest) := by
  cases b <;> simp [chars_false, chars_true, valueWith, skipSpace, isSpace, word]

theorem valueWith_string (nested? : Option (ReaderOf Json)) (s : String) (rest : List Char) :
    valueWith nested? (chars (.string s) ++ rest) = .ok (.string s, rest) := by
  have hdigit : digit? '"' = none := rfl
  rw [chars_string, quote_append]
  simp [valueWith, skipSpace, isSpace, string_quote, hdigit, bind, Except.bind, pure, Except.pure]

theorem wholeNumber_neg {n : Int} (lower upper) (hn : n < 0) (rest : List Char) :
    wholeNumber true n.natAbs rest = .ok (.integer n lower upper, rest) := by
  have hrange : n.natAbs ≠ 0 ∧ n.natAbs ≤ 0x8000000000000000 := by omega
  have habs : -(n.natAbs : Int) = n := by omega
  simp only [wholeNumber, if_true, dif_pos hrange, habs]

theorem wholeNumber_nonneg {n : Int} (lower upper) (hn : ¬n < 0) (rest : List Char) :
    wholeNumber false n.natAbs rest = .ok (.integer n lower upper, rest) := by
  have hrange : n.natAbs < 0x10000000000000000 := by omega
  have habs : (n.natAbs : Int) = n := by omega
  simp only [wholeNumber, Bool.false_eq_true, if_false, dif_pos hrange, habs]

theorem valueWith_integer (nested? : Option (ReaderOf Json)) {n : Int} (lower upper) (hrest : EndsNumber rest) :
    valueWith nested? (chars (.number (.integer n lower upper)) ++ rest) =
      .ok (.number (.integer n lower upper), rest) := by
  have hlimit : n.natAbs < significandLimit := by
    unfold significandLimit
    omega
  rw [chars_integer, Number.integerChars]
  split
  · rename_i hn
    have hread := number_toDigits true hlimit hrest
    rw [wholeNumber_neg lower upper hn] at hread
    simp [valueWith, skipSpace, isSpace, hread, bind, Except.bind, pure, Except.pure]
  · rename_i hn
    have hread := number_toDigits false hlimit hrest
    rw [wholeNumber_nonneg lower upper hn] at hread
    obtain ⟨c, tail, hdigits, hc⟩ := exists_toDigits_eq_cons n.natAbs
    have hother := fun k => ne_of_isDigit (k := k) hc
    have hspace := isSpace_of_isDigit hc
    rw [hdigits] at hread ⊢
    simp only [List.cons_append] at hread ⊢
    simp [valueWith, skipSpace, hspace, hother, digit?_isDigit hc, hread, bind, Except.bind, pure, Except.pure]

/-! ## Containers -/

theorem endsNumber_itemsChars (js : List Json) (rest : List Char) : EndsNumber (itemsChars js ++ rest) := by
  intro c hc
  cases js <;> (cases hc; exact ⟨rfl, by decide, by decide, by decide⟩)

theorem length_lt_itemsChars (js : List Json) : js.length < (itemsChars js).length := by
  induction js with
  | nil => exact Nat.zero_lt_one
  | cons j js ih =>
    rw [itemsChars_cons, List.length_cons, List.length_cons, List.length_append]
    omega

/-- The first item of an array is read, and then the others. -/
theorem items_first {cs rest' : List Char} {j : Json} {js : List Json} {fuel : Nat} (hcs : Starts cs)
    (hv : v cs = .ok (j, rest)) (hmore : items v fuel false rest = .ok (js, rest')) :
    items v (fuel + 1) true cs = .ok (j :: js, rest') := by
  have hskip := skipSpace_starts hcs
  obtain ⟨c, tail, rfl, -, hclose⟩ := hcs
  rw [items, hskip]
  split
  · contradiction
  · rename_i heq
    exact absurd (List.cons.inj heq).1 hclose
  · rename_i heq
    cases heq
    simp [hv, hmore, bind, Except.bind, pure, Except.pure]

/-- A further item of an array is read, and then the others. -/
theorem items_more {cs rest' : List Char} {j : Json} {js : List Json} {fuel : Nat} (hcs : Starts cs)
    (hv : v cs = .ok (j, rest)) (hmore : items v fuel false rest = .ok (js, rest')) :
    items v (fuel + 1) false (',' :: cs) = .ok (j :: js, rest') := by
  have hcomma : skipSpace (',' :: cs) = ',' :: cs := by simp [skipSpace, isSpace]
  have hskip := skipSpace_starts hcs
  obtain ⟨c, tail, rfl, -, hclose⟩ := hcs
  rw [items, hcomma]
  split
  · contradiction
  · rename_i heq
    exact absurd (List.cons.inj heq).1 (by decide)
  · rename_i heq
    cases heq
    simp only [Bool.false_eq_true, if_false, if_true, hskip]
    split
    · contradiction
    · rename_i heq
      exact absurd (List.cons.inj heq).1 hclose
    · simp [hv, hmore, bind, Except.bind, pure, Except.pure]

theorem items_close (fuel : Nat) (first : Bool) (rest : List Char) :
    items v (fuel + 1) first (']' :: rest) = .ok ([], rest) := by
  simp [items, skipSpace, isSpace, pure, Except.pure]

/-- The items of an array behind the first are read back. -/
theorem items_chars {js : List Json} (h : ∀ j ∈ js, Reads v j) {fuel : Nat} (hfuel : js.length < fuel)
    (rest : List Char) : items v fuel false (itemsChars js ++ rest) = .ok (js, rest) := by
  induction js generalizing fuel with
  | nil =>
    obtain ⟨fuel, rfl⟩ := Nat.exists_eq_add_one_of_ne_zero (Nat.ne_of_gt hfuel)
    exact items_close fuel false rest
  | cons j js ih =>
    obtain ⟨fuel, rfl⟩ := Nat.exists_eq_add_one_of_ne_zero (Nat.ne_of_gt (Nat.zero_lt_of_lt hfuel))
    obtain ⟨hj, hjs⟩ := List.forall_mem_cons.mp h
    rw [itemsChars_cons, List.cons_append, List.append_assoc]
    exact items_more (hj.starts.append _) (hj.reads _ (endsNumber_itemsChars js rest))
      (ih hjs (Nat.lt_of_succ_lt_succ hfuel))

theorem valueWith_array {js : List Json} (h : ∀ j ∈ js, Reads v j) (rest : List Char) :
    valueWith (some v) (chars (.array js) ++ rest) = .ok (.array js, rest) := by
  have hopen : ∀ cs, items v (cs.length + 1) true cs = .ok (js, rest) →
      valueWith (some v) ('[' :: cs) = .ok (.array js, rest) := by
    intro cs hitems
    have hdigit : digit? '[' = none := rfl
    simp [valueWith, skipSpace, isSpace, hdigit, hitems, bind, Except.bind, pure, Except.pure]
  cases js with
  | nil => exact hopen (']' :: rest) (items_close _ true rest)
  | cons j js =>
    obtain ⟨hj, hjs⟩ := List.forall_mem_cons.mp h
    have hlen := length_lt_itemsChars js
    rw [chars_array_cons, List.cons_append, List.append_assoc]
    refine hopen _ (items_first (hj.starts.append _) (hj.reads _ (endsNumber_itemsChars js rest)) ?_)
    refine items_chars hjs ?_ rest
    simp only [List.length_append]
    omega

theorem endsNumber_membersChars (ms : List (String × Json)) (rest : List Char) :
    EndsNumber (membersChars ms ++ rest) := by
  intro c hc
  cases ms <;> (cases hc; exact ⟨rfl, by decide, by decide, by decide⟩)

theorem length_lt_membersChars (ms : List (String × Json)) : ms.length < (membersChars ms).length := by
  induction ms with
  | nil => exact Nat.zero_lt_one
  | cons m ms ih =>
    simp only [membersChars_cons, List.length_cons, List.length_append]
    omega

/-- A member is read back, behind the opening quote of its key. -/
theorem member_chars {m : String × Json} (hm : Reads v m.2) (hrest : EndsNumber rest) :
    member v (m.1.toList.flatMap escapeChar ++ '"' :: ':' :: (m.2.chars ++ rest)) = .ok (m, rest) := by
  have hcolon : skipSpace (':' :: (m.2.chars ++ rest)) = ':' :: (m.2.chars ++ rest) := by simp [skipSpace, isSpace]
  simp [member, string_quote, hcolon, hm.reads rest hrest, bind, Except.bind, pure, Except.pure]

/-- The first member of an object is read, and then the others. -/
theorem members_first {cs rest' : List Char} {m : String × Json} {ms : List (String × Json)} {fuel : Nat}
    (hm : member v cs = .ok (m, rest)) (hmore : members v fuel false rest = .ok (ms, rest')) :
    members v (fuel + 1) true ('"' :: cs) = .ok (m :: ms, rest') := by
  have hquote : skipSpace ('"' :: cs) = '"' :: cs := by simp [skipSpace, isSpace]
  simp [members, hquote, hm, hmore, bind, Except.bind, pure, Except.pure]

/-- A further member of an object is read, and then the others. -/
theorem members_more {cs rest' : List Char} {m : String × Json} {ms : List (String × Json)} {fuel : Nat}
    (hm : member v cs = .ok (m, rest)) (hmore : members v fuel false rest = .ok (ms, rest')) :
    members v (fuel + 1) false (',' :: '"' :: cs) = .ok (m :: ms, rest') := by
  have hcomma : skipSpace (',' :: '"' :: cs) = ',' :: '"' :: cs := by simp [skipSpace, isSpace]
  have hquote : skipSpace ('"' :: cs) = '"' :: cs := by simp [skipSpace, isSpace]
  simp [members, hcomma, hquote, hm, hmore, bind, Except.bind, pure, Except.pure]

theorem members_close (fuel : Nat) (first : Bool) (rest : List Char) :
    members v (fuel + 1) first ('\x7d' :: rest) = .ok ([], rest) := by
  simp [members, skipSpace, isSpace, pure, Except.pure]

/-- The members of an object behind the first are read back. -/
theorem members_chars {ms : List (String × Json)} (h : ∀ m ∈ ms, Reads v m.2) {fuel : Nat}
    (hfuel : ms.length < fuel) (rest : List Char) :
    members v fuel false (membersChars ms ++ rest) = .ok (ms, rest) := by
  induction ms generalizing fuel with
  | nil =>
    obtain ⟨fuel, rfl⟩ := Nat.exists_eq_add_one_of_ne_zero (Nat.ne_of_gt hfuel)
    exact members_close fuel false rest
  | cons m ms ih =>
    obtain ⟨fuel, rfl⟩ := Nat.exists_eq_add_one_of_ne_zero (Nat.ne_of_gt (Nat.zero_lt_of_lt hfuel))
    obtain ⟨hm, hms⟩ := List.forall_mem_cons.mp h
    simp only [membersChars_cons, List.cons_append, List.append_assoc, quote_append]
    exact members_more (member_chars hm (endsNumber_membersChars ms rest)) (ih hms (Nat.lt_of_succ_lt_succ hfuel))

theorem valueWith_object {ms : List (String × Json)} (h : ∀ m ∈ ms, Reads v m.2) (rest : List Char) :
    valueWith (some v) (chars (.object ms) ++ rest) = .ok (.object (Dictionary.ofList ms), rest) := by
  have hopen : ∀ cs, members v (cs.length + 1) true cs = .ok (ms, rest) →
      valueWith (some v) ('\x7b' :: cs) = .ok (.object (Dictionary.ofList ms), rest) := by
    intro cs hmembers
    have hdigit : digit? '\x7b' = none := rfl
    simp [valueWith, skipSpace, isSpace, hdigit, hmembers, bind, Except.bind, pure, Except.pure]
  cases ms with
  | nil => exact hopen ('\x7d' :: rest) (members_close _ true rest)
  | cons m ms =>
    obtain ⟨hm, hms⟩ := List.forall_mem_cons.mp h
    have hlen := length_lt_membersChars ms
    simp only [chars_object_cons, List.cons_append, List.append_assoc, quote_append]
    refine hopen _ (members_first (member_chars hm (endsNumber_membersChars ms rest)) ?_)
    refine members_chars hms ?_ rest
    simp only [List.length_append, List.length_cons]
    omega

/-! ## Whole documents -/

/-- Values are read with a bound on the containers that may still be opened. -/
theorem value_eq (d : Nat) : ∃ nested?, value d = valueWith nested? := by
  cases d with
  | zero => exact ⟨none, rfl⟩
  | succ d => exact ⟨some (value d), rfl⟩

/-- A document without doubles whose objects are in order is read back if it may nest as deep as it does. -/
theorem reads_of_ordered {j : Json} (hj : Ordered j) (hreal : j.hasReal = false) {d : Nat} (hdepth : j.depth ≤ d) :
    Reads (value d) j := by
  refine ⟨starts_chars hreal, ?_⟩
  obtain ⟨nested?, hvalue⟩ := value_eq d
  induction hj generalizing d nested? with
  | null => exact fun rest _ => hvalue ▸ valueWith_null nested? rest
  | bool b => exact fun rest _ => hvalue ▸ valueWith_bool nested? b rest
  | string s => exact fun rest _ => hvalue ▸ valueWith_string nested? s rest
  | number n =>
    cases n with
    | integer n lower upper => exact fun rest hrest => hvalue ▸ valueWith_integer nested? lower upper hrest
    | real x finite => cases hreal
  | @array items hitems ih =>
    intro rest _
    have hreals := itemsHaveReal_eq_false.mp hreal
    cases d with
    | zero => exact absurd hdepth (Nat.not_succ_le_zero _)
    | succ d =>
      have hdepths := itemsDepth_le.mp (Nat.le_of_succ_le_succ hdepth)
      obtain ⟨inner?, hinner⟩ := value_eq d
      have hreads : ∀ j ∈ items, Reads (value d) j := fun j hj =>
        ⟨starts_chars (hreals j hj), ih j hj (hreals j hj) (hdepths j hj) inner? hinner⟩
      exact valueWith_array hreads rest
  | @object members hkeys hvalues ih =>
    intro rest _
    have hreals := membersHaveReal_eq_false.mp hreal
    cases d with
    | zero => exact absurd hdepth (Nat.not_succ_le_zero _)
    | succ d =>
      have hdepths := membersDepth_le.mp (Nat.le_of_succ_le_succ hdepth)
      obtain ⟨inner?, hinner⟩ := value_eq d
      have hreads : ∀ m ∈ members, Reads (value d) m.2 := fun m hm =>
        ⟨starts_chars (hreals m hm), ih m hm (hreals m hm) (hdepths m hm) inner? hinner⟩
      have hobject := valueWith_object hreads rest
      rwa [Dictionary.ofList_of_increasing hkeys] at hobject

/-- A text from which one value can be read is read as that value. -/
theorem read_of_value {text : List Char} {j : Json} (h : value maxDepth text = .ok (j, [])) :
    read text = .ok j := by
  simp [read, document, h, skipSpace, bind, Except.bind, pure, Except.pure]

end Reader
end EventCourier.Json
