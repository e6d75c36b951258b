import EventCourier.Proofs.Except
import EventCourier.Text.Utf8

/-!
# UTF-8 is read back

The bytes of a character are cut into just that character, whatever follows them (`chunksFrom_char`), by one
lemma for each length; so the bytes of a text are decoded to that text (`decode?_encode`). Conversely, what is
cut into a character begins with its bytes (`chunksFrom_eq_char`), since the range of the second byte leaves out
what has a shorter form or is no character. So nothing else is decoded to a text than its bytes (`decode?_eq_ok`).
The bytes of texts are in the order of the texts (`encode_lt_encode`).
-/

namespace EventCourier.Utf8

variable {b : UInt8} {bs : List UInt8} {p q : Pending} {c : Char} {v : Nat}

/-! ## One byte -/

/-- A byte below 2^8 is its number. -/
theorem toNat_ofNat {n : Nat} (h : n < 256) : (UInt8.ofNat n).toNat = n := by
  rw [UInt8.toNat_ofNat']
  exact Nat.mod_eq_of_lt h

theorem chunksFrom_whole (h : lead b = .whole c) : chunksFrom none (b :: bs) = .char c :: chunksFrom none bs := by
  simp [chunksFrom, h]

theorem chunksFrom_start (h : lead b = .start p) : chunksFrom none (b :: bs) = chunksFrom (some p) bs := by
  simp [chunksFrom, h]

theorem chunksFrom_last (h : p.feed b = some (.whole c)) :
    chunksFrom (some p) (b :: bs) = .char c :: chunksFrom none bs := by
  simp [chunksFrom, h]

theorem chunksFrom_more (h : p.feed b = some (.start q)) :
    chunksFrom (some p) (b :: bs) = chunksFrom (some q) bs := by
  simp [chunksFrom, h]

/-- A byte within the expected range adds its six bits. -/
theorem feed_tail (p : Pending) (n : Nat) (hlow : p.low.toNat ≤ n % 64 + 128)
    (hhigh : n % 64 + 128 ≤ p.high.toNat) :
    p.feed (.ofNat (n % 64 + 128)) =
      some (if p.owed ≤ 1 then .whole (Char.ofNat (p.bits * 64 + n % 64))
        else .start ⟨p.owed - 1, 0x80, 0xBF, p.bits * 64 + n % 64, p.taken + 1⟩) := by
  have hbyte : (UInt8.ofNat (n % 64 + 128)).toNat = n % 64 + 128 := toNat_ofNat (by omega)
  have hrange : p.low ≤ .ofNat (n % 64 + 128) ∧ .ofNat (n % 64 + 128) ≤ p.high := by
    rw [UInt8.le_iff_toNat_le, UInt8.le_iff_toNat_le, hbyte]
    exact ⟨hlow, hhigh⟩
  rw [Pending.feed, if_pos hrange, hbyte]
  simp

theorem feed_last {n : Nat} (taken : Nat) (hv : n * 64 + v % 64 = v) :
    Pending.feed ⟨1, 0x80, 0xBF, n, taken⟩ (.ofNat (v % 64 + 128)) = some (.whole (Char.ofNat v)) := by
  rw [feed_tail _ v (by simp) (by simp; omega)]
  simp [hv]

theorem feed_more (owed m n taken : Nat) :
    Pending.feed ⟨owed + 2, 0x80, 0xBF, m, taken⟩ (.ofNat (n % 64 + 128)) =
      some (.start ⟨owed + 1, 0x80, 0xBF, m * 64 + n % 64, taken + 1⟩) := by
  rw [feed_tail _ n (by simp) (by simp; omega)]
  simp

/-! ## One character -/

theorem lead_ascii (h : v ≤ 127) : lead (.ofNat v) = .whole (Char.ofNat v) := by
  have hbyte : (UInt8.ofNat v).toNat = v := toNat_ofNat (by omega)
  simp only [lead, hbyte]
  rw [if_pos (by omega)]

theorem lead_two (h : 127 < v) (h' : v ≤ 2047) :
    lead (.ofNat (v / 64 % 32 + 192)) = .start ⟨1, 0x80, 0xBF, v / 64, 1⟩ := by
  have hbyte : (UInt8.ofNat (v / 64 % 32 + 192)).toNat = v / 64 + 0xC0 := by rw [toNat_ofNat] <;> omega
  simp only [lead, hbyte, Nat.add_sub_cancel]
  rw [if_neg (by omega), if_neg (by omega), if_pos (by omega)]

/-- The second byte of three is bounded so that no overlong form and no surrogate is read. -/
def secondOfThree (v : Nat) : Pending :=
  ⟨2, if v / 4096 + 0xE0 = 0xE0 then 0xA0 else 0x80, if v / 4096 + 0xE0 = 0xED then 0x9F else 0xBF, v / 4096, 1⟩

theorem feed_secondOfThree (h : 2047 < v) (h' : v ≤ 65535) (hscalar : v < 0xD800 ∨ 0xDFFF < v) :
    (secondOfThree v).feed (.ofNat (v / 64 % 64 + 128)) = some (.start ⟨1, 0x80, 0xBF, v / 64, 2⟩) := by
  have hbits : v / 4096 * 64 + v / 64 % 64 = v / 64 := by omega
  rw [feed_tail _ (v / 64)]
  · simp [secondOfThree, hbits]
  · simp only [secondOfThree]
    split <;> simp
    omega
  · simp only [secondOfThree]
    split <;> simp <;> omega

theorem lead_three (h : 2047 < v) (h' : v ≤ 65535) :
    lead (.ofNat (v / 4096 % 16 + 224)) = .start (secondOfThree v) := by
  have hbyte : (UInt8.ofNat (v / 4096 % 16 + 224)).toNat = v / 4096 + 0xE0 := by rw [toNat_ofNat] <;> omega
  simp only [lead, hbyte, Nat.add_sub_cancel, secondOfThree]
  rw [if_neg (by omega), if_neg (by omega), if_neg (by omega), if_pos (by omega)]

/-- The second byte of four is bounded so that no overlong form and nothing past the last character is read.
-/
def secondOfFour (v : Nat) : Pending :=
  ⟨3, if v / 262144 + 0xF0 = 0xF0 then 0x90 else 0x80, if v / 262144 + 0xF0 = 0xF4 then 0x8F else 0xBF,
    v / 262144, 1⟩

theorem feed_secondOfFour (h : 65535 < v) (h' : v < 0x110000) :
    (secondOfFour v).feed (.ofNat (v / 4096 % 64 + 128)) = some (.start ⟨2, 0x80, 0xBF, v / 4096, 2⟩) := by
  have hbits : v / 262144 * 64 + v / 4096 % 64 = v / 4096 := by omega
  rw [feed_tail _ (v / 4096)]
  · simp [secondOfFour, hbits]
  · simp only [secondOfFour]
    split <;> simp
    omega
  · simp only [secondOfFour]
    split <;> simp <;> omega

theorem lead_four (h : 65535 < v) (h' : v < 0x110000) :
    lead (.ofNat (v / 262144 % 8 + 240)) = .start (secondOfFour v) := by
  have hbyte : (UInt8.ofNat (v / 262144 % 8 + 240)).toNat = v / 262144 + 0xF0 := by rw [toNat_ofNat] <;> omega
  simp only [lead, hbyte, Nat.add_sub_cancel, secondOfFour]
  rw [if_neg (by omega), if_neg (by omega), if_neg (by omega), if_neg (by omega), if_pos (by omega)]

/-- The bytes of a character are cut into just that character. -/
theorem chunksFrom_char (c : Char) (bs : List UInt8) :
    chunksFrom none (String.utf8EncodeChar c ++ bs) = .char c :: chunksFrom none bs := by
  have hscalar : c.val.toNat < 0xD800 ∨ 0xDFFF < c.val.toNat ∧ c.val.toNat < 0x110000 := c.valid
  have hc : Char.ofNat c.val.toNat = c := Char.ofNat_toNat c
  unfold String.utf8EncodeChar
  generalize c.val.toNat = v at hscalar hc ⊢
  subst hc
  dsimp only
  split
  · rename_i h1
    exact chunksFrom_whole (lead_ascii h1)
  · split
    · rename_i h1 h2
      have hlast : v / 64 * 64 + v % 64 = v := by omega
      exact (chunksFrom_start (lead_two (by omega) h2)).trans (chunksFrom_last (feed_last _ hlast))
    · split
      · rename_i h2 h3
        have hlast : v / 64 * 64 + v % 64 = v := by omega
        calc _ = _ := chunksFrom_start (lead_three (by omega) h3)
          _ = _ := chunksFrom_more (feed_secondOfThree (by omega) h3 (by omega))
          _ = _ := chunksFrom_last (feed_last _ hlast)
      · rename_i h3
        have hlast : (v / 4096 * 64 + v / 64 % 64) * 64 + v % 64 = v := by omega
        calc _ = _ := chunksFrom_start (lead_four (by omega) (by omega))
          _ = _ := chunksFrom_more (feed_secondOfFour (by omega) (by omega))
          _ = _ := chunksFrom_more (feed_more 0 _ _ _)
          _ = _ := chunksFrom_last (feed_last _ hlast)

/-! ## Texts -/

theorem chunks_flatMap (cs : List Char) : chunks (cs.flatMap String.utf8EncodeChar) = cs.map .char := by
  induction cs with
  | nil => rfl
  | cons c cs ih =>
    rw [List.flatMap_cons, chunks, chunksFrom_char, ← chunks, ih, List.map_cons]

theorem collect_map (cs : List Char) (index : Nat) : collect index (cs.map .char) = .ok cs := by
  induction cs generalizing index with
  | nil => rfl
  | cons c cs ih =>
    rw [List.map_cons, collect, ih]
    rfl

/-- A text is decoded from its bytes. -/
theorem decode?_encode (s : String) : decode? (encode s) = .ok s.toList := by
  rw [decode?, encode, chunks_flatMap, collect_map]

/-! ## Only the bytes of a text are decoded to it -/

variable {rest : List Chunk}

theorem chunksFrom_none_cons : chunksFrom none (b :: bs) = match lead b with
    | .whole c => .char c :: chunksFrom none bs
    | .start p => chunksFrom (some p) bs
    | .invalid => .malformed 1 :: chunksFrom none bs := rfl

/-- A character whose last byte is owed is read with the next byte. -/
theorem chunksFrom_last_inv {low high : UInt8} {bits taken : Nat}
    (h : chunksFrom (some ⟨1, low, high, bits, taken⟩) bs = .char c :: rest) :
    ∃ b bs', bs = b :: bs' ∧ (low ≤ b ∧ b ≤ high) ∧ c = Char.ofNat (bits * 64 + (b.toNat - 0x80)) ∧
      chunksFrom none bs' = rest := by
  cases bs with
  | nil => simp [chunksFrom] at h
  | cons b bs' =>
    refine ⟨b, bs', rfl, ?_⟩
    by_cases hrange : low ≤ b ∧ b ≤ high
    · simp [chunksFrom, Pending.feed, hrange] at h
      exact ⟨hrange, h.1.symm, h.2⟩
    · simp [chunksFrom, Pending.feed, hrange] at h

/-- A character with more bytes owed is still open after the next one. -/
theorem chunksFrom_more_inv {owed : Nat} {low high : UInt8} {bits taken : Nat}
    (h : chunksFrom (some ⟨owed + 2, low, high, bits, taken⟩) bs = .char c :: rest) :
    ∃ b bs', bs = b :: bs' ∧ (low ≤ b ∧ b ≤ high) ∧
      chunksFrom (some ⟨owed + 1, 0x80, 0xBF, bits * 64 + (b.toNat - 0x80), taken + 1⟩) bs' = .char c :: rest := by
  cases bs with
  | nil => simp [chunksFrom] at h
  | cons b bs' =>
    refine ⟨b, bs', rfl, ?_⟩
    by_cases hrange : low ≤ b ∧ b ≤ high
    · simp [chunksFrom, Pending.feed, hrange] at h
      exact ⟨hrange, h⟩
    · simp [chunksFrom, Pending.feed, hrange] at h

theorem utf8EncodeChar_ofNat (h : v.isValidChar) : String.utf8EncodeChar (Char.ofNat v) =
    if v ≤ 127 then [UInt8.ofNat v]
    else if v ≤ 2047 then [.ofNat (v / 64 % 32 + 192), .ofNat (v % 64 + 128)]
    else if v ≤ 65535 then [.ofNat (v / 4096 % 16 + 224), .ofNat (v / 64 % 64 + 128), .ofNat (v % 64 + 128)]
    else [.ofNat (v / 262144 % 8 + 240), .ofNat (v / 4096 % 64 + 128), .ofNat (v / 64 % 64 + 128),
      .ofNat (v % 64 + 128)] := by
  have hval : (Char.ofNat v).val.toNat = v := by
    rw [Char.ofNat, dif_pos h]
    rfl
  simp only [String.utf8EncodeChar, hval]

theorem ofNat_eq {n : Nat} (h : n = b.toNat) : UInt8.ofNat n = b := by
  rw [h, UInt8.ofNat_toNat]

/-- What the first byte of a character says, by its range. -/
theorem lead_cases (b : UInt8) :
    b.toNat < 0x80 ∧ lead b = .whole (Char.ofNat b.toNat) ∨
      (0xC2 ≤ b.toNat ∧ b.toNat < 0xE0) ∧ lead b = .start ⟨1, 0x80, 0xBF, b.toNat - 0xC0, 1⟩ ∨
      (0xE0 ≤ b.toNat ∧ b.toNat < 0xF0) ∧ lead b = .start ⟨2, if b.toNat = 0xE0 then 0xA0 else 0x80,
        if b.toNat = 0xED then 0x9F else 0xBF, b.toNat - 0xE0, 1⟩ ∨
      (0xF0 ≤ b.toNat ∧ b.toNat < 0xF5) ∧ lead b = .start ⟨3, if b.toNat = 0xF0 then 0x90 else 0x80,
        if b.toNat = 0xF4 then 0x8F else 0xBF, b.toNat - 0xF0, 1⟩ ∨
      lead b = .invalid := by
  simp only [lead]
  split
  · exact Or.inl ⟨‹_›, rfl⟩
  split
  · exact Or.inr (Or.inr (Or.inr (Or.inr rfl)))
  split
  · exact Or.inr (Or.inl ⟨⟨by omega, ‹_›⟩, rfl⟩)
  split
  · exact Or.inr (Or.inr (Or.inl ⟨⟨by omega, ‹_›⟩, rfl⟩))
  split
  · exact Or.inr (Or.inr (Or.inr (Or.inl ⟨⟨by omega, ‹_›⟩, rfl⟩)))
  · exact Or.inr (Or.inr (Or.inr (Or.inr rfl)))

/-- A bound that depends on the first byte, as a bound on numbers. -/
theorem ite_le_iff {P : Prop} [Decidable P] {x y : UInt8} :
    (if P then x else y) ≤ b ↔ (P ∧ x.toNat ≤ b.toNat) ∨ (¬P ∧ y.toNat ≤ b.toNat) := by
  split <;> simp [UInt8.le_iff_toNat_le, *]

theorem le_ite_iff {P : Prop} [Decidable P] {x y : UInt8} :
    b ≤ (if P then x else y) ↔ (P ∧ b.toNat ≤ x.toNat) ∨ (¬P ∧ b.toNat ≤ y.toNat) := by
  split <;> simp [UInt8.le_iff_toNat_le, *]

/-- What is cut into a character begins with its bytes. -/
theorem chunksFrom_eq_char (h : chunksFrom none bs = .char c :: rest) :
    ∃ bs', bs = String.utf8EncodeChar c ++ bs' ∧ chunksFrom none bs' = rest := by
  cases bs with
  | nil => cases h
  | cons b bs =>
    rw [chunksFrom_none_cons] at h
    rcases lead_cases b with ⟨hb, hl⟩ | ⟨hb, hl⟩ | ⟨hb, hl⟩ | ⟨hb, hl⟩ | hl <;> simp only [hl] at h
    · cases h
      refine ⟨bs, ?_, rfl⟩
      rw [utf8EncodeChar_ofNat (Or.inl (by omega)), if_pos (by omega), ofNat_eq rfl]
      rfl
    · obtain ⟨b₁, bs', rfl, hb₁, hc, hrest⟩ := chunksFrom_last_inv h
      simp only [UInt8.le_iff_toNat_le, UInt8.reduceToNat] at hb₁
      refine ⟨bs', ?_, hrest⟩
      rw [hc, utf8EncodeChar_ofNat (Or.inl (by omega)), if_neg (by omega), if_pos (by omega),
        ofNat_eq (b := b) (by omega), ofNat_eq (b := b₁) (by omega)]
      rfl
    · obtain ⟨b₁, bs₁, rfl, hb₁, h⟩ := chunksFrom_more_inv h
      obtain ⟨b₂, bs', rfl, hb₂, hc, hrest⟩ := chunksFrom_last_inv h
      rw [ite_le_iff, le_ite_iff] at hb₁
      simp only [UInt8.le_iff_toNat_le, UInt8.reduceToNat] at hb₁ hb₂
      refine ⟨bs', ?_, hrest⟩
      rw [hc, utf8EncodeChar_ofNat (by unfold Nat.isValidChar; omega), if_neg (by omega), if_neg (by omega),
        if_pos (by omega), ofNat_eq (b := b) (by omega), ofNat_eq (b := b₁) (by omega),
        ofNat_eq (b := b₂) (by omega)]
      rfl
    · obtain ⟨b₁, bs₁, rfl, hb₁, h⟩ := chunksFrom_more_inv h
      obtain ⟨b₂, bs₂, rfl, hb₂, h⟩ := chunksFrom_more_inv h
      obtain ⟨b₃, bs', rfl, hb₃, hc, hrest⟩ := chunksFrom_last_inv h
      rw [ite_le_iff, le_ite_iff] at hb₁
      simp only [UInt8.le_iff_toNat_le, UInt8.reduceToNat] at hb₁ hb₂ hb₃
      refine ⟨bs', ?_, hrest⟩
      rw [hc, utf8EncodeChar_ofNat (by unfold Nat.isValidChar; omega), if_neg (by omega), if_neg (by omega),
        if_neg (by omega), ofNat_eq (b := b) (by omega), ofNat_eq (b := b₁) (by omega),
        ofNat_eq (b := b₂) (by omega), ofNat_eq (b := b₃) (by omega)]
      rfl
    · cases h

/-- Only nothing is cut into nothing. -/
theorem chunksFrom_eq_nil : ∀ {open? : Option Pending}, chunksFrom open? bs = [] → open? = none ∧ bs = [] := by
  induction bs with
  | nil =>
    intro open? h
    cases open? with
    | none => exact ⟨rfl, rfl⟩
    | some p => cases h
  | cons b bs ih =>
    intro open? h
    have hopen : ∀ p, chunksFrom (some p) bs ≠ [] := fun p hp => nomatch (ih hp).1
    cases open? with
    | none =>
      rw [chunksFrom_none_cons] at h
      split at h
      · cases h
      · exact absurd h (hopen _)
      · cases h
    | some p =>
      rw [chunksFrom] at h
      split at h
      · cases h
      · exact absurd h (hopen _)
      · cases (List.append_eq_nil_iff.mp h).1

/-- A cut without faults is one of characters. -/
theorem collect_eq_ok {chunks : List Chunk} : ∀ {index : Nat} {cs : List Char},
    collect index chunks = .ok cs → chunks = cs.map .char := by
  induction chunks with
  | nil =>
    intro index cs h
    cases h
    rfl
  | cons chunk chunks ih =>
    intro index cs h
    cases chunk with
    | char c =>
      obtain ⟨cs', hrest, h⟩ := bind_eq_ok h
      cases h
      rw [List.map_cons, ← ih hrest]
    | malformed width => cases h
    | truncated => cases h

/-- What is cut into characters is their bytes. -/
theorem eq_flatMap_of_chunksFrom {cs : List Char} : ∀ {bs : List UInt8}, chunksFrom none bs = cs.map .char →
    bs = cs.flatMap String.utf8EncodeChar := by
  induction cs with
  | nil =>
    intro bs h
    cases bs with
    | nil => rfl
    | cons b bs => cases (chunksFrom_eq_nil h).2
  | cons c cs ih =>
    intro bs h
    obtain ⟨bs', rfl, hrest⟩ := chunksFrom_eq_char h
    rw [List.flatMap_cons, ← ih hrest]

/-- **A byte sequence is decoded to a text just if it is the bytes of the text.** -/
theorem decode?_eq_ok {bs : List UInt8} {cs : List Char} : decode? bs = .ok cs ↔ bs = encode (String.ofList cs) := by
  constructor
  · intro h
    rw [encode, String.toList_ofList]
    exact eq_flatMap_of_chunksFrom (collect_eq_ok h)
  · rintro rfl
    rw [decode?_encode, String.toList_ofList]

theorem text?_eq_some {bs : List UInt8} {s : String} : text? bs = some s ↔ bs = encode s := by
  unfold text?
  constructor
  · intro h
    split at h
    · rename_i hdecode
      cases h
      exact decode?_eq_ok.mp hdecode
    · cases h
  · rintro rfl
    simp [decode?_encode]

theorem encode_injective : Function.Injective encode := by
  intro s t h
  exact Option.some.inj ((text?_eq_some.mpr rfl).symm.trans (text?_eq_some.mpr h))

/-! ## The order of the bytes -/

theorem cons_ofNat_lt_cons {m n : Nat} {xs ys : List UInt8} (hm : m < 256) (hn : n < 256) :
    UInt8.ofNat m :: xs < UInt8.ofNat n :: ys ↔ m < n ∨ m = n ∧ xs < ys := by
  rw [List.cons_lt_cons_iff, UInt8.lt_iff_toNat_lt, ← UInt8.toNat_inj, toNat_ofNat hm, toNat_ofNat hn]

/-- The bytes of a character that comes first in the order of code points come first. -/
theorem utf8EncodeChar_append_lt {c d : Char} (h : c < d) (xs ys : List UInt8) :
    String.utf8EncodeChar c ++ xs < String.utf8EncodeChar d ++ ys := by
  have hlt : c.val.toNat < d.val.toNat := h
  have hd : d.val.toNat < 0x110000 := by rcases d.valid with h | h <;> omega
  simp only [String.utf8EncodeChar]
  generalize c.val.toNat = v at hlt
  generalize d.val.toNat = w at hlt hd
  have hv : v / 262144 % 8 = v / 262144 := by omega
  have hw : w / 262144 % 8 = w / 262144 := by omega
  -- A longer character has the greater first byte; among those of one length, the highest digit that differs decides.
  split_ifs
  all_goals first
    | omega
    | simp (disch := omega) only [List.cons_append, List.nil_append, cons_ofNat_lt_cons]
      omega

theorem flatMap_utf8EncodeChar_lt {cs ds : List Char} (h : cs < ds) :
    cs.flatMap String.utf8EncodeChar < ds.flatMap String.utf8EncodeChar := by
  induction h with
  | @nil d ds =>
    have hne : String.utf8EncodeChar d ++ ds.flatMap String.utf8EncodeChar ≠ [] := by simp
    obtain ⟨b, bs, hbs⟩ := List.exists_cons_of_ne_nil hne
    rw [List.flatMap_cons, hbs]
    exact List.nil_lt_cons b bs
  | cons _ ih =>
    rw [List.flatMap_cons, List.flatMap_cons]
    exact List.append_left_lt ih
  | rel h =>
    rw [List.flatMap_cons, List.flatMap_cons]
    exact utf8EncodeChar_append_lt h _ _

/-- The order of texts is that of their bytes. -/
theorem encode_lt_encode {s t : String} : encode s < encode t ↔ s < t := by
  constructor
  · intro h
    by_contra hst
    rcases List.le_iff_lt_or_eq.mp (String.not_lt.mp hst) with hlt | heq
    · exact List.lt_asymm h (flatMap_utf8EncodeChar_lt hlt)
    · rw [encode, encode, heq] at h
      exact List.lt_irrefl _ h
  · intro h
    exact flatMap_utf8EncodeChar_lt h

end EventCourier.Utf8
