import EventCourier.Proofs.Text.Utf8
import EventCourier.Text.Percent

/-!
# Percent encoding is read back

A byte is decoded from the characters that it is encoded as, whatever follows them (`decode_encodeByte`); so a text is
decoded from its encoding (`standsFor_encodeChars`), and two texts have different encodings
(`encodeChars_injective`). What is encoded is written in an alphabet without separators (`mem_alphabet`).
-/

namespace EventCourier.Percent

/-! ## The alphabet -/

/-- The characters of encoded texts: the percent sign, and those that stand for themselves. -/
def alphabet : List Char :=
  '%' :: ((List.range 256).filter fun n => isUnreserved (.ofNat n)).map Char.ofNat

theorem encodeByte_subset : ∀ n < 256, (encodeByte (.ofNat n)).all (· ∈ alphabet) = true := by decide +kernel

theorem mem_alphabet {s : String} {c : Char} (h : c ∈ encodeChars s) : c ∈ alphabet := by
  obtain ⟨b, -, hb⟩ := List.mem_flatMap.mp h
  rw [← UInt8.ofNat_toNat (x := b)] at hb
  simpa using List.all_eq_true.mp (encodeByte_subset b.toNat b.toNat_lt) c hb

/-- What is true of the whole alphabet is checked letter by letter. -/
theorem forall_mem_alphabet {P : Char → Prop} [DecidablePred P] (h : alphabet.all (fun c => decide (P c)) = true) :
    ∀ c ∈ alphabet, P c := by simpa using h

/-- No separator is in an encoded text. -/
theorem not_mem_encodeChars {c : Char} (h : c ∉ alphabet) (s : String) : c ∉ encodeChars s := fun hc => h (mem_alphabet hc)

/-! ## Decoding -/

theorem value?_hexDigit : ∀ n < 16, Hex.value? (hexDigit n) = some n := by decide

theorem unreserved_spec : ∀ n < 256, isUnreserved (.ofNat n) = true → n < 128 ∧ Char.ofNat n ≠ '%' := by
  decide +kernel

theorem decode_cons {c : Char} (h : c ≠ '%') (cs : List Char) :
    decode (c :: cs) = String.utf8EncodeChar c ++ decode cs := by
  rw [decode]
  exact fun _ _ _ hc _ => h hc

theorem decode_escapeByte (b : UInt8) (cs : List Char) : decode (escapeByte b ++ cs) = b :: decode cs := by
  have hb : b.toNat < 256 := b.toNat_lt
  have hsum : b.toNat / 16 * 16 + b.toNat % 16 = b.toNat := Nat.div_add_mod' b.toNat 16
  simp only [escapeByte, List.cons_append, List.nil_append, decode, value?_hexDigit (b.toNat / 16) (by omega),
    value?_hexDigit (b.toNat % 16) (by omega), hsum, UInt8.ofNat_toNat]

/-- A byte is decoded from the characters that it is encoded as. -/
theorem decode_encodeByte (b : UInt8) (cs : List Char) : decode (encodeByte b ++ cs) = b :: decode cs := by
  unfold encodeByte
  split
  · rename_i hplain
    rw [← UInt8.ofNat_toNat (x := b)] at hplain
    obtain ⟨hascii, hne⟩ := unreserved_spec b.toNat b.toNat_lt hplain
    rw [List.singleton_append, decode_cons hne, Utf8.utf8EncodeChar_ofNat (Or.inl (by omega)), if_pos (by omega),
      UInt8.ofNat_toNat]
    rfl
  · exact decode_escapeByte b cs

theorem decode_flatMap (bs : List UInt8) (cs : List Char) : decode (bs.flatMap encodeByte ++ cs) = bs ++ decode cs := by
  induction bs with
  | nil => rfl
  | cons b bs ih => rw [List.flatMap_cons, List.append_assoc, decode_encodeByte, ih, List.cons_append]

/-! ## Texts -/

/-- The characters are decoded to a text. -/
def StandsFor (cs : List Char) (s : String) : Prop := Utf8.text? (decode cs) = some s

instance (cs : List Char) (s : String) : Decidable (StandsFor cs s) :=
  inferInstanceAs (Decidable (Utf8.text? (decode cs) = some s))

/-- A text is decoded from its encoding. -/
theorem standsFor_encodeChars (s : String) : StandsFor (encodeChars s) s := by
  have hbytes : decode (encodeChars s) = Utf8.encode s := by
    rw [encodeChars, ← List.append_nil (List.flatMap _ _), decode_flatMap, decode, List.append_nil]
  rw [StandsFor, hbytes, Utf8.text?, Utf8.decode?_encode]
  exact congrArg some String.ofList_toList

theorem toList_encode (s : String) : (encode s).toList = encodeChars s := String.toList_ofList

theorem encodeChars_injective : Function.Injective encodeChars := by
  intro s t h
  have hs := standsFor_encodeChars s
  rw [h] at hs
  exact Option.some.inj (hs.symm.trans (standsFor_encodeChars t))

end EventCourier.Percent
