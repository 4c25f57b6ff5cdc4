import SheetMarkup.Text.Bytes

/-!
# The bytes of a text

In UTF-8 an ASCII character is one byte, and all bytes of another character are beyond ASCII. So a
reader that looks for ASCII characters only may as well work on bytes.

* `utf8`, `length_utf8`: the bytes of a text, and their number;
* **`utf8EncodeChar_cases`**: the bytes of a character;
* `utf8_eq_marked`: the texts that start with a byte order mark;
* `decodeUtf8?_toUTF8`, **`decodeUtf8?_utf8`**: the text is read back from its bytes.
-/

namespace SheetMarkup.Text

/-- The bytes of a text. -/
def utf8 (cs : List Char) : List UInt8 := cs.flatMap String.utf8EncodeChar

theorem utf8_nil : utf8 [] = [] := rfl

theorem utf8_cons (c : Char) (cs : List Char) :
    utf8 (c :: cs) = String.utf8EncodeChar c ++ utf8 cs := rfl

theorem utf8_append (cs ds : List Char) : utf8 (cs ++ ds) = utf8 cs ++ utf8 ds :=
  List.flatMap_append

theorem length_utf8 (cs : List Char) : (utf8 cs).length = byteLength cs := by
  induction cs with
  | nil => rfl
  | cons c cs ih =>
    rw [utf8_cons, List.length_append, ih, String.length_utf8EncodeChar, byteLength_cons]

/-- **A character is one byte if it is ASCII, and else some bytes beyond ASCII.** -/
theorem utf8EncodeChar_cases (c : Char) :
    c.toNat < 128 ∧ String.utf8EncodeChar c = [UInt8.ofNat c.toNat] ∨
      128 ≤ c.toNat ∧ String.utf8EncodeChar c ≠ [] ∧
        ∀ b ∈ String.utf8EncodeChar c, 128 ≤ b.toNat := by
  have hval : c.val.toNat = c.toNat := rfl
  rw [String.utf8EncodeChar, hval]
  by_cases hc : c.toNat < 128
  · exact .inl ⟨hc, if_pos (by omega)⟩
  · refine .inr ⟨by omega, ?_⟩
    have hbyte : ∀ n, 128 ≤ n → n < 256 → 128 ≤ (UInt8.ofNat n).toNat := by
      intro n hn hlt
      rw [UInt8.toNat_ofNat']
      omega
    rw [if_neg (by omega)]
    split
    · refine ⟨List.cons_ne_nil _ _, ?_⟩
      simp only [List.forall_mem_cons]
      exact ⟨hbyte _ (by omega) (by omega), hbyte _ (by omega) (by omega), by simp⟩
    · split
      · refine ⟨List.cons_ne_nil _ _, ?_⟩
        simp only [List.forall_mem_cons]
        exact ⟨hbyte _ (by omega) (by omega), hbyte _ (by omega) (by omega),
          hbyte _ (by omega) (by omega), by simp⟩
      · refine ⟨List.cons_ne_nil _ _, ?_⟩
        simp only [List.forall_mem_cons]
        exact ⟨hbyte _ (by omega) (by omega), hbyte _ (by omega) (by omega),
          hbyte _ (by omega) (by omega), hbyte _ (by omega) (by omega), by simp⟩

theorem utf8_eq_marked {cs : List Char} {bytes : List UInt8}
    (h : utf8 cs = 0xEF :: 0xBB :: 0xBF :: bytes) : cs.head? = some '\ufeff' := by
  cases cs with
  | nil => cases h
  | cons c cs =>
    have hval : c.val.toNat = c.toNat := rfl
    have hlt : c.toNat < 0x110000 := by
      have hvalid : c.toNat.isValidChar := c.valid
      unfold Nat.isValidChar at hvalid
      omega
    have hbyte : ∀ {n m : Nat}, UInt8.ofNat n = UInt8.ofNat m → n % 256 = m % 256 := by
      intro n m hnm
      have htoNat := congrArg UInt8.toNat hnm
      rwa [UInt8.toNat_ofNat', UInt8.toNat_ofNat'] at htoNat
    have hnumber : c.toNat = 0xFEFF := by
      rw [utf8_cons, String.utf8EncodeChar, hval] at h
      split at h
      · have h1 := hbyte (m := 0xEF) (List.cons.inj h).1
        omega
      · split at h
        · have h1 := hbyte (m := 0xEF) (List.cons.inj h).1
          omega
        · split at h
          · obtain ⟨h1, h⟩ := List.cons.inj h
            obtain ⟨h2, h⟩ := List.cons.inj h
            have h1 := hbyte (m := 0xEF) h1
            have h2 := hbyte (m := 0xBB) h2
            have h3 := hbyte (m := 0xBF) (List.cons.inj h).1
            omega
          · have h1 := hbyte (m := 0xEF) (List.cons.inj h).1
            omega
    have hc : c = '\ufeff' := Char.toNat_inj.mp hnumber
    rw [hc]
    rfl

theorem decodeUtf8?_toUTF8 (s : String) : decodeUtf8? s.toUTF8 = some s := by
  rw [decodeUtf8?, String.fromUTF8?, String.toUTF8_eq_toByteArray, dif_pos s.isValidUTF8]
  rfl

/-- **The bytes of a text are read back as the text.** -/
theorem decodeUtf8?_utf8 (cs : List Char) :
    decodeUtf8? (utf8 cs).toByteArray = some (String.ofList cs) :=
  decodeUtf8?_toUTF8 (String.ofList cs)

end SheetMarkup.Text
