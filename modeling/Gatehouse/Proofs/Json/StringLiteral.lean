import Gatehouse.Json.Parser
import Gatehouse.Json.Printer
import Gatehouse.Proofs.Text.Utf8

set_option autoImplicit false

/-!
# String literals

Reading a quoted text gives the text back, whatever follows the closing quote.
-/

namespace Gatehouse.Json

def charUnits (c : Char) : List StringUnit :=
  if c.toNat < 0x20 ∧ c ∉ ['\x08', '\x0c', '\n', '\r', '\t'] then [.codeUnit c.toNat]
  else (String.utf8EncodeChar c).map .byte

theorem scanString_codeUnit {n : Nat} (hn : n < 0x20) (seen : List StringUnit)
    (rest : List UInt8) :
    scanString seen (Text.utf8 ('\\' :: 'u' :: Text.hexDigits 4 n) ++ rest) =
      scanString (.codeUnit n :: seen) rest := by
  have hall : ∀ m : Fin 0x20, ∃ p q r s : UInt8,
      Text.utf8 ('\\' :: 'u' :: Text.hexDigits 4 m.val) = [0x5C, 0x75, p, q, r, s] ∧
        codeUnit? p q r s = some m.val := by
    intro m
    refine ⟨0x30, 0x30, if m.val < 16 then 0x30 else 0x31,
      (Nat.digitChar (m.val % 16)).toNat.toUInt8, ?_⟩
    revert m
    decide
  obtain ⟨p, q, r, s, hbytes, hunit⟩ := hall ⟨n, hn⟩
  rw [hbytes]
  simp only [List.cons_append, List.nil_append]
  rw [scanString, hunit]
  rfl

theorem scanString_plain {b : UInt8} (hlow : ¬ b < 0x20) (hquote : b ≠ 0x22) (hslash : b ≠ 0x5C)
    (seen : List StringUnit) (rest : List UInt8) :
    scanString seen (b :: rest) = scanString (.byte b :: seen) rest := by
  rw [scanString.eq_def]
  split <;> simp_all [-UInt8.not_lt]

theorem scanString_plains {bytes : List UInt8}
    (h : ∀ b ∈ bytes, ¬ b < 0x20 ∧ b ≠ 0x22 ∧ b ≠ 0x5C) (seen : List StringUnit)
    (rest : List UInt8) :
    scanString seen (bytes ++ rest) = scanString ((bytes.map .byte).reverse ++ seen) rest := by
  induction bytes generalizing seen with
  | nil => rfl
  | cons b bytes ih =>
    obtain ⟨hlow, hquote, hslash⟩ := h b List.mem_cons_self
    rw [List.cons_append, scanString_plain hlow hquote hslash,
      ih fun d hd => h d (List.mem_cons_of_mem _ hd)]
    simp

theorem plain_of_mem_utf8EncodeChar {c : Char} (hlow : ¬ c.toNat < 0x20) (hquote : c ≠ '"')
    (hslash : c ≠ '\\') {b : UInt8} (hb : b ∈ String.utf8EncodeChar c) :
    ¬ b < 0x20 ∧ b ≠ 0x22 ∧ b ≠ 0x5C := by
  by_cases hc : c.toNat < 0x80
  · rw [Text.utf8EncodeChar_of_short hc, List.mem_singleton] at hb
    have hn : b.toNat = c.toNat := by
      rw [hb, Text.toNat_toUInt8_of_short (by omega)]
    have hq : c.toNat ≠ 0x22 := fun e => hquote (Char.toNat_inj.1 e)
    have hs : c.toNat ≠ 0x5C := fun e => hslash (Char.toNat_inj.1 e)
    refine ⟨?_, ?_, ?_⟩
    · rw [UInt8.lt_iff_toNat_lt, hn]
      simpa using hlow
    · exact fun e => hq (by rw [← hn, e]; rfl)
    · exact fun e => hs (by rw [← hn, e]; rfl)
  · have hn := Text.toNat_mem_utf8EncodeChar (Nat.le_of_not_lt hc) hb
    refine ⟨?_, ?_, ?_⟩
    · rw [UInt8.lt_iff_toNat_lt]
      simp
      omega
    · intro e
      simp [e] at hn
    · intro e
      simp [e] at hn

theorem scanString_escapeChar (c : Char) (seen : List StringUnit) (rest : List UInt8) :
    scanString seen (Text.utf8 (escapeChar c) ++ rest) =
      scanString ((charUnits c).reverse ++ seen) rest := by
  by_cases hshort : c ∈ ['"', '\\', '\x08', '\x0c', '\n', '\r', '\t']
  · simp only [List.mem_cons, List.not_mem_nil, or_false] at hshort
    rcases hshort with rfl | rfl | rfl | rfl | rfl | rfl | rfl <;> rfl
  · simp only [List.mem_cons, List.not_mem_nil, or_false, not_or] at hshort
    obtain ⟨hquote, hslash, hb, hf, hn, hr, ht⟩ := hshort
    have hesc : escapeChar c =
        if c.toNat < 0x20 then '\\' :: 'u' :: Text.hexDigits 4 c.toNat else [c] := by
      simp [escapeChar, hquote, hslash, hb, hf, hn, hr, ht]
    by_cases hlow : c.toNat < 0x20
    · have hunits : charUnits c = [.codeUnit c.toNat] := by
        simp [charUnits, hlow, hb, hf, hn, hr, ht]
      rw [hesc, if_pos hlow, hunits, scanString_codeUnit hlow]
      rfl
    · have hunits : charUnits c = (String.utf8EncodeChar c).map .byte := by
        simp [charUnits, hlow]
      rw [hesc, if_neg hlow, hunits, Text.utf8_cons, Text.utf8_nil, List.append_nil]
      exact scanString_plains (fun b hb => plain_of_mem_utf8EncodeChar hlow hquote hslash hb) _ _

theorem scanString_escaped (cs : List Char) (seen : List StringUnit) (rest : List UInt8) :
    scanString seen (Text.utf8 (cs.flatMap escapeChar) ++ 0x22 :: rest) =
      some (seen.reverse ++ cs.flatMap charUnits, rest) := by
  induction cs generalizing seen with
  | nil => simp [scanString]
  | cons c cs ih =>
    rw [List.flatMap_cons, Text.utf8_append, List.append_assoc, scanString_escapeChar, ih]
    simp

theorem unitBytes?_bytes (bytes : List UInt8) (units : List StringUnit) :
    unitBytes? (bytes.map .byte ++ units) = (unitBytes? units).map (bytes ++ ·) := by
  induction bytes with
  | nil => simp
  | cons b bytes ih =>
    rw [List.map_cons, List.cons_append, unitBytes?, ih]
    cases unitBytes? units <;> rfl

theorem unitBytes?_charUnits (c : Char) (units : List StringUnit) :
    unitBytes? (charUnits c ++ units) =
      (unitBytes? units).map (String.utf8EncodeChar c ++ ·) := by
  unfold charUnits
  split
  · next h =>
    have hlow : c.toNat < 0xD800 := by omega
    rw [List.singleton_append, unitBytes?.eq_def]
    simp only [hlow, true_or, if_true, charBytes, Char.ofNat_toNat]
  · exact unitBytes?_bytes _ _

theorem unitBytes?_chars (cs : List Char) :
    unitBytes? (cs.flatMap charUnits) = some (Text.utf8 cs) := by
  induction cs with
  | nil => rfl
  | cons c cs ih =>
    rw [List.flatMap_cons, unitBytes?_charUnits, ih]
    simp

/-- What `quote` writes after the opening quote is read back as the text. -/
theorem parseString_quoted (text : String) (rest : List UInt8) :
    parseString (Text.utf8 (text.toList.flatMap escapeChar) ++ 0x22 :: rest) =
      some (some text, rest) := by
  rw [parseString, scanString_escaped]
  simp [unitsText?, unitBytes?_chars, Text.ofUtf8?_utf8]

end Gatehouse.Json
