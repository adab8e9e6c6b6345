set_option autoImplicit false

/-!
# UTF-8

Texts are stored and sent as bytes. `utf8` encodes, `ofUtf8?` reads well-formed bytes back and
refuses all others, and `ofUtf8Lossy` reads any bytes, putting U+FFFD for each ill-formed part.
-/

namespace Gatehouse.Text

def utf8 (cs : List Char) : List UInt8 :=
  cs.flatMap String.utf8EncodeChar

def ofUtf8? (bytes : List UInt8) : Option String :=
  String.fromUTF8? ⟨bytes.toArray⟩

@[simp] theorem utf8_nil : utf8 [] = [] := rfl

@[simp] theorem utf8_cons (c : Char) (cs : List Char) :
    utf8 (c :: cs) = String.utf8EncodeChar c ++ utf8 cs := by
  simp [utf8]

@[simp] theorem utf8_append (cs ds : List Char) : utf8 (cs ++ ds) = utf8 cs ++ utf8 ds := by
  simp [utf8]

theorem utf8_toList (text : String) : utf8 text.toList = text.toByteArray.data.toList := by
  rw [← String.utf8Encode_toList, List.utf8Encode]
  simp [utf8]

theorem ofUtf8?_utf8 (text : String) : ofUtf8? (utf8 text.toList) = some text := by
  have h : (⟨(utf8 text.toList).toArray⟩ : ByteArray) = text.toByteArray := by
    rw [utf8_toList]
  simp only [ofUtf8?, h, String.fromUTF8?, dif_pos text.isValidUTF8]
  rfl

def isTail (low high b : UInt8) : Bool :=
  low ≤ b && b ≤ high

/-- What a first byte announces: how many bytes follow, the payload it carries, and the bounds on
the byte after it. No entry means that no character starts with this byte. -/
def announced? (b : UInt8) : Option (Nat × Nat × UInt8 × UInt8) :=
  if b < 0x80 then some (0, b.toNat, 0x80, 0xBF)
  else if b < 0xC2 then none
  else if b < 0xE0 then some (1, b.toNat - 0xC0, 0x80, 0xBF)
  else if b == 0xE0 then some (2, 0, 0xA0, 0xBF)
  else if b == 0xED then some (2, 0xD, 0x80, 0x9F)
  else if b < 0xF0 then some (2, b.toNat - 0xE0, 0x80, 0xBF)
  else if b == 0xF0 then some (3, 0, 0x90, 0xBF)
  else if b < 0xF4 then some (3, b.toNat - 0xF0, 0x80, 0xBF)
  else if b == 0xF4 then some (3, 4, 0x80, 0x8F)
  else none

/-- Reads `count` more bytes of a character whose bits so far are `bits`, the first of them between
`low` and `high`. The character is U+FFFD when a byte is missing or out of bounds; that byte stays
in the rest. -/
def lossyTail : Nat → Nat → UInt8 → UInt8 → List UInt8 → Char × List UInt8
  | 0, bits, _, _, rest => (Char.ofNat bits, rest)
  | _ + 1, _, _, _, [] => ('\uFFFD', [])
  | count + 1, bits, low, high, b :: rest =>
    if isTail low high b then lossyTail count (bits * 64 + (b.toNat - 0x80)) 0x80 0xBF rest
    else ('\uFFFD', b :: rest)

theorem lossyTail_length (count bits : Nat) (low high : UInt8) (bytes : List UInt8) :
    (lossyTail count bits low high bytes).2.length ≤ bytes.length := by
  induction count generalizing bits low high bytes with
  | zero => simp [lossyTail]
  | succ count ih =>
    cases bytes with
    | nil => simp [lossyTail]
    | cons b rest =>
      simp only [lossyTail]
      split
      · exact Nat.le_trans (ih _ _ _ _) (by simp)
      · simp

def lossyChars : List UInt8 → List Char
  | [] => []
  | b :: rest =>
    match announced? b with
    | none => '\uFFFD' :: lossyChars rest
    | some (count, bits, low, high) =>
      (lossyTail count bits low high rest).1 :: lossyChars (lossyTail count bits low high rest).2
termination_by bytes => bytes.length
decreasing_by
  · simp
  · exact Nat.lt_succ_of_le (lossyTail_length ..)

def ofUtf8Lossy (bytes : List UInt8) : String :=
  String.ofList (lossyChars bytes)

end Gatehouse.Text
