/-!
# Sizes and offsets of text

Offsets into a document count the bytes of its UTF-8 form; columns of an
editor count UTF-16 units.  Both are measures on lists of characters, and
cutting a text at a byte offset succeeds exactly on character boundaries.
-/

namespace CatalogServer.Text

/-- Number of bytes of the UTF-8 form of a text. -/
def byteSize : List Char → Nat
  | [] => 0
  | c :: rest => c.utf8Size + byteSize rest

/-- Number of UTF-16 units of a character: two outside the basic plane. -/
def utf16Units (c : Char) : Nat :=
  if c.toNat < 0x10000 then 1 else 2

def utf16Size : List Char → Nat
  | [] => 0
  | c :: rest => utf16Units c + utf16Size rest

/-- Splits a text at a byte offset, or fails when the offset lies inside a
character or past the end. -/
def splitAtByte : Nat → List Char → Option (List Char × List Char)
  | 0, text => some ([], text)
  | _ + 1, [] => none
  | offset, c :: rest =>
      if c.utf8Size ≤ offset then
        (splitAtByte (offset - c.utf8Size) rest).map fun (before, after) =>
          (c :: before, after)
      else
        none

/-- The part of a text between two byte offsets, when both are boundaries. -/
def slice (start stop : Nat) (text : List Char) : Option (List Char) := do
  let (_, fromStart) ← splitAtByte start text
  if start ≤ stop then
    (splitAtByte (stop - start) fromStart).map Prod.fst
  else
    none

def encode (text : List Char) : List UInt8 :=
  text.flatMap String.utf8EncodeChar

/-- The text whose UTF-8 form is the given bytes, if there is one. -/
def decode (bytes : List UInt8) : Option String :=
  String.fromUTF8? ⟨bytes.toArray⟩

/-- The bytes that may follow the first byte of a character of several
bytes, as a range for each of them. -/
def followerRanges (lead : UInt8) : List (UInt8 × UInt8) :=
  if 0xC2 ≤ lead && lead ≤ 0xDF then [(0x80, 0xBF)]
  else if lead == 0xE0 then [(0xA0, 0xBF), (0x80, 0xBF)]
  else if lead == 0xED then [(0x80, 0x9F), (0x80, 0xBF)]
  else if 0xE1 ≤ lead && lead ≤ 0xEF then [(0x80, 0xBF), (0x80, 0xBF)]
  else if lead == 0xF0 then [(0x90, 0xBF), (0x80, 0xBF), (0x80, 0xBF)]
  else if lead == 0xF4 then [(0x80, 0x8F), (0x80, 0xBF), (0x80, 0xBF)]
  else if 0xF1 ≤ lead && lead ≤ 0xF3 then [(0x80, 0xBF), (0x80, 0xBF), (0x80, 0xBF)]
  else []

/-- The first bytes that fit ranges one by one. -/
def takeFollowers : List (UInt8 × UInt8) → List UInt8 → List UInt8
  | (low, high) :: ranges, byte :: rest =>
      if low ≤ byte && byte ≤ high then byte :: takeFollowers ranges rest else []
  | _, _ => []

/-- The text of bytes in which every broken character is replaced by one
replacement character. -/
def decodeLenient : List UInt8 → List Char
  | [] => []
  | lead :: rest =>
      let ranges := followerRanges lead
      let followers := takeFollowers ranges rest
      let decoded :=
        if lead < 0x80 || (!ranges.isEmpty && followers.length == ranges.length) then
          (decode (lead :: followers)).map String.toList
        else none
      decoded.getD ['\uFFFD'] ++ decodeLenient (rest.drop followers.length)
termination_by bytes => bytes.length
decreasing_by
  simp only [List.length_cons, List.length_drop]
  omega

@[simp]
theorem byteSize_append (first second : List Char) :
    byteSize (first ++ second) = byteSize first + byteSize second := by
  induction first with
  | nil => simp [byteSize]
  | cons c rest ih => simp [byteSize, ih, Nat.add_assoc]

@[simp]
theorem utf16Size_append (first second : List Char) :
    utf16Size (first ++ second) = utf16Size first + utf16Size second := by
  induction first with
  | nil => simp [utf16Size]
  | cons c rest ih => simp [utf16Size, ih, Nat.add_assoc]

theorem utf16Units_pos (c : Char) : 0 < utf16Units c := by
  unfold utf16Units
  split <;> omega

theorem splitAtByte_append (first second : List Char) :
    splitAtByte (byteSize first) (first ++ second) = some (first, second) := by
  induction first with
  | nil => simp [byteSize, splitAtByte]
  | cons c rest ih =>
      have positive : 0 < c.utf8Size := c.utf8Size_pos
      have step : splitAtByte (byteSize (c :: rest)) (c :: rest ++ second) =
          (splitAtByte (byteSize (c :: rest) - c.utf8Size) (rest ++ second)).map
            fun (before, after) => (c :: before, after) := by
        obtain ⟨size, sizeEq⟩ : ∃ size, byteSize (c :: rest) = size + 1 :=
          ⟨byteSize (c :: rest) - 1, by simp only [byteSize]; omega⟩
        rw [sizeEq]
        simp only [List.cons_append, splitAtByte]
        rw [if_pos (by rw [← sizeEq]; simp [byteSize])]
      rw [step]
      have sizeEq : byteSize (c :: rest) - c.utf8Size = byteSize rest := by
        simp [byteSize]
      rw [sizeEq, ih]
      rfl

end CatalogServer.Text
