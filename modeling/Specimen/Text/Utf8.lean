/-
# Specimen.Text.Utf8 — bytes and the texts they encode.

The system names files by bytes.  Mostly these encode a text in UTF-8, but they need not.  `text?`
gives the text if there is one, and `readable` gives a text in any case, for people to read: where
the bytes are no text, a replacement character stands for the longest run that could have begun a
character, or else for one byte.
-/

namespace Specimen

/-- A name, or a part of one, as the system keeps it. -/
abbrev Bytes := List UInt8

namespace Text

/-! ## Texts as bytes -/

/-- The bytes of a text. -/
def bytes (text : String) : Bytes := text.toByteArray.data.toList

instance : Coe String Bytes := ⟨bytes⟩

/-- The text that has these bytes, if there is one. -/
def text? (bytes : Bytes) : Option String := String.fromUTF8? ⟨bytes.toArray⟩

theorem bytes_ofList (cs : List Char) :
    bytes (String.ofList cs) = cs.flatMap String.utf8EncodeChar := by
  rw [bytes, String.toByteArray_ofList, List.utf8Encode, List.toList_data_toByteArray]

theorem text?_eq_some_iff {held : Bytes} {text : String} :
    text? held = some text ↔ bytes text = held := by
  unfold text? String.fromUTF8? bytes
  constructor
  · intro decoded
    split at decoded
    · obtain rfl := Option.some.inj decoded
      rfl
    · cases decoded
  · rintro rfl
    exact dif_pos text.isValidUTF8

@[simp]
theorem text?_bytes (text : String) : text? (bytes text) = some text := text?_eq_some_iff.mpr rfl

theorem bytes_injective {a b : String} (same : bytes a = bytes b) : a = b :=
  Option.some.inj ((text?_bytes a).symm.trans (same ▸ text?_bytes b))

/-! ## Bytes made readable -/

/-- The character that stands for what cannot be read. -/
def replacement : Char := '\uFFFD'

/-- What can follow the first byte of a character: the least and the greatest byte for each place.
Nothing follows a byte that is a character by itself, or that begins none. -/
def followers (first : UInt8) : List (UInt8 × UInt8) :=
  if first < 0xC2 then []
  else if first < 0xE0 then [(0x80, 0xBF)]
  else if first = 0xE0 then [(0xA0, 0xBF), (0x80, 0xBF)]
  else if first = 0xED then [(0x80, 0x9F), (0x80, 0xBF)]
  else if first < 0xF0 then [(0x80, 0xBF), (0x80, 0xBF)]
  else if first = 0xF0 then [(0x90, 0xBF), (0x80, 0xBF), (0x80, 0xBF)]
  else if first < 0xF4 then [(0x80, 0xBF), (0x80, 0xBF), (0x80, 0xBF)]
  else if first = 0xF4 then [(0x80, 0x8F), (0x80, 0xBF), (0x80, 0xBF)]
  else []

/-- How many bytes, from the first on, are such as can follow. -/
def followed : List (UInt8 × UInt8) → Bytes → Nat
  | (least, greatest) :: places, byte :: bytes =>
    if least ≤ byte ∧ byte ≤ greatest then followed places bytes + 1 else 0
  | _, _ => 0

/-- The character that bytes begin with, and how many bytes belong to it behind the first.  If they
begin with none, it is replaced, together with the bytes that could have been a part of one. -/
def firstChar (first : UInt8) (rest : Bytes) : Char × Nat :=
  match ByteArray.utf8DecodeChar? ⟨(first :: rest).toArray⟩ 0 with
  | some c => (c, c.utf8Size - 1)
  | none => (replacement, followed (followers first) rest)

/-- The characters that bytes show, behind some that belong to a character already shown. -/
def shown : Nat → Bytes → List Char
  | _, [] => []
  | before + 1, _ :: rest => shown before rest
  | 0, first :: rest => (firstChar first rest).1 :: shown (firstChar first rest).2 rest

/-- Bytes as text.  What is no text among them is replaced. -/
def readable (bytes : Bytes) : String := String.ofList (shown 0 bytes)

theorem shown_append (before rest : Bytes) :
    shown before.length (before ++ rest) = shown 0 rest := by
  induction before with
  | nil => rfl
  | cons byte before ih => exact ih

/-- A character is shown where its bytes stand. -/
theorem shown_utf8EncodeChar_append (c : Char) (rest : Bytes) :
    shown 0 (String.utf8EncodeChar c ++ rest) = c :: shown 0 rest := by
  have size := String.length_utf8EncodeChar c
  cases encoded : String.utf8EncodeChar c with
  | nil =>
      rw [encoded] at size
      exact absurd size.symm (Nat.ne_of_gt c.utf8Size_pos)
  | cons first more =>
      have decoded : ByteArray.utf8DecodeChar? ⟨(first :: (more ++ rest)).toArray⟩ 0 = some c := by
        have whole :=
          ByteArray.utf8DecodeChar?_utf8EncodeChar_append (b := rest.toByteArray) (c := c)
        rw [encoded, ← List.toByteArray_append] at whole
        rw [← whole]
        congr 1
        apply ByteArray.ext
        simp
      have front : firstChar first (more ++ rest) = (c, more.length) := by
        rw [encoded, List.length_cons] at size
        rw [firstChar, decoded]
        exact congrArg (Prod.mk c) (by omega)
      rw [List.cons_append, shown, front, shown_append]

theorem shown_flatMap (cs : List Char) : shown 0 (cs.flatMap String.utf8EncodeChar) = cs := by
  induction cs with
  | nil => rfl
  | cons c cs ih => rw [List.flatMap_cons, shown_utf8EncodeChar_append, ih]

/-- A text shows as itself. -/
@[simp]
theorem readable_bytes (text : String) : readable (bytes text) = text := by
  rw [readable, ← String.ofList_toList (s := text), bytes_ofList, shown_flatMap]

example : readable [0x61, 0xF0, 0x9F, 0x98, 0x62, 0xFF, 0xE0, 0x80] =
    "a\uFFFDb\uFFFD\uFFFD\uFFFD" := by
  decide +kernel

end Text

end Specimen
