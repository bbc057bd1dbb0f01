/-
# Specimen.Proofs.Text.Bytes — a text seen as its bytes.

The rest of the library handles a text as its characters.  A program that works on UTF-8 counts in
bytes, and it may cut a text only where a character begins or the text ends.  `fromByte?` is such a
cut: it gives nothing if the byte lies outside the text or inside a character.  Blanks take one byte
each, and no other character begins with the byte of a blank, so blanks in front of a text are
counted alike in bytes and in characters, and behind each of them the text can be cut.
-/
import Mathlib.Data.List.TakeWhile
import Specimen.Text.Utf8

namespace Specimen.Text

/-! ## Cutting -/

/-- The text from a byte on, if that byte begins a character or is the end of the text. -/
def fromByte? (text : String) (byte : Nat) : Option String :=
  if valid : String.Pos.Raw.IsValid text ⟨byte⟩ then
    some (text.sliceFrom (text.pos ⟨byte⟩ valid)).copy
  else none

/-- Behind each part at its front a text can be cut. -/
theorem fromByte?_append (front back : String) :
    fromByte? (front ++ back) front.utf8ByteSize = some back := by
  have valid : String.Pos.Raw.IsValid (front ++ back) ⟨front.utf8ByteSize⟩ :=
    String.Pos.Raw.isValid_iff_exists_append.mpr ⟨front, back, rfl, rfl⟩
  have here : ((front ++ back).pos _ valid).Splits front back := ⟨rfl, rfl⟩
  rw [fromByte?, dif_pos valid, (String.Pos.splits _).eq_right here]

/-! ## Blanks -/

/-- The byte of a blank. -/
def blankByte : UInt8 := 0x20

/-- Only the blank begins with its byte: other characters of ASCII have other bytes, and those
beyond ASCII begin with greater ones. -/
theorem exists_utf8EncodeChar {c : Char} (other : c ≠ ' ') :
    ∃ first rest, String.utf8EncodeChar c = first :: rest ∧ first ≠ blankByte := by
  have value : c.val.toNat ≠ 0x20 := fun same => other (Char.ext (UInt32.toNat_inj.mp same))
  have greater : ∀ {n : Nat}, 0x20 < n % 256 ∨ n % 256 < 0x20 → UInt8.ofNat n ≠ blankByte := by
    intro n differs same
    have byte : n % 256 = 0x20 := congrArg UInt8.toNat same
    omega
  unfold String.utf8EncodeChar
  simp only
  split
  · exact ⟨_, _, rfl, greater (by omega)⟩
  · split
    · exact ⟨_, _, rfl, greater (by omega)⟩
    · split <;> exact ⟨_, _, rfl, greater (by omega)⟩

/-- In front of a text there are as many bytes of blanks as blanks. -/
theorem length_takeWhile_blankByte (cs : List Char) :
    ((bytes (String.ofList cs)).takeWhile (· = blankByte)).length =
      (cs.takeWhile (· = ' ')).length := by
  rw [bytes_ofList]
  induction cs with
  | nil => rfl
  | cons c cs ih =>
      by_cases blank : c = ' '
      · subst blank
        have one : String.utf8EncodeChar ' ' = [blankByte] := by decide
        simp [one, ih]
      · obtain ⟨first, rest, shape, differs⟩ := exists_utf8EncodeChar blank
        simp [shape, blank, differs]

theorem utf8ByteSize_blanks (n : Nat) :
    (String.ofList (List.replicate n ' ')).utf8ByteSize = n := by
  induction n with
  | zero => rfl
  | succ n ih =>
      rw [List.replicate_succ, String.ofList_cons, String.utf8ByteSize_append, ih,
        String.utf8ByteSize_singleton, Nat.add_comm]
      rfl

end Specimen.Text
