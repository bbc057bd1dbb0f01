/-
# Specimen.Proofs.Json.Lexeme — lexemes are read as they are written.

A string ends at its quote, so whatever stands behind it is left alone.  A number has no end of its
own: it is read as far as it goes, and the text behind it must not begin with a character that could
continue it.
-/
import Mathlib.Data.List.TakeDrop
import Specimen.Json.Lexeme
import Specimen.Json.Writer

namespace Specimen.Json

/-! ## Strings -/

/-- The hexadecimal digits that are written are read. -/
theorem hexValue?_digitChar : ∀ {n : Nat}, n < 16 → hexValue? (Nat.digitChar n) = some n := by
  decide

/-- The number of a control character is read back, whether or not the string is wanted: it is no
half of a surrogate pair. -/
theorem readNumberedEscape_control (care : Care) {c : Char} (control : c < ' ')
    (rest : List Char) :
    readNumberedEscape care
        ('0' :: '0' :: Nat.digitChar (c.toNat / 16) :: Nat.digitChar (c.toNat % 16) :: rest) =
      .ok (c, rest) := by
  have small : c.toNat < 32 := control
  have hex : readHex
      ('0' :: '0' :: Nat.digitChar (c.toNat / 16) :: Nat.digitChar (c.toNat % 16) :: rest) =
        .ok (c.toNat, rest) := by
    have zero : hexValue? '0' = some 0 := by decide
    have first : hexValue? (Nat.digitChar (c.toNat / 16)) = _ := hexValue?_digitChar (by omega)
    have second : hexValue? (Nat.digitChar (c.toNat % 16)) = _ := hexValue?_digitChar (by omega)
    simp only [readHex, zero, first, second]
    congr 2
    omega
  have low : isLowSurrogate c.toNat = false := by
    simp only [isLowSurrogate, Bool.and_eq_false_imp, decide_eq_true_eq]
    omega
  have high : isHighSurrogate c.toNat = false := by
    simp only [isHighSurrogate, Bool.and_eq_false_imp, decide_eq_true_eq]
    omega
  rw [readNumberedEscape, hex]
  cases care <;> simp [low, high]

/-- What an escape gives is taken into the string. -/
theorem readCharacters_escape {care : Care} {text rest : List Char} {c : Char}
    (escape : readEscape care text = .ok (c, rest)) (before : List Char) :
    readCharacters care before ('\\' :: text) = readCharacters care (c :: before) rest := by
  rw [readCharacters, if_neg (by decide), if_pos rfl]
  split
  · next fault failed =>
    rw [escape] at failed
    cases failed
  · next d behind read =>
    rw [escape] at read
    cases read
    rfl

theorem readCharacters_lettered {care : Care} {letter c : Char} (means : lettered? letter = some c)
    (before rest : List Char) :
    readCharacters care before ('\\' :: letter :: rest) =
      readCharacters care (c :: before) rest := by
  have named : letter ≠ 'u' := by
    rintro rfl
    cases means
  refine readCharacters_escape ?_ before
  rw [readEscape, if_neg named, means]

theorem readCharacters_plain {care : Care} {c : Char} (quote : c ≠ '"') (backslash : c ≠ '\\')
    (control : ¬ c < ' ') (before rest : List Char) :
    readCharacters care before (c :: rest) = readCharacters care (c :: before) rest := by
  rw [readCharacters, if_neg quote, if_neg backslash, if_neg control]

/-- A character is read back from what is written for it. -/
theorem readCharacters_escapeChar (care : Care) (before : List Char) (c : Char)
    (rest : List Char) :
    readCharacters care before (escapeChar c ++ rest) = readCharacters care (c :: before) rest := by
  unfold escapeChar
  -- seven characters are escaped by a letter
  iterate 7
    split
    · next same =>
      subst same
      exact readCharacters_lettered rfl before rest
  split
  · next control =>
    refine readCharacters_escape ?_ before
    exact readNumberedEscape_control care control rest
  · next quote backslash _ _ _ _ _ control =>
    exact readCharacters_plain quote backslash control before rest

/-- What stands behind the opening quote of a string. -/
def behindQuote (text : String) : List Char := text.toList.flatMap escapeChar ++ ['"']

theorem quoted_eq (text : String) : quoted text = '"' :: behindQuote text := rfl

/-- A string is read back, whatever stands behind its closing quote. -/
theorem readString_behindQuote (care : Care) (text : String) (rest : List Char) :
    readString care (behindQuote text ++ rest) = .ok (text, rest) := by
  have characters : ∀ before cs, readCharacters care before (cs.flatMap escapeChar ++ '"' :: rest) =
      .ok (before.reverse ++ cs, rest) := by
    intro before cs
    induction cs generalizing before with
    | nil => rw [List.flatMap_nil, List.nil_append, readCharacters, if_pos rfl, List.append_nil]
    | cons c cs ih =>
        rw [List.flatMap_cons, List.append_assoc, readCharacters_escapeChar, ih, List.reverse_cons,
          List.append_assoc, List.singleton_append]
  rw [readString, behindQuote, List.append_assoc, List.singleton_append, characters]
  simp [Except.map]

/-! ## Numbers -/

/-- One digit or more. -/
def IsDigits (digits : List Char) : Prop := digits ≠ [] ∧ ∀ c ∈ digits, c.isDigit = true

/-- A text that does not go on with a digit. -/
def EndsDigits (rest : List Char) : Prop := ∀ c ∈ rest.head?, c.isDigit = false

/-- A text that does not continue a number. -/
def EndsNumber (rest : List Char) : Prop :=
  ∀ c ∈ rest.head?, c.isDigit = false ∧ c ≠ '.' ∧ c ≠ 'e' ∧ c ≠ 'E'

theorem EndsNumber.endsDigits {rest : List Char} (ends : EndsNumber rest) : EndsDigits rest :=
  fun c first => (ends c first).1

/-- Digits are read as far as they go. -/
theorem readDigits_append (care : Care) {digits rest : List Char} (isDigits : IsDigits digits)
    (ends : EndsDigits rest) : readDigits care (digits ++ rest) = .ok (digits, rest) := by
  have all : (digits ++ rest).takeWhile Char.isDigit = digits ∧
      (digits ++ rest).dropWhile Char.isDigit = rest := by
    rw [List.takeWhile_append_of_pos isDigits.2, List.dropWhile_append_of_pos isDigits.2]
    cases rest with
    | nil => simp
    | cons c cs => simp [ends c rfl]
  cases digits with
  | nil => exact absurd rfl isDigits.1
  | cons d ds =>
      have first : d.isDigit = true := isDigits.2 d List.mem_cons_self
      rw [List.cons_append] at all ⊢
      simp only [readDigits, first, if_true, all]

theorem isDigits_toDigits (n : Nat) : IsDigits (Nat.toDigits 10 n) :=
  ⟨Nat.toDigits_ne_nil, fun _ member => Nat.isDigit_of_mem_toDigits (by decide) (by decide) member⟩

/-- A number that is written with digits starts with a zero only if it is zero. -/
theorem eq_zero_of_head_toDigits {n : Nat} (head : (Nat.toDigits 10 n).head? = some '0') :
    n = 0 := by
  induction n using Nat.strongRecOn with
  | ind n ih =>
    by_cases single : n < 10
    · rw [Nat.toDigits_of_lt_base single] at head
      have digits : ∀ m < 10, (some (Nat.digitChar m) = some '0') → m = 0 := by decide
      exact digits n single head
    · have front : (Nat.toDigits 10 (n / 10)).head? = some '0' := by
        rw [Nat.toDigits_of_base_le (by decide) (by omega),
          List.head?_append, Option.or_eq_some_iff, List.head?_eq_none_iff] at head
        exact head.resolve_right fun both => Nat.toDigits_ne_nil both.1
      have := ih (n / 10) (by omega) front
      omega

namespace Numeral

/-- A number that is written by the rules and in range. -/
structure IsReadable (numeral : Numeral) : Prop where
  whole : IsDigits numeral.whole
  /-- A zero in front is the only digit there. -/
  leadingZero : numeral.whole.head? = some '0' → numeral.whole = ['0']
  fraction : ∀ digits ∈ numeral.fraction, IsDigits digits
  inRange : numeral.overflows = false

theorem isReadable_ofNat {n : Nat} (fits : n < wordLimit) : IsReadable (ofNat n) where
  whole := isDigits_toDigits n
  leadingZero head := by rw [ofNat, eq_zero_of_head_toDigits head]; rfl
  fraction := nofun
  inRange := overflows_ofNat fits

/-- The point and the digits behind it, as they are written. -/
def fractionText (fraction : Option (List Char)) : List Char :=
  match fraction with
  | none => []
  | some digits => '.' :: digits

/-- The power of ten as it is written. -/
def exponentText (exponent : Option Int) : List Char :=
  match exponent with
  | none => []
  | some power => 'e' :: (toString power).toList

theorem text_eq (numeral : Numeral) :
    numeral.text = (if numeral.negative then ['-'] else []) ++ numeral.whole ++
      fractionText numeral.fraction ++ exponentText numeral.exponent := rfl

end Numeral

variable {care : Care} {rest : List Char}

theorem readWhole_append {whole : List Char} (isDigits : IsDigits whole)
    (leadingZero : whole.head? = some '0' → whole = ['0']) (ends : EndsDigits rest) :
    readWhole care (whole ++ rest) = .ok (whole, rest) := by
  rw [readWhole, readDigits_append care isDigits ends]
  split
  · next failed => cases failed
  · next read =>
    cases read
    cases leadingZero rfl
  · next read => exact read.symm

theorem readFraction_append {fraction : Option (List Char)}
    (isDigits : ∀ digits ∈ fraction, IsDigits digits) (point : ∀ c ∈ rest.head?, c ≠ '.')
    (ends : EndsDigits rest) :
    readFraction care (Numeral.fractionText fraction ++ rest) = .ok (fraction, rest) := by
  cases fraction with
  | none =>
      show readFraction care rest = _
      unfold readFraction
      split
      · exact absurd rfl (point '.' rfl)
      · rfl
  | some digits =>
      show readFraction care ('.' :: (digits ++ rest)) = _
      rw [readFraction, readDigits_append care (isDigits digits rfl) ends]
      rfl

theorem toList_toString_ofNat (n : Nat) :
    (toString (Int.ofNat n)).toList = Nat.toDigits 10 n := by
  show n.repr.toList = _
  rw [Nat.repr_eq_ofList_toDigits, String.toList_ofList]

theorem toList_toString_negSucc (n : Nat) :
    (toString (Int.negSucc n)).toList = '-' :: Nat.toDigits 10 (n + 1) := by
  show ("-" ++ (n + 1).repr).toList = _
  rw [String.toList_append, Nat.repr_eq_ofList_toDigits, String.toList_ofList,
    String.toList_ofList, List.singleton_append]

/-- The sign of a power is a minus or nothing. -/
theorem readPower_append (power : Int) (ends : EndsDigits rest) :
    readPower care ((toString power).toList ++ rest) = .ok (power, rest) := by
  have digits : ∀ n : Nat, readDigits care (Nat.toDigits 10 n ++ rest) =
      .ok (Nat.toDigits 10 n, rest) := fun n => readDigits_append care (isDigits_toDigits n) ends
  cases power with
  | ofNat n =>
      have first : ∀ {c cs}, Nat.toDigits 10 n ++ rest = c :: cs → c.isDigit = true := by
        intro c cs starts
        obtain ⟨nonempty, all⟩ := isDigits_toDigits n
        obtain ⟨d, ds, form⟩ := List.exists_cons_of_ne_nil nonempty
        rw [form, List.cons_append, List.cons.injEq] at starts
        exact starts.1 ▸ all d (form ▸ List.mem_cons_self)
      rw [toList_toString_ofNat]
      unfold readPower
      split
      · next plus => exact absurd (first plus) (by decide)
      · next minus => exact absurd (first minus) (by decide)
      · rw [digits]
        simp [Except.map]
  | negSucc n =>
      rw [toList_toString_negSucc, List.cons_append, readPower, digits]
      simp [Except.map, Int.negSucc_eq]

theorem readExponent_append (exponent : Option Int) (ends : EndsNumber rest) :
    readExponent care (Numeral.exponentText exponent ++ rest) = .ok (exponent, rest) := by
  cases exponent with
  | none =>
      show readExponent care rest = _
      cases rest with
      | nil => rfl
      | cons c cs =>
          obtain ⟨-, -, lower, upper⟩ := ends c rfl
          rw [readExponent, if_neg (not_or.mpr ⟨lower, upper⟩)]
  | some power =>
      show readExponent care ('e' :: ((toString power).toList ++ rest)) = _
      rw [readExponent, if_pos (.inl rfl), readPower_append power ends.endsDigits]
      rfl

theorem endsDigits_exponentText (exponent : Option Int) (ends : EndsNumber rest) :
    ∀ c ∈ (Numeral.exponentText exponent ++ rest).head?, c.isDigit = false ∧ c ≠ '.' := by
  cases exponent with
  | none => exact fun c first => ⟨(ends c first).1, (ends c first).2.1⟩
  | some power =>
      rintro c first
      obtain rfl := Option.some.inj first
      decide

theorem endsDigits_fractionText {fraction : Option (List Char)} (ends : EndsDigits rest) :
    EndsDigits (Numeral.fractionText fraction ++ rest) := by
  cases fraction with
  | none => exact ends
  | some digits =>
      rintro c first
      obtain rfl := Option.some.inj first
      decide

/-- A number is read as far as it goes, where its power of ten is. -/
theorem readAnyNumeral_append {numeral : Numeral} {power : List Char}
    (isDigits : IsDigits numeral.whole)
    (leadingZero : numeral.whole.head? = some '0' → numeral.whole = ['0'])
    (fractionDigits : ∀ digits ∈ numeral.fraction, IsDigits digits)
    (stops : ∀ c ∈ (power ++ rest).head?, c.isDigit = false ∧ c ≠ '.')
    (exponentRead : readExponent care (power ++ rest) = .ok (numeral.exponent, rest)) :
    readAnyNumeral care ((if numeral.negative then ['-'] else []) ++ numeral.whole ++
      Numeral.fractionText numeral.fraction ++ power ++ rest) = .ok (numeral, rest) := by
  obtain ⟨negative, whole, fraction, exponent⟩ := numeral
  let behindWhole := Numeral.fractionText fraction ++ (power ++ rest)
  have wholeRead : readWhole care (whole ++ behindWhole) = .ok (whole, behindWhole) :=
    readWhole_append isDigits leadingZero
      (endsDigits_fractionText fun c first => (stops c first).1)
  have fractionRead : readFraction care behindWhole = .ok (fraction, power ++ rest) :=
    readFraction_append fractionDigits (fun c first => (stops c first).2)
      fun c first => (stops c first).1
  simp only [List.append_assoc]
  cases negative with
  | true =>
      show readAnyNumeral care ('-' :: (whole ++ behindWhole)) = _
      simp only [readAnyNumeral, wholeRead, fractionRead, exponentRead, bind, Except.bind]
  | false =>
      show readAnyNumeral care (whole ++ behindWhole) = _
      obtain ⟨d, ds, rfl⟩ := List.exists_cons_of_ne_nil isDigits.1
      have digit : d.isDigit = true := isDigits.2 d List.mem_cons_self
      rw [List.cons_append] at wholeRead ⊢
      unfold readAnyNumeral
      split
      next sign unsigned found =>
        split at found
        · next minus =>
          obtain rfl := (List.cons.inj minus).1
          cases digit
        · cases found
          simp only [wholeRead, fractionRead, exponentRead, bind, Except.bind]

/-- A number is read back from what is written for it, if the text behind it does not continue
it. -/
theorem readNumeral_text (care : Care) {numeral : Numeral} (readable : numeral.IsReadable)
    (ends : EndsNumber rest) :
    readNumeral care (numeral.text ++ rest) = .ok (numeral, rest) := by
  have any : readAnyNumeral care (numeral.text ++ rest) = .ok (numeral, rest) := by
    rw [Numeral.text_eq]
    exact readAnyNumeral_append readable.whole readable.leadingZero readable.fraction
      (endsDigits_exponentText numeral.exponent ends) (readExponent_append numeral.exponent ends)
  rw [readNumeral, any]
  simp [readable.inRange]

end Specimen.Json
