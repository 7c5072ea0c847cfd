import Mathlib.Data.List.TakeWhile
import Mathlib.Data.Nat.Digits.Lemmas
import Sopmq.Words128

/-!
# Numbers of 128 bits as text

A node is given the start of its range on the command line, and `uint128` reads it: a sign, a
prefix that chooses the radix, and digits up to the first character that is not one. `to_string`
writes a number with `divide`, one digit a turn, from the end of a buffer to its start. What is
written and what is read are stated on the digits of the number, and reading undoes writing.
-/

namespace Sopmq.Words128

/-- The byte that ends a C string, and with it what `to_string` returns. -/
def terminator : Char := Char.ofNat 0

/-- The character of a digit in `to_string`. The one after the last is the
end of the literal, which the largest radix that is let through can
reach. -/
def digitChar (digit : Nat) : Char :=
  "0123456789abcdefghijklmnopqrstuvwxyz".toList.getD digit terminator

/-- The variables of the loop of `to_string`: the number that is left, the
place in the buffer, and what the buffer has from there on. -/
structure Printing where
  ii : Words128
  i : Nat
  sz : List Char

/-- The loop of `to_string` goes on while there is a number left and room in
the buffer. -/
def printing (state : Printing) : Bool := !state.ii.equal (ofInt 0) && state.i != 0

/-- Its body: the remainder of a division is the next digit, and is put in
front. There is no value if `divide` throws. -/
def printDigit (radix : UInt32) (state : Printing) : Option Printing :=
  match divide state.ii (ofWord radix.toUInt64) with
  | some (.ok (quotient, remainder)) =>
      some
        { ii := quotient
          i := state.i - 1
          sz := digitChar remainder.toInteger.toInt.toNat :: state.sz }
  | _ => none

/-- `uint128::to_string`. The buffer has room for 127 characters and the end
of the string. -/
def toString (self : Words128) (radix : UInt32) : Option String :=
  if self.equal (ofInt 0) then some "0"
  else if radix < 2 ∨ radix > 37 then some "(invalid radix)"
  else
    (Loop.whileLoop printing (printDigit radix) 127 ⟨self, 127, []⟩).map fun last =>
      String.ofList (last.sz.takeWhile (· ≠ terminator))

/-- The digit that a character of `uint128(const std::string &)` stands for,
if it is one. Letters of either case and figures are compared with the radix
each. -/
def digitOf (radix : Nat) (ch : Char) : Option Nat :=
  if 'A' ≤ ch ∧ ch ≤ 'Z' then
    if ch.toNat - 'A'.toNat + 10 < radix then some (ch.toNat - 'A'.toNat + 10) else none
  else if 'a' ≤ ch ∧ ch ≤ 'z' then
    if ch.toNat - 'a'.toNat + 10 < radix then some (ch.toNat - 'a'.toNat + 10) else none
  else if '0' ≤ ch ∧ ch ≤ '9' then
    if ch.toNat - '0'.toNat < radix then some (ch.toNat - '0'.toNat) else none
  else none

/-- Its loop over the characters: each digit is appended to the number, and
the first character that is no digit ends the loop. -/
def readDigits (radix : Nat) : List Char → Words128 → Words128
  | [], self => self
  | ch :: rest, self =>
      match digitOf radix ch with
      | some n =>
          readDigits radix rest
            ((self.multiply (ofInt (Int32.ofNat radix))).add (ofWord (UInt64.ofNat n)))
      | none => self

/-- Its choice of a radix, after the sign: `0x` for 16, another leading zero
for 8, and 10 otherwise. -/
def readNumber : List Char → Words128
  | '0' :: 'x' :: rest => readDigits 16 rest ⟨0, 0⟩
  | '0' :: rest => readDigits 8 rest ⟨0, 0⟩
  | text => readDigits 10 text ⟨0, 0⟩

/-- `uint128(const std::string &)`: a minus sign negates what is read after
it. -/
def ofString (sz : String) : Words128 :=
  match sz.toList with
  | '-' :: rest => (readNumber rest).negate
  | text => readNumber text

/-- The characters of the digits of a number, which are given from the
lowest. -/
def numeral (digits : List Nat) : List Char := digits.reverse.map digitChar

/-- What stands before the digits of a number so that they are read in a
radix. -/
def radixMark : Nat → List Char
  | 8 => ['0']
  | 16 => ['0', 'x']
  | _ => []

/-- The character of a digit below 36 does not end a string. -/
theorem digitChar_ne_terminator (digit : Nat) (small : digit < 36) :
    digitChar digit ≠ terminator := by
  have all : ∀ digit : Fin 36, digitChar digit ≠ terminator := by decide
  exact all ⟨digit, small⟩

/-- A number that fits an `int` is converted to itself. -/
theorem toNat_toInteger (self : Words128) (small : self.bits.toNat < 2 ^ 31) :
    self.toInteger.toInt.toNat = self.bits.toNat := by
  have number := toNat_bits self
  have low := self.lo.toUInt32.toNat_lt
  have kept : self.lo.toUInt32.toNat = self.bits.toNat := by
    rw [UInt64.toNat_toUInt32]
    omega
  rw [toInteger, ← Int32.toInt_toBitVec, UInt32.toBitVec_toInt32, BitVec.toInt_eq_toNat_of_lt]
  · exact kept
  · change 2 * self.lo.toUInt32.toNat < 2 ^ 32
    omega

/-- The radix that `to_string` divides by is the one it was given. -/
theorem toNat_radix (radix : UInt32) : (ofWord radix.toUInt64).bits.toNat = radix.toNat := by
  have bounded := radix.toNat_lt
  rw [bits_ofWord, BitVec.toNat_ofNat, UInt32.toNat_toUInt64]
  omega

/-- What the loop of `to_string` has done so far: the digits it has written
are the lowest ones of the number, and those of the number that is left are
the others. -/
def Printed (radix number : Nat) (state : Printing) : Prop :=
  ∃ written, Nat.digits radix number = written ++ Nat.digits radix state.ii.bits.toNat ∧
    state.sz = numeral written ∧ written.length + state.i = 127

/-- A turn writes the lowest digit of the number that is left, and leaves
the quotient. There is less room in the buffer afterwards, so the loop
ends. -/
theorem Printed.printDigit {number : Nat} {radix : UInt32} {state : Printing}
    (least : 2 ≤ radix.toNat) (most : radix.toNat ≤ 36)
    (printed : Printed radix.toNat number state) (more : printing state = true) :
    ∃ next, printDigit radix state = some next ∧ Printed radix.toNat number next ∧
      next.i < state.i := by
  obtain ⟨written, digits, sz, place⟩ := printed
  rw [printing, Bool.and_eq_true, Bool.not_eq_true', bne_iff_ne] at more
  have nonzero : state.ii.bits.toNat ≠ 0 := by
    intro zero
    have none : state.ii = ofInt 0 :=
      bits_injective (BitVec.eq_of_toNat_eq (zero.trans toNat_ofInt_zero.symm))
    rw [(equal_iff _ _).mpr none] at more
    cases more.1
  obtain ⟨quotient, remainder, divided, divides, rest⟩ :=
    divide_eq state.ii (ofWord radix.toUInt64) (by rw [toNat_radix]; omega)
  rw [toNat_radix] at divides rest
  have below : remainder.bits.toNat < radix.toNat := by
    rw [rest]
    exact Nat.mod_lt _ (by omega)
  refine ⟨_, by rw [Words128.printDigit, divided], ⟨written ++ [remainder.bits.toNat], ?_, ?_, ?_⟩,
    Nat.sub_one_lt more.2⟩
  · rw [digits, Nat.digits_eq_cons_digits_div least nonzero, ← divides, ← rest,
      List.append_assoc]
    rfl
  · rw [toNat_toInteger _ (by omega), sz]
    simp [numeral]
  · rw [List.length_append, List.length_singleton]
    change written.length + 1 + (state.i - 1) = 127
    omega

/-- `to_string` writes the digits of a number, but only the lowest 127 of
them, which is the room that its buffer has. -/
theorem toString_digits (self : Words128) (radix : UInt32) (least : 2 ≤ radix.toNat)
    (most : radix.toNat ≤ 36) (nonzero : self.bits.toNat ≠ 0) :
    self.toString radix = some (String.ofList (numeral
      ((Nat.digits radix.toNat self.bits.toNat).take 127))) := by
  obtain ⟨last, ended, ⟨written, digits, sz, place⟩, stopped⟩ :=
    Loop.whileLoop_total (Printed radix.toNat self.bits.toNat) Printing.i
      (fun _ printed more => printed.printDigit least most more) 127 ⟨self, 127, []⟩
      ⟨[], rfl, rfl, rfl⟩ le_rfl
  have taken : (Nat.digits radix.toNat self.bits.toNat).take 127 = written := by
    rw [printing, Bool.and_eq_false_iff, Bool.not_eq_false', bne_eq_false_iff_eq] at stopped
    rcases stopped with finished | full
    · rw [(equal_iff _ _).mp finished, toNat_ofInt_zero, Nat.digits_zero, List.append_nil] at digits
      rw [digits, List.take_of_length_le (by omega)]
    · rw [digits, List.take_left' (by omega)]
  have plain : (numeral written).takeWhile (· ≠ terminator) = numeral written := by
    rw [List.takeWhile_eq_self_iff]
    intro ch present
    obtain ⟨digit, member, rfl⟩ := List.mem_map.mp present
    have below := Nat.digits_lt_base (b := radix.toNat) (m := self.bits.toNat) (d := digit) least
      (digits ▸ List.mem_append_left _ (List.mem_reverse.mp member))
    exact decide_eq_true (digitChar_ne_terminator digit (by omega))
  have valid : ¬(radix < 2 ∨ radix > 37) := by
    rw [gt_iff_lt, UInt32.lt_iff_toNat_lt, UInt32.lt_iff_toNat_lt]
    change ¬(radix.toNat < 2 ∨ 37 < radix.toNat)
    omega
  have some : self.equal (ofInt 0) ≠ true := by
    rw [ne_eq, equal_iff]
    rintro rfl
    exact nonzero toNat_ofInt_zero
  rw [toString, if_neg some, if_neg valid, ended, Option.map_some, sz, plain, taken]

/-- A number of 128 bits has at most 127 digits in every radix from three
on, so that the buffer has room for all of them. -/
theorem length_digits_le (radix : Nat) (least : 3 ≤ radix) (self : Words128) :
    (Nat.digits radix self.bits.toNat).length ≤ 127 := by
  by_cases zero : self.bits.toNat = 0
  · rw [zero, Nat.digits_zero]
    exact Nat.zero_le _
  rw [Nat.digits_length_le_iff (by omega)]
  calc self.bits.toNat < 2 ^ 128 := self.bits.isLt
    _ ≤ 3 ^ 127 := by norm_num
    _ ≤ radix ^ 127 := Nat.pow_le_pow_left least _

/-- Zero is written as one digit, in every radix. Every other number is
written with all of its digits in the radices from 3 to 36. In radix 2 the
first digit of a number from `2 ^ 127` on is lost, for which the buffer has
no room. -/
theorem toString_writes (self : Words128) (radix : UInt32) :
    (self.value = 0 → self.toString radix = some "0") ∧
      (self.value ≠ 0 → 3 ≤ radix.toNat → radix.toNat ≤ 36 →
        self.toString radix = some (String.ofList (numeral
          (Nat.digits radix.toNat self.value.val)))) ∧
      (self.value ≠ 0 → self.toString 2 = some (String.ofList (numeral
        ((Nat.digits 2 self.value.val).take 127)))) := by
  refine ⟨?_, ?_, ?_⟩
  · intro zero
    have none : self = ofInt 0 := value_injective (zero.trans (by decide))
    rw [toString, if_pos ((equal_iff _ _).mpr none)]
  · intro nonzero least most
    rw [toString_digits self radix (by omega) most fun zero => nonzero (Fin.ext zero),
      List.take_of_length_le (length_digits_le radix.toNat least self)]
    rfl
  · intro nonzero
    exact toString_digits self 2 (by decide) (by decide) fun zero => nonzero (Fin.ext zero)

/-- A character spells a digit of a radix: it is the one that `to_string`
writes for the digit, or that letter in upper case. -/
def Spells (radix : Nat) (ch : Char) (digit : Nat) : Prop :=
  digit < radix ∧ (ch = digitChar digit ∨ ch = (digitChar digit).toUpper)

instance (radix : Nat) (ch : Char) (digit : Nat) : Decidable (Spells radix ch digit) :=
  inferInstanceAs (Decidable (_ ∧ _))

/-- The radix is recognised by what stands before the digits: a decimal
number does not begin with a zero, and a lone octal mark is not followed by
the letter of the hexadecimal one. -/
def Marked (radix : Nat) (text rest : List Char) : Prop :=
  (radix = 10 → text.head? ≠ some '0') ∧ (radix = 8 → text = [] → rest.head? ≠ some 'x')

/-- A smaller radix has fewer digits, of the same values. So it is enough to
look at the largest one. -/
theorem digitOf_eq_filter (radix : Nat) (most : radix ≤ 36) (ch : Char) :
    digitOf radix ch = (digitOf 36 ch).filter (· < radix) := by
  have narrowed : ∀ digit : Nat, (if digit < radix then some digit else none) =
      (if digit < 36 then some digit else none).filter (· < radix) := by
    intro digit
    by_cases small : digit < radix
    · simp [Option.filter, small, small.trans_le most]
    · split_ifs <;> simp [Option.filter, small]
  unfold digitOf
  split
  · exact narrowed _
  split
  · exact narrowed _
  split
  · exact narrowed _
  · rfl

/-- Every character that spells a digit is read as the digit, whichever case
it has. The 36 digits are checked one by one in the largest radix. -/
theorem digitOf_of_spells (radix : Nat) (most : radix ≤ 36) (ch : Char) (digit : Nat)
    (spells : Spells radix ch digit) : digitOf radix ch = some digit := by
  have all : ∀ digit : Fin 36, digitOf 36 (digitChar digit) = some digit.val ∧
      digitOf 36 (digitChar digit).toUpper = some digit.val := by decide
  obtain ⟨small, cases⟩ := spells
  obtain ⟨lower, upper⟩ := all ⟨digit, by omega⟩
  have read : digitOf 36 ch = some digit := by
    rcases cases with rfl | rfl
    · exact lower
    · exact upper
  rw [digitOf_eq_filter radix most, read]
  simp [Option.filter, small]

/-- No other character is read as a digit: the characters of each of the
three ranges are those of the table of `to_string`, the letters in either
case. -/
theorem spells_of_digitOf (radix : Nat) (ch : Char) (digit : Nat)
    (read : digitOf radix ch = some digit) : Spells radix ch digit := by
  have upper : ∀ n : Fin 26, Char.ofNat (n + 65) = (digitChar (n + 10)).toUpper := by decide
  have lower : ∀ n : Fin 26, Char.ofNat (n + 97) = digitChar (n + 10) := by decide
  have decimal : ∀ n : Fin 10, Char.ofNat (n + 48) = digitChar n := by decide
  unfold digitOf at read
  split at read
  · next range =>
    obtain ⟨small, rfl⟩ := Option.ite_none_right_eq_some.mp read |>.imp_right Option.some.inj
    have bounds : 65 ≤ ch.toNat ∧ ch.toNat ≤ 90 := range
    have listed := upper ⟨ch.toNat - 65, by omega⟩
    rw [show ch.toNat - 65 + 65 = ch.toNat by omega, Char.ofNat_toNat] at listed
    exact ⟨small, Or.inr listed⟩
  split at read
  · next range =>
    obtain ⟨small, rfl⟩ := Option.ite_none_right_eq_some.mp read |>.imp_right Option.some.inj
    have bounds : 97 ≤ ch.toNat ∧ ch.toNat ≤ 122 := range
    have listed := lower ⟨ch.toNat - 97, by omega⟩
    rw [show ch.toNat - 97 + 97 = ch.toNat by omega, Char.ofNat_toNat] at listed
    exact ⟨small, Or.inl listed⟩
  split at read
  · next range =>
    obtain ⟨small, rfl⟩ := Option.ite_none_right_eq_some.mp read |>.imp_right Option.some.inj
    have bounds : 48 ≤ ch.toNat ∧ ch.toNat ≤ 57 := range
    have listed := decimal ⟨ch.toNat - 48, by omega⟩
    rw [show ch.toNat - 48 + 48 = ch.toNat by omega, Char.ofNat_toNat] at listed
    exact ⟨small, Or.inl listed⟩
  · cases read

/-- After the mark of an octal number its digits are read, unless it is the
first half of the hexadecimal mark. -/
theorem readNumber_octal (text : List Char) (noHex : text.head? ≠ some 'x') :
    readNumber ('0' :: text) = readDigits 8 text ⟨0, 0⟩ := by
  cases text with
  | nil => rfl
  | cons ch rest =>
    have other : ch ≠ 'x' := fun same => noHex (congrArg some same)
    simp [readNumber, other]

/-- What begins with no mark is read as a decimal number, the empty text
included. -/
theorem readNumber_decimal (text : List Char) (noMark : text.head? ≠ some '0') :
    readNumber text = readDigits 10 text ⟨0, 0⟩ := by
  cases text with
  | nil => rfl
  | cons ch rest =>
    have other : ch ≠ '0' := fun same => noMark (congrArg some same)
    simp [readNumber, other]

section Reading

variable (radix : Nat) (chosen : radix ∈ [8, 10, 16])
include chosen

/-- The factor of the loop is the radix. -/
theorem toNat_ofInt_radix : (ofInt (Int32.ofNat radix)).bits.toNat = radix := by
  have all : ∀ radix ∈ [8, 10, 16], (ofInt (Int32.ofNat radix)).bits.toNat = radix := by decide
  exact all radix chosen

/-- The loop over the characters appends the digits to the number, and stops
at the first character that is none. -/
theorem readDigits_append (text : List Char) (digits : List Nat)
    (spelled : List.Forall₂ (Spells radix) text digits) (rest : List Char)
    (ends : ∀ ch ∈ rest.head?, ∀ digit, ¬ Spells radix ch digit) (self : Words128) :
    (readDigits radix (text ++ rest) self).bits.toNat =
      (self.bits.toNat * radix ^ digits.length + Nat.ofDigits radix digits.reverse) %
        2 ^ 128 := by
  have most : radix ≤ 16 := by
    simp only [List.mem_cons, List.not_mem_nil, or_false] at chosen
    omega
  induction spelled generalizing self with
  | nil =>
    have unread : readDigits radix rest self = self := by
      cases rest with
      | nil => rfl
      | cons ch rest =>
        rw [readDigits]
        cases read : digitOf radix ch with
        | none => rfl
        | some digit => exact absurd (spells_of_digitOf radix ch digit read) (ends ch rfl digit)
    have bounded := self.bits.isLt
    simp [unread, Nat.mod_eq_of_lt bounded]
  | @cons ch digit text digits spells later inductionHypothesis =>
    have fits : digit < UInt64.size := by
      have small := spells.1
      change digit < 2 ^ 64
      omega
    have appended :
        ((self.multiply (ofInt (Int32.ofNat radix))).add (ofWord (UInt64.ofNat digit))).bits.toNat =
          (self.bits.toNat * radix + digit) % 2 ^ 128 := by
      rw [bits_add, bits_multiply, bits_ofWord, BitVec.toNat_add, BitVec.toNat_mul,
        toNat_ofInt_radix radix chosen, BitVec.toNat_ofNat, UInt64.toNat_ofNat_of_lt' fits,
        ← Nat.add_mod]
    rw [List.cons_append, readDigits, digitOf_of_spells radix (by omega) ch digit spells]
    simp only
    rw [inductionHypothesis, appended, Nat.ofDigits_reverse_cons, List.length_cons, Nat.add_mod,
      Nat.mod_mul_mod, ← Nat.add_mod]
    congr 1
    ring

/-- The mark of the radix is recognised, and the digits after it are read. A
digit of radix 8 is no `x`, and what ends a decimal number is no zero. -/
theorem readNumber_mark (text : List Char) (digits : List Nat)
    (spelled : List.Forall₂ (Spells radix) text digits) (rest : List Char)
    (ends : ∀ ch ∈ rest.head?, ∀ digit, ¬ Spells radix ch digit)
    (marked : Marked radix text rest) :
    readNumber (radixMark radix ++ (text ++ rest)) = readDigits radix (text ++ rest) ⟨0, 0⟩ := by
  simp only [List.mem_cons, List.not_mem_nil, or_false] at chosen
  rcases chosen with rfl | rfl | rfl
  · refine readNumber_octal _ ?_
    cases spelled with
    | nil => exact marked.2 rfl rfl
    | @cons ch digit text digits spells later =>
      rintro ⟨⟩
      exact absurd (digitOf_of_spells 8 (by decide) 'x' digit spells) (by simp [digitOf])
  · refine readNumber_decimal _ ?_
    cases spelled with
    | nil =>
      intro zero
      exact ends '0' zero 0 (by decide)
    | cons => exact marked.1 rfl
  · rfl

/-- A numeral has no sign, since no digit is spelled with one. -/
theorem mark_unsigned (text : List Char) (digits : List Nat)
    (spelled : List.Forall₂ (Spells radix) text digits) (rest : List Char)
    (noSign : radix = 10 → text = [] → rest.head? ≠ some '-') :
    (radixMark radix ++ (text ++ rest)).head? ≠ some '-' := by
  simp only [List.mem_cons, List.not_mem_nil, or_false] at chosen
  rcases chosen with rfl | rfl | rfl
  · simp [radixMark]
  · cases spelled with
    | nil => exact noSign rfl rfl
    | @cons ch digit text digits spells later =>
      rintro ⟨⟩
      exact absurd (digitOf_of_spells 10 (by decide) '-' digit spells) (by simp [digitOf])
  · simp [radixMark]

/-- The number that is read is the one that the digits stand for, the last
of them being the lowest. -/
theorem toNat_readNumber (text : List Char) (digits : List Nat)
    (spelled : List.Forall₂ (Spells radix) text digits) (rest : List Char)
    (ends : ∀ ch ∈ rest.head?, ∀ digit, ¬ Spells radix ch digit)
    (marked : Marked radix text rest) :
    (readNumber (radixMark radix ++ (text ++ rest))).bits.toNat =
      Nat.ofDigits radix digits.reverse % 2 ^ 128 := by
  rw [readNumber_mark radix chosen text digits spelled rest ends marked,
    readDigits_append radix chosen text digits spelled rest ends, bits_zero]
  simp

end Reading

/-- A text without a sign is read as it stands. -/
theorem ofString_unsigned (text : List Char) (unsigned : text.head? ≠ some '-') :
    ofString (String.ofList text) = readNumber text := by
  rw [ofString, String.toList_ofList]
  split
  · next signed => exact absurd rfl unsigned
  · rfl

/-- A text with a sign is read without it and negated. -/
theorem ofString_signed (text : List Char) :
    ofString (String.ofList ('-' :: text)) = (readNumber text).negate := by
  rw [ofString, String.toList_ofList]
  rfl

/-- Every numeral in radix 8, 10 or 16 is read as its number modulo
`2 ^ 128`: with letters of either case, with leading zeros, of any length
and also without a digit, whatever follows that is not a digit. A minus sign
before it negates it. The numeral of a decimal number does not begin with a
zero, which is the mark of radix 8.

Proof: the mark of the radix is recognised. The loop then holds the number
that the digits so far stand for, and stops after the last of them. -/
theorem ofString_reads (radix : Nat) (chosen : radix ∈ [8, 10, 16]) (text : List Char)
    (digits : List Nat) (spelled : List.Forall₂ (Spells radix) text digits) (rest : List Char)
    (ends : ∀ ch ∈ rest.head?, ∀ digit, ¬ Spells radix ch digit)
    (marked : Marked radix text rest) :
    ((radix = 10 → text = [] → rest.head? ≠ some '-') →
      (ofString (String.ofList (radixMark radix ++ (text ++ rest)))).value =
        Fin.ofNat (2 ^ 128) (Nat.ofDigits radix digits.reverse)) ∧
    (ofString (String.ofList ('-' :: (radixMark radix ++ (text ++ rest))))).value =
      -Fin.ofNat (2 ^ 128) (Nat.ofDigits radix digits.reverse) := by
  have read : (readNumber (radixMark radix ++ (text ++ rest))).value =
      Fin.ofNat (2 ^ 128) (Nat.ofDigits radix digits.reverse) :=
    Fin.ext (toNat_readNumber radix chosen text digits spelled rest ends marked)
  constructor
  · intro noSign
    rw [ofString_unsigned _ (mark_unsigned radix chosen text digits spelled rest noSign), read]
  · rw [ofString_signed, value, bits_negate, BitVec.toFin_neg, ← read]
    rfl

/-- Leading zeros and letters of both cases in radix 16, up to a `g`, with
and without a sign. -/
theorem ofString_reads_hexadecimal :
    (ofString "0x00Fag").value = 250 ∧ (ofString "-0x00Fag").value = -250 := by
  have spelled : List.Forall₂ (Spells 16) ['0', '0', 'F', 'a'] [0, 0, 15, 10] :=
    .cons (by decide) (.cons (by decide) (.cons (by decide) (.cons (by decide) .nil)))
  have ends : ∀ ch ∈ ['g'].head?, ∀ digit, ¬ Spells 16 ch digit := by
    rintro _ ⟨⟩ digit spells
    exact absurd (digitOf_of_spells 16 (by decide) 'g' digit spells) (by simp [digitOf])
  obtain ⟨plain, signed⟩ := ofString_reads 16 (by decide) _ _ spelled ['g'] ends
    ⟨by decide, by decide⟩
  exact ⟨plain (by decide), signed⟩

/-- What `to_string` writes spells the digits of the number, from the
highest to the lowest. -/
theorem numeral_spelled (radix : Nat) (least : 2 ≤ radix) (number : Nat) :
    List.Forall₂ (Spells radix) (numeral (Nat.digits radix number))
      (Nat.digits radix number).reverse := by
  rw [numeral, List.forall₂_map_left_iff, List.forall₂_same]
  intro digit member
  exact ⟨Nat.digits_lt_base least (List.mem_reverse.mp member), Or.inl rfl⟩

/-- The first character of a number other than zero is no zero, since the
highest digit is none. In radix 10 it is therefore not taken for a mark. -/
theorem numeral_head (radix : Nat) (least : 2 ≤ radix) (most : radix ≤ 36) (number : Nat)
    (positive : number ≠ 0) : (numeral (Nat.digits radix number)).head? ≠ some '0' := by
  have zero : ∀ digit : Fin 36, digitChar digit = '0' → digit.val = 0 := by decide
  have some : Nat.digits radix number ≠ [] := Nat.digits_ne_nil_iff_ne_zero.mpr positive
  rw [numeral, List.head?_map, List.head?_reverse, List.getLast?_eq_some_getLast some,
    Option.map_some, ne_eq, Option.some.injEq]
  intro same
  have small := Nat.digits_lt_base (m := number) least (List.getLast_mem some)
  exact Nat.getLast_digit_ne_zero radix positive (zero ⟨_, by omega⟩ same)

/-- A text that spells the digits of a number, and is not taken for a mark,
is read as the number. -/
theorem ofString_spelled (self : Words128) (radix : Nat) (chosen : radix ∈ [8, 10, 16])
    (text : List Char) (digits : List Nat) (spelled : List.Forall₂ (Spells radix) text digits)
    (marked : Marked radix text [])
    (number : Nat.ofDigits radix digits.reverse = self.bits.toNat) :
    ofString (String.ofList (radixMark radix ++ text)) = self := by
  have unsigned := mark_unsigned radix chosen text digits spelled [] (by simp)
  have read := toNat_readNumber radix chosen text digits spelled [] (by simp) marked
  rw [List.append_nil] at unsigned read
  apply bits_injective
  apply BitVec.eq_of_toNat_eq
  rw [ofString_unsigned _ unsigned, read, number, Nat.mod_eq_of_lt self.bits.isLt]

/-- Reading undoes writing: the text of a number in radix 8, 10 or 16, after
the mark of the radix, is read as the number. -/
theorem ofString_toString (self : Words128) (radix : UInt32)
    (chosen : radix.toNat ∈ [8, 10, 16]) :
    ∃ text, self.toString radix = some text ∧
      ofString (String.ofList (radixMark radix.toNat ++ text.toList)) = self := by
  have bounds : 3 ≤ radix.toNat ∧ radix.toNat ≤ 16 := by
    simp only [List.mem_cons, List.not_mem_nil, or_false] at chosen
    omega
  by_cases zero : self.bits.toNat = 0
  · have none : self = ofInt 0 :=
      bits_injective (BitVec.eq_of_toNat_eq (zero.trans toNat_ofInt_zero.symm))
    refine ⟨"0", by rw [toString, if_pos ((equal_iff _ _).mpr none)], ?_⟩
    by_cases decimal : radix.toNat = 10
    · rw [none, decimal]
      rfl
    · have spelled : List.Forall₂ (Spells radix.toNat) ['0'] [0] :=
        .cons ⟨by omega, Or.inl rfl⟩ .nil
      have marked : Marked radix.toNat ['0'] [] := ⟨fun ten => absurd ten decimal, by simp⟩
      exact ofString_spelled self radix.toNat chosen _ _ spelled marked (by simp [zero])
  · refine ⟨_, toString_digits self radix (by omega) (by omega) zero, ?_⟩
    have marked : Marked radix.toNat (numeral (Nat.digits radix.toNat self.bits.toNat)) [] := by
      refine ⟨fun _ => ?_, fun _ _ => by simp⟩
      exact numeral_head radix.toNat (by omega) (by omega) self.bits.toNat zero
    rw [List.take_of_length_le (length_digits_le radix.toNat bounds.1 self), String.toList_ofList]
    refine ofString_spelled self radix.toNat chosen _ _
      (numeral_spelled radix.toNat (by omega) self.bits.toNat) marked ?_
    rw [List.reverse_reverse, Nat.ofDigits_digits]

/-- A number of both words, in radix 16, is written and read back. -/
theorem ofString_toString_hexadecimal :
    ∃ text, (⟨5, 7⟩ : Words128).toString 16 = some text ∧
      ofString (String.ofList (radixMark 16 ++ text.toList)) = ⟨5, 7⟩ :=
  ofString_toString ⟨5, 7⟩ 16 (by decide)

end Sopmq.Words128
