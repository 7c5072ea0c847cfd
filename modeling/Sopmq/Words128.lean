import Mathlib.Data.Nat.Size
import Mathlib.Tactic.Ring
import Sopmq.Basic
import Sopmq.Loop
import Sopmq.Mixing

/-!
# The class of 128-bit integers

`uint128` is a pair of 64-bit words, with the arithmetic written out: addition with a carry, shifts
across the words, multiplication by shifting and adding, and division by shifting and subtracting.
The rest of the development takes its values as the numbers below `2 ^ 128`. Here the operations
are those of the source, and each of them is shown to compute on these numbers.

The operators that the class gets from `boost::operators` are those of its own operators: `>=` is
the negation of `<`, and the operators with a result are the assigning ones on a copy. A copy is
made of every operand before it is changed, so that operands may be the same object.
-/

namespace Sopmq

/-- `uint128`: the two words of a number. Every pair of words is a number,
so the type needs no invariant. -/
structure Words128 where
  lo : UInt64
  hi : UInt64
deriving DecidableEq, Repr

namespace Words128

/-- The bits of both words, the high one in front. The operations are
related to those of bit vectors first, and to numbers through these. -/
def bits (self : Words128) : BitVec 128 := self.hi.toBitVec ++ self.lo.toBitVec

/-- The number that the words stand for, as the rest of the development
takes it. -/
def value (self : Words128) : UInt128 := self.bits.toFin

/-- `uint128(base_type)`, and `uint128(unsigned int)`: the high word is
zero. -/
def ofWord (value : UInt64) : Words128 := ⟨value, 0⟩

/-- `uint128(int)`: the number is extended by its sign, so that minus one
has all bits set. -/
def ofInt (value : Int32) : Words128 :=
  ⟨value.toInt64.toUInt64, if value < 0 then -1 else 0⟩

/-- `operator==`, by both words. -/
def equal (self o : Words128) : Bool := self.hi == o.hi && self.lo == o.lo

/-- `operator<`: the high words decide, and where they are equal the low
ones do. -/
def less (self o : Words128) : Bool :=
  if self.hi == o.hi then decide (self.lo < o.lo) else decide (self.hi < o.hi)

/-- `operator~`, of each word. -/
def complement (self : Words128) : Words128 := ⟨~~~self.lo, ~~~self.hi⟩

/-- `operator+=`: the words are added, and the carry is told from the low
sum being below what it was made from. -/
def add (self b : Words128) : Words128 :=
  let lo := self.lo + b.lo
  let hi := self.hi + b.hi
  ⟨lo, if lo < self.lo then hi + 1 else hi⟩

/-- `operator-`, of one operand: the complement and one, as for numbers of
one word. -/
def negate (self : Words128) : Words128 := (complement self).add (ofInt 1)

/-- `operator++`: the high word follows when the low one has become zero. -/
def increment (self : Words128) : Words128 :=
  let lo := self.lo + 1
  ⟨lo, if lo = 0 then self.hi + 1 else self.hi⟩

/-- `operator--`: the high word follows when the low one was zero before. -/
def decrement (self : Words128) : Words128 :=
  ⟨self.lo - 1, if self.lo = 0 then self.hi - 1 else self.hi⟩

/-- `operator-=`, which adds the negated operand. -/
def subtract (self b : Words128) : Words128 := self.add b.negate

/-- `operator|=`, of each word. The division sets the bits of its answer by
it. -/
def bitOr (self b : Words128) : Words128 := ⟨self.lo ||| b.lo, self.hi ||| b.hi⟩

/-- `operator&=`, of each word. The loops test single bits by it. -/
def bitAnd (self b : Words128) : Words128 := ⟨self.lo &&& b.lo, self.hi &&& b.hi⟩

/-- `uint128::to_integer`: the low half of the low word, as an `int`. -/
def toInteger (self : Words128) : Int32 := self.lo.toUInt32.toInt32

/-- The step of `operator<<=` across the words, by less than the width of
one. The mask keeps the bits that leave the low word. -/
def shiftWordsLeft (self : Words128) (n : UInt64) : Words128 :=
  let mask := ~~~((-1 : UInt64) >>> n)
  ⟨self.lo <<< n, (self.hi <<< n) ||| ((self.lo &&& mask) >>> (64 - n))⟩

/-- The step of `operator>>=` across the words, with the mask for the bits
that leave the high one. -/
def shiftWordsRight (self : Words128) (n : UInt64) : Words128 :=
  let mask := ~~~((-1 : UInt64) <<< n)
  ⟨(self.lo >>> n) ||| ((self.hi &&& mask) <<< (64 - n)), self.hi >>> n⟩

/-- `operator<<=`: nothing is left from 128 on, a whole word moves from 64
on, and what remains of the count is shifted across the words. -/
def shiftLeft (self rhs : Words128) : Words128 :=
  let n := rhs.toInteger.toUInt32
  if n ≥ 128 then ⟨0, 0⟩
  else
    let moved : Words128 := if n ≥ 64 then ⟨0, self.lo⟩ else self
    let n := if n ≥ 64 then n - 64 else n
    if n ≠ 0 then moved.shiftWordsLeft n.toUInt64 else moved

/-- `operator>>=`, in the same three steps. -/
def shiftRight (self rhs : Words128) : Words128 :=
  let n := rhs.toInteger.toUInt32
  if n ≥ 128 then ⟨0, 0⟩
  else
    let moved : Words128 := if n ≥ 64 then ⟨self.hi, 0⟩ else self
    let n := if n ≥ 64 then n - 64 else n
    if n ≠ 0 then moved.shiftWordsRight n.toUInt64 else moved

/-- A turn of the loop of `operator*=`, on the sum and the rest of the
factor: a set bit of the factor adds the other one at its place. -/
def multiplyTurn (a : Words128) (state : Words128 × Words128) (i : Nat) : Words128 × Words128 :=
  (if !(state.2.bitAnd (ofInt 1)).equal (ofInt 0) then
      state.1.add (a.shiftLeft (ofWord (UInt64.ofNat i)))
    else state.1,
    state.2.shiftRight (ofInt 1))

/-- `operator*=`. The factors zero and one are taken out before the loop. -/
def multiply (self b : Words128) : Words128 :=
  if b.equal (ofInt 0) then ⟨0, 0⟩
  else if !b.equal (ofInt 1) then ((List.range 128).foldl (multiplyTurn self) (⟨0, 0⟩, b)).1
  else self

/-- The variables of `divide`: what is left of the numerator, the scaled
denominator, the bit that stands for the scale, and the answer so far. -/
structure Division where
  n : Words128
  d : Words128
  x : Words128
  answer : Words128

/-- The first loop of `divide` goes on: the numerator is not below the
denominator, and the highest bit of this is free. -/
def scaling (state : Division) : Bool :=
  !state.n.less state.d &&
    ((state.d.shiftRight (ofInt 127)).bitAnd (ofInt 1)).equal (ofInt 0)

/-- Its body, which doubles the denominator together with its bit. -/
def scale (state : Division) : Division :=
  { state with
    x := state.x.shiftLeft (ofInt 1)
    d := state.d.shiftLeft (ofInt 1) }

/-- The second loop of `divide` goes on while the bit has not left the
word. -/
def restoring (state : Division) : Bool := !state.x.equal (ofInt 0)

/-- Its body: the denominator is taken away where it fits, its bit is set in
the answer, and both are halved. -/
def restore (state : Division) : Division :=
  let taken : Division :=
    if !state.n.less state.d then
      { state with
        n := state.n.subtract state.d
        answer := state.answer.bitOr state.x }
    else state
  { taken with
    x := taken.x.shiftRight (ofInt 1)
    d := taken.d.shiftRight (ofInt 1) }

/-- `divide`: quotient and remainder, or the text of the error. There is no
value if one of the loops does not end after as many turns as there are
bits. -/
def divide (numerator denominator : Words128) : Option (Except String (Words128 × Words128)) :=
  if denominator.equal (ofInt 0) then some (.error "divide by zero")
  else
    (Loop.whileLoop scaling (some ∘ scale) 128
        ⟨numerator, denominator, ofInt 1, ofInt 0⟩).bind fun scaled =>
      (Loop.whileLoop restoring (some ∘ restore) 128 scaled).map fun last =>
        .ok (last.answer, last.n)

/-- The number of a pair of words, by the numbers of the words. -/
theorem toNat_bits (self : Words128) :
    self.bits.toNat = self.hi.toNat * 2 ^ 64 + self.lo.toNat := by
  rw [bits, BitVec.toNat_append, ← Nat.shiftLeft_add_eq_or_of_lt self.lo.toBitVec.isLt,
    Nat.shiftLeft_eq]
  rfl

/-- The pair of zeros has no bit set. -/
theorem bits_zero : (⟨0, 0⟩ : Words128).bits = 0 := by
  decide

/-- The literal zero of the source is the number zero. -/
theorem toNat_ofInt_zero : (ofInt 0).bits.toNat = 0 := by
  decide

/-- The literal one of the source is the number one. -/
theorem toNat_ofInt_one : (ofInt 1).bits.toNat = 1 := by
  decide

/-- Words with the same bits are the same, since each word is a part of the
bits. -/
theorem bits_injective : Function.Injective bits := by
  intro a b same
  have numbers := congrArg BitVec.toNat same
  rw [toNat_bits, toNat_bits] at numbers
  have low := a.lo.toNat_lt
  have low' := b.lo.toNat_lt
  have lo : a.lo = b.lo := UInt64.toNat_inj.mp (by omega)
  have hi : a.hi = b.hi := UInt64.toNat_inj.mp (by omega)
  cases a
  cases b
  cases lo
  cases hi
  rfl

/-- The complement of the words is that of the bits. -/
theorem bits_complement (self : Words128) : self.complement.bits = ~~~self.bits := by
  rw [bits, complement, bits, BitVec.not_append]
  rfl

/-- The disjunction of the words is that of the bits. -/
theorem bits_bitOr (self b : Words128) : (self.bitOr b).bits = self.bits ||| b.bits :=
  BitVec.or_append.symm

/-- The conjunction of the words is that of the bits. -/
theorem bits_bitAnd (self b : Words128) : (self.bitAnd b).bits = self.bits &&& b.bits :=
  BitVec.and_append.symm

/-- A single word stands for its own number. -/
theorem bits_ofWord (word : UInt64) : (ofWord word).bits = BitVec.ofNat 128 word.toNat := by
  apply BitVec.eq_of_toNat_eq
  have bounded := word.toNat_lt
  rw [toNat_bits, BitVec.toNat_ofNat]
  simp only [ofWord, UInt64.toNat_zero]
  omega

/-- The sum of the low words wraps exactly when it is below either of them,
which is when the carry is added. -/
theorem bits_add (self b : Words128) : (self.add b).bits = self.bits + b.bits := by
  apply BitVec.eq_of_toNat_eq
  have low := self.lo.toNat_lt
  have low' := b.lo.toNat_lt
  rw [BitVec.toNat_add, toNat_bits, toNat_bits, toNat_bits]
  simp only [add]
  split
  · next carry =>
    simp only [UInt64.lt_iff_toNat_lt, UInt64.toNat_add, UInt64.toNat_one] at *
    omega
  · next carry =>
    simp only [UInt64.lt_iff_toNat_lt, UInt64.toNat_add] at *
    omega

/-- So the negation of the words is that of the number, which wraps. -/
theorem bits_negate (self : Words128) : self.negate.bits = -self.bits := by
  rw [negate, bits_add, bits_complement, BitVec.neg_eq_not_add]
  rfl

/-- And so is the subtraction, as the sum with the negated operand. -/
theorem bits_subtract (self b : Words128) : (self.subtract b).bits = self.bits - b.bits := by
  rw [subtract, bits_add, bits_negate, BitVec.sub_eq_add_neg]

/-- An increment adds one; the low word becomes zero exactly when it
wraps. -/
theorem bits_increment (self : Words128) : self.increment.bits = self.bits + 1 := by
  apply BitVec.eq_of_toNat_eq
  have low := self.lo.toNat_lt
  have high := self.hi.toNat_lt
  have one : (1 : BitVec 128).toNat = 1 := rfl
  rw [BitVec.toNat_add, toNat_bits, toNat_bits, one]
  simp only [increment, ← UInt64.toNat_inj]
  split
  · simp only [UInt64.toNat_add, UInt64.toNat_one, UInt64.toNat_zero] at *
    omega
  · simp only [UInt64.toNat_add, UInt64.toNat_one, UInt64.toNat_zero] at *
    omega

/-- A decrement takes one away; the low word wraps exactly when it was
zero. -/
theorem bits_decrement (self : Words128) : self.decrement.bits = self.bits - 1 := by
  apply BitVec.eq_of_toNat_eq
  have low := self.lo.toNat_lt
  have high := self.hi.toNat_lt
  have one : (1 : BitVec 128).toNat = 1 := rfl
  rw [BitVec.toNat_sub, toNat_bits, toNat_bits, one]
  simp only [decrement, ← UInt64.toNat_inj]
  split
  · simp only [UInt64.toNat_sub, UInt64.toNat_one, UInt64.toNat_zero] at *
    omega
  · simp only [UInt64.toNat_sub, UInt64.toNat_one, UInt64.toNat_zero] at *
    omega

/-- `operator==` is the equality of the words. -/
theorem equal_iff (self o : Words128) : self.equal o = true ↔ self = o := by
  cases self
  cases o
  simp [equal, and_comm]

/-- `operator<` is the order of the numbers: the high words decide unless
they are equal. -/
theorem less_iff (self o : Words128) : self.less o = true ↔ self.bits.toNat < o.bits.toNat := by
  have low := self.lo.toNat_lt
  have low' := o.lo.toNat_lt
  rw [toNat_bits, toNat_bits, less]
  split
  · next same =>
    have equal := congrArg UInt64.toNat (eq_of_beq same)
    rw [decide_eq_true_iff, UInt64.lt_iff_toNat_lt]
    omega
  · next different =>
    have unequal : self.hi.toNat ≠ o.hi.toNat := fun equal =>
      different (beq_iff_eq.mpr (UInt64.toNat_inj.mp equal))
    rw [decide_eq_true_iff, UInt64.lt_iff_toNat_lt]
    omega

section Shifts

variable (n : UInt64) (some : 0 < n.toNat) (small : n.toNat < 64)
include some small

/-- The bits that leave the low word are those that the mask keeps, and they
enter the high one. -/
theorem bits_shiftWordsLeft (self : Words128) :
    (self.shiftWordsLeft n).bits = self.bits <<< n.toNat := by
  simp only [shiftWordsLeft, bits, UInt64.toBitVec_shiftLeft, UInt64.toBitVec_or,
    UInt64.toBitVec_shiftRight, UInt64.toBitVec_and, UInt64.toBitVec_not, BitVec.shiftLeft_eq',
    BitVec.ushiftRight_eq', Mixing.toNat_mod_width n small, Mixing.toNat_rest_width n some small]
  ext i _
  grind

/-- The same to the right, from the high word into the low one. -/
theorem bits_shiftWordsRight (self : Words128) :
    (self.shiftWordsRight n).bits = self.bits >>> n.toNat := by
  simp only [shiftWordsRight, bits, UInt64.toBitVec_shiftLeft, UInt64.toBitVec_or,
    UInt64.toBitVec_shiftRight, UInt64.toBitVec_and, UInt64.toBitVec_not, BitVec.shiftLeft_eq',
    BitVec.ushiftRight_eq', Mixing.toNat_mod_width n small, Mixing.toNat_rest_width n some small]
  ext i _
  grind

end Shifts

/-- Moving the low word to the place of the high one is a shift by a
word. -/
theorem bits_word_left (self : Words128) : (⟨0, self.lo⟩ : Words128).bits = self.bits <<< 64 := by
  have zero : (0 : UInt64).toBitVec = 0#64 := rfl
  ext i _
  simp only [bits, zero]
  grind

/-- So is moving the high word to the place of the low one. -/
theorem bits_word_right (self : Words128) :
    (⟨self.hi, 0⟩ : Words128).bits = self.bits >>> 64 := by
  have zero : (0 : UInt64).toBitVec = 0#64 := rfl
  ext i _
  simp only [bits, zero]
  grind

/-- The count of a shift, which is read as an `int`: only the low 32 bits of
the operand matter. -/
def count (rhs : Words128) : Nat := rhs.lo.toNat % 2 ^ 32

/-- The count that the shifts compare and use is this number. -/
theorem toNat_count (rhs : Words128) : rhs.toInteger.toUInt32.toNat = rhs.count := by
  simp [toInteger, count]

/-- A shift within the words, which is left out for a count of zero. The
step across the words would then shift by the whole width. -/
theorem bits_within_left (self : Words128) (n : UInt32) (within : n.toNat < 64) :
    (if n ≠ 0 then self.shiftWordsLeft n.toUInt64 else self).bits = self.bits <<< n.toNat := by
  have same : n.toUInt64.toNat = n.toNat := UInt32.toNat_toUInt64 n
  split
  · next some =>
    have positive : n.toNat ≠ 0 := fun zero => some (UInt32.toNat_inj.mp zero)
    rw [bits_shiftWordsLeft _ (by omega) (by omega), same]
  · next none =>
    rw [not_not.mp none]
    exact (BitVec.shiftLeft_zero _).symm

/-- The same to the right. -/
theorem bits_within_right (self : Words128) (n : UInt32) (within : n.toNat < 64) :
    (if n ≠ 0 then self.shiftWordsRight n.toUInt64 else self).bits = self.bits >>> n.toNat := by
  have same : n.toUInt64.toNat = n.toNat := UInt32.toNat_toUInt64 n
  split
  · next some =>
    have positive : n.toNat ≠ 0 := fun zero => some (UInt32.toNat_inj.mp zero)
    rw [bits_shiftWordsRight _ (by omega) (by omega), same]
  · next none =>
    rw [not_not.mp none]
    exact (BitVec.ushiftRight_zero _).symm

/-- `operator<<=` shifts the bits by the count, in all three ranges of
it. -/
theorem bits_shiftLeft (self rhs : Words128) :
    (self.shiftLeft rhs).bits = self.bits <<< rhs.count := by
  have counted := toNat_count rhs
  unfold shiftLeft
  generalize rhs.toInteger.toUInt32 = n at counted
  rw [← counted]
  by_cases large : n ≥ 128
  · rw [if_pos large, BitVec.shiftLeft_eq_zero (UInt32.le_iff_toNat_le.mp large)]
    rfl
  · have bounded : n.toNat < 128 := UInt32.lt_iff_toNat_lt.mp (UInt32.not_le.mp large)
    by_cases upper : n ≥ 64
    · have least : 64 ≤ n.toNat := UInt32.le_iff_toNat_le.mp upper
      have left : (n - 64).toNat = n.toNat - 64 := UInt32.toNat_sub_of_le _ _ upper
      have total : n.toNat = 64 + (n - 64).toNat := by omega
      simp only [if_neg large, if_pos upper]
      rw [bits_within_left _ (n - 64) (by omega), bits_word_left, ← BitVec.shiftLeft_add, ← total]
    · simp only [if_neg large, if_neg upper]
      exact bits_within_left self n (UInt32.lt_iff_toNat_lt.mp (UInt32.not_le.mp upper))

/-- `operator>>=` shifts the bits by the count. -/
theorem bits_shiftRight (self rhs : Words128) :
    (self.shiftRight rhs).bits = self.bits >>> rhs.count := by
  have counted := toNat_count rhs
  unfold shiftRight
  generalize rhs.toInteger.toUInt32 = n at counted
  rw [← counted]
  by_cases large : n ≥ 128
  · rw [if_pos large, BitVec.ushiftRight_eq_zero (UInt32.le_iff_toNat_le.mp large)]
    rfl
  · have bounded : n.toNat < 128 := UInt32.lt_iff_toNat_lt.mp (UInt32.not_le.mp large)
    by_cases upper : n ≥ 64
    · have least : 64 ≤ n.toNat := UInt32.le_iff_toNat_le.mp upper
      have left : (n - 64).toNat = n.toNat - 64 := UInt32.toNat_sub_of_le _ _ upper
      have total : n.toNat = 64 + (n - 64).toNat := by omega
      simp only [if_neg large, if_pos upper]
      rw [bits_within_right _ (n - 64) (by omega), bits_word_right, ← BitVec.shiftRight_add,
        ← total]
    · simp only [if_neg large, if_neg upper]
      exact bits_within_right self n (UInt32.lt_iff_toNat_lt.mp (UInt32.not_le.mp upper))

/-- The test of the lowest bit tells whether the number is even. -/
theorem lowest_bit (self : Words128) :
    (self.bitAnd (ofInt 1)).equal (ofInt 0) = true ↔ self.bits.toNat % 2 = 0 := by
  rw [equal_iff, ← bits_injective.eq_iff, ← BitVec.toNat_inj, bits_bitAnd, BitVec.toNat_and,
    toNat_ofInt_one, toNat_ofInt_zero, Nat.and_one_is_mod]

/-- A turn adds the factor, shifted by the place of the bit, when that bit
of the other one is set. What was the product with the lower bits becomes
that with one bit more. -/
theorem bits_multiplyTurn (a b : Words128) (state : Words128 × Words128) (i : Nat)
    (inside : i < 128)
    (sum : state.1.bits = a.bits * BitVec.ofNat 128 (b.bits.toNat % 2 ^ i))
    (rest : state.2.bits = b.bits >>> i) :
    (multiplyTurn a state i).1.bits = a.bits * BitVec.ofNat 128 (b.bits.toNat % 2 ^ (i + 1)) ∧
      (multiplyTurn a state i).2.bits = b.bits >>> (i + 1) := by
  have one : (ofInt 1).count = 1 := rfl
  have place : (ofWord (UInt64.ofNat i)).count = i := by
    simp only [ofWord, count, UInt64.toNat_ofNat']
    omega
  have bit := lowest_bit state.2
  rw [rest, BitVec.toNat_ushiftRight, Nat.shiftRight_eq_div_pow] at bit
  simp only [multiplyTurn]
  refine ⟨?_, by rw [bits_shiftRight, one, rest, BitVec.shiftRight_add]⟩
  rw [Nat.mod_pow_succ]
  rcases Nat.mod_two_eq_zero_or_one (b.bits.toNat / 2 ^ i) with even | odd
  · simpa [bit.mpr even, even] using sum
  · have set : (state.2.bitAnd (ofInt 1)).equal (ofInt 0) = false := by
      rw [← Bool.not_eq_true, bit, odd]
      decide
    have shifted : a.bits <<< i = a.bits * BitVec.ofNat 128 (2 ^ i) := by
      rw [BitVec.shiftLeft_eq_mul_twoPow]
      congr 1
      exact BitVec.eq_of_toNat_eq (by rw [BitVec.toNat_twoPow, BitVec.toNat_ofNat])
    simp only [set, odd, Bool.not_false, if_true, mul_one]
    rw [bits_add, sum, bits_shiftLeft, place, shifted, BitVec.ofNat_add, BitVec.mul_add]

/-- After some turns the sum is the product with the lowest bits of the
factor. By induction on the turns. -/
theorem bits_multiplyTurns (a b : Words128) (turns : Nat) (inside : turns ≤ 128) :
    ((List.range turns).foldl (multiplyTurn a) (⟨0, 0⟩, b)).1.bits =
        a.bits * BitVec.ofNat 128 (b.bits.toNat % 2 ^ turns) ∧
      ((List.range turns).foldl (multiplyTurn a) (⟨0, 0⟩, b)).2.bits = b.bits >>> turns := by
  induction turns with
  | zero =>
    refine ⟨?_, (BitVec.ushiftRight_zero _).symm⟩
    rw [pow_zero, Nat.mod_one, BitVec.mul_zero]
    exact bits_zero
  | succ turns inductionHypothesis =>
    obtain ⟨sum, rest⟩ := inductionHypothesis (by omega)
    rw [List.range_succ, List.foldl_append]
    exact bits_multiplyTurn a b _ turns (by omega) sum rest

/-- After all turns it is the product with all of the factor; the two
factors that are taken out beforehand have their product as well. -/
theorem bits_multiply (self b : Words128) : (self.multiply b).bits = self.bits * b.bits := by
  unfold multiply
  split
  · next zero =>
    rw [(equal_iff b _).mp zero]
    exact BitVec.mul_zero.symm
  · split
    · rw [(bits_multiplyTurns self b 128 le_rfl).1, Nat.mod_eq_of_lt b.bits.isLt,
        BitVec.ofNat_toNat, BitVec.setWidth_eq]
    · next unit =>
      have one : b.equal (ofInt 1) = true := by simpa using unit
      rw [(equal_iff b _).mp one]
      exact (BitVec.mul_one _).symm

/-- A shift by one doubles a number that has room for it. -/
theorem toNat_double (self : Words128) (room : self.bits.toNat < 2 ^ 127) :
    (self.shiftLeft (ofInt 1)).bits.toNat = 2 * self.bits.toNat := by
  have one : (ofInt 1).count = 1 := rfl
  rw [bits_shiftLeft, one, BitVec.toNat_shiftLeft, Nat.shiftLeft_eq]
  omega

/-- A shift by one to the right halves a number. -/
theorem toNat_halve (self : Words128) :
    (self.shiftRight (ofInt 1)).bits.toNat = self.bits.toNat / 2 := by
  have one : (ofInt 1).count = 1 := rfl
  rw [bits_shiftRight, one, BitVec.toNat_ushiftRight, Nat.shiftRight_eq_div_pow, pow_one]

/-- A subtraction that does not go below zero is that of the numbers. -/
theorem toNat_subtract (self b : Words128) (below : b.bits.toNat ≤ self.bits.toNat) :
    (self.subtract b).bits.toNat = self.bits.toNat - b.bits.toNat := by
  rw [bits_subtract, BitVec.toNat_sub_of_le (BitVec.le_def.mpr below)]

/-- The first loop goes on while the scaled denominator is not above the
numerator and can be doubled. -/
theorem scaling_iff (state : Division) :
    scaling state = true ↔
      state.d.bits.toNat ≤ state.n.bits.toNat ∧ state.d.bits.toNat < 2 ^ 127 := by
  have top : (ofInt 127).count = 127 := rfl
  have bounded := state.d.bits.isLt
  rw [scaling, Bool.and_eq_true, Bool.not_eq_true', ← Bool.not_eq_true, less_iff, lowest_bit,
    bits_shiftRight, top, BitVec.toNat_ushiftRight, Nat.shiftRight_eq_div_pow]
  omega

/-- The second loop goes on while the bit is not zero. -/
theorem restoring_iff (state : Division) :
    restoring state = true ↔ state.x.bits.toNat ≠ 0 := by
  rw [restoring, Bool.not_eq_true', ← Bool.not_eq_true, equal_iff, ← bits_injective.eq_iff,
    ← BitVec.toNat_inj, toNat_ofInt_zero]

/-- The state of the first loop after a number of turns: the denominator and
the bit have been doubled as often, and nothing else has changed. -/
structure Scaled (numerator denominator turns : Nat) (state : Division) : Prop where
  n : state.n.bits.toNat = numerator
  d : state.d.bits.toNat = denominator * 2 ^ turns
  x : state.x.bits.toNat = 2 ^ turns
  answer : state.answer.bits.toNat = 0

/-- A turn of the first loop doubles once more, for which there is room
while the loop goes on. -/
theorem Scaled.scale {numerator denominator turns : Nat} {state : Division}
    (scaled : Scaled numerator denominator turns state) (positive : 0 < denominator)
    (more : scaling state = true) :
    Scaled numerator denominator (turns + 1) (Words128.scale state) := by
  have room := ((scaling_iff state).mp more).2
  have least : state.x.bits.toNat ≤ state.d.bits.toNat := by
    rw [scaled.x, scaled.d]
    exact Nat.le_mul_of_pos_left _ positive
  refine ⟨scaled.n, ?_, ?_, scaled.answer⟩
  · rw [Words128.scale, toNat_double _ room, scaled.d]
    ring
  · rw [Words128.scale, toNat_double _ (by omega), scaled.x]
    ring

/-- The state of the second loop when a number of turns is left: the answer
times the denominator and the rest are the numerator, and the bits of the
answer that are still to be found are zero. -/
structure Restored (numerator denominator left : Nat) (state : Division) : Prop where
  d : state.d.bits.toNat = denominator * 2 ^ left / 2
  x : state.x.bits.toNat = 2 ^ left / 2
  total : numerator = state.answer.bits.toNat * denominator + state.n.bits.toNat
  small : state.n.bits.toNat < denominator * 2 ^ left
  aligned : 2 ^ left ∣ state.answer.bits.toNat

/-- The first loop ends where the second one can start: the numerator is
below twice the scaled denominator, either by comparison or because its
highest bit is set. -/
theorem Scaled.restored {numerator denominator turns : Nat} {state : Division}
    (scaled : Scaled numerator denominator turns state) (ended : scaling state = false) :
    Restored numerator denominator (turns + 1) state := by
  have bounded := state.n.bits.isLt
  have stopped : ¬(state.d.bits.toNat ≤ state.n.bits.toNat ∧ state.d.bits.toNat < 2 ^ 127) := by
    rw [← scaling_iff, ended]
    decide
  have twice : denominator * 2 ^ (turns + 1) = 2 * state.d.bits.toNat := by
    rw [scaled.d]
    ring
  refine ⟨?_, ?_, ?_, ?_, ?_⟩
  · rw [twice]
    omega
  · rw [scaled.x, pow_succ]
    omega
  · rw [scaled.answer, scaled.n]
    omega
  · rw [twice]
    omega
  · rw [scaled.answer]
    exact dvd_zero _

/-- A turn of the second loop finds one more bit of the answer. Whether or
not the denominator fits, what is left of the numerator is below the halved
scale. -/
theorem Restored.restore {numerator denominator left : Nat} {state : Division}
    (restored : Restored numerator denominator (left + 1) state) :
    Restored numerator denominator left (Words128.restore state) := by
  have d : state.d.bits.toNat = denominator * 2 ^ left := by
    rw [restored.d, pow_succ, ← mul_assoc]
    omega
  have x : state.x.bits.toNat = 2 ^ left := by
    rw [restored.x, pow_succ]
    omega
  have small : state.n.bits.toNat < 2 * state.d.bits.toNat := by
    have below := restored.small
    rw [pow_succ, ← mul_assoc, ← d] at below
    omega
  have aligned := restored.aligned
  by_cases below : state.n.less state.d = true
  · have rest := (less_iff state.n state.d).mp below
    simp only [Words128.restore, below, Bool.not_true, Bool.false_eq_true, if_false]
    refine ⟨?_, ?_, restored.total, d ▸ rest, ?_⟩
    · rw [toNat_halve, d]
    · rw [toNat_halve, x]
    · exact (pow_dvd_pow 2 left.le_succ).trans aligned
  · have reached : state.d.bits.toNat ≤ state.n.bits.toNat := by
      rw [less_iff] at below
      omega
    have joined : (state.answer.bitOr state.x).bits.toNat =
        state.answer.bits.toNat + 2 ^ left := by
      obtain ⟨high, answer⟩ := aligned
      rw [bits_bitOr, BitVec.toNat_or, x, answer, mul_comm, ← Nat.shiftLeft_eq,
        Nat.shiftLeft_add_eq_or_of_lt (Nat.pow_lt_pow_right (by decide) left.lt_succ_self)]
    simp only [Words128.restore, below, Bool.not_false, if_true]
    refine ⟨?_, ?_, ?_, ?_, ?_⟩
    · rw [toNat_halve, d]
    · rw [toNat_halve, x]
    · rw [joined, toNat_subtract _ _ reached, d, add_mul, restored.total]
      have : 2 ^ left * denominator = state.d.bits.toNat := by rw [d, mul_comm]
      omega
    · rw [toNat_subtract _ _ reached, ← d]
      omega
    · rw [joined]
      exact ((pow_dvd_pow 2 left.le_succ).trans aligned).add (dvd_refl _)

/-- The turns that the second loop still makes are told by the bit that
stands for the scale. -/
theorem Restored.size {numerator denominator left : Nat} {state : Division}
    (restored : Restored numerator denominator left state) :
    state.x.bits.toNat.size = left := by
  rw [restored.x]
  cases left with
  | zero => rfl
  | succ left => rw [pow_succ, Nat.mul_div_cancel _ (by decide), Nat.size_pow]

/-- The first loop ends: the denominator can be doubled at most 127
times. -/
theorem scaling_ends (numerator denominator : Words128) (positive : 0 < denominator.bits.toNat) :
    ∃ turns scaled, turns < 128 ∧
      Loop.whileLoop scaling (some ∘ scale) 128 ⟨numerator, denominator, ofInt 1, ofInt 0⟩ =
        some scaled ∧
      Restored numerator.bits.toNat denominator.bits.toNat (turns + 1) scaled := by
  have few : ∀ turns state,
      Scaled numerator.bits.toNat denominator.bits.toNat turns state → turns < 128 := by
    intro turns state scaled
    have fits := state.x.bits.isLt
    rw [scaled.x] at fits
    exact (Nat.pow_lt_pow_iff_right (by decide)).mp fits
  obtain ⟨last, ended, ⟨turns, scaled⟩, stopped⟩ :=
    Loop.whileLoop_total
      (fun state => ∃ turns, Scaled numerator.bits.toNat denominator.bits.toNat turns state)
      (fun state => 128 - state.x.bits.toNat.size)
      (by
        rintro state ⟨turns, scaled⟩ more
        have next := scaled.scale positive more
        refine ⟨scale state, rfl, ⟨turns + 1, next⟩, ?_⟩
        have bound := few _ _ next
        rw [scaled.x, next.x, Nat.size_pow, Nat.size_pow]
        omega)
      128 ⟨numerator, denominator, ofInt 1, ofInt 0⟩
      ⟨0, rfl, (mul_one _).symm, toNat_ofInt_one, toNat_ofInt_zero⟩ (Nat.sub_le _ _)
  exact ⟨turns, last, few turns last scaled, ended, scaled.restored stopped⟩

/-- The second loop ends with the quotient and the remainder: with no turn
left, what is left of the numerator is below the denominator. -/
theorem restoring_ends (numerator denominator left : Nat) (state : Division)
    (restored : Restored numerator denominator left state) (few : left ≤ 128) :
    ∃ last, Loop.whileLoop restoring (some ∘ restore) 128 state = some last ∧
      Restored numerator denominator 0 last := by
  obtain ⟨last, ended, ⟨rest, reached⟩, stopped⟩ :=
    Loop.whileLoop_total
      (fun state => ∃ left, Restored numerator denominator left state)
      (fun state => state.x.bits.toNat.size)
      (by
        rintro state ⟨left, restored⟩ more
        cases left with
        | zero => exact absurd restored.x ((restoring_iff state).mp more)
        | succ left =>
          refine ⟨restore state, rfl, ⟨left, restored.restore⟩, ?_⟩
          rw [restored.size, restored.restore.size]
          exact left.lt_succ_self)
      128 state ⟨left, restored⟩ (restored.size.trans_le few)
  have zero : last.x.bits.toNat = 0 := by
    by_contra more
    rw [(restoring_iff last).mpr more] at stopped
    cases stopped
  have finished : rest = 0 := by rw [← reached.size, zero, Nat.size_zero]
  exact ⟨last, ended, finished ▸ reached⟩

/-- Every division by a number other than zero ends, with quotient and
remainder. The two loops are put together. -/
theorem divide_eq (numerator denominator : Words128) (positive : 0 < denominator.bits.toNat) :
    ∃ quotient remainder, divide numerator denominator = some (.ok (quotient, remainder)) ∧
      quotient.bits.toNat = numerator.bits.toNat / denominator.bits.toNat ∧
      remainder.bits.toNat = numerator.bits.toNat % denominator.bits.toNat := by
  have nonzero : denominator.equal (ofInt 0) ≠ true := by
    rw [ne_eq, equal_iff]
    rintro rfl
    exact absurd toNat_ofInt_zero positive.ne'
  obtain ⟨turns, scaled, few, scales, started⟩ := scaling_ends numerator denominator positive
  obtain ⟨last, ends, finished⟩ := restoring_ends _ _ (turns + 1) scaled started few
  have total := finished.total
  have small := finished.small
  rw [pow_zero, mul_one] at small
  refine ⟨last.answer, last.n, ?_, ?_, ?_⟩
  · rw [divide, if_neg nonzero, scales, Option.bind_some, ends, Option.map_some]
  · rw [total, mul_comm, Nat.mul_add_div positive, Nat.div_eq_of_lt small, add_zero]
  · rw [total, Nat.mul_add_mod_self_right, Nat.mod_eq_of_lt small]

/-- The value of a pair of words is the number of its bits. -/
theorem val_value (self : Words128) : self.value.val = self.bits.toNat := rfl

/-- No two pairs of words have the same value. -/
theorem value_injective : Function.Injective value := by
  intro a b same
  exact bits_injective (BitVec.eq_of_toNat_eq (congrArg Fin.val same))

/-- The class computes on the numbers below `2 ^ 128`: each of its
operations is the operation on the values, which wraps, the comparisons are
those of the values, and no two objects have the same value. -/
theorem words_compute (a b : Words128) :
    (a.add b).value = a.value + b.value ∧ (a.subtract b).value = a.value - b.value ∧
      (a.multiply b).value = a.value * b.value ∧ a.negate.value = -a.value ∧
      a.increment.value = a.value + 1 ∧ a.decrement.value = a.value - 1 ∧
      (a.equal b = true ↔ a.value = b.value) ∧ (a.less b = true ↔ a.value < b.value) ∧
      (a.value = b.value → a = b) := by
  refine ⟨?_, ?_, ?_, ?_, ?_, ?_, ?_, ?_, fun same => value_injective same⟩
  · rw [value, bits_add, BitVec.toFin_add]
    rfl
  · rw [value, bits_subtract, BitVec.toFin_sub]
    rfl
  · rw [value, bits_multiply, BitVec.toFin_mul]
    rfl
  · rw [value, bits_negate, BitVec.toFin_neg]
    rfl
  · rw [value, bits_increment, BitVec.toFin_add]
    rfl
  · rw [value, bits_decrement, BitVec.toFin_sub]
    rfl
  · rw [equal_iff, value_injective.eq_iff]
  · rw [less_iff, Fin.lt_def]
    rfl

/-- The shifts multiply and divide by a power of two. Their count is the low
half of the low word of the operand, whatever the rest of it. -/
theorem shifts_compute (a rhs : Words128) :
    (a.shiftLeft rhs).value.val = a.value.val * 2 ^ (rhs.value.val % 2 ^ 32) % 2 ^ 128 ∧
      (a.shiftRight rhs).value.val = a.value.val / 2 ^ (rhs.value.val % 2 ^ 32) := by
  have low : rhs.count = rhs.value.val % 2 ^ 32 := by
    rw [val_value, toNat_bits, count]
    omega
  constructor
  · rw [val_value, bits_shiftLeft, low, BitVec.toNat_shiftLeft, Nat.shiftLeft_eq]
    rfl
  · rw [val_value, bits_shiftRight, low, BitVec.toNat_ushiftRight, Nat.shiftRight_eq_div_pow]
    rfl

/-- Division by zero is an error. Every other division ends, with the
quotient and the remainder of the values.

Proof: the first loop scales the denominator up to the numerator, or as far
as its bits allow. In the second one, the numerator is the answer times the
denominator and a rest below the scaled denominator, which is halved until
it is the denominator itself. -/
theorem divide_total (numerator denominator : Words128) :
    (denominator.value = 0 → divide numerator denominator = some (.error "divide by zero")) ∧
      (denominator.value ≠ 0 → ∃ quotient remainder,
        divide numerator denominator = some (.ok (quotient, remainder)) ∧
          quotient.value = numerator.value / denominator.value ∧
          remainder.value = numerator.value % denominator.value) := by
  constructor
  · intro zero
    have none : denominator = ofInt 0 := value_injective (zero.trans (by decide))
    rw [divide, if_pos ((equal_iff _ _).mpr none)]
  · intro nonzero
    have positive : 0 < denominator.bits.toNat :=
      Nat.pos_of_ne_zero fun zero => nonzero (Fin.ext zero)
    obtain ⟨quotient, remainder, divided, divides, rest⟩ :=
      divide_eq numerator denominator positive
    exact ⟨quotient, remainder, divided, Fin.ext divides, Fin.ext rest⟩

end Words128

end Sopmq
