import Mathlib.Data.UInt
import Mathlib.Logic.Function.Basic

/-!
# Steps that lose nothing

The hashes that mix their input word by word are made of steps that can be undone: a product with
an odd constant, a rotation, the exclusive or of a word with its own upper half, a sum of words.
Each of them is injective. So is what is made of them, and a chain of such steps, one for each
piece of the input, tells two inputs apart that differ in a single piece.
-/

namespace Sopmq.Mixing

/-- The count of a shift that stays within the word: the machine takes it
modulo the width, which changes nothing. -/
theorem toNat_mod_width (n : UInt64) (small : n.toNat < 64) :
    (n.toBitVec % 64).toNat = n.toNat := by
  rw [BitVec.toNat_umod]
  exact Nat.mod_eq_of_lt small

/-- The count of the shift for the bits that have left the word, which is
within the word as well when some have left it and not all. -/
theorem toNat_rest_width (n : UInt64) (some : 0 < n.toNat) (small : n.toNat < 64) :
    ((64 - n).toBitVec % 64).toNat = 64 - n.toNat := by
  have left : (64 - n).toNat = 64 - n.toNat :=
    UInt64.toNat_sub_of_le _ _ (UInt64.le_iff_toNat_le.mpr small.le)
  rw [toNat_mod_width (64 - n) (by omega), left]

/-- A product with a constant that has an inverse loses nothing: multiplying
by the inverse gives the factor back. -/
theorem mul_injective (factor inverse : UInt64) (inverts : factor * inverse = 1) :
    Function.Injective (· * factor) := by
  refine Function.LeftInverse.injective (g := (· * inverse)) fun x => ?_
  change x * factor * inverse = x
  rw [UInt64.mul_assoc, inverts, UInt64.mul_one]

/-- A sum with a fixed word loses nothing, also when it wraps. -/
theorem add_injective (summand : UInt64) : Function.Injective (· + summand) :=
  fun _ _ same => (UInt64.add_left_inj summand).mp same

/-- The exclusive or with a fixed word loses nothing; doing it again undoes
it. -/
theorem xor_injective (word : UInt64) : Function.Injective (· ^^^ word) :=
  fun _ _ same => (UInt64.xor_left_inj word).mp same

/-- The same with the fixed word on the left. -/
theorem xor_injective_right (word : UInt64) : Function.Injective (word ^^^ ·) :=
  fun _ _ same => (UInt64.xor_right_inj word).mp same

/-- A rotation to the left, as the two shifts that it is written with. -/
def rotate (x r : UInt64) : UInt64 := (x <<< r) ||| (x >>> (64 - r))

/-- A rotation to the right undoes one to the left. Each bit comes back from
the shift that it went into. -/
theorem rotate_back (bits : BitVec 64) (n : Nat) (some : 0 < n) (small : n < 64) :
    ((bits <<< n ||| bits >>> (64 - n)) >>> n) |||
      ((bits <<< n ||| bits >>> (64 - n)) <<< (64 - n)) = bits := by
  ext i inside
  by_cases low : n + i < 64
  · have kept : i < 64 - n := by omega
    have outside : 64 ≤ 64 - n + (n + i) := by omega
    simp [low, kept, outside]
  · have moved : ¬i < 64 - n := by omega
    have outside : 64 ≤ 64 - n + (n + i) := by omega
    have entered : i - (64 - n) < n := by omega
    have back : 64 - n + (i - (64 - n)) = i := by omega
    simp [low, moved, outside, entered, back, inside]

/-- So a rotation by less than a word loses nothing. A rotation by zero is
not meant here: its second shift would be by the whole width. -/
theorem rotate_injective (r : UInt64) (some : 0 < r.toNat) (small : r.toNat < 64) :
    Function.Injective (rotate · r) := by
  refine Function.LeftInverse.injective
    (g := fun y => (y >>> r) ||| (y <<< (64 - r))) fun x => ?_
  apply UInt64.eq_of_toBitVec_eq
  simp only [rotate, UInt64.toBitVec_or, UInt64.toBitVec_shiftLeft, UInt64.toBitVec_shiftRight,
    BitVec.shiftLeft_eq', BitVec.ushiftRight_eq', toNat_mod_width r small,
    toNat_rest_width r some small]
  exact rotate_back x.toBitVec r.toNat some small

/-- The exclusive or of a word with its own upper part, moved down by half a
word at least, is its own inverse. -/
theorem xorShift_injective (s : UInt64) (least : 32 ≤ s.toNat) (small : s.toNat < 64) :
    Function.Injective fun x : UInt64 => x ^^^ (x >>> s) := by
  refine Function.LeftInverse.injective (g := fun y => y ^^^ (y >>> s)) fun x => ?_
  apply UInt64.eq_of_toBitVec_eq
  simp only [UInt64.toBitVec_xor, UInt64.toBitVec_shiftRight, BitVec.ushiftRight_eq',
    toNat_mod_width s small]
  ext i _
  grind

section Chain

universe u v
variable {State : Type u} {Piece : Type v} {step : State → Piece → State}

/-- A chain of steps of which each can be undone, whatever its piece, can be
undone as a whole. By induction on the pieces. -/
theorem foldl_injective
    (undone : ∀ piece, Function.Injective (step · piece)) (pieces : List Piece) :
    Function.Injective fun state => pieces.foldl step state := by
  induction pieces with
  | nil => exact fun _ _ same => same
  | cons piece pieces inductionHypothesis =>
    exact fun _ _ same => undone piece (inductionHypothesis same)

/-- Inputs of one length that differ in one piece at most are told apart. Up
to that piece the states agree, the step there takes different pieces to
different states, and the steps after it keep them different. -/
theorem foldl_tells_apart
    (undone : ∀ piece, Function.Injective (step · piece))
    (taken : ∀ state, Function.Injective (step state)) (first second : List Piece) (place : Nat)
    (others : ∀ i, i ≠ place → first[i]? = second[i]?) (length : first.length = second.length)
    (state : State) (same : first.foldl step state = second.foldl step state) :
    first = second := by
  induction first generalizing second place state with
  | nil => exact (List.length_eq_zero_iff.mp length.symm).symm
  | cons piece pieces inductionHypothesis =>
    cases second with
    | nil => cases length
    | cons piece' pieces' =>
      cases place with
      | zero =>
        have rest : pieces = pieces' :=
          List.ext_getElem? fun i => others (i + 1) (Nat.succ_ne_zero i)
        subst rest
        rw [taken state (foldl_injective undone pieces same)]
      | succ place =>
        have head : piece = piece' := Option.some.inj (others 0 (Nat.succ_ne_zero place).symm)
        subst head
        rw [inductionHypothesis pieces' place
          (fun i different => others (i + 1) (fun equal => different (Nat.succ.inj equal)))
          (Nat.succ.inj length) (step state piece) same]

end Chain

end Sopmq.Mixing
