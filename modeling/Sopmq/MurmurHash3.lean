import Sopmq.ByteOrder
import Sopmq.Mixing
import Sopmq.Words128

/-!
# The hash of a queue name

A queue is known to the nodes by the hash of its name: the hash chooses the replicas and keys the
queues of a node. Two names with one hash would share a queue. The hash is `MurmurHash3_x64_128`,
which takes blocks of sixteen bytes, then what is left of the name, into two words, and mixes these
at the end. The blocks are read in the order of the host, the rest byte by byte.

The length of a name is that of a `std::string` in an `int`. Names of less than `2 ^ 31` bytes are
meant throughout, for which the conversion changes nothing.
-/

namespace Sopmq

open ByteOrder

namespace MurmurHash3

/-- The words `h1` and `h2`, in which the hash keeps what it has seen of the
key. -/
abbrev State := UInt64 × UInt64

/-- The first of the two odd constants that the words of the key are
multiplied with. -/
def c1 : UInt64 := 0x87c37b91114253d5

/-- The second of them. -/
def c2 : UInt64 := 0x4cf5ad432745937f

/-- `rotl64`: a rotation to the left, by less than a word and more than
nothing wherever it is used. -/
def rotl64 (x r : UInt64) : UInt64 := (x <<< r) ||| (x >>> (64 - r))

/-- `getblock64`: eight bytes of the key as the host reads them. -/
def getblock64 (host : Host) (p : Bytes) (i : Nat) : UInt64 :=
  UInt64.ofNat (load host ((p.drop (8 * i)).take 8))

/-- `fmix64`, the finalization of a word: shifts of the upper half into the
lower one, and products between them. -/
def fmix64 (k : UInt64) : UInt64 :=
  let k := k ^^^ (k >>> 33)
  let k := k * 0xff51afd7ed558ccd
  let k := k ^^^ (k >>> 33)
  let k := k * 0xc4ceb9fe1a85ec53
  k ^^^ (k >>> 33)

/-- What is made of `k1`, in the body and in the tail, before it is taken
into the state. -/
def mixK1 (k1 : UInt64) : UInt64 := rotl64 (k1 * c1) 31 * c2

/-- What is made of `k2`, with the constants the other way around. -/
def mixK2 (k2 : UInt64) : UInt64 := rotl64 (k2 * c2) 33 * c1

/-- The body of the loop over the blocks, once the words of a block have
been read. -/
def mixBlock (h : State) (k : UInt64 × UInt64) : State :=
  let h1 := h.1 ^^^ mixK1 k.1
  let h1 := rotl64 h1 27
  let h1 := h1 + h.2
  let h1 := h1 * 5 + 0x52dce729
  let h2 := h.2 ^^^ mixK2 k.2
  let h2 := rotl64 h2 31
  let h2 := h2 + h1
  let h2 := h2 * 5 + 0x38495ab5
  (h1, h2)

/-- The words of a block of sixteen bytes. -/
def block (host : Host) (data : Bytes) (i : Nat) : UInt64 × UInt64 :=
  (getblock64 host data (i * 2 + 0), getblock64 host data (i * 2 + 1))

/-- The body of the loop over the blocks: the block is read and mixed into
the state. -/
def bodyTurn (host : Host) (data : Bytes) (h : State) (i : Nat) : State :=
  mixBlock h (block host data i)

/-- The cases of the switch that fall through to each other, from the one of
the given number of bytes down: each takes a byte from `base` on into the
word. -/
def fallThrough (tail : Bytes) (base : Nat) : Nat → UInt64 → UInt64
  | 0, k => k
  | n + 1, k =>
      fallThrough tail base n
        (k ^^^ ((tail.getD (base + n) 0).toUInt64 <<< UInt64.ofNat (8 * n)))

/-- The switch over `len & 15`: from nine bytes on the second word has a
part of the rest, and from one byte on the first. -/
def mixTail (h : State) (tail : Bytes) (rest : Nat) : State :=
  let h2 := if 9 ≤ rest then h.2 ^^^ mixK2 (fallThrough tail 8 (rest - 8) 0) else h.2
  let h1 := if 1 ≤ rest then h.1 ^^^ mixK1 (fallThrough tail 0 (min rest 8) 0) else h.1
  (h1, h2)

/-- `h1 += h2; h2 += h1`, where the second sum has the first one in it. -/
def addWords (h : State) : State := (h.1 + h.2, h.2 + (h.1 + h.2))

/-- The finalization: the length is taken in, and both words are mixed
between two such sums. -/
def finalize (len : UInt64) (h : State) : State :=
  let h := addWords (h.1 ^^^ len, h.2 ^^^ len)
  addWords (fmix64 h.1, fmix64 h.2)

/-- `MurmurHash3_x64_128`: the whole blocks one after the other, what is
left after them, and the finalization. -/
def x64128 (host : Host) (key : Bytes) (seed : UInt32) : State :=
  let nblocks := key.length / 16
  let h := (List.range nblocks).foldl (bodyTurn host key) (seed.toUInt64, seed.toUInt64)
  let h := mixTail h (key.drop (nblocks * 16)) (key.length % 16)
  finalize (UInt64.ofNat key.length) h

end MurmurHash3

open MurmurHash3

/-- `util::murmur_hash3`, with its seed, which is a negative `int` that is
converted. The two words of the hash are those of the number. -/
def murmurHash3 (host : Host) (value : Bytes) : UInt128 :=
  let hash := x64128 host value (Int32.ofInt (-147483647)).toUInt32
  (⟨hash.1, hash.2⟩ : Words128).value

/-- `util::murmur_hash3` of a name, which is text in a message and goes into
the hash as its bytes. -/
def murmurHash3OfName (host : Host) (name : String) : UInt128 :=
  murmurHash3 host name.toUTF8.data.toList

namespace MurmurHash3

/-- The rotations of the hash lose nothing. -/
theorem rotl64_injective (r : UInt64) (some : 0 < r.toNat) (small : r.toNat < 64) :
    Function.Injective (rotl64 · r) :=
  Mixing.rotate_injective r some small

/-- What is made of `k1` tells it: two products with odd constants and a
rotation. -/
theorem mixK1_injective : Function.Injective mixK1 :=
  (Mixing.mul_injective c2 0xa81e14edd9de2c7f rfl).comp
    ((rotl64_injective 31 (by decide) (by decide)).comp
      (Mixing.mul_injective c1 0xa98409e882ce4d7d rfl))

/-- What is made of `k2` tells it as well. -/
theorem mixK2_injective : Function.Injective mixK2 :=
  (Mixing.mul_injective c1 0xa98409e882ce4d7d rfl).comp
    ((rotl64_injective 33 (by decide) (by decide)).comp
      (Mixing.mul_injective c2 0xa81e14edd9de2c7f rfl))

/-- The finalization of a word can be undone, step by step. -/
theorem fmix64_injective : Function.Injective fmix64 :=
  have shift : Function.Injective fun x : UInt64 => x ^^^ (x >>> 33) :=
    Mixing.xorShift_injective 33 (by decide) (by decide)
  (shift.comp (Mixing.mul_injective 0xc4ceb9fe1a85ec53 0x9cb4b2f8129337db rfl)).comp
    ((shift.comp (Mixing.mul_injective 0xff51afd7ed558ccd 0x4f74430c22a54005 rfl)).comp shift)

/-- So can the two sums: the second word minus the first one is the old
second one. -/
theorem addWords_injective : Function.Injective addWords := by
  rintro ⟨a1, a2⟩ ⟨b1, b2⟩ same
  obtain ⟨first, second⟩ : a1 + a2 = b1 + b2 ∧ a2 + (a1 + a2) = b2 + (b1 + b2) :=
    Prod.mk.inj same
  rw [first] at second
  have low : a2 = b2 := Mixing.add_injective (b1 + b2) second
  subst low
  have high : a1 = b1 := Mixing.add_injective a2 first
  rw [high]

/-- And so can the finalization as a whole, for a known length. -/
theorem finalize_injective (len : UInt64) : Function.Injective (finalize len) := by
  have lengths : Function.Injective fun h : State => (h.1 ^^^ len, h.2 ^^^ len) :=
    (Mixing.xor_injective len).prodMap (Mixing.xor_injective len)
  have words : Function.Injective fun h : State => (fmix64 h.1, fmix64 h.2) :=
    fmix64_injective.prodMap fmix64_injective
  exact (addWords_injective.comp words).comp (addWords_injective.comp lengths)

/-- What is made of a word of the state in the body, after the block has
been taken in: a rotation, a sum, a product with five and another sum. -/
theorem round_injective (r summand constant : UInt64) (some : 0 < r.toNat) (small : r.toNat < 64) :
    Function.Injective fun x => (rotl64 x r + summand) * 5 + constant :=
  (Mixing.add_injective constant).comp
    ((Mixing.mul_injective 5 0xcccccccccccccccd rfl).comp
      ((Mixing.add_injective summand).comp (rotl64_injective r some small)))

/-- What the words of the state and of the block have become tells what they
were, as long as either the state or the block is known. -/
theorem mixBlock_eq (h h' : State) (k k' : UInt64 × UInt64) (same : mixBlock h k = mixBlock h' k') :
    h.2 ^^^ mixK2 k.2 = h'.2 ^^^ mixK2 k'.2 ∧
      (h.2 = h'.2 → h.1 ^^^ mixK1 k.1 = h'.1 ^^^ mixK1 k'.1) := by
  obtain ⟨first, second⟩ := Prod.mk.inj same
  constructor
  · rw [first] at second
    exact round_injective 31 _ _ (by decide) (by decide) second
  · intro low
    rw [low] at first
    exact round_injective 27 _ _ (by decide) (by decide) first

/-- For a known block the body loses nothing of the state. -/
theorem mixBlock_injective_state (k : UInt64 × UInt64) :
    Function.Injective (mixBlock · k) := by
  intro h h' same
  obtain ⟨second, first⟩ := mixBlock_eq h h' k k same
  have low : h.2 = h'.2 := Mixing.xor_injective _ second
  exact Prod.ext (Mixing.xor_injective _ (first low)) low

/-- For a known state it loses nothing of the block. -/
theorem mixBlock_injective_block (h : State) : Function.Injective (mixBlock h) := by
  intro k k' same
  obtain ⟨second, first⟩ := mixBlock_eq h h k k' same
  exact Prod.ext (mixK1_injective (Mixing.xor_injective_right _ (first rfl)))
    (mixK2_injective (Mixing.xor_injective_right _ second))

/-- The bits that the cases of the switch take into a word: each byte has
its own eight bits, so none of them meet. -/
theorem getLsbD_fallThrough (tail : Bytes) (base n : Nat) (k : UInt64) (few : n ≤ 8) (i : Nat)
    (inside : i < 64) :
    (fallThrough tail base n k).toBitVec.getLsbD i =
      (k.toBitVec.getLsbD i ^^
        (decide (i < 8 * n) && (tail.getD (base + i / 8) 0).toBitVec.getLsbD (i % 8))) := by
  induction n generalizing k with
  | zero => simp [fallThrough]
  | succ n inductionHypothesis =>
    have fits : 8 * n < 2 ^ 64 := by omega
    have count : (UInt64.ofNat (8 * n)).toNat = 8 * n := UInt64.toNat_ofNat_of_lt' fits
    have moved := Mixing.toNat_mod_width (UInt64.ofNat (8 * n)) (by omega)
    rw [count] at moved
    rw [fallThrough, inductionHypothesis _ (by omega), UInt64.toBitVec_xor,
      UInt64.toBitVec_shiftLeft, BitVec.shiftLeft_eq', moved, BitVec.getLsbD_xor,
      BitVec.getLsbD_shiftLeft, UInt8.toBitVec_toUInt64, BitVec.getLsbD_setWidth]
    by_cases earlier : i < 8 * n
    · simp [earlier, show i < 8 * (n + 1) by omega]
    · by_cases taken : i < 8 * (n + 1)
      · have byte : i / 8 = n := by omega
        have bit : i - 8 * n = i % 8 := by omega
        simp [earlier, taken, inside, byte, bit, show i % 8 < 64 by omega]
      · have outside : 8 ≤ i - 8 * n := by omega
        simp [earlier, taken, outside]

/-- The word tells the bytes that have been taken into it. -/
theorem fallThrough_injective (tail tail' : Bytes) (base n : Nat) (few : n ≤ 8)
    (same : fallThrough tail base n 0 = fallThrough tail' base n 0) (j : Nat) (taken : j < n) :
    tail.getD (base + j) 0 = tail'.getD (base + j) 0 := by
  apply UInt8.eq_of_toBitVec_eq
  apply BitVec.eq_of_getLsbD_eq
  intro bit small
  have bits := congrArg (fun word => word.toBitVec.getLsbD (8 * j + bit)) same
  simp only [getLsbD_fallThrough _ _ _ _ few _ (show 8 * j + bit < 64 by omega)] at bits
  have byte : (8 * j + bit) / 8 = j := by omega
  have rest : (8 * j + bit) % 8 = bit := by omega
  simpa [byte, rest, show 8 * j + bit < 8 * n by omega] using bits

/-- For a known rest of the key the tail loses nothing of the state. -/
theorem mixTail_injective_state (tail : Bytes) (rest : Nat) :
    Function.Injective (mixTail · tail rest) := by
  intro h h' same
  obtain ⟨first, second⟩ := Prod.mk.inj same
  apply Prod.ext
  · split at first
    · exact Mixing.xor_injective _ first
    · exact first
  · split at second
    · exact Mixing.xor_injective _ second
    · exact second

/-- The bytes of the rest are told by what has become of a state: the upper
ones by the second word, the others by the first. -/
theorem mixTail_bytes (h : State) (tail tail' : Bytes) (rest : Nat) (few : rest < 16)
    (same : mixTail h tail rest = mixTail h tail' rest) (j : Nat) (taken : j < rest) :
    tail.getD j 0 = tail'.getD j 0 := by
  obtain ⟨first, second⟩ := Prod.mk.inj same
  by_cases low : j < 8
  · rw [if_pos (by omega), if_pos (by omega)] at first
    have words := mixK1_injective (Mixing.xor_injective_right _ first)
    simpa using fallThrough_injective tail tail' 0 _ (by omega) words j (by omega)
  · rw [if_pos (by omega), if_pos (by omega)] at second
    have words := mixK2_injective (Mixing.xor_injective_right _ second)
    have byte := fallThrough_injective tail tail' 8 _ (by omega) words (j - 8) (by omega)
    rwa [show 8 + (j - 8) = j by omega] at byte

/-- A word that has been read tells the eight bytes, whatever the order of
the host. -/
theorem getblock64_eq_iff (host : Host) (p p' : Bytes) (i : Nat) (inside : 8 * i + 8 ≤ p.length)
    (inside' : 8 * i + 8 ≤ p'.length) :
    getblock64 host p i = getblock64 host p' i ↔ ∀ j < 8, p[8 * i + j]? = p'[8 * i + j]? := by
  have length : ((p.drop (8 * i)).take 8).length = 8 := by simp; omega
  have length' : ((p'.drop (8 * i)).take 8).length = 8 := by simp; omega
  have bounded := load_lt host ((p.drop (8 * i)).take 8)
  have bounded' := load_lt host ((p'.drop (8 * i)).take 8)
  rw [length] at bounded
  rw [length'] at bounded'
  constructor
  · intro same j small
    have numbers := congrArg UInt64.toNat same
    rw [getblock64, getblock64, UInt64.toNat_ofNat_of_lt' bounded,
      UInt64.toNat_ofNat_of_lt' bounded'] at numbers
    have bytes := load_injective host _ _ (length.trans length'.symm) numbers
    simpa [List.getElem?_take, small] using congrArg (fun bytes => bytes[j]?) bytes
  · intro agree
    have bytes : (p.drop (8 * i)).take 8 = (p'.drop (8 * i)).take 8 := by
      apply List.ext_getElem?
      intro j
      by_cases small : j < 8
      · simpa [List.getElem?_take, small] using agree j small
      · simp [small]
    rw [getblock64, getblock64, bytes]

/-- The words of a block tell its sixteen bytes. -/
theorem block_eq_iff (host : Host) (a b : Bytes) (i : Nat) (inside : 16 * i + 16 ≤ a.length)
    (length : a.length = b.length) :
    block host a i = block host b i ↔ ∀ j, j / 16 = i → a[j]? = b[j]? := by
  rw [block, block, Prod.mk.injEq, getblock64_eq_iff host a b _ (by omega) (by omega),
    getblock64_eq_iff host a b _ (by omega) (by omega)]
  constructor
  · rintro ⟨low, high⟩ j place
    by_cases first : j % 16 < 8
    · have byte := low (j % 16) first
      rwa [show 8 * (i * 2 + 0) + j % 16 = j by omega] at byte
    · have byte := high (j % 16 - 8) (by omega)
      rwa [show 8 * (i * 2 + 1) + (j % 16 - 8) = j by omega] at byte
  · intro agree
    constructor
    · intro j small
      exact agree _ (by omega)
    · intro j small
      exact agree _ (by omega)

/-- The loop over the blocks is a chain of steps, one for each block, so
that the rules for such chains apply to it. -/
theorem body_eq (host : Host) (data : Bytes) (n : Nat) (h : State) :
    (List.range n).foldl (bodyTurn host data) h =
      ((List.range n).map (block host data)).foldl mixBlock h := by
  rw [List.foldl_map]
  rfl

/-- Keys of one length that differ within one window of sixteen bytes have
different hashes. The windows are the blocks and what is left after the last
of them.

Proof: the state at the end of the loop is told by the result, and it tells
the block that it has taken in if all others are known. If the difference is
in the rest, the states at the end of the loop are the same, and the rest is
told by what has become of it. -/
theorem x64128_injective_window (host : Host) (a b : Bytes) (seed : UInt32) (window : Nat)
    (length : a.length = b.length) (others : ∀ j, j / 16 ≠ window → a[j]? = b[j]?)
    (same : x64128 host a seed = x64128 host b seed) : a = b := by
  unfold x64128 at same
  rw [← length] at same
  have mixed := finalize_injective _ same
  rw [body_eq, body_eq] at mixed
  generalize start : (seed.toUInt64, seed.toUInt64) = h at mixed
  have agree : ∀ i < a.length / 16, i ≠ window → block host a i = block host b i := by
    intro i inside different
    rw [block_eq_iff host a b i (by omega) length]
    exact fun j place => others j (place ▸ different)
  by_cases inside : window < a.length / 16
  · have tails : a.drop (a.length / 16 * 16) = b.drop (a.length / 16 * 16) := by
      apply List.ext_getElem?
      intro j
      rw [List.getElem?_drop, List.getElem?_drop]
      exact others _ (by omega)
    rw [tails] at mixed
    have chained := mixTail_injective_state _ _ mixed
    have blocks := Mixing.foldl_tells_apart mixBlock_injective_state mixBlock_injective_block
      _ _ window
      (by
        intro i different
        by_cases some : i < a.length / 16
        · simp [List.getElem?_range some, agree i some different]
        · simp [some])
      (by simp) h chained
    have words : block host a window = block host b window :=
      List.map_inj_left.mp blocks window (List.mem_range.mpr inside)
    have bytes := (block_eq_iff host a b window (by omega) length).mp words
    apply List.ext_getElem?
    intro j
    by_cases place : j / 16 = window
    · exact bytes j place
    · exact others j place
  · have blocks : (List.range (a.length / 16)).map (block host a) =
        (List.range (a.length / 16)).map (block host b) :=
      List.map_congr_left fun i member =>
        agree i (List.mem_range.mp member) (by have := List.mem_range.mp member; omega)
    rw [blocks] at mixed
    have bytes := mixTail_bytes _ _ _ _ (Nat.mod_lt _ (by decide)) mixed
    apply List.ext_getElem?
    intro j
    by_cases place : j / 16 = window
    · by_cases some : j < a.length
      · have byte := bytes (j - a.length / 16 * 16) (by omega)
        simp only [List.getD_eq_getElem?_getD, List.getElem?_drop] at byte
        rw [show a.length / 16 * 16 + (j - a.length / 16 * 16) = j by omega] at byte
        rw [List.getElem?_eq_getElem some, List.getElem?_eq_getElem (length ▸ some)] at byte ⊢
        exact congrArg Option.some byte
      · rw [List.getElem?_eq_none (by omega), List.getElem?_eq_none (by omega)]
    · exact others j place

end MurmurHash3

/-- The same for the hash as a number, which has the two words in it
unchanged. -/
theorem murmurHash3_injective_window (host : Host) (a b : Bytes) (window : Nat)
    (length : a.length = b.length) (others : ∀ j, j / 16 ≠ window → a[j]? = b[j]?)
    (same : murmurHash3 host a = murmurHash3 host b) : a = b := by
  have words := Words128.value_injective same
  rw [Words128.mk.injEq] at words
  exact x64128_injective_window host a b _ window length others (Prod.ext words.1 words.2)

/-- The names have as many bytes, and differ within one window of sixteen
bytes at most. -/
def OneWindow (first second : String) : Prop :=
  first.toUTF8.data.toList.length = second.toUTF8.data.toList.length ∧
    ∃ window, ∀ j, j / 16 ≠ window →
      first.toUTF8.data.toList[j]? = second.toUTF8.data.toList[j]?

/-- Names of one length up to sixteen bytes have a single window, so they
are always told apart. -/
theorem OneWindow.of_short (first second : String)
    (length : first.toUTF8.data.toList.length = second.toUTF8.data.toList.length)
    (short : first.toUTF8.data.toList.length ≤ 16) : OneWindow first second := by
  refine ⟨length, 0, fun j outside => ?_⟩
  rw [List.getElem?_eq_none (by omega), List.getElem?_eq_none (by omega)]

/-- Names within one window that have the same hash are the same name. -/
theorem OneWindow.eq_of_hash {host : Host} {first second : String}
    (window : OneWindow first second)
    (same : murmurHash3OfName host first = murmurHash3OfName host second) : first = second := by
  obtain ⟨length, place, others⟩ := window
  have bytes := murmurHash3_injective_window host _ _ place length others same
  exact String.toByteArray_inj.mp (ByteArray.ext (Array.toList_inj.mp bytes))

/-- Names of one length that differ within one window of sixteen bytes, and
nowhere else, have different hashes. The windows are the blocks and what is
left after the last of them, so names of up to sixteen bytes are covered
whatever they are. -/
theorem murmurHash3_tells_apart (host : Host) (a b : Bytes) (window : Nat)
    (length : a.length = b.length) (others : ∀ j, j / 16 ≠ window → a[j]? = b[j]?)
    (different : a ≠ b) : murmurHash3 host a ≠ murmurHash3 host b := by
  intro same
  exact different (murmurHash3_injective_window host a b window length others same)

/-- Names that differ in the byte after the first block, in which they
agree. -/
theorem murmurHash3_tells_apart_rest :
    murmurHash3 .little (List.replicate 16 65 ++ [66]) ≠
      murmurHash3 .little (List.replicate 16 65 ++ [67]) := by
  refine murmurHash3_tells_apart .little _ _ 1 rfl ?_ (by decide)
  intro j outside
  by_cases first : j < 16
  · rw [List.getElem?_append_left (by simpa using first),
      List.getElem?_append_left (by simpa using first)]
  · rw [List.getElem?_eq_none (by simp; omega), List.getElem?_eq_none (by simp; omega)]

end Sopmq
