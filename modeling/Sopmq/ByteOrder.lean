import Mathlib.Algebra.Order.Ring.Nat
import Mathlib.Data.Nat.Digits.Defs

/-!
# Numbers of fixed width in memory and on the network

A number of a given width in bytes has a memory image that depends on the host: the
least significant byte comes first on a little-endian host and last on a big-endian
one. The conversion between host and network order reverses the bytes of the number
on the first kind of host and does nothing on the second. Whatever the host, the
image of a converted number is big-endian, and a big-endian image that is loaded and
converted back is the number.
-/

namespace Sopmq.ByteOrder

/-- The byte order of a host. A program is compiled for one of these two. -/
inductive Host where
  | little
  | big
deriving DecidableEq, Repr

/-- The bytes of a number, least significant first, as many as the width
asks for. Higher digits of the number are dropped. -/
def littleEndian : Nat → Nat → List UInt8
  | 0, _ => []
  | width + 1, value => UInt8.ofNat (value % 256) :: littleEndian width (value / 256)

/-- The number with the given bytes, least significant first, in base
256. -/
def ofLittleEndian (bytes : List UInt8) : Nat := Nat.ofDigits 256 (bytes.map UInt8.toNat)

/-- A number has as many bytes as its width, however small it is. -/
theorem littleEndian_length (width value : Nat) : (littleEndian width value).length = width := by
  induction width generalizing value with
  | zero => rfl
  | succ width inductionHypothesis => rw [littleEndian, List.length_cons, inductionHypothesis]

/-- The first byte counts as it is, and the others 256 times as much. -/
theorem ofLittleEndian_cons (byte : UInt8) (rest : List UInt8) :
    ofLittleEndian (byte :: rest) = byte.toNat + 256 * ofLittleEndian rest := by
  simp [ofLittleEndian, Nat.ofDigits_cons]

/-- The bytes of a number make up the number again, as far as it fits the
width. By induction on the width: the first byte is the remainder, the
others stand for the quotient. -/
theorem ofLittleEndian_littleEndian (width value : Nat) :
    ofLittleEndian (littleEndian width value) = value % 256 ^ width := by
  induction width generalizing value with
  | zero => simp [littleEndian, ofLittleEndian, Nat.mod_one]
  | succ width inductionHypothesis =>
    have digit : (UInt8.ofNat (value % 256)).toNat = value % 256 := by
      rw [UInt8.toNat_ofNat']
      omega
    rw [littleEndian, ofLittleEndian_cons, inductionHypothesis, digit, pow_succ', Nat.mod_mul]

/-- The number of some bytes has these bytes, so nothing is lost in this
direction. -/
theorem littleEndian_ofLittleEndian (bytes : List UInt8) :
    littleEndian bytes.length (ofLittleEndian bytes) = bytes := by
  induction bytes with
  | nil => rfl
  | cons byte rest inductionHypothesis =>
    have small := byte.toNat_lt
    have low : (byte.toNat + 256 * ofLittleEndian rest) % 256 = byte.toNat := by omega
    have high : (byte.toNat + 256 * ofLittleEndian rest) / 256 = ofLittleEndian rest := by omega
    rw [List.length_cons, littleEndian, ofLittleEndian_cons, low, high, inductionHypothesis,
      UInt8.ofNat_toNat]

/-- The number of some bytes is below the power of 256 for their count. -/
theorem ofLittleEndian_lt (bytes : List UInt8) : ofLittleEndian bytes < 256 ^ bytes.length := by
  have bounded : ∀ digit ∈ bytes.map UInt8.toNat, digit < 256 := by
    intro digit member
    obtain ⟨byte, -, rfl⟩ := List.mem_map.mp member
    exact byte.toNat_lt
  have fits := Nat.ofDigits_lt_base_pow_length (by decide) bounded
  rwa [List.length_map] at fits

/-- The bytes of a number in the memory of a host. This is what goes over
the network when a buffer with the number is written. -/
def image (host : Host) (width value : Nat) : List UInt8 :=
  match host with
  | .little => littleEndian width value
  | .big => (littleEndian width value).reverse

/-- The number that a host finds in its memory, after a buffer has been read
into it. -/
def load (host : Host) (bytes : List UInt8) : Nat :=
  match host with
  | .little => ofLittleEndian bytes
  | .big => ofLittleEndian bytes.reverse

/-- The conversion between host and network order, in both directions:
`htonl` and `ntohl` are one function, and so are `htons` and `ntohs`. -/
def convert (host : Host) (width value : Nat) : Nat :=
  match host with
  | .little => ofLittleEndian (littleEndian width value).reverse
  | .big => value

/-- The image has the width of the number on both kinds of host. -/
theorem image_length (host : Host) (width value : Nat) :
    (image host width value).length = width := by
  cases host with
  | little => exact littleEndian_length width value
  | big => rw [image, List.length_reverse, littleEndian_length]

/-- A number found in memory fits the width of the bytes it is found in. -/
theorem load_lt (host : Host) (bytes : List UInt8) : load host bytes < 256 ^ bytes.length := by
  cases host with
  | little => exact ofLittleEndian_lt bytes
  | big => simpa [load] using ofLittleEndian_lt bytes.reverse

/-- The number tells the bytes in memory. Two buffers of one size that hold
the same number are the same. -/
theorem load_injective (host : Host) (bytes bytes' : List UInt8)
    (length : bytes.length = bytes'.length) (same : load host bytes = load host bytes') :
    bytes = bytes' := by
  cases host with
  | little =>
    rw [← littleEndian_ofLittleEndian bytes, ← littleEndian_ofLittleEndian bytes', length]
    exact congrArg _ same
  | big =>
    have back := littleEndian_ofLittleEndian bytes.reverse
    have back' := littleEndian_ofLittleEndian bytes'.reverse
    rw [List.length_reverse] at back back'
    apply List.reverse_inj.mp
    rw [← back, ← back', length]
    exact congrArg _ same

/-- In network order a number has the same image on every host, the
big-endian one. This is why the reader need not know the writer's byte
order. -/
theorem image_convert (host : Host) (width value : Nat) :
    image host width (convert host width value) = image .big width value := by
  cases host with
  | little =>
    have loaded := littleEndian_ofLittleEndian (littleEndian width value).reverse
    rw [List.length_reverse, littleEndian_length] at loaded
    exact loaded
  | big => rfl

/-- Every host reads a number in network order as the same number, the
big-endian one. -/
theorem convert_load (host : Host) (bytes : List UInt8) :
    convert host bytes.length (load host bytes) = load .big bytes := by
  cases host with
  | little => rw [load, convert, littleEndian_ofLittleEndian, load]
  | big => rfl

/-- The same for a buffer whose size is known to be the width, as that of a
completed read is. -/
theorem convert_load_of_length (host : Host) (bytes : List UInt8) (width : Nat)
    (full : bytes.length = width) : convert host width (load host bytes) = load .big bytes := by
  rw [← full, convert_load]

/-- A big-endian image is loaded as its number, as far as the number fits
the width. -/
theorem load_image (width value : Nat) :
    load .big (image .big width value) = value % 256 ^ width := by
  rw [load, image, List.reverse_reverse, ofLittleEndian_littleEndian]

/-- A number written by one host in network order is read by another host as
the same number, as far as it fits the width. -/
theorem convert_load_image (writer reader : Host) (width value : Nat) :
    convert reader width (load reader (image writer width (convert writer width value))) =
      value % 256 ^ width := by
  rw [image_convert, convert_load_of_length _ _ _ (image_length .big width value), load_image]

end Sopmq.ByteOrder
