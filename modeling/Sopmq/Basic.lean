import Mathlib.Algebra.BigOperators.Fin

/-!
# Primitive data

The value types shared by the modules: byte strings, 128-bit range and queue
identifiers, message identifiers and readings of the steady clock.
-/

namespace Sopmq

/-- Contents of a `std::string`, which may hold any bytes, zero bytes among
them. Payloads, hashes and names that the program does not decode stay in
this form. -/
abbrev Bytes := List UInt8

/-- `uint128`: unsigned, ordered by value. That the class of two words
computes on these numbers is the subject of a module of its own. -/
abbrev UInt128 := Fin (2 ^ 128)

/-- A `uint128` is written as a numeral, which `Fin` allows for a size that
is not zero. -/
instance uint128NeZero : NeZero (2 ^ 128) := ⟨by decide⟩

/-- So is one of the three replicas of a range, which is a position below
three. -/
instance replicasNeZero : NeZero 3 := ⟨by decide⟩

/-- `boost::uuids::uuid`: sixteen bytes. The size is part of the value, so
only the function that makes one from bytes has to check it. -/
abbrev Uuid := { bytes : Bytes // bytes.length = 16 }

/-- A reading of the steady clock, in ticks. Differences of readings may be
negative as far as the model is concerned; no function assumes an order of
calls. -/
abbrev Time := Int

/-- The identifier whose bytes are all equal. Runs on fixed inputs tell
their messages apart by it. -/
def Uuid.constant (byte : UInt8) : Uuid := ⟨List.replicate 16 byte, List.length_replicate⟩

end Sopmq
