import Bifurcation.Lib.Sha256

/-!
# Protocol buffer encoding

The proto3 wire format for the field kinds the usage messages have: varint integers and
booleans, strings, and embedded messages. Fields are written in the order of their numbers, and
a scalar field at its default is left out.
-/

namespace Bifurcation

namespace Protobuf

/-- At most `n` base-128 digits of `x`, least significant first. -/
def varintDigits : Nat → Nat → Bytes
  | 0, _ => []
  | n + 1, x =>
    if x < 128 then [UInt8.ofNat x] else UInt8.ofNat (x % 128 + 128) :: varintDigits n (x / 128)

/-- A 64-bit value takes at most ten digits. -/
def varint (x : Nat) : Bytes := varintDigits 10 x

/-- The tag of a field: its number and its wire type. -/
def tag (field wireType : Nat) : Bytes := varint (8 * field + wireType)

/-- An `int64` field, in two's complement. -/
def int64Field (field : Nat) (x : Int) : Bytes :=
  if x = 0 then [] else tag field 0 ++ varint (x % 2 ^ 64).toNat

def boolField (field : Nat) (b : Bool) : Bytes :=
  if b then tag field 0 ++ varint 1 else []

/-- A field with a length prefix. -/
def delimited (field : Nat) (body : Bytes) : Bytes := tag field 2 ++ varint body.length ++ body

def stringField (field : Nat) (s : String) : Bytes :=
  if s = "" then [] else delimited field (utf8 s)

end Protobuf

end Bifurcation
