import ReviewDesk.Text.Utf8

/-!
# The encoding of a document

A document arrives as octets. Its encoding is read off a byte order mark, and otherwise off the places of
zero octets among the first four: the text of a document starts with a character below 128. Halves of
surrogate pairs are let through in every encoding.
-/
namespace ReviewDesk.Text

/-- The order of the octets of a unit. -/
inductive ByteOrder where
  | big
  | little
  deriving Repr, DecidableEq

inductive Encoding where
  | utf8
  | utf16 (order : ByteOrder)
  | utf32 (order : ByteOrder)
  deriving Repr, DecidableEq

/-- The encoding of a document and its octets without the byte order mark. -/
def detectEncoding (octets : List Nat) : Encoding × List Nat :=
  match octets with
  | 0x00 :: 0x00 :: 0xFE :: 0xFF :: rest => (.utf32 .big, rest)
  | 0xFF :: 0xFE :: 0x00 :: 0x00 :: rest => (.utf32 .little, rest)
  | 0xFE :: 0xFF :: rest => (.utf16 .big, rest)
  | 0xFF :: 0xFE :: rest => (.utf16 .little, rest)
  | 0xEF :: 0xBB :: 0xBF :: rest => (.utf8, rest)
  | a :: b :: c :: d :: _ =>
    if a = 0 then (if b = 0 then .utf32 .big else .utf16 .big, octets)
    else if b = 0 then (if c = 0 ∧ d = 0 then .utf32 .little else .utf16 .little, octets)
    else (.utf8, octets)
  | [a, b] =>
    if a = 0 then (.utf16 .big, octets)
    else if b = 0 then (.utf16 .little, octets)
    else (.utf8, octets)
  | _ => (.utf8, octets)

/-- The sixteen-bit units of an octet sequence; none if an octet is left over. -/
def units16 (order : ByteOrder) : List Nat → Option (List Nat)
  | [] => some []
  | [_] => none
  | a :: b :: rest =>
    let unit := match order with
      | .big => a * 256 + b
      | .little => b * 256 + a
    (units16 order rest).map (unit :: ·)

/-- The code points of a sequence of sixteen-bit units: two halves of a pair are one character. -/
def join16 : List Nat → List CodePoint
  | [] => []
  | [u] => [.ofNat u]
  | u :: v :: rest =>
    if 0xD800 ≤ u ∧ u ≤ 0xDBFF ∧ 0xDC00 ≤ v ∧ v ≤ 0xDFFF then
      CodePoint.ofNat (0x10000 + (u - 0xD800) * 0x400 + (v - 0xDC00)) :: join16 rest
    else CodePoint.ofNat u :: join16 (v :: rest)

/-- The code points of a sequence of four-octet code points; none if it is cut off or a number is too
large. -/
def decode32 (order : ByteOrder) : List Nat → Option (List CodePoint)
  | [] => some []
  | a :: b :: c :: d :: rest =>
    let point := match order with
      | .big => ((a * 256 + b) * 256 + c) * 256 + d
      | .little => ((d * 256 + c) * 256 + b) * 256 + a
    if point ≤ 0x10FFFF then (decode32 order rest).map (CodePoint.ofNat point :: ·) else none
  | _ => none

/-- The code points of a document. -/
def decodeDocument (octets : List Nat) : Option (List CodePoint) :=
  match detectEncoding octets with
  | (.utf8, rest) => (decodeFrom true 0 none rest).toOption
  | (.utf16 order, rest) => (units16 order rest).map join16
  | (.utf32 order, rest) => decode32 order rest

end ReviewDesk.Text
