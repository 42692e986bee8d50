/-!
# Blank characters

The characters with the Unicode property White_Space, and texts without such characters at their ends.
-/
namespace ReviewDesk.Text

/-- The Unicode property White_Space. -/
def isBlank (c : Char) : Bool :=
  (9 ≤ c.toNat && c.toNat ≤ 13) || c = ' ' || c.toNat = 0x85 || c.toNat = 0xA0 || c.toNat = 0x1680 ||
    (0x2000 ≤ c.toNat && c.toNat ≤ 0x200A) || c.toNat = 0x2028 || c.toNat = 0x2029 || c.toNat = 0x202F ||
    c.toNat = 0x205F || c.toNat = 0x3000

/-- A text without the blank characters at its beginning and end. -/
def trimBlank (s : List Char) : List Char := ((s.dropWhile isBlank).reverse.dropWhile isBlank).reverse

end ReviewDesk.Text
