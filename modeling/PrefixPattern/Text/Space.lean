/-!
# Blanks

The characters that are blank in any script: spaces, tabs, and the ends of lines and pages.
-/

set_option autoImplicit false

namespace PrefixPattern

/-- The character is blank. -/
def isSpace (c : Char) : Bool :=
  let n := c.toNat
  n == 0x20 || (0x9 ≤ n && n ≤ 0xd) || n == 0x85 || n == 0xa0 || n == 0x1680 ||
    (0x2000 ≤ n && n ≤ 0x200a) || n == 0x2028 || n == 0x2029 || n == 0x202f || n == 0x205f ||
    n == 0x3000

end PrefixPattern
