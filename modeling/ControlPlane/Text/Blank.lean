-- The characters with the White_Space property, and trimming by them.
namespace ControlPlane

def isBlank (c : Char) : Bool :=
  let n := c.toNat
  (0x9 ≤ n && n ≤ 0xD) || n == 0x20 || n == 0x85 || n == 0xA0 || n == 0x1680
    || (0x2000 ≤ n && n ≤ 0x200A) || n == 0x2028 || n == 0x2029 || n == 0x202F
    || n == 0x205F || n == 0x3000

def dropTrailing {α : Type} (test : α → Bool) (l : List α) : List α :=
  (l.reverse.dropWhile test).reverse

def trimList (cs : List Char) : List Char := dropTrailing isBlank (cs.dropWhile isBlank)

def trim (s : String) : String := String.ofList (trimList s.toList)

def isBlankText (s : String) : Bool := s.toList.all isBlank

def trimSlashes (s : String) : String := String.ofList (dropTrailing (· == '/') s.toList)

end ControlPlane
