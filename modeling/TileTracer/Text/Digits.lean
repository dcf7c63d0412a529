namespace TileTracer.Text

def isDigit (c : Char) : Bool := '0' ≤ c && c ≤ '9'

/-- At least one digit and nothing else. -/
def isDigits (cs : List Char) : Bool := !cs.isEmpty && cs.all isDigit

def appendDigit (n : Nat) (c : Char) : Nat := n * 10 + (c.toNat - '0'.toNat)

def ofDigits (digits : List Char) : Nat := digits.foldl appendDigit 0

/-- Appends digits to a number while it stays below a bound; gives the digits that are left, too. -/
def appendBelow (bound n : Nat) : List Char → Nat × List Char
  | [] => (n, [])
  | c :: cs =>
    if appendDigit n c < bound then appendBelow bound (appendDigit n c) cs else (n, c :: cs)

/-- What stands before the first character that satisfies `p`, and what stands behind it if there is
one. -/
def cut (p : Char → Bool) (cs : List Char) : List Char × Option (List Char) :=
  (cs.takeWhile (!p ·), (cs.dropWhile (!p ·)).tail?)

end TileTracer.Text
