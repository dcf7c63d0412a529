import TileTracer.Text.Json.Number

namespace TileTracer

/-- A token. A text is `none` if its escapes name half of a surrogate pair. -/
inductive JsonToken where
  | openArray | closeArray | openObject | closeObject | comma | colon
  | null
  | bool (value : Bool)
  | number (value : NumberLiteral)
  | text (value : Option String)
  deriving DecidableEq, Repr

namespace JsonToken

open Text (isDigit)

def hexDigit? (c : Char) : Option Nat :=
  if '0' ≤ c && c ≤ '9' then some (c.toNat - '0'.toNat)
  else if 'a' ≤ c && c ≤ 'f' then some (c.toNat - 'a'.toNat + 10)
  else if 'A' ≤ c && c ≤ 'F' then some (c.toNat - 'A'.toNat + 10)
  else none

def hexUnit? (a b c d : Char) : Option Nat := do
  return (((← hexDigit? a) * 16 + (← hexDigit? b)) * 16 + (← hexDigit? c)) * 16 + (← hexDigit? d)

def escaped? : Char → Option Char
  | '"' => some '"'
  | '\\' => some '\\'
  | '/' => some '/'
  | 'b' => some '\x08'
  | 'f' => some '\x0c'
  | 'n' => some '\n'
  | 'r' => some '\r'
  | 't' => some '\t'
  | _ => none

/-- The code units of a text up to its closing quote, and what follows. A character outside an
escape counts as one unit. -/
def units? : List Char → Option (List Nat × List Char)
  | [] => none
  | '"' :: rest => some ([], rest)
  | '\\' :: 'u' :: a :: b :: c :: d :: rest => do
    let unit ← hexUnit? a b c d
    let (units, rest) ← units? rest
    return (unit :: units, rest)
  | '\\' :: c :: rest => do
    let c ← escaped? c
    let (units, rest) ← units? rest
    return (c.toNat :: units, rest)
  | c :: rest =>
    if c = '\\' || c < ' ' then none
    else do
      let (units, rest) ← units? rest
      return (c.toNat :: units, rest)

/-- The first half of a surrogate pair. -/
def isHigh (unit : Nat) : Bool := 0xD800 ≤ unit && unit < 0xDC00

def isLow (unit : Nat) : Bool := 0xDC00 ≤ unit && unit < 0xE000

/-- The characters that code units stand for, each surrogate pair as one. -/
def characters? : List Nat → Option (List Char)
  | [] => some []
  | [unit] => if isHigh unit || isLow unit then none else some [Char.ofNat unit]
  | unit :: next :: rest =>
    if isHigh unit && isLow next then do
      let c := Char.ofNat (0x10000 + (unit - 0xD800) * 0x400 + (next - 0xDC00))
      return c :: (← characters? rest)
    else if isHigh unit || isLow unit then none
    else do return Char.ofNat unit :: (← characters? (next :: rest))

def isBlank (c : Char) : Bool := c = ' ' || c = '\t' || c = '\n' || c = '\r'

def isNumeric (c : Char) : Bool :=
  isDigit c || c = '+' || c = '-' || c = '.' || c = 'e' || c = 'E'

/-- The first token of a text that does not start with a blank, and what follows. A number takes all
numeric characters. -/
def first? : List Char → Option (JsonToken × List Char)
  | [] => none
  | '[' :: rest => some (.openArray, rest)
  | ']' :: rest => some (.closeArray, rest)
  | '\x7b' :: rest => some (.openObject, rest)
  | '\x7d' :: rest => some (.closeObject, rest)
  | ',' :: rest => some (.comma, rest)
  | ':' :: rest => some (.colon, rest)
  | 'n' :: 'u' :: 'l' :: 'l' :: rest => some (.null, rest)
  | 't' :: 'r' :: 'u' :: 'e' :: rest => some (.bool true, rest)
  | 'f' :: 'a' :: 'l' :: 's' :: 'e' :: rest => some (.bool false, rest)
  | '"' :: rest => (units? rest).map fun (units, rest) =>
      (.text ((characters? units).map String.ofList), rest)
  | c :: rest => (NumberLiteral.ofChars? (c :: rest.takeWhile isNumeric)).map fun n =>
      (.number n, rest.dropWhile isNumeric)

theorem length_units? {cs rest : List Char} {units : List Nat}
    (h : units? cs = some (units, rest)) : rest.length < cs.length := by
  fun_induction units? cs generalizing units rest with
  | case1 => simp at h
  | case2 => simp_all
  | case3 a b c d tail ih =>
    cases hu : hexUnit? a b c d <;> cases ht : units? tail <;> simp [hu, ht] at h
    obtain ⟨-, rfl⟩ := h
    have := ih ht
    simp only [List.length_cons]
    omega
  | case4 c tail _ ih =>
    cases hu : escaped? c <;> cases ht : units? tail <;> simp [hu, ht] at h
    obtain ⟨-, rfl⟩ := h
    have := ih ht
    simp only [List.length_cons]
    omega
  | case5 => simp at h
  | case6 c tail _ _ _ _ ih =>
    cases ht : units? tail <;> simp [ht] at h
    obtain ⟨-, rfl⟩ := h
    have := ih ht
    simp only [List.length_cons]
    omega

theorem length_first? {cs rest : List Char} {t : JsonToken} (h : first? cs = some (t, rest)) :
    rest.length < cs.length := by
  unfold first? at h
  split at h <;> simp at h
  case h_11 tail =>
    obtain ⟨_, hu, -⟩ := h
    have := length_units? hu
    simp only [List.length_cons]
    omega
  case h_12 tail _ _ _ _ _ _ _ _ _ _ =>
    obtain ⟨_, -, -, rfl⟩ := h
    have := (List.dropWhile_sublist isNumeric (l := tail)).length_le
    simp only [List.length_cons]
    omega
  all_goals
    obtain ⟨-, rfl⟩ := h
    simp only [List.length_cons]
    omega

def ofChars? (cs : List Char) : Option (List JsonToken) :=
  match hb : cs.dropWhile isBlank with
  | [] => some []
  | c :: tail => match ht : first? (c :: tail) with
    | none => none
    | some (t, rest) =>
      have : rest.length < cs.length := by
        have h := (List.dropWhile_sublist isBlank (l := cs)).length_le
        rw [hb] at h
        exact Nat.lt_of_lt_of_le (length_first? ht) h
      (ofChars? rest).map (t :: ·)
  termination_by cs.length

end JsonToken

end TileTracer
