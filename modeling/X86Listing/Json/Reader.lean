import X86Listing.Json
import X86Listing.Text.Numeral

/-! Reading a tree from text. A plain integer becomes an integer of any size, every other number keeps its
spelling; a string escape has to name a character, so half of a surrogate pair is refused. -/

namespace X86Listing.Json.Reader

/-- Whether a character separates tokens. -/
def isBlank (c : Char) : Bool := c == ' ' || c == '\t' || c == '\n' || c == '\r'

/-- The text from its first token on. -/
def skipBlanks (text : List Char) : List Char := text.dropWhile isBlank

/-- The number of four hexadecimal digits. -/
def quad? (a b c d : Char) : Option Nat := do
  return (((← Text.hexValue? a) * 16 + (← Text.hexValue? b)) * 16 + (← Text.hexValue? c)) * 16 +
    (← Text.hexValue? d)

/-- The character that a letter stands for after a backslash. -/
def escaped? : Char → Option Char
  | '"' => some '"'
  | '\\' => some '\\'
  | '/' => some '/'
  | 'b' => some '\x08'
  | 'f' => some '\x0c'
  | 'n' => some '\n'
  | 'r' => some '\r'
  | 't' => some '\t'
  | _ => none

/-- Whether a code unit is the first of a surrogate pair. -/
def isHighSurrogate (unit : Nat) : Bool := 0xD800 ≤ unit && unit < 0xDC00

/-- Whether a code unit is the second of a surrogate pair. -/
def isLowSurrogate (unit : Nat) : Bool := 0xDC00 ≤ unit && unit < 0xE000

/-- Reads a string up to its closing quote; `read` holds the characters before, last first. -/
def string? (read : List Char) : List Char → Option (String × List Char)
  | [] => none
  | '"' :: rest => some (String.ofList read.reverse, rest)
  | '\\' :: 'u' :: a :: b :: c :: d :: rest => do
    let unit ← quad? a b c d
    if isHighSurrogate unit then
      match rest with
      | '\\' :: 'u' :: a :: b :: c :: d :: rest => do
        let low ← quad? a b c d
        if isLowSurrogate low then
          string? (Char.ofNat (0x10000 + (unit - 0xD800) * 0x400 + (low - 0xDC00)) :: read) rest
        else none
      | _ => none
    else if isLowSurrogate unit then none
    else string? (Char.ofNat unit :: read) rest
  | '\\' :: c :: rest => do
    string? ((← escaped? c) :: read) rest
  | c :: rest => if c.toNat < 0x20 then none else string? (c :: read) rest

/-- The number that decimal digits spell. -/
def ofDigits (digits : List Char) : Nat :=
  digits.foldl (fun value digit => value * 10 + (digit.toNat - '0'.toNat)) 0

/-- Digits after a number's point, with the point; nothing where there is no point. -/
def fraction? : List Char → Option (List Char × List Char)
  | '.' :: rest =>
    let digits := rest.takeWhile Char.isDigit
    if digits.isEmpty then none else some ('.' :: digits, rest.dropWhile Char.isDigit)
  | text => some ([], text)

/-- The sign of an exponent. -/
def sign : List Char → List Char × List Char
  | '+' :: rest => (['+'], rest)
  | '-' :: rest => (['-'], rest)
  | text => ([], text)

/-- An exponent, with its letter; nothing where there is none. -/
def exponent? : List Char → Option (List Char × List Char)
  | c :: rest =>
    if c == 'e' || c == 'E' then
      let (sign, rest) := sign rest
      let digits := rest.takeWhile Char.isDigit
      if digits.isEmpty then none else some (c :: sign ++ digits, rest.dropWhile Char.isDigit)
    else some ([], c :: rest)
  | [] => some ([], [])

/-- A number without its minus sign. -/
def unsigned? (negative : Bool) (text : List Char) : Option (Json × List Char) := do
  let digits := text.takeWhile Char.isDigit
  if digits.isEmpty || (digits.head? == some '0' && digits.length != 1) then none
  let (fraction, rest) ← fraction? (text.dropWhile Char.isDigit)
  let (exponent, rest) ← exponent? rest
  let number := ofDigits digits
  if (fraction ++ exponent).isEmpty && !(negative && number == 0) then
    return (.integer (if negative then -(number : Int) else number), rest)
  else
    let minus := if negative then ['-'] else []
    return (.decimal (String.ofList (minus ++ digits ++ fraction ++ exponent)), rest)

/-- A number. -/
def number? : List Char → Option (Json × List Char)
  | '-' :: rest => unsigned? true rest
  | text => unsigned? false text

mutual

/-- A tree at the start of the text, and what follows it. The first argument bounds the nesting and the
number of items. -/
def tree? : Nat → List Char → Option (Json × List Char)
  | 0, _ => none
  | fuel + 1, text =>
    match skipBlanks text with
    | 'n' :: 'u' :: 'l' :: 'l' :: rest => some (.null, rest)
    | 't' :: 'r' :: 'u' :: 'e' :: rest => some (.bool true, rest)
    | 'f' :: 'a' :: 'l' :: 's' :: 'e' :: rest => some (.bool false, rest)
    | '"' :: rest => (string? [] rest).map fun (content, rest) => (.string content, rest)
    | '[' :: rest =>
      match skipBlanks rest with
      | ']' :: rest => some (.array [], rest)
      | rest => (items? fuel rest).map fun (items, rest) => (.array items, rest)
    | '\x7b' :: rest =>
      match skipBlanks rest with
      | '\x7d' :: rest => some (.object [], rest)
      | rest => (members? fuel rest).map fun (members, rest) => (.object members, rest)
    | text => number? text

/-- The items of an array, up to its closing bracket. -/
def items? : Nat → List Char → Option (List Json × List Char)
  | 0, _ => none
  | fuel + 1, text => do
    let (item, rest) ← tree? fuel text
    match skipBlanks rest with
    | ',' :: rest => do
      let (items, rest) ← items? fuel rest
      return (item :: items, rest)
    | ']' :: rest => return ([item], rest)
    | _ => none

/-- The members of an object, up to its closing brace. -/
def members? : Nat → List Char → Option (List (String × Json) × List Char)
  | 0, _ => none
  | fuel + 1, text => do
    let (name, rest) ←
      match skipBlanks text with
      | '"' :: rest => string? [] rest
      | _ => none
    let (content, rest) ←
      match skipBlanks rest with
      | ':' :: rest => tree? fuel rest
      | _ => none
    match skipBlanks rest with
    | ',' :: rest => do
      let (members, rest) ← members? fuel rest
      return ((name, content) :: members, rest)
    | '\x7d' :: rest => return ([(name, content)], rest)
    | _ => none

end

end Reader

/-- The tree that a text spells. -/
def parse? (text : String) : Option Json := do
  let chars := text.toList
  let (tree, rest) ← Reader.tree? (2 * chars.length + 2) chars
  if (Reader.skipBlanks rest).isEmpty then some tree else none

end X86Listing.Json
