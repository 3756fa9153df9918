import X86Listing.Text.Numeral

/-! Backquoted strings. A string is written as its UTF-8 bytes between backquotes: printable ASCII as
is, a backquote and a backslash after a backslash, every other byte as `\x` and two digits. `read?`
is the reading rule of the format: it says where a string ends in a longer text, and which bytes it
stands for. -/

namespace X86Listing.Text.Backquoted

/-- The delimiter, U+0060. -/
def quote : Char := '\x60'

/-- The UTF-8 bytes of a string. -/
def bytes (s : String) : List UInt8 := s.toUTF8.data.toList

/-- The characters that stand for one byte. -/
def escape (byte : UInt8) : List Char :=
  if byte = 0x60 ∨ byte = 0x5C then ['\\', Char.ofUInt8 byte]
  else if 0x20 ≤ byte ∧ byte ≤ 0x7E then [Char.ofUInt8 byte]
  else '\\' :: 'x' :: hexByte byte

/-- The characters of a backquoted string. -/
def chars (s : String) : List Char := quote :: ((bytes s).flatMap escape ++ [quote])

/-- The backquoted form of a string. -/
def write (s : String) : String := String.ofList (chars s)

/-- Reads the bytes up to the closing backquote, and the text after it. After `\x`, one or two digits
are taken, as many as there are; a backslash before any other character than these three is refused. -/
def readBytes? : List Char → Option (List UInt8 × List Char)
  | [] => none
  | '\\' :: 'x' :: high :: low :: rest =>
    match hexValue? high, hexValue? low with
    | some h, some l => (readBytes? rest).map fun (read, rest) => (UInt8.ofNat (16 * h + l) :: read, rest)
    | some h, none => (readBytes? (low :: rest)).map fun (read, rest) => (UInt8.ofNat h :: read, rest)
    | none, _ => none
  | '\\' :: c :: rest =>
    if c = quote ∨ c = '\\' then
      (readBytes? rest).map fun (read, rest) => (String.utf8EncodeChar c ++ read, rest)
    else none
  | c :: rest =>
    if c = quote then some ([], rest)
    else if c = '\\' then none
    else (readBytes? rest).map fun (read, rest) => (String.utf8EncodeChar c ++ read, rest)
  termination_by text => text.length

/-- Reads a backquoted string at the start of a text: its bytes, and what follows it. -/
def read? : List Char → Option (List UInt8 × List Char)
  | [] => none
  | c :: rest => if c = quote then readBytes? rest else none

/-- Whatever the byte is, what is written for it is printable ASCII. -/
theorem printable_of_mem_escape {byte : UInt8} {c : Char} (h : c ∈ escape byte) :
    0x20 ≤ c.toNat ∧ c.toNat ≤ 0x7E := by
  unfold escape at h
  split at h
  · rename_i hescaped
    simp only [List.mem_cons, List.not_mem_nil, or_false] at h
    rcases hescaped with rfl | rfl <;> rcases h with rfl | rfl <;> decide
  · split at h
    · rename_i hprintable
      rw [List.mem_singleton.mp h]
      exact hprintable
    · have hbyte := byte.toNat_lt
      simp only [hexByte, List.mem_cons, List.not_mem_nil, or_false] at h
      rcases h with rfl | rfl | rfl | rfl
      · decide
      · decide
      · exact printable_hexDigit (by omega)
      · exact printable_hexDigit (by omega)

/-- A backquoted string is printable ASCII, whatever it stands for. -/
theorem printable_of_mem_chars {s : String} {c : Char} (h : c ∈ chars s) :
    0x20 ≤ c.toNat ∧ c.toNat ≤ 0x7E := by
  simp only [chars, List.mem_cons, List.mem_append, List.mem_flatMap, List.not_mem_nil, or_false] at h
  rcases h with rfl | ⟨byte, -, h⟩ | rfl
  · decide
  · exact printable_of_mem_escape h
  · decide

end X86Listing.Text.Backquoted
