import X86Listing.Text.Backquoted

/-! Reading a backquoted string back. The escape of a byte says where it ends: a backslash stands before one
more character, and `\x` before two digits, so that a digit after them is not taken for a third. Hence what
is written for a string is read back as its bytes whatever follows it, and nothing of that is read. -/

namespace X86Listing.Text.Backquoted

/-! ### Bytes of a text -/

theorem bytes_ofList (chars : List Char) :
    bytes (String.ofList chars) = chars.flatMap String.utf8EncodeChar :=
  List.toList_data_toByteArray

theorem bytes_injective {s other : String} (h : bytes s = bytes other) : s = other := by
  apply String.toByteArray_inj.mp
  apply ByteArray.ext
  exact Array.toList_inj.mp h

theorem utf8EncodeChar_of_toNat_le {c : Char} (h : c.toNat ≤ 0x7E) :
    String.utf8EncodeChar c = [UInt8.ofNat c.toNat] := by
  unfold String.utf8EncodeChar
  exact if_pos (Nat.le_succ_of_le h)

theorem utf8EncodeChar_ofUInt8 {byte : UInt8} (h : byte ≤ 0x7E) :
    String.utf8EncodeChar (Char.ofUInt8 byte) = [byte] := by
  have hascii : (Char.ofUInt8 byte).toNat ≤ 0x7E := UInt8.le_iff_toNat_le.mp h
  have htoNat : (Char.ofUInt8 byte).toNat = byte.toNat := rfl
  rw [utf8EncodeChar_of_toNat_le hascii, htoNat, UInt8.ofNat_toNat]

theorem ofUInt8_inj {byte other : UInt8} (h : Char.ofUInt8 byte = Char.ofUInt8 other) :
    byte = other := by
  have htoNat : (Char.ofUInt8 byte).toNat = (Char.ofUInt8 other).toNat := congrArg Char.toNat h
  exact UInt8.toNat_inj.mp htoNat

/-! ### One byte -/

variable {rest later : List Char} {read : List UInt8}

theorem readBytes?_quote (rest : List Char) : readBytes? (quote :: rest) = some ([], rest) := by
  rw [readBytes?]
  · exact if_pos rfl
  · rintro _ _ _ ⟨⟩
  · rintro _ _ ⟨⟩

theorem readBytes?_escaped {c : Char} (hc : c = quote ∨ c = '\\')
    (h : readBytes? rest = some (read, later)) :
    readBytes? ('\\' :: c :: rest) = some (String.utf8EncodeChar c ++ read, later) := by
  rw [readBytes?, if_pos hc, h]
  · rfl
  · rintro _ _ _ rfl
    rcases hc with hc | hc <;> exact absurd hc (by decide)

theorem readBytes?_digits {high low : Char} {h l : Nat} (hhigh : hexValue? high = some h)
    (hlow : hexValue? low = some l) (hrest : readBytes? rest = some (read, later)) :
    readBytes? ('\\' :: 'x' :: high :: low :: rest) =
      some (UInt8.ofNat (16 * h + l) :: read, later) := by
  rw [readBytes?, hhigh, hlow, hrest]
  rfl

theorem readBytes?_plain {c : Char} (hquote : c ≠ quote) (hbackslash : c ≠ '\\')
    (h : readBytes? rest = some (read, later)) :
    readBytes? (c :: rest) = some (String.utf8EncodeChar c ++ read, later) := by
  rw [readBytes?, if_neg hquote, if_neg hbackslash, h]
  · rfl
  · intro _ _ _ hc
    exact absurd hc hbackslash
  · intro _ _ hc
    exact absurd hc hbackslash

/-- The escape of a byte is read as that byte, whatever is read after it. -/
theorem readBytes?_escape (byte : UInt8) (h : readBytes? rest = some (read, later)) :
    readBytes? (escape byte ++ rest) = some (byte :: read, later) := by
  unfold escape
  split
  -- a backquote or a backslash, then printable ASCII, then all other bytes
  · rename_i hescaped
    have hc : Char.ofUInt8 byte = quote ∨ Char.ofUInt8 byte = '\\' := by
      rcases hescaped with rfl | rfl
      · exact Or.inl rfl
      · exact Or.inr rfl
    have hascii : byte ≤ 0x7E := by
      rcases hescaped with rfl | rfl <;> decide
    have hread := readBytes?_escaped hc h
    rw [utf8EncodeChar_ofUInt8 hascii] at hread
    exact hread
  · rename_i hunescaped
    split
    · rename_i hprintable
      have hquote : Char.ofUInt8 byte ≠ quote := by
        intro hc
        exact hunescaped (Or.inl (ofUInt8_inj hc))
      have hbackslash : Char.ofUInt8 byte ≠ '\\' := by
        intro hc
        exact hunescaped (Or.inr (ofUInt8_inj hc))
      have hread := readBytes?_plain hquote hbackslash h
      rw [utf8EncodeChar_ofUInt8 hprintable.2] at hread
      exact hread
    · have hbyte := byte.toNat_lt
      have hread := readBytes?_digits (hexValue?_hexDigit (n := byte.toNat / 16) (by omega))
        (hexValue?_hexDigit (n := byte.toNat % 16) (by omega)) h
      rw [Nat.div_add_mod, UInt8.ofNat_toNat] at hread
      exact hread

/-! ### A whole string -/

theorem readBytes?_flatMap (written : List UInt8) (rest : List Char) :
    readBytes? (written.flatMap escape ++ quote :: rest) = some (written, rest) := by
  induction written with
  | nil => exact readBytes?_quote rest
  | cons byte written ih =>
    rw [List.flatMap_cons, List.append_assoc]
    exact readBytes?_escape byte ih

theorem read?_write (s : String) (rest : List Char) :
    read? ((write s).toList ++ rest) = some (bytes s, rest) := by
  have hchars : (write s).toList ++ rest = quote :: ((bytes s).flatMap escape ++ quote :: rest) := by
    unfold write chars
    rw [String.toList_ofList, List.cons_append, List.append_assoc, List.singleton_append]
  rw [hchars]
  change (if quote = quote then readBytes? _ else none) = _
  rw [if_pos rfl, readBytes?_flatMap]

theorem write_injective {s other : String} (h : write s = write other) : s = other := by
  have hread := read?_write s []
  rw [h, read?_write other [], Option.some.injEq, Prod.mk.injEq] at hread
  exact bytes_injective hread.1.symm

theorem printable_of_mem_bytes_write {s : String} {byte : UInt8} (h : byte ∈ bytes (write s)) :
    0x20 ≤ byte ∧ byte ≤ 0x7E := by
  unfold write at h
  rw [bytes_ofList] at h
  obtain ⟨c, hc, hbyte⟩ := List.mem_flatMap.mp h
  obtain ⟨hlow, hhigh⟩ := printable_of_mem_chars hc
  rw [utf8EncodeChar_of_toNat_le hhigh, List.mem_singleton] at hbyte
  subst hbyte
  have htoNat : (UInt8.ofNat c.toNat).toNat = c.toNat :=
    UInt8.toNat_ofNat_of_lt' (Nat.lt_of_le_of_lt hhigh (by decide))
  rw [UInt8.le_iff_toNat_le, UInt8.le_iff_toNat_le, htoNat]
  exact ⟨hlow, hhigh⟩

/-- What is written for a string is read back as the bytes of the string, whatever text follows it, and all of
that text is left. It is printable ASCII, whatever the string is. -/
theorem written_strings_read_back (s t : String) :
    read? (write s ++ t).toList = some (bytes s, t.toList) ∧
      ∀ byte ∈ bytes (write s), 0x20 ≤ byte ∧ byte ≤ 0x7E := by
  refine ⟨?_, fun byte => printable_of_mem_bytes_write⟩
  rw [String.toList_append]
  exact read?_write s t.toList

/-- The string holds digits after a byte that is written with two digits, and the text after it starts with
digits and holds a backquote; each is read as itself. -/
theorem written_strings_read_back_among_digits :
    let s := "\n0A\x60\\é"
    let t := "0A\x60, 0"
    write s = "\x60\\x0A0A\\\x60\\\\\\xC3\\xA9\x60" ∧
    read? (write s ++ t).toList = some ([0x0A, 0x30, 0x41, 0x60, 0x5C, 0xC3, 0xA9], t.toList) ∧
    0x5C ∈ bytes (write s) ∧ (0x20 : UInt8) ≤ 0x5C ∧ (0x5C : UInt8) ≤ 0x7E := by
  intro s t
  obtain ⟨hread, hprintable⟩ := written_strings_read_back s t
  have hmem : 0x5C ∈ bytes (write s) := by decide
  exact ⟨by decide, hread, hmem, hprintable 0x5C hmem⟩

end X86Listing.Text.Backquoted
