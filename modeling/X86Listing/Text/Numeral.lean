/-! Numerals of a listing: decimal numbers, `0x` numbers with upper-case digits and no padding, and
the two digits of a byte. -/

namespace X86Listing.Text

/-- Decimal digits, without leading zeros. -/
def decimal (n : Nat) : String := String.ofList (Nat.toDigits 10 n)

/-- Upper-case hexadecimal digits, without leading zeros. -/
def hexDigits (n : Nat) : List Char := (Nat.toDigits 16 n).map Char.toUpper

/-- A hexadecimal number after `0x`. -/
def hexadecimal (n : Nat) : String := "0x" ++ String.ofList (hexDigits n)

/-- The upper-case digit of a number below 16. -/
def hexDigit (n : Nat) : Char := (Nat.digitChar n).toUpper

/-- A byte as exactly two hexadecimal digits. -/
def hexByte (byte : UInt8) : List Char := [hexDigit (byte.toNat / 16), hexDigit (byte.toNat % 16)]

/-- The number that a hexadecimal digit of either case stands for. -/
def hexValue? (c : Char) : Option Nat :=
  if '0' ≤ c ∧ c ≤ '9' then some (c.toNat - '0'.toNat)
  else if 'A' ≤ c ∧ c ≤ 'F' then some (c.toNat - 'A'.toNat + 10)
  else if 'a' ≤ c ∧ c ≤ 'f' then some (c.toNat - 'a'.toNat + 10)
  else none

theorem hexValue?_hexDigit {n : Nat} (hn : n < 16) : hexValue? (hexDigit n) = some n := by
  have h : ∀ i : Fin 16, hexValue? (hexDigit i) = some i.val := by decide
  exact h ⟨n, hn⟩

theorem exists_digitChar_of_mem_toDigits {base n : Nat} (hbase : 1 < base) {c : Char}
    (h : c ∈ Nat.toDigits base n) : ∃ digit < base, c = Nat.digitChar digit := by
  induction n using Nat.strongRecOn with
  | ind n ih =>
    rw [Nat.toDigits_eq_if hbase] at h
    split at h
    · rename_i hlt
      exact ⟨n, hlt, List.mem_singleton.mp h⟩
    · rename_i hle
      rcases List.mem_append.mp h with h | h
      · exact ih (n / base) (Nat.div_lt_self (by omega) hbase) h
      · exact ⟨n % base, Nat.mod_lt n (by omega), List.mem_singleton.mp h⟩

theorem exists_hexDigit_of_mem_hexDigits {n : Nat} {c : Char} (h : c ∈ hexDigits n) :
    ∃ digit < 16, c = hexDigit digit := by
  obtain ⟨lower, hlower, rfl⟩ := List.mem_map.mp h
  obtain ⟨digit, hdigit, rfl⟩ := exists_digitChar_of_mem_toDigits (by decide) hlower
  exact ⟨digit, hdigit, rfl⟩

theorem decimal_inj {n m : Nat} (h : decimal n = decimal m) : n = m := by
  have hdigits : Nat.toDigits 10 n = Nat.toDigits 10 m := String.ofList_injective h
  rw [← Nat.ofDigitChars_ten_toDigits (n := n), hdigits, Nat.ofDigitChars_ten_toDigits]

/-- Hexadecimal digits are printable ASCII. -/
theorem printable_hexDigit {n : Nat} (hn : n < 16) :
    0x20 ≤ (hexDigit n).toNat ∧ (hexDigit n).toNat ≤ 0x7E := by
  have h : ∀ i : Fin 16, 0x20 ≤ (hexDigit i).toNat ∧ (hexDigit i).toNat ≤ 0x7E := by decide
  exact h ⟨n, hn⟩

theorem hexDigit_inj {n m : Nat} (hn : n < 16) (hm : m < 16) (h : hexDigit n = hexDigit m) : n = m := by
  have hvalue := hexValue?_hexDigit hn
  rw [h, hexValue?_hexDigit hm] at hvalue
  exact (Option.some.inj hvalue).symm

theorem hexDigits_ne_nil (n : Nat) : hexDigits n ≠ [] := by
  unfold hexDigits
  simp [Nat.toDigits_ne_nil]

/-- The last digit comes off the end. -/
theorem hexDigits_eq (n : Nat) :
    hexDigits n = (if n < 16 then [] else hexDigits (n / 16)) ++ [hexDigit (n % 16)] := by
  unfold hexDigits
  rw [Nat.toDigits_eq_if (by decide)]
  split
  · rename_i hlt
    rw [Nat.mod_eq_of_lt hlt]
    rfl
  · rw [List.map_append]
    rfl

theorem hexDigits_inj {n m : Nat} (h : hexDigits n = hexDigits m) : n = m := by
  induction n using Nat.strongRecOn generalizing m with
  | ind n ih =>
    rw [hexDigits_eq n, hexDigits_eq m] at h
    obtain ⟨hinit, hlast⟩ := List.append_inj' h rfl
    have hmod : n % 16 = m % 16 :=
      hexDigit_inj (Nat.mod_lt n (by decide)) (Nat.mod_lt m (by decide)) (List.singleton_inj.mp hlast)
    by_cases hn : n < 16
    · by_cases hm : m < 16
      · omega
      · rw [if_pos hn, if_neg hm] at hinit
        exact absurd hinit.symm (hexDigits_ne_nil (m / 16))
    · by_cases hm : m < 16
      · rw [if_neg hn, if_pos hm] at hinit
        exact absurd hinit (hexDigits_ne_nil (n / 16))
      · rw [if_neg hn, if_neg hm] at hinit
        have hdiv : n / 16 = m / 16 := ih (n / 16) (Nat.div_lt_self (by omega) (by decide)) hinit
        omega

theorem hexadecimal_inj {n m : Nat} (h : hexadecimal n = hexadecimal m) : n = m :=
  hexDigits_inj (String.ofList_injective ((String.append_right_inj "0x").mp h))

end X86Listing.Text
