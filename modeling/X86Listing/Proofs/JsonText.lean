import Mathlib.Data.List.TakeWhile
import X86Listing.Json.Reader
import X86Listing.Json.Writer

/-! A written tree is read back from its text. A token ends where a comma or a closing bracket follows, so
that a tree is read from the text in front of whatever comes after it; the reader never needs more fuel
than the text has characters. -/

namespace X86Listing.Json

/-- No number in the tree is written with a fraction or an exponent. -/
inductive Integral : Json → Prop where
  | null : Integral .null
  | bool (value : Bool) : Integral (.bool value)
  | integer (number : Int) : Integral (.integer number)
  | string (content : String) : Integral (.string content)
  | array {items : List Json} (hitems : ∀ item ∈ items, Integral item) : Integral (.array items)
  | object {members : List (String × Json)} (hmembers : ∀ member ∈ members, Integral member.2) :
    Integral (.object members)

namespace Reader

/-- What can follow a tree in a written text. -/
def Follows (rest : List Char) : Prop :=
  ∀ c ∈ rest.head?, c = ',' ∨ c = ']' ∨ c = '\x7d'

theorem follows_nil : Follows [] := by
  simp [Follows]

theorem follows_comma (rest : List Char) : Follows (',' :: rest) := by
  simp [Follows]

theorem follows_bracket (rest : List Char) : Follows (']' :: rest) := by
  simp [Follows]

theorem follows_brace (rest : List Char) : Follows ('\x7d' :: rest) := by
  simp [Follows]

theorem skipBlanks_cons {c : Char} (hc : isBlank c = false) (rest : List Char) :
    skipBlanks (c :: rest) = c :: rest := by
  rw [skipBlanks, List.dropWhile_cons_of_neg]
  simp [hc]

section Numbers

theorem isBlank_of_isDigit {c : Char} (hc : c.isDigit = true) : isBlank c = false := by
  rw [Bool.eq_false_iff]
  intro hblank
  simp only [isBlank, Bool.or_eq_true, beq_iff_eq] at hblank
  rcases hblank with ((rfl | rfl) | rfl) | rfl <;> exact absurd hc (by decide)

theorem ofDigits_toDigits (n : Nat) : ofDigits (Nat.toDigits 10 n) = n := by
  have h : ofDigits (Nat.toDigits 10 n) = Nat.ofDigitChars 10 (Nat.toDigits 10 n) 0 := by
    simp only [ofDigits, Nat.ofDigitChars, Nat.mul_comm 10]
  rw [h, Nat.ofDigitChars_ten_toDigits]

/-- Only the number zero is written with a leading zero. -/
theorem head?_toDigits {n : Nat} (hn : 0 < n) : (Nat.toDigits 10 n).head? ≠ some '0' := by
  induction n using Nat.strongRecOn with
  | ind n ih =>
    rw [Nat.toDigits_eq_if (by decide)]
    split
    · rename_i hlt
      have h : ∀ digit < 10, 0 < digit → [Nat.digitChar digit].head? ≠ some '0' := by decide
      exact h n hlt hn
    · rename_i hle
      have hfirst := ih (n / 10) (Nat.div_lt_self hn (by decide)) (by omega)
      obtain ⟨first, others, hdigits⟩ := List.exists_cons_of_ne_nil (Nat.toDigits_ne_nil (n := n / 10))
      rw [hdigits] at hfirst ⊢
      exact hfirst

variable {digits rest : List Char}

theorem takeWhile_digits (hdigits : ∀ c ∈ digits, c.isDigit = true) (hrest : Follows rest) :
    (digits ++ rest).takeWhile Char.isDigit = digits := by
  rw [List.takeWhile_append_of_pos hdigits]
  cases rest with
  | nil => simp
  | cons c rest =>
    rcases hrest c rfl with rfl | rfl | rfl <;> simp

theorem dropWhile_digits (hdigits : ∀ c ∈ digits, c.isDigit = true) (hrest : Follows rest) :
    (digits ++ rest).dropWhile Char.isDigit = rest := by
  rw [List.dropWhile_append_of_pos hdigits]
  cases rest with
  | nil => rfl
  | cons c rest =>
    rcases hrest c rfl with rfl | rfl | rfl <;> rfl

theorem fraction?_of_follows (hrest : Follows rest) : fraction? rest = some ([], rest) := by
  cases rest with
  | nil => rfl
  | cons c rest =>
    rcases hrest c rfl with rfl | rfl | rfl <;> rfl

theorem exponent?_of_follows (hrest : Follows rest) : exponent? rest = some ([], rest) := by
  cases rest with
  | nil => rfl
  | cons c rest =>
    rcases hrest c rfl with rfl | rfl | rfl <;> rfl

theorem unsigned?_toDigits (negative : Bool) {n : Nat} (hn : negative = true → 0 < n)
    (hrest : Follows rest) :
    unsigned? negative (Nat.toDigits 10 n ++ rest) =
      some (.integer (if negative then -(n : Int) else n), rest) := by
  have hdigits : ∀ c ∈ Nat.toDigits 10 n, c.isDigit = true :=
    fun c hc => Nat.isDigit_of_mem_toDigits (by decide) (by decide) hc
  have hzero : ((Nat.toDigits 10 n).head? == some '0' && (Nat.toDigits 10 n).length != 1) = false := by
    by_cases hn : n = 0
    · subst hn
      rfl
    · simp [head?_toDigits (Nat.pos_of_ne_zero hn)]
  have hminus : (negative && n == 0) = false := by
    cases negative with
    | false => rfl
    | true => simpa using Nat.ne_of_gt (hn rfl)
  simp only [unsigned?, takeWhile_digits hdigits hrest, dropWhile_digits hdigits hrest,
    fraction?_of_follows hrest, ofDigits_toDigits, hzero, hminus]
  simp [Nat.toDigits_ne_nil, exponent?_of_follows hrest]

end Numbers

section Strings

theorem hexValue?_digitChar {n : Nat} (hn : n < 16) : Text.hexValue? (Nat.digitChar n) = some n := by
  have h : ∀ i : Fin 16, Text.hexValue? (Nat.digitChar i) = some i.val := by decide
  exact h ⟨n, hn⟩

theorem quad?_of_lt {n : Nat} (hn : n < 0x20) :
    quad? '0' '0' (Nat.digitChar (n / 16)) (Nat.digitChar (n % 16)) = some n := by
  have hzero : Text.hexValue? '0' = some 0 := by decide
  rw [quad?, hzero, hexValue?_digitChar (by omega), hexValue?_digitChar (by omega)]
  simp only [Option.bind_eq_bind, Option.bind_some, Option.pure_def, Option.some.injEq]
  omega

/-- Whatever the character is, reading its escape adds it to what was read. -/
theorem string?_escape (read : List Char) (c : Char) (rest : List Char) :
    string? read (Writer.escape c ++ rest) = string? (c :: read) rest := by
  -- Seven characters have a letter of their own, other control characters a code, the rest none.
  by_cases hletter : c ∈ ['"', '\\', '\x08', '\x0c', '\n', '\r', '\t']
  · simp only [List.mem_cons, List.not_mem_nil, or_false] at hletter
    rcases hletter with rfl | rfl | rfl | rfl | rfl | rfl | rfl <;>
      simp [Writer.escape, string?, escaped?]
  · simp only [List.mem_cons, List.not_mem_nil, or_false, not_or] at hletter
    obtain ⟨hquote, hbackslash, hb, hf, hn, hr, ht⟩ := hletter
    rw [Writer.escape, if_neg hquote, if_neg hbackslash, if_neg hb, if_neg hf, if_neg hn, if_neg hr,
      if_neg ht]
    split
    · rename_i hcontrol
      have hhigh : isHighSurrogate c.toNat = false := by
        simp [isHighSurrogate]
        omega
      have hlow : isLowSurrogate c.toNat = false := by
        simp [isLowSurrogate]
        omega
      simp [string?, quad?_of_lt hcontrol, hhigh, hlow, Char.ofNat_toNat]
    · rename_i hprintable
      simp [string?, hbackslash, hprintable]

/-- A string is read up to its closing quote. -/
theorem string?_quoted (read content rest : List Char) :
    string? read (content.flatMap Writer.escape ++ '"' :: rest) =
      some (String.ofList (read.reverse ++ content), rest) := by
  induction content generalizing read with
  | nil => simp [string?]
  | cons c content ih =>
    rw [List.flatMap_cons, List.append_assoc, string?_escape, ih, List.reverse_cons, List.append_assoc,
      List.singleton_append]

end Strings

section Trees

/-- The tree is read from its text, whatever follows, with as much fuel as the text has characters. -/
def Reads (tree : Json) : Prop :=
  ∀ fuel rest, tree.compact.toList.length ≤ fuel → Follows rest →
    tree? fuel (tree.compact.toList ++ rest) = some (tree, rest)

theorem reads_null : Reads .null := by
  intro fuel rest hfuel _
  cases fuel with
  | zero => simp [compact] at hfuel
  | succ fuel => simp [compact, tree?, skipBlanks, isBlank]

theorem reads_bool (value : Bool) : Reads (.bool value) := by
  intro fuel rest hfuel _
  cases fuel with
  | zero => cases value <;> simp [compact] at hfuel
  | succ fuel => cases value <;> simp [compact, tree?, skipBlanks, isBlank]

theorem reads_string (content : String) : Reads (.string content) := by
  intro fuel rest hfuel _
  rw [compact, Writer.quoted, String.toList_ofList] at hfuel ⊢
  cases fuel with
  | zero => cases hfuel
  | succ fuel =>
    rw [List.cons_append, List.append_assoc, tree?, skipBlanks_cons rfl]
    simp only [List.singleton_append, string?_quoted]
    simp

/-- A text that starts with a digit or a minus sign is read as a number. -/
theorem tree?_number {fuel : Nat} {c : Char} (hc : c = '-' ∨ c.isDigit = true) (text : List Char) :
    tree? (fuel + 1) (c :: text) = number? (c :: text) := by
  obtain ⟨hspace, htab, hnewline, hreturn, hn, ht, hf, hquote, hbracket, hbrace⟩ :
      c ≠ ' ' ∧ c ≠ '\t' ∧ c ≠ '\n' ∧ c ≠ '\r' ∧ c ≠ 'n' ∧ c ≠ 't' ∧ c ≠ 'f' ∧ c ≠ '"' ∧ c ≠ '[' ∧
        c ≠ '\x7b' := by
    refine ⟨?_, ?_, ?_, ?_, ?_, ?_, ?_, ?_, ?_, ?_⟩ <;>
    · rintro rfl
      revert hc
      decide
  have hblank : isBlank c = false := by
    simp [isBlank, hspace, htab, hnewline, hreturn]
  rw [tree?, skipBlanks_cons hblank]
  simp [hn, ht, hf, hquote, hbracket, hbrace]

theorem exists_digit_toDigits (n : Nat) :
    ∃ first others, Nat.toDigits 10 n = first :: others ∧ first.isDigit = true := by
  obtain ⟨first, others, hdigits⟩ := List.exists_cons_of_ne_nil (Nat.toDigits_ne_nil (n := n) (b := 10))
  have hfirst : first ∈ Nat.toDigits 10 n := by simp [hdigits]
  exact ⟨first, others, hdigits, Nat.isDigit_of_mem_toDigits (by decide) (by decide) hfirst⟩

theorem number?_toDigits {n : Nat} {rest : List Char} (hrest : Follows rest) :
    number? (Nat.toDigits 10 n ++ rest) = some (.integer n, rest) := by
  have hunsigned := unsigned?_toDigits false (n := n) (by simp) hrest
  obtain ⟨first, others, hdigits, hfirst⟩ := exists_digit_toDigits n
  rw [hdigits, List.cons_append] at hunsigned ⊢
  unfold number?
  split
  · rename_i heq
    cases heq
    exact absurd hfirst (by decide)
  · exact hunsigned

theorem toList_compact_negative {number : Int} (h : number < 0) :
    (integer number).compact.toList = '-' :: Nat.toDigits 10 number.natAbs := by
  simp [compact, Writer.integer, h, Text.decimal]

theorem toList_compact_natural {number : Int} (h : ¬number < 0) :
    (integer number).compact.toList = Nat.toDigits 10 number.natAbs := by
  simp [compact, Writer.integer, h, Text.decimal]

theorem reads_integer (number : Int) : Reads (.integer number) := by
  intro fuel rest hfuel hrest
  by_cases hnegative : number < 0
  · rw [toList_compact_negative hnegative] at hfuel ⊢
    cases fuel with
    | zero => cases hfuel
    | succ fuel =>
      rw [List.cons_append, tree?_number (.inl rfl), number?, unsigned?_toDigits true (by omega) hrest]
      simp only [if_true, Option.some.injEq, Prod.mk.injEq, Json.integer.injEq, and_true]
      omega
  · obtain ⟨first, others, hdigits, hfirst⟩ := exists_digit_toDigits number.natAbs
    rw [toList_compact_natural hnegative] at hfuel ⊢
    cases fuel with
    | zero => simp [hdigits] at hfuel
    | succ fuel =>
      have hread := number?_toDigits (n := number.natAbs) hrest
      rw [hdigits, List.cons_append] at hread ⊢
      rw [tree?_number (.inr hfirst), hread]
      simp only [Option.some.injEq, Prod.mk.injEq, Json.integer.injEq, and_true]
      omega

theorem toList_compact_array (items : List Json) :
    (array items).compact.toList =
      '[' :: ((String.intercalate "," (compactItems items)).toList ++ [']']) := by
  simp [compact]

theorem toList_compact_object (members : List (String × Json)) :
    (object members).compact.toList =
      '\x7b' :: ((String.intercalate "," (compactMembers members)).toList ++ ['\x7d']) := by
  simp [compact]

/-- The text of a tree starts with a character that neither is skipped nor closes an array. -/
theorem exists_first {tree : Json} (h : tree.Integral) :
    ∃ first others, tree.compact.toList = first :: others ∧ isBlank first = false ∧ first ≠ ']' := by
  cases h with
  | null => exact ⟨'n', _, rfl, rfl, by decide⟩
  | bool value =>
    cases value with
    | true => exact ⟨'t', _, rfl, rfl, by decide⟩
    | false => exact ⟨'f', _, rfl, rfl, by decide⟩
  | integer number =>
    by_cases hnegative : number < 0
    · exact ⟨'-', _, toList_compact_negative hnegative, rfl, by decide⟩
    · obtain ⟨first, others, hdigits, hfirst⟩ := exists_digit_toDigits number.natAbs
      refine ⟨first, others, ?_, isBlank_of_isDigit hfirst, ?_⟩
      · rw [toList_compact_natural hnegative, hdigits]
      · rintro rfl
        exact absurd hfirst (by decide)
  | string content => exact ⟨'"', _, String.toList_ofList, rfl, by decide⟩
  | array _ => exact ⟨'[', _, toList_compact_array _, rfl, by decide⟩
  | object _ => exact ⟨'\x7b', _, toList_compact_object _, rfl, by decide⟩

theorem toList_intercalate_cons (text next : String) (texts : List String) :
    (String.intercalate "," (text :: next :: texts)).toList =
      text.toList ++ ',' :: (String.intercalate "," (next :: texts)).toList := by
  rw [String.intercalate_cons_cons, String.append_assoc, String.toList_append, String.toList_append]
  rfl

/-- Items are read up to the bracket that closes their array. -/
theorem items?_compactItems {item : Json} {items : List Json}
    (hreads : ∀ other ∈ item :: items, Reads other) (fuel : Nat) (rest : List Char)
    (hfuel : (String.intercalate "," (compactItems (item :: items))).toList.length < fuel) :
    items? fuel ((String.intercalate "," (compactItems (item :: items))).toList ++ ']' :: rest) =
      some (item :: items, rest) := by
  induction items generalizing item fuel with
  | nil =>
    rw [compactItems, compactItems, String.intercalate_singleton] at hfuel ⊢
    cases fuel with
    | zero => cases hfuel
    | succ fuel =>
      have hitem := hreads item (.head _) fuel (']' :: rest) (Nat.le_of_lt_succ hfuel)
        (follows_bracket rest)
      rw [items?, hitem]
      rfl
  | cons next items ih =>
    rw [compactItems, compactItems, toList_intercalate_cons, ← compactItems] at hfuel ⊢
    rw [List.length_append, List.length_cons] at hfuel
    rw [List.append_assoc, List.cons_append]
    cases fuel with
    | zero => cases hfuel
    | succ fuel =>
      have hitem := hreads item (.head _) fuel
        (',' :: ((String.intercalate "," (compactItems (next :: items))).toList ++ ']' :: rest))
        (by omega) (follows_comma _)
      have hitems := ih (fun other (hother : other ∈ next :: items) => hreads other (.tail _ hother))
        fuel (by omega)
      have hcomma : isBlank ',' = false := rfl
      rw [items?, hitem]
      simp only [Option.bind_eq_bind, Option.bind_some, skipBlanks_cons hcomma, hitems]
      rfl

/-- The text of a member of an object. -/
def memberText (member : String × Json) : String := Writer.quoted member.1 ++ ":" ++ member.2.compact

theorem compactMembers_cons (member : String × Json) (members : List (String × Json)) :
    compactMembers (member :: members) = memberText member :: compactMembers members := by
  rw [compactMembers, memberText]

theorem toList_memberText (member : String × Json) :
    (memberText member).toList =
      '"' :: (member.1.toList.flatMap Writer.escape ++ '"' :: ':' :: member.2.compact.toList) := by
  simp [memberText, Writer.quoted]

theorem length_lt_memberText (member : String × Json) :
    member.2.compact.toList.length < (memberText member).toList.length := by
  rw [toList_memberText]
  simp only [List.length_cons, List.length_append]
  omega

/-- A member is read up to what follows its content. -/
theorem members?_memberText {member : String × Json} (hreads : Reads member.2) {fuel : Nat}
    {rest : List Char} (hfuel : member.2.compact.toList.length ≤ fuel) (hrest : Follows rest) :
    members? (fuel + 1) ((memberText member).toList ++ rest) =
      match skipBlanks rest with
      | ',' :: rest => (members? fuel rest).bind fun (members, rest) => some (member :: members, rest)
      | '\x7d' :: rest => some ([member], rest)
      | _ => none := by
  have hname := string?_quoted [] member.1.toList (':' :: (member.2.compact.toList ++ rest))
  rw [List.reverse_nil, List.nil_append, String.ofList_toList] at hname
  have hcontent := hreads fuel rest hfuel hrest
  have hcolon : isBlank ':' = false := rfl
  rw [toList_memberText, members?, List.cons_append, skipBlanks_cons rfl]
  simp only [List.append_assoc, List.cons_append, hname, hcontent, skipBlanks_cons hcolon,
    Option.bind_eq_bind, Option.bind_some]
  rfl

/-- Members are read up to the brace that closes their object. -/
theorem members?_compactMembers {member : String × Json} {members : List (String × Json)}
    (hreads : ∀ other ∈ member :: members, Reads other.2) (fuel : Nat) (rest : List Char)
    (hfuel : (String.intercalate "," (compactMembers (member :: members))).toList.length < fuel) :
    members? fuel
        ((String.intercalate "," (compactMembers (member :: members))).toList ++ '\x7d' :: rest) =
      some (member :: members, rest) := by
  induction members generalizing member fuel with
  | nil =>
    rw [compactMembers_cons, compactMembers, String.intercalate_singleton] at hfuel ⊢
    have hlength := length_lt_memberText member
    cases fuel with
    | zero => cases hfuel
    | succ fuel =>
      rw [members?_memberText (hreads member (.head _)) (by omega) (follows_brace rest)]
      rfl
  | cons next members ih =>
    rw [compactMembers_cons, compactMembers_cons, toList_intercalate_cons, ← compactMembers_cons]
      at hfuel ⊢
    rw [List.length_append, List.length_cons] at hfuel
    rw [List.append_assoc, List.cons_append]
    have hlength := length_lt_memberText member
    cases fuel with
    | zero => cases hfuel
    | succ fuel =>
      have hmembers := ih (fun other (hother : other ∈ next :: members) => hreads other (.tail _ hother))
        fuel (by omega)
      rw [members?_memberText (hreads member (.head _)) (by omega) (follows_comma _)]
      have hcomma : isBlank ',' = false := rfl
      simp only [skipBlanks_cons hcomma, hmembers]
      rfl

theorem exists_toList_intercalate (text : String) (texts : List String) :
    ∃ tail, (String.intercalate "," (text :: texts)).toList = text.toList ++ tail := by
  cases texts with
  | nil => exact ⟨[], by simp⟩
  | cons next texts => exact ⟨_, toList_intercalate_cons text next texts⟩

theorem reads_array {items : List Json} (hitems : ∀ item ∈ items, item.Integral)
    (hreads : ∀ item ∈ items, Reads item) : Reads (.array items) := by
  intro fuel rest hfuel _
  rw [toList_compact_array] at hfuel ⊢
  simp only [List.length_cons, List.length_append, List.length_nil] at hfuel
  cases fuel with
  | zero => cases hfuel
  | succ fuel =>
    rw [List.cons_append, List.append_assoc, List.singleton_append, tree?, skipBlanks_cons rfl]
    cases items with
    | nil => rfl
    | cons item items =>
      have hread := items?_compactItems hreads fuel rest (by omega)
      obtain ⟨first, others, hfirst, hblank, hbracket⟩ := exists_first (hitems item (.head _))
      obtain ⟨tail, htail⟩ := exists_toList_intercalate item.compact (compactItems items)
      rw [compactItems, htail, hfirst, List.append_assoc, List.cons_append] at hread ⊢
      simp [skipBlanks_cons hblank, hbracket, hread]

theorem reads_object {members : List (String × Json)} (hreads : ∀ member ∈ members, Reads member.2) :
    Reads (.object members) := by
  intro fuel rest hfuel _
  rw [toList_compact_object] at hfuel ⊢
  simp only [List.length_cons, List.length_append, List.length_nil] at hfuel
  cases fuel with
  | zero => cases hfuel
  | succ fuel =>
    rw [List.cons_append, List.append_assoc, List.singleton_append, tree?, skipBlanks_cons rfl]
    cases members with
    | nil => rfl
    | cons member members =>
      have hread := members?_compactMembers hreads fuel rest (by omega)
      obtain ⟨tail, htail⟩ := exists_toList_intercalate (memberText member) (compactMembers members)
      obtain ⟨others, hfirst⟩ : ∃ others, (memberText member).toList = '"' :: others :=
        ⟨_, toList_memberText member⟩
      rw [compactMembers_cons, htail, hfirst, List.append_assoc, List.cons_append] at hread ⊢
      have hquote : isBlank '"' = false := rfl
      simp [skipBlanks_cons hquote, hread]

/-- A tree without fractions and exponents is read from its text. -/
theorem reads_of_integral {tree : Json} (h : tree.Integral) : Reads tree := by
  induction h with
  | null => exact reads_null
  | bool value => exact reads_bool value
  | integer number => exact reads_integer number
  | string content => exact reads_string content
  | array hitems ih => exact reads_array hitems ih
  | object hmembers ih => exact reads_object ih

end Trees

end Reader

/-- A written tree is read back. -/
theorem parse?_compact {tree : Json} (h : tree.Integral) : parse? tree.compact = some tree := by
  have hread := Reader.reads_of_integral h (2 * tree.compact.toList.length + 2) [] (by omega)
    Reader.follows_nil
  rw [List.append_nil] at hread
  rw [parse?, hread]
  rfl

end X86Listing.Json
