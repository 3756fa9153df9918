import Mathlib.Data.List.Nodup
import X86Listing.Proofs.Listing

/-! Reading an instruction off its line. The parts of the line are told apart by where the next separator
stands: the blank after the name of the kind, the comma after the destination, the bracket of an operand in
memory, the sign of a displacement. No part but a symbol's name can hold a separator, so that for names which
hold none either, and which no number and no register is written like, the line determines all that it
shows. -/

namespace X86Listing

namespace Text

/-! ### Parts between separators -/

/-- The characters that separate the parts of an instruction. -/
def separators : List Char := [' ', ',', '[', ']', '+', '-']

/-- Whether the text holds none of the characters. -/
def Avoids (stops : List Char) (text : String) : Prop := ∀ c ∈ text.toList, c ∉ stops

-- the search for an instance can also find the one that runs over every character there is
instance (stops : List Char) : DecidablePred (Avoids stops) := fun text =>
  List.decidableBAll (· ∉ stops) text.toList

/-- Whether the text is empty or starts with one of the characters. -/
def StartsWith (stops : List Char) (text : String) : Prop := ∀ c ∈ text.toList.head?, c ∈ stops

theorem avoids_append {stops : List Char} {text later : String} :
    Avoids stops (text ++ later) ↔ Avoids stops text ∧ Avoids stops later := by
  unfold Avoids
  rw [String.toList_append, List.forall_mem_append]

theorem Avoids.mono {stops : List Char} {text : String} (h : Avoids stops text) (others : List Char)
    (hsubset : others ⊆ stops) : Avoids others text :=
  fun c hc hother => h c hc (hsubset hother)

theorem startsWith_empty (stops : List Char) : StartsWith stops "" := by
  intro c hc
  cases hc

theorem startsWith_append {stops : List Char} {text : String} {first : Char}
    (hfirst : text.toList.head? = some first) (hstop : first ∈ stops) (later : String) :
    StartsWith stops (text ++ later) := by
  intro c hc
  rw [String.toList_append, List.head?_append, hfirst, Option.some_or] at hc
  cases hc
  exact hstop

theorem split_at_stop {stops head head' tail tail' : List Char} (hhead : ∀ c ∈ head, c ∉ stops)
    (hhead' : ∀ c ∈ head', c ∉ stops) (htail : ∀ c ∈ tail.head?, c ∈ stops)
    (htail' : ∀ c ∈ tail'.head?, c ∈ stops) (h : head ++ tail = head' ++ tail') :
    head = head' ∧ tail = tail' := by
  -- if one head ends before the other, the stop after it is a character of the other
  induction head generalizing head' with
  | nil =>
    cases head' with
    | nil => exact ⟨rfl, h⟩
    | cons c others =>
      rw [List.nil_append, List.cons_append] at h
      rw [h] at htail
      exact absurd (htail c rfl) (hhead' c List.mem_cons_self)
  | cons c others ih =>
    cases head' with
    | nil =>
      rw [List.nil_append, List.cons_append] at h
      rw [← h] at htail'
      exact absurd (htail' c rfl) (hhead c List.mem_cons_self)
    | cons c' others' =>
      rw [List.cons_append, List.cons_append, List.cons.injEq] at h
      obtain ⟨rfl, h⟩ := h
      have hothers := fun c hc => hhead c (List.mem_cons_of_mem _ hc)
      have hothers' := fun c hc => hhead' c (List.mem_cons_of_mem _ hc)
      obtain ⟨rfl, rfl⟩ := ih hothers hothers' h
      exact ⟨rfl, rfl⟩

/-- A text in two parts, of which the first holds no stop and the second starts with one or is empty, splits
in no other such way. -/
theorem append_inj_of_stops {stops : List Char} {head head' tail tail' : String}
    (hhead : Avoids stops head) (hhead' : Avoids stops head') (htail : StartsWith stops tail)
    (htail' : StartsWith stops tail') (h : head ++ tail = head' ++ tail') :
    head = head' ∧ tail = tail' := by
  have hlists : head.toList ++ tail.toList = head'.toList ++ tail'.toList := by
    rw [← String.toList_append, h, String.toList_append]
  obtain ⟨hheads, htails⟩ := split_at_stop hhead hhead' htail htail' hlists
  exact ⟨String.toList_inj.mp hheads, String.toList_inj.mp htails⟩

theorem avoids_hexadecimal (n : Nat) : Avoids separators (hexadecimal n) := by
  apply avoids_append.mpr
  refine ⟨by decide, ?_⟩
  unfold Avoids
  rw [String.toList_ofList]
  intro c hc
  obtain ⟨digit, hdigit, rfl⟩ := exists_hexDigit_of_mem_hexDigits hc
  have h : ∀ digit : Fin 16, hexDigit digit ∉ separators := by decide
  exact h ⟨digit, hdigit⟩

theorem head?_hexadecimal (n : Nat) : (hexadecimal n).toList.head? = some '0' := by
  unfold hexadecimal
  rw [String.toList_append]
  rfl

end Text

open Text

/-! ### Names -/

/-- Whether the text can only be read as the name of a symbol: it holds no separator, does not start with a
decimal digit, and is not the name of a register. -/
structure Text.NamesSymbol (name : String) : Prop where
  unseparated : Avoids separators name
  start : ∀ c ∈ name.toList.head?, c.isDigit = false
  unregistered : ∀ r : Register, name ≠ r.text

instance : DecidablePred NamesSymbol := fun name =>
  haveI : Decidable (∀ c ∈ name.toList.head?, c.isDigit = false) :=
    Option.decidableForallMem name.toList.head?
  decidable_of_iff
    (Avoids separators name ∧ (∀ c ∈ name.toList.head?, c.isDigit = false) ∧
      ∀ r ∈ Register.all, name ≠ r.text)
    ⟨fun ⟨unseparated, start, unregistered⟩ =>
      ⟨unseparated, start, fun r => unregistered r r.mem_all⟩,
    fun ⟨unseparated, start, unregistered⟩ => ⟨unseparated, start, fun r _ => unregistered r⟩⟩

theorem Register.avoids_text (register : Register) : Avoids separators register.text := by
  have h : ∀ register ∈ all, Avoids separators register.text := by decide +kernel
  exact h register register.mem_all

theorem Register.text_inj {register other : Register} (h : register.text = other.text) :
    register = other := by
  have hnodup : (all.map text).Nodup := by decide +kernel
  exact List.inj_on_of_nodup_map hnodup register.mem_all other.mem_all h

theorem Register.text_ne_hexadecimal (register : Register) (n : Nat) :
    register.text ≠ hexadecimal n := by
  intro h
  have hstart : ∀ register ∈ all, register.text.toList.head? ≠ some '0' := by decide +kernel
  apply hstart register register.mem_all
  rw [h, head?_hexadecimal]

theorem Text.NamesSymbol.ne_hexadecimal {name : String} (h : NamesSymbol name) (n : Nat) :
    name ≠ hexadecimal n := by
  rintro rfl
  exact absurd (h.start '0' (head?_hexadecimal n)) (by decide)

namespace Mnemonic

/-- Every instruction kind. -/
def all : List Mnemonic :=
  BinaryOp.all.map .binary ++ ShiftOp.all.map .shift ++ UnaryOp.all.map .unary ++
    DeviceOp.all.map .device ++ [.jump] ++ Condition.all.map .jumpIf ++ AddressOp.all.map .address ++
    ImplicitOp.plain.map .implicit ++ OperandSize.all.map fun size => .implicit (.signExtend size)

theorem mem_all (kind : Mnemonic) : kind ∈ all := by
  cases kind with
  | binary op | shift op | unary op | device op | address op => cases op <;> decide
  | jump => decide
  | jumpIf condition => cases condition <;> decide
  | implicit op =>
    cases op with
    | signExtend size => cases size <;> decide
    | _ => decide

theorem avoids_text (kind : Mnemonic) : Avoids separators kind.text := by
  have h : ∀ kind ∈ all, Avoids separators kind.text := by decide +kernel
  exact h kind kind.mem_all

theorem text_inj {kind other : Mnemonic} (h : kind.text = other.text) : kind = other := by
  have hnodup : (all.map text).Nodup := by decide +kernel
  exact List.inj_on_of_nodup_map hnodup kind.mem_all other.mem_all h

end Mnemonic

/-! ### Operands -/

theorem Value.avoids_text {value : Value} (h : ∀ name ∈ value.symbolName?, NamesSymbol name) :
    Avoids separators value.text := by
  cases value with
  | register r => exact r.avoids_text
  | immediate n => exact avoids_hexadecimal n.toNat
  | symbol s => exact (h s.name rfl).unseparated

theorem Value.text_inj {value other : Value} (h : ∀ name ∈ value.symbolName?, NamesSymbol name)
    (hother : ∀ name ∈ other.symbolName?, NamesSymbol name) (htext : value.text = other.text) :
    value = other := by
  cases value with
  | register r =>
    cases other with
    | register r' => rw [Register.text_inj htext]
    | immediate n => exact absurd htext (r.text_ne_hexadecimal n.toNat)
    | symbol s => exact absurd htext.symm ((hother s.name rfl).unregistered r)
  | immediate n =>
    cases other with
    | register r => exact absurd htext.symm (r.text_ne_hexadecimal n.toNat)
    | immediate n' => rw [UInt32.toNat_inj.mp (hexadecimal_inj htext)]
    | symbol s => exact absurd htext.symm ((hother s.name rfl).ne_hexadecimal n.toNat)
  | symbol s =>
    have hname := h s.name rfl
    cases other with
    | register r => exact absurd htext (hname.unregistered r)
    | immediate n => exact absurd htext (hname.ne_hexadecimal n.toNat)
    | symbol s' => exact congrArg Value.symbol (congrArg Symbol.mk htext)

namespace Operand

theorem offsetText_of_pos {displacement : Int} (h : 0 < displacement) :
    offsetText displacement = "+" ++ hexadecimal displacement.natAbs :=
  if_pos h

theorem offsetText_of_neg {displacement : Int} (h : displacement < 0) :
    offsetText displacement = "-" ++ hexadecimal displacement.natAbs := by
  unfold offsetText
  rw [if_neg (by omega), if_pos h]

theorem startsWith_offsetText (displacement : Int) :
    StartsWith ['+', '-'] (offsetText displacement) := by
  rcases Int.lt_trichotomy displacement 0 with hneg | rfl | hpos
  · rw [offsetText_of_neg hneg]
    exact startsWith_append rfl (by decide) _
  · exact startsWith_empty _
  · rw [offsetText_of_pos hpos]
    exact startsWith_append rfl (by decide) _

theorem head?_offsetText (displacement : Int) :
    (offsetText displacement).toList.head? =
      if 0 < displacement then some '+' else if displacement < 0 then some '-' else none := by
  unfold offsetText
  split
  · rw [String.toList_append]
    rfl
  · split
    · rw [String.toList_append]
      rfl
    · rfl

/-- The first character is the sign, and the magnitude follows it. -/
theorem offsetText_inj {displacement other : Int} (h : offsetText displacement = offsetText other) :
    displacement = other := by
  have hsign : (offsetText displacement).toList.head? = (offsetText other).toList.head? := by rw [h]
  rw [head?_offsetText, head?_offsetText] at hsign
  have hsame : (0 < displacement ↔ 0 < other) ∧ (displacement < 0 ↔ other < 0) := by
    split at hsign <;> split at hsign <;> grind
  rcases Int.lt_trichotomy displacement 0 with hneg | rfl | hpos
  · have hother := hsame.2.mp hneg
    rw [offsetText_of_neg hneg, offsetText_of_neg hother, String.append_right_inj] at h
    have hmagnitude := hexadecimal_inj h
    omega
  · omega
  · have hother := hsame.1.mp hpos
    rw [offsetText_of_pos hpos, offsetText_of_pos hother, String.append_right_inj] at h
    have hmagnitude := hexadecimal_inj h
    omega

theorem avoids_offsetText (displacement : Int) : Avoids [',', '['] (offsetText displacement) := by
  have hmagnitude := (avoids_hexadecimal displacement.natAbs).mono [',', '['] (by decide)
  rcases Int.lt_trichotomy displacement 0 with hneg | rfl | hpos
  · rw [offsetText_of_neg hneg]
    exact avoids_append.mpr ⟨by decide, hmagnitude⟩
  · decide
  · rw [offsetText_of_pos hpos]
    exact avoids_append.mpr ⟨by decide, hmagnitude⟩

/-- What stands between the brackets determines the value and the displacement. -/
theorem indirect_text_inj {value other : Value} {displacement otherDisplacement : Int32}
    (h : ∀ name ∈ value.symbolName?, NamesSymbol name)
    (hother : ∀ name ∈ other.symbolName?, NamesSymbol name)
    (htext : (indirect value displacement).text = (indirect other otherDisplacement).text) :
    value = other ∧ displacement = otherDisplacement := by
  change "[" ++ value.text ++ offsetText displacement.toInt ++ "]" =
    "[" ++ other.text ++ offsetText otherDisplacement.toInt ++ "]" at htext
  rw [String.append_left_inj, String.append_assoc, String.append_assoc, String.append_right_inj] at htext
  have hvalue := (Value.avoids_text h).mono ['+', '-'] (by decide)
  have hotherValue := (Value.avoids_text hother).mono ['+', '-'] (by decide)
  obtain ⟨hvalues, hoffsets⟩ := append_inj_of_stops hvalue hotherValue (startsWith_offsetText _)
    (startsWith_offsetText _) htext
  exact ⟨Value.text_inj h hother hvalues, Int32.toInt_inj.mp (offsetText_inj hoffsets)⟩

end Operand

namespace Instruction

/-- What stands before an operand in memory. -/
def widthText : Option OperandSize → String
  | some size => size.text ++ " ptr "
  | none => ""

theorem widthText_inj {size other : Option OperandSize} (h : widthText size = widthText other) :
    size = other := by
  have hsizes : ∀ size ∈ OperandSize.all, ∀ other ∈ OperandSize.all,
      size.text ++ " ptr " = other.text ++ " ptr " → size = other := by decide
  have hnothing : ∀ size ∈ OperandSize.all, size.text ++ " ptr " ≠ "" := by decide
  cases size with
  | none =>
    cases other with
    | none => rfl
    | some other => exact absurd h.symm (hnothing other other.mem_all)
  | some size =>
    cases other with
    | none => exact absurd h (hnothing size size.mem_all)
    | some other => rw [hsizes size size.mem_all other other.mem_all h]

theorem avoids_widthText (size : Option OperandSize) : Avoids [',', '['] (widthText size) := by
  cases size with
  | none => decide
  | some size => cases size <;> decide

theorem operandText_direct (size : Option OperandSize) (value : Value) :
    operandText size (.direct value) = value.text := by
  cases size <;> rfl

theorem operandText_indirect (size : Option OperandSize) (value : Value) (displacement : Int32) :
    operandText size (.indirect value displacement) =
      widthText size ++ (Operand.indirect value displacement).text := by
  cases size with
  | none => exact String.empty_append.symm
  | some size => rfl

theorem head?_indirect_text (value : Value) (displacement : Int32) :
    (Operand.indirect value displacement).text.toList.head? = some '[' := by
  change ("[" ++ value.text ++ Operand.offsetText displacement.toInt ++ "]").toList.head? = some '['
  rw [String.toList_append, String.toList_append, String.toList_append]
  rfl

theorem startsWith_indirect_text (value : Value) (displacement : Int32) :
    StartsWith ['['] (Operand.indirect value displacement).text := by
  intro c hc
  rw [head?_indirect_text] at hc
  cases hc
  exact List.mem_cons_self

theorem text_ne_indirect {value : Value} (h : ∀ name ∈ value.symbolName?, NamesSymbol name)
    (size : Option OperandSize) (other : Value) (displacement : Int32) :
    value.text ≠ widthText size ++ (Operand.indirect other displacement).text := by
  intro htext
  have hvalue := (Value.avoids_text h).mono ['['] (by decide)
  have hwidth := (avoids_widthText size).mono ['['] (by decide)
  rw [← String.append_empty (s := value.text)] at htext
  obtain ⟨-, hrest⟩ := append_inj_of_stops hvalue hwidth (startsWith_empty _)
    (startsWith_indirect_text other displacement) htext
  have hhead := head?_indirect_text other displacement
  rw [← hrest] at hhead
  cases hhead

/-- The text of an operand determines the operand, and in memory the width too. -/
theorem operandText_inj {operand other : Operand} {size otherSize : Option OperandSize}
    (h : ∀ name ∈ operand.value.symbolName?, NamesSymbol name)
    (hother : ∀ name ∈ other.value.symbolName?, NamesSymbol name)
    (htext : operandText size operand = operandText otherSize other) :
    operand = other ∧ (operand.isIndirect = true → size = otherSize) := by
  obtain ⟨value, access⟩ := operand
  obtain ⟨value', access'⟩ := other
  cases access with
  | direct =>
    change operandText size (.direct value) = _ at htext
    rw [operandText_direct] at htext
    cases access' with
    | direct =>
      change _ = operandText otherSize (.direct value') at htext
      rw [operandText_direct] at htext
      have hvalue : value = value' := Value.text_inj h hother htext
      rw [hvalue]
      exact ⟨rfl, nofun⟩
    | indirect displacement =>
      change _ = operandText otherSize (.indirect value' displacement) at htext
      rw [operandText_indirect] at htext
      exact absurd htext (text_ne_indirect h otherSize value' displacement)
  | indirect displacement =>
    change operandText size (.indirect value displacement) = _ at htext
    rw [operandText_indirect] at htext
    cases access' with
    | direct =>
      change _ = operandText otherSize (.direct value') at htext
      rw [operandText_direct] at htext
      exact absurd htext.symm (text_ne_indirect hother size value displacement)
    | indirect displacement' =>
      change _ = operandText otherSize (.indirect value' displacement') at htext
      rw [operandText_indirect] at htext
      have hwidth := (avoids_widthText size).mono ['['] (by decide)
      have hotherWidth := (avoids_widthText otherSize).mono ['['] (by decide)
      obtain ⟨hwidths, hoperands⟩ := append_inj_of_stops hwidth hotherWidth
        (startsWith_indirect_text value displacement) (startsWith_indirect_text value' displacement')
        htext
      obtain ⟨rfl, rfl⟩ := Operand.indirect_text_inj h hother hoperands
      exact ⟨rfl, fun _ => widthText_inj hwidths⟩

theorem avoids_operandText (size : Option OperandSize) {operand : Operand}
    (h : ∀ name ∈ operand.value.symbolName?, NamesSymbol name) :
    Avoids [','] (operandText size operand) := by
  have hvalue := (Value.avoids_text h).mono [','] (by decide)
  obtain ⟨value, access⟩ := operand
  cases access with
  | direct =>
    change Avoids [','] (operandText size (.direct value))
    rw [operandText_direct]
    exact hvalue
  | indirect displacement =>
    change Avoids [','] (operandText size (.indirect value displacement))
    rw [operandText_indirect]
    have hwidth := (avoids_widthText size).mono [','] (by decide)
    have hoffset := (Operand.avoids_offsetText displacement.toInt).mono [','] (by decide)
    refine avoids_append.mpr ⟨hwidth, avoids_append.mpr ⟨avoids_append.mpr ⟨?_, hoffset⟩, by decide⟩⟩
    exact avoids_append.mpr ⟨by decide, hvalue⟩

/-! ### Lines -/

/-- What stands after the destination. -/
def sourceText (size : Option OperandSize) : Option Operand → String
  | some source => ", " ++ operandText size source
  | none => ""

theorem startsWith_sourceText (size : Option OperandSize) (source : Option Operand) :
    StartsWith [','] (sourceText size source) := by
  cases source with
  | none => exact startsWith_empty _
  | some operand => exact startsWith_append rfl (by decide) _

theorem text_eq (i : Instruction) :
    i.text = i.kind.text ++
      (" " ++ (operandText i.size i.destination ++ sourceText i.size i.source)) := by
  unfold text sourceText
  cases i.source with
  | none => rw [String.append_empty, String.append_assoc]
  | some source =>
    dsimp only
    rw [String.append_assoc, String.append_assoc, String.append_assoc]

theorem sourceText_some_ne (size : Option OperandSize) (source : Operand) :
    sourceText size (some source) ≠ "" := by
  intro h
  have hhead : (", " ++ operandText size source).toList.head? = some ',' := by
    rw [String.toList_append]
    rfl
  change ", " ++ operandText size source = "" at h
  rw [h] at hhead
  cases hhead

theorem sourceText_inj {source other : Option Operand} {size otherSize : Option OperandSize}
    (h : ∀ operand ∈ source, ∀ name ∈ operand.value.symbolName?, NamesSymbol name)
    (hother : ∀ operand ∈ other, ∀ name ∈ operand.value.symbolName?, NamesSymbol name)
    (htext : sourceText size source = sourceText otherSize other) :
    source = other ∧ ∀ operand ∈ source, operand.isIndirect = true → size = otherSize := by
  cases source with
  | none =>
    cases other with
    | none => exact ⟨rfl, nofun⟩
    | some operand => exact absurd htext.symm (sourceText_some_ne otherSize operand)
  | some operand =>
    cases other with
    | none => exact absurd htext (sourceText_some_ne size operand)
    | some operand' =>
      obtain ⟨rfl, hsize⟩ := operandText_inj (h operand rfl) (hother operand' rfl)
        ((String.append_right_inj ", ").mp htext)
      refine ⟨rfl, ?_⟩
      rintro _ ⟨⟩
      exact hsize

/-- The line of an instruction determines its kind and its operands, and the width that it is written with
in front of an operand in memory. It only takes symbols whose names hold no separator, do not start with a
decimal digit and name no register; the instruction need not be one that a request resolves to. -/
theorem text_determines_operands (i j : Instruction) (hi : ∀ name ∈ i.symbolNames, NamesSymbol name)
    (hj : ∀ name ∈ j.symbolNames, NamesSymbol name) (h : i.text = j.text) :
    i.kind = j.kind ∧ i.destination = j.destination ∧ i.source = j.source ∧
      (i.destination.isIndirect = true ∨ (∃ source ∈ i.source, source.isIndirect = true) →
        i.size = j.size) := by
  have hoperands {k : Instruction} (hk : ∀ name ∈ k.symbolNames, NamesSymbol name) (operand : Operand)
      (hmem : operand ∈ k.destination :: k.source.toList) :
      ∀ name ∈ operand.value.symbolName?, NamesSymbol name :=
    fun name hname => hk name (List.mem_filterMap.mpr ⟨operand, hmem, hname⟩)
  have hidestination := hoperands hi i.destination List.mem_cons_self
  have hjdestination := hoperands hj j.destination List.mem_cons_self
  have hisource (operand : Operand) (hoperand : operand ∈ i.source) :=
    hoperands hi operand (List.mem_cons_of_mem _ (Option.mem_toList.mpr hoperand))
  have hjsource (operand : Operand) (hoperand : operand ∈ j.source) :=
    hoperands hj operand (List.mem_cons_of_mem _ (Option.mem_toList.mpr hoperand))
  rw [text_eq, text_eq] at h
  -- the first blank ends the kind, and the first comma after it the destination
  have hblank (text : String) : StartsWith [' '] (" " ++ text) := startsWith_append rfl (by decide) text
  obtain ⟨hkinds, hrest⟩ := append_inj_of_stops (i.kind.avoids_text.mono [' '] (by decide))
    (j.kind.avoids_text.mono [' '] (by decide)) (hblank _) (hblank _) h
  obtain ⟨hdestinations, hsources⟩ := append_inj_of_stops (avoids_operandText i.size hidestination)
    (avoids_operandText j.size hjdestination) (startsWith_sourceText i.size i.source)
    (startsWith_sourceText j.size j.source) ((String.append_right_inj " ").mp hrest)
  obtain ⟨hdestination, hsize⟩ := operandText_inj hidestination hjdestination hdestinations
  obtain ⟨hsource, hsourceSize⟩ := sourceText_inj hisource hjsource hsources
  refine ⟨Mnemonic.text_inj hkinds, hdestination, hsource, ?_⟩
  rintro (hindirect | ⟨operand, hoperand, hindirect⟩)
  · exact hsize hindirect
  · exact hsourceSize operand hoperand hindirect

/-- The width of a direct operand is not written, so that two instructions share the line. With a width that
is written they would not. -/
theorem text_determines_operands_of_direct :
    let wide : Instruction :=
      ⟨.binary .mov, .direct (.symbol ⟨"count"⟩), some (.direct (.immediate 7)), some .dword⟩
    let bare : Instruction := { wide with size := none }
    let stored : Instruction := { wide with destination := .indirect (.symbol ⟨"count"⟩) (-4) }
    (∀ name ∈ wide.symbolNames, NamesSymbol name) ∧ (∀ name ∈ bare.symbolNames, NamesSymbol name) ∧
    wide.text = bare.text ∧ wide.size ≠ bare.size ∧
    wide.kind = bare.kind ∧ wide.destination = bare.destination ∧ wide.source = bare.source ∧
    stored.text = "mov dword ptr [count-0x4], 0x7" ∧
    stored.text ≠ { stored with size := none }.text := by
  intro wide bare stored
  have hnames : ∀ name ∈ ["count"], NamesSymbol name := by decide
  have htext : wide.text = bare.text := by decide
  obtain ⟨hkind, hdestination, hsource, -⟩ := text_determines_operands wide bare hnames hnames htext
  refine ⟨hnames, hnames, htext, by decide, hkind, hdestination, hsource, by decide, ?_⟩
  intro hstored
  obtain ⟨-, -, -, hsize⟩ :=
    text_determines_operands stored { stored with size := none } hnames hnames hstored
  cases hsize (Or.inl rfl)

end Instruction
end X86Listing
