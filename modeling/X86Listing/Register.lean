import X86Listing.OperandSize
import X86Listing.Text.Numeral

/-! Registers. A register is given by its family and its width, so that its width, its kind and its
name are read off its parts. -/

namespace X86Listing

/-- The families named by a letter, whose second-lowest byte is a register of its own. -/
inductive Letter where
  | a
  | c
  | d
  | b
  deriving DecidableEq

/-- The pointer and index families. -/
inductive Pointer where
  | sp
  | bp
  | si
  | di
  deriving DecidableEq

/-- The segment registers. -/
inductive Segment where
  | cs
  | ds
  | es
  | fs
  | gs
  | ss
  deriving DecidableEq

/-- A register. -/
inductive Register where
  /-- The low part of a lettered family: `al`, `ax`, `eax`, `rax`. -/
  | lettered (letter : Letter) (size : OperandSize)
  /-- The second-lowest byte of a lettered family: `ah`. -/
  | high (letter : Letter)
  /-- The low part of a pointer or index family: `spl`, `sp`, `esp`, `rsp`. -/
  | pointer (family : Pointer) (size : OperandSize)
  /-- The low part of the family numbered from 8: index 0 is `r8b`, `r8w`, `r8d`, `r8`. -/
  | numbered (index : Fin 8) (size : OperandSize)
  /-- A segment register. -/
  | segment (family : Segment)
  deriving DecidableEq

namespace Letter

/-- Every lettered family. -/
def all : List Letter := [.a, .c, .d, .b]

/-- The letter. -/
def text : Letter → String
  | .a => "a"
  | .c => "c"
  | .d => "d"
  | .b => "b"

end Letter

namespace Pointer

/-- Every pointer or index family. -/
def all : List Pointer := [.sp, .bp, .si, .di]

/-- The name of the 16-bit register. -/
def text : Pointer → String
  | .sp => "sp"
  | .bp => "bp"
  | .si => "si"
  | .di => "di"

end Pointer

namespace Segment

/-- Every segment register. -/
def all : List Segment := [.cs, .ds, .es, .fs, .gs, .ss]

/-- The name of the register. -/
def text : Segment → String
  | .cs => "cs"
  | .ds => "ds"
  | .es => "es"
  | .fs => "fs"
  | .gs => "gs"
  | .ss => "ss"

end Segment

namespace Register

/-- The register that holds a variable shift count. -/
@[match_pattern] abbrev cl : Register := .lettered .c .byte

/-- The register that holds a device address. -/
@[match_pattern] abbrev dx : Register := .lettered .d .word

/-- Every register. -/
def all : List Register :=
  Letter.all.flatMap (fun letter => OperandSize.all.map (.lettered letter)) ++
    Letter.all.map .high ++
    Pointer.all.flatMap (fun family => OperandSize.all.map (.pointer family)) ++
    (List.finRange 8).flatMap (fun index => OperandSize.all.map (.numbered index)) ++
    Segment.all.map .segment

theorem mem_all (register : Register) : register ∈ all := by
  cases register with
  | lettered letter size => cases letter <;> cases size <;> decide
  | high letter => cases letter <;> decide
  | pointer family size => cases family <;> cases size <;> decide
  | numbered index size => revert index; cases size <;> decide
  | segment family => cases family <;> decide

/-- Width of the register. -/
def size : Register → OperandSize
  | .lettered _ size => size
  | .high _ => .byte
  | .pointer _ size => size
  | .numbered _ size => size
  | .segment _ => .word

/-- Whether the register is a segment register. -/
def isSegment : Register → Bool
  | .segment _ => true
  | _ => false

/-- Whether the register can hold an address: a general-purpose register of 32 or 64 bits. -/
def isAddressSized (register : Register) : Bool :=
  !register.isSegment && (register.size == .dword || register.size == .qword)

/-- Name of the register. -/
def text : Register → String
  | .lettered letter .byte => letter.text ++ "l"
  | .lettered letter .word => letter.text ++ "x"
  | .lettered letter .dword => "e" ++ letter.text ++ "x"
  | .lettered letter .qword => "r" ++ letter.text ++ "x"
  | .high letter => letter.text ++ "h"
  | .pointer family .byte => family.text ++ "l"
  | .pointer family .word => family.text
  | .pointer family .dword => "e" ++ family.text
  | .pointer family .qword => "r" ++ family.text
  | .numbered index .byte => "r" ++ Text.decimal (8 + index) ++ "b"
  | .numbered index .word => "r" ++ Text.decimal (8 + index) ++ "w"
  | .numbered index .dword => "r" ++ Text.decimal (8 + index) ++ "d"
  | .numbered index .qword => "r" ++ Text.decimal (8 + index)
  | .segment family => family.text

end Register
end X86Listing
