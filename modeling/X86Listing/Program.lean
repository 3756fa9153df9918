import X86Listing.DataMember
import X86Listing.Statement

/-! Programs: statements in order, and data members in order. A listing gives each its own line, the
data members after the statements. -/

namespace X86Listing

/-- A program. -/
structure Program where
  statements : Array Statement
  dataMembers : Array DataMember
  deriving DecidableEq

namespace Program

/-- The program without statements and data members. -/
def empty : Program := ⟨#[], #[]⟩

/-- Adds a statement at the end. -/
def append (program : Program) (statement : Statement) : Program :=
  { program with statements := program.statements.push statement }

@[simp] theorem toList_statements_append (program : Program) (statement : Statement) :
    (program.append statement).statements.toList = program.statements.toList ++ [statement] := by
  simp [append]

@[simp] theorem dataMembers_append (program : Program) (statement : Statement) :
    (program.append statement).dataMembers = program.dataMembers := rfl

/-- Adds a data member at the end. -/
def defineData (program : Program) (member : DataMember) : Program :=
  { program with dataMembers := program.dataMembers.push member }

@[simp] theorem statements_defineData (program : Program) (member : DataMember) :
    (program.defineData member).statements = program.statements := rfl

@[simp] theorem toList_dataMembers_defineData (program : Program) (member : DataMember) :
    (program.defineData member).dataMembers.toList = program.dataMembers.toList ++ [member] := by
  simp [defineData]

/-- Number of statements. -/
def size (program : Program) : Nat := program.statements.size

/-- Whether there is no statement; data members do not count. -/
def isEmpty (program : Program) : Bool := program.statements.isEmpty

/-- The instructions with operands, in order. -/
def instructions (program : Program) : List Instruction :=
  program.statements.toList.filterMap Statement.instruction?

/-- The first data member of a given name. -/
def findData? (program : Program) (name : String) : Option DataMember :=
  program.dataMembers.toList.find? fun member => member.name = name

/-- The lines of the listing, without their ends. -/
def lines (program : Program) : List String :=
  program.statements.toList.map Statement.line ++ program.dataMembers.toList.map DataMember.text

/-- The listing: every line ends in a newline. -/
def listing (program : Program) : String :=
  String.join (program.lines.map (· ++ "\n"))

end Program
end X86Listing
