import X86Listing.BuildError
import X86Listing.Program

/-! Log records. Every emission leaves one: at level trace what was added, at level debug an operand
error, at level warn what a limit kept out. -/

namespace X86Listing

/-- Level of a log record. -/
inductive LogLevel where
  | trace
  | debug
  | warn
  deriving DecidableEq

/-- A log record. -/
inductive LogRecord where
  /-- The statement was added, with this many before it. -/
  | appended (index : UInt64) (statement : Statement)
  | declared (member : DataMember)
  | rejected (error : BuildError)
  | statementDropped (limit : UInt64) (statement : Statement)
  | memberDropped (limit : UInt64) (member : DataMember)
  deriving DecidableEq

/-- Name of the level. -/
def LogLevel.text : LogLevel → String
  | .trace => "trace"
  | .debug => "debug"
  | .warn => "warn"

namespace LogRecord

/-- Level of the record. -/
def level : LogRecord → LogLevel
  | .appended _ _ | .declared _ => .trace
  | .rejected _ => .debug
  | .statementDropped _ _ | .memberDropped _ _ => .warn

/-- Text of the record. A dropped statement is quoted in full, a dropped data member by its name. -/
def text : LogRecord → String
  | .appended index statement => "append #" ++ Text.decimal index.toNat ++ ": " ++ statement.text
  | .declared member => "data: " ++ member.text
  | .rejected error => "rejected: " ++ error.message
  | .statementDropped limit statement =>
    "statement limit of " ++ Text.decimal limit.toNat ++ " reached, dropping `" ++ statement.text ++ "`"
  | .memberDropped limit member =>
    "data member limit of " ++ Text.decimal limit.toNat ++ " reached, dropping `" ++ member.name ++ "`"

end LogRecord
end X86Listing
