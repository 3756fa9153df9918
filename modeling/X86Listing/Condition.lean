/-! Conditions of a conditional jump. "Above" and "below" compare unsigned numbers, "greater" and
"less" signed ones. -/

namespace X86Listing

/-- Condition of a conditional jump. -/
inductive Condition where
  | overflow
  | noOverflow
  | below
  | aboveOrEqual
  | equal
  | notEqual
  | belowOrEqual
  | above
  | sign
  | notSign
  | parity
  | notParity
  | less
  | greaterOrEqual
  | lessOrEqual
  | greater
  deriving DecidableEq

namespace Condition

/-- Every condition, each before its opposite. -/
def all : List Condition :=
  [.overflow, .noOverflow, .below, .aboveOrEqual, .equal, .notEqual, .belowOrEqual, .above,
    .sign, .notSign, .parity, .notParity, .less, .greaterOrEqual, .lessOrEqual, .greater]

theorem mem_all (condition : Condition) : condition ∈ all := by
  cases condition <;> decide

/-- The condition that holds exactly when this one does not. -/
def invert : Condition → Condition
  | .overflow => .noOverflow
  | .noOverflow => .overflow
  | .below => .aboveOrEqual
  | .aboveOrEqual => .below
  | .equal => .notEqual
  | .notEqual => .equal
  | .belowOrEqual => .above
  | .above => .belowOrEqual
  | .sign => .notSign
  | .notSign => .sign
  | .parity => .notParity
  | .notParity => .parity
  | .less => .greaterOrEqual
  | .greaterOrEqual => .less
  | .lessOrEqual => .greater
  | .greater => .lessOrEqual

theorem invert_invert (condition : Condition) : condition.invert.invert = condition := by
  cases condition <;> rfl

/-- What follows the `j` of a conditional jump. -/
def suffix : Condition → String
  | .overflow => "o"
  | .noOverflow => "no"
  | .below => "b"
  | .aboveOrEqual => "ae"
  | .equal => "e"
  | .notEqual => "ne"
  | .belowOrEqual => "be"
  | .above => "a"
  | .sign => "s"
  | .notSign => "ns"
  | .parity => "p"
  | .notParity => "np"
  | .less => "l"
  | .greaterOrEqual => "ge"
  | .lessOrEqual => "le"
  | .greater => "g"

/-- A condition is written as its suffix. -/
def text (condition : Condition) : String := condition.suffix

end Condition
end X86Listing
