import X86Listing.Builder.Emission
import X86Listing.Builder.Log

/-! Builders. A builder hands items to a sink and counts them, up to a limit for statements and one for
data members. A call that fails leaves the builder as it was; operand errors are found before limits are
looked at. -/

namespace X86Listing

universe u

/-- The most statements and data members that a builder hands to its sink. -/
structure Limits where
  maxStatements : UInt64 := 1000000
  maxDataMembers : UInt64 := 100000
  deriving DecidableEq

/-- A builder. -/
structure Builder (σ : Type u) where
  sink : σ
  limits : Limits := {}
  /-- The width of operations on numbers and symbols that nothing else sizes. -/
  defaultSize : OperandSize := .dword
  statementCount : UInt64 := 0
  dataMemberCount : UInt64 := 0
  deriving DecidableEq

/-- A call on a builder. -/
inductive Call where
  | emit (emission : Emission)
  | setLimits (limits : Limits)
  | setDefaultSize (size : OperandSize)
  deriving DecidableEq

/-- A call on a builder that fills a program, which can also be started over. -/
inductive Command where
  | call (call : Call)
  | reset
  deriving DecidableEq

/-- What a call answers. -/
structure Reply where
  error : Option BuildError := none
  log : List LogRecord := []
  deriving DecidableEq

namespace Builder

variable {σ : Type u}

/-- A builder that fills a sink from now on. -/
def ofSink (sink : σ) : Builder σ where
  sink := sink

/-- A builder of a new program. -/
def new : Builder Program := ofSink .empty

variable [Sink σ]

/-- Hands an item to the sink, unless the limit of its kind is reached. -/
def accept (builder : Builder σ) : Item → Builder σ × Reply
  | .statement statement =>
    if builder.limits.maxStatements ≤ builder.statementCount then
      (builder, {
        error := some (.limit .statements builder.limits.maxStatements)
        log := [.statementDropped builder.limits.maxStatements statement] })
    else
      ({ builder with
          sink := Sink.append builder.sink statement
          statementCount := builder.statementCount + 1 },
        { log := [.appended builder.statementCount statement] })
  | .data member =>
    if builder.limits.maxDataMembers ≤ builder.dataMemberCount then
      (builder, {
        error := some (.limit .dataMembers builder.limits.maxDataMembers)
        log := [.memberDropped builder.limits.maxDataMembers member] })
    else
      ({ builder with
          sink := Sink.defineData builder.sink member
          dataMemberCount := builder.dataMemberCount + 1 },
        { log := [.declared member] })

/-- Adds what an emission asks for. -/
def emit (builder : Builder σ) (emission : Emission) : Builder σ × Reply :=
  match emission.item builder.defaultSize with
  | .ok item => builder.accept item
  | .error error => (builder, { error := some error, log := [.rejected error] })

/-- Makes one call. -/
def perform (builder : Builder σ) : Call → Builder σ × Reply
  | .emit emission => builder.emit emission
  | .setLimits limits => ({ builder with limits }, {})
  | .setDefaultSize size => ({ builder with defaultSize := size }, {})

/-- Makes calls in order, failed ones included. -/
def run (builder : Builder σ) : List Call → Builder σ × List Reply
  | [] => (builder, [])
  | call :: calls =>
    let (next, reply) := builder.perform call
    let (last, replies) := next.run calls
    (last, reply :: replies)

/-- Starts over with a new program; limits and default width stay. -/
def reset (builder : Builder Program) : Builder Program :=
  { builder with sink := .empty, statementCount := 0, dataMemberCount := 0 }

/-- Makes one command. -/
def execute (builder : Builder Program) : Command → Builder Program × Reply
  | .call call => builder.perform call
  | .reset => (builder.reset, {})

/-- Makes commands in order, failed ones included. -/
def runCommands (builder : Builder Program) : List Command → Builder Program × List Reply
  | [] => (builder, [])
  | command :: commands =>
    let (next, reply) := builder.execute command
    let (last, replies) := next.runCommands commands
    (last, reply :: replies)

end Builder
end X86Listing
