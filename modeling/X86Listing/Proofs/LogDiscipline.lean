import Mathlib.Data.List.Forall2
import X86Listing.Proofs.Accounting
import X86Listing.Proofs.Rejection

/-! The discipline of the log. Every emission leaves exactly one record, whose level tells its outcome, and
nothing else leaves any. As long as the builder does not start over, the trace records number the
statements that it accepts from zero on, without a gap, and tell the data members in order. -/

namespace X86Listing

universe u

/-! ### One record for each emission -/

/-- Whether the level of the record tells the outcome: trace of success, debug of an operand error, with
its message, and warn of a limit. -/
structure Reply.Explains (reply : Reply) (record : LogRecord) : Prop where
  trace : record.level = .trace ↔ reply.error = none
  debug : record.level = .debug ↔
    ∃ error : BuildError, reply.error = some error ∧ error.isOperandError = true
  message : ∀ error : BuildError, reply.error = some error → error.isOperandError = true →
    record.text = "rejected: " ++ error.message
  warn : record.level = .warn ↔
    ∃ resource limit, reply.error = some (.limitExceeded resource limit)

/-- Whether the log of the reply is what the call leaves: one record for an emission, else none. -/
def Call.Logged : Call → Reply → Prop
  | .emit _, reply => ∃ record, reply.log = [record] ∧ reply.Explains record
  | .setLimits _, reply | .setDefaultSize _, reply => reply.log = []

/-- What is done with the builder of a program: commands, and looks at the listing so far. -/
inductive Action where
  | command (command : Command)
  | listing
  deriving DecidableEq

/-- The reply to an action, and the listing if it was asked for. -/
structure Answer where
  reply : Reply := {}
  listing : Option String := none
  deriving DecidableEq

/-- Whether the log of the reply is what the action leaves. -/
def Action.Logged : Action → Reply → Prop
  | .command (.call call), reply => call.Logged reply
  | .command .reset, reply | .listing, reply => reply.log = []

namespace Builder

/-- Takes one action. -/
def act (builder : Builder Program) : Action → Builder Program × Answer
  | .command command =>
    let (next, reply) := builder.execute command
    (next, { reply })
  | .listing => (builder, { listing := some builder.sink.listing })

/-- Takes actions in order, failed ones included. -/
def session (builder : Builder Program) : List Action → Builder Program × List Answer
  | [] => (builder, [])
  | action :: actions =>
    let (next, answer) := builder.act action
    let (last, answers) := next.session actions
    (last, answer :: answers)

theorem explains_of_trace {record : LogRecord} (hlevel : record.level = .trace) :
    Reply.Explains { log := [record] } record where
  trace := by simp [hlevel]
  debug := by simp [hlevel]
  message := by rintro _ ⟨⟩
  warn := by simp [hlevel]

theorem explains_of_rejected {error : BuildError} (hoperand : error.isOperandError = true) :
    Reply.Explains { error := some error, log := [.rejected error] } (.rejected error) where
  trace := by simp [LogRecord.level]
  debug := by simp [LogRecord.level, hoperand]
  message := by
    rintro _ ⟨⟩ -
    rfl
  warn := by
    simp only [LogRecord.level, reduceCtorEq, false_iff]
    rintro ⟨resource, limit, ⟨⟩⟩
    cases hoperand

theorem explains_of_warn {record : LogRecord} (hlevel : record.level = .warn) (resource : Resource)
    (limit : UInt64) :
    Reply.Explains { error := some (.limit resource limit), log := [record] } record where
  trace := by simp [hlevel]
  debug := by simp [hlevel, BuildError.limit, BuildError.isOperandError, BuildError.kind?]
  message := by
    rintro _ ⟨⟩ hoperand
    cases hoperand
  warn := by simp [hlevel, BuildError.limit]

variable {σ : Type u} [Sink σ]

theorem logged_perform (builder : Builder σ) (call : Call) :
    call.Logged (builder.perform call).2 := by
  have hstep := builder.step_perform call
  generalize builder.added call = item?, builder.perform call = outcome at hstep
  cases hstep with
  | setLimits limits => rfl
  | setDefaultSize size => rfl
  | rejected hitem =>
    exact ⟨_, rfl, explains_of_rejected (Emission.isOperandError_of_item_error hitem)⟩
  | @dropped emission item hitem hfull =>
    cases item with
    | statement s => exact ⟨_, rfl, explains_of_warn rfl .statements _⟩
    | data member => exact ⟨_, rfl, explains_of_warn rfl .dataMembers _⟩
  | @added emission item hitem hroom =>
    cases item with
    | statement s => exact ⟨_, rfl, explains_of_trace rfl⟩
    | data member => exact ⟨_, rfl, explains_of_trace rfl⟩

theorem logged_run (builder : Builder σ) (calls : List Call) :
    List.Forall₂ Call.Logged calls (builder.run calls).2 := by
  induction calls generalizing builder with
  | nil => exact .nil
  | cons call calls ih => exact .cons (builder.logged_perform call) (ih _)

theorem logged_session (builder : Builder Program) (actions : List Action) :
    List.Forall₂ Action.Logged actions ((builder.session actions).2.map Answer.reply) := by
  induction actions generalizing builder with
  | nil => exact .nil
  | cons action actions ih =>
    refine .cons ?_ (ih (builder.act action).1)
    cases action with
    | listing => rfl
    | command command =>
      cases command with
      | reset => rfl
      | call call => exact builder.logged_perform call

end Builder

/-! ### What the trace records tell -/

/-- Texts of the trace records of the reply. -/
def Reply.traces (reply : Reply) : List String :=
  (reply.log.filter fun record => record.level = .trace).map LogRecord.text

/-- Texts of the trace records of the reply, if the call declares a data member, or if it makes a
statement. -/
def Call.traces (declares : Bool) : Call → Reply → List String
  | .emit emission, reply => if emission.isDeclaration = declares then reply.traces else []
  | .setLimits _, _ | .setDefaultSize _, _ => []

/-- What the log says of the statement that is accepted with so many before it. -/
def Statement.appendText (index : Nat) (s : Statement) : String :=
  "append #" ++ Text.decimal index ++ ": " ++ s.text

/-- What the log says of an accepted data member. -/
def DataMember.declareText (member : DataMember) : String := "data: " ++ member.text

namespace Builder

variable {σ : Type u} [Sink σ]

theorem traces_perform (builder : Builder σ) (call : Call) :
    (builder.perform call).2.traces =
      (builder.added call).toList.map fun item => (builder.record item).text := by
  have hstep := builder.step_perform call
  generalize builder.added call = item?, builder.perform call = outcome at hstep ⊢
  cases hstep with
  | setLimits limits => rfl
  | setDefaultSize size => rfl
  | rejected hitem => rfl
  | @dropped emission item hitem hfull => cases item <;> rfl
  | @added emission item hitem hroom => cases item <;> rfl

theorem traces_of_added {builder : Builder σ} {call : Call} {item : Item}
    (h : builder.added call = some item) (declares : Bool) :
    call.traces declares (builder.perform call).2 =
      if item.member?.isSome = declares then [(builder.record item).text] else [] := by
  obtain ⟨emission, rfl, hitem⟩ := item_of_added h
  have htraces := builder.traces_perform (.emit emission)
  rw [h] at htraces
  rw [← Emission.isDeclaration_of_item hitem, Call.traces, htraces]
  rfl

theorem traces_of_not_added {builder : Builder σ} {call : Call} (h : builder.added call = none)
    (declares : Bool) : call.traces declares (builder.perform call).2 = [] := by
  have htraces := builder.traces_perform call
  rw [h] at htraces
  cases call with
  | emit emission => rw [Call.traces, htraces, Option.toList_none, List.map_nil, ite_self]
  | setLimits limits => rfl
  | setDefaultSize size => rfl

theorem statementTraces_perform (builder : Builder σ) (call : Call) :
    call.traces false (builder.perform call).2 =
      ((builder.added call).toList.filterMap Item.statement?).mapIdx fun index s =>
        s.appendText (builder.statementCount.toNat + index) := by
  cases hadded : builder.added call with
  | none => exact traces_of_not_added hadded false
  | some item =>
    rw [traces_of_added hadded]
    cases item <;> rfl

theorem memberTraces_perform (builder : Builder σ) (call : Call) :
    call.traces true (builder.perform call).2 =
      ((builder.added call).toList.filterMap Item.member?).map DataMember.declareText := by
  cases hadded : builder.added call with
  | none => exact traces_of_not_added hadded true
  | some item =>
    rw [traces_of_added hadded]
    cases item <;> rfl

/-- Texts of the trace records of a run, of those calls that declare data members, or of those that make
statements. -/
def traces (declares : Bool) (calls : List Call) (replies : List Reply) : List String :=
  (calls.zip replies).flatMap fun (call, reply) => call.traces declares reply

theorem statementTraces_run (builder : Builder σ) (calls : List Call) :
    traces false calls (builder.run calls).2 =
      ((builder.stream calls).filterMap Item.statement?).mapIdx fun index s =>
        s.appendText (builder.statementCount.toNat + index) := by
  induction calls generalizing builder with
  | nil => rfl
  | cons call calls ih =>
    rw [run_cons, stream_cons, List.filterMap_append, List.mapIdx_append]
    change call.traces false (builder.perform call).2 ++ traces false calls _ = _
    rw [statementTraces_perform, ih]
    -- the rest goes on counting where the first call has left off
    congr 2
    funext index s
    rw [(countsUp_perform builder call).statementCount, Nat.add_assoc, Nat.add_comm index]

theorem memberTraces_run (builder : Builder σ) (calls : List Call) :
    traces true calls (builder.run calls).2 =
      ((builder.stream calls).filterMap Item.member?).map DataMember.declareText := by
  induction calls generalizing builder with
  | nil => rfl
  | cons call calls ih =>
    rw [run_cons, stream_cons, List.filterMap_append, List.map_append]
    change call.traces true (builder.perform call).2 ++ traces true calls _ = _
    rw [memberTraces_perform, ih]

/-- Every emission leaves one record, whose level tells its outcome, and settings, starting over and
listings leave none: on any sink, and in a session with the builder of a program. The trace records of a
new builder count the statements that it accepts from zero on, and tell the data members in order. -/
theorem log_disciplined (builder : Builder σ) (calls : List Call) (restartable : Builder Program)
    (actions : List Action) (sink : σ) (limits : Limits) (defaultSize : OperandSize) :
    List.Forall₂ Call.Logged calls (builder.run calls).2 ∧
    List.Forall₂ Action.Logged actions ((restartable.session actions).2.map Answer.reply) ∧
    let start : Builder σ := { sink, limits, defaultSize }
    let accepted := start.stream calls
    traces false calls (start.run calls).2 =
        (accepted.filterMap Item.statement?).mapIdx Statement.appendText ∧
      traces true calls (start.run calls).2 =
        (accepted.filterMap Item.member?).map DataMember.declareText := by
  refine ⟨builder.logged_run calls, restartable.logged_session actions, ?_⟩
  intro start accepted
  refine ⟨?_, start.memberTraces_run calls⟩
  rw [start.statementTraces_run calls]
  change (accepted.filterMap Item.statement?).mapIdx (fun index s =>
    s.appendText ((0 : UInt64).toNat + index)) = _
  simp only [UInt64.toNat_zero, Nat.zero_add]

end Builder
end X86Listing
