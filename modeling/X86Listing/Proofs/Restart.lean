import X86Listing.Proofs.LogDiscipline
import X86Listing.Proofs.Truncation

/-! Starting over. Of all that was done with the builder of a program, starting over keeps the settings
alone, and these are what the last call for each has set. Two builders with equal settings that start
over answer alike from then on, as a new builder with these settings does. -/

namespace X86Listing

/-- What can be set of a builder. -/
structure Settings where
  limits : Limits := {}
  defaultSize : OperandSize := .dword
  deriving DecidableEq

/-- The settings after the action. -/
def Settings.after (settings : Settings) : Action → Settings
  | .command (.call (.setLimits limits)) => { settings with limits }
  | .command (.call (.setDefaultSize defaultSize)) => { settings with defaultSize }
  | .command (.call (.emit _)) | .command .reset | .listing => settings

namespace Builder

/-- The settings of the builder. -/
def settings {σ : Type} (builder : Builder σ) : Settings where
  limits := builder.limits
  defaultSize := builder.defaultSize

/-- A new builder, once it is told the settings. -/
def configured (settings : Settings) : Builder Program :=
  (new.run [.setLimits settings.limits, .setDefaultSize settings.defaultSize]).1

/-- The builder of a program after a history. -/
def withHistory (program : Program) (history : List Action) : Builder Program :=
  ((ofSink program).session history).1

theorem settings_perform (builder : Builder Program) (call : Call) :
    (builder.perform call).1.settings = builder.settings.after (.command (.call call)) := by
  have hstep := builder.step_perform call
  generalize builder.added call = item?, builder.perform call = outcome at hstep ⊢
  cases hstep with
  | @added emission item hitem hroom =>
    change Settings.mk (builder.add item).limits (builder.add item).defaultSize = builder.settings
    rw [limits_add, defaultSize_add]
    rfl
  | _ => rfl

theorem settings_act (builder : Builder Program) (action : Action) :
    (builder.act action).1.settings = builder.settings.after action := by
  cases action with
  | listing => rfl
  | command command =>
    cases command with
    | reset => rfl
    | call call => exact builder.settings_perform call

/-- Failures, items and earlier fresh starts have no part in the settings of a session. -/
theorem settings_session (builder : Builder Program) (actions : List Action) :
    (builder.session actions).1.settings = actions.foldl Settings.after builder.settings := by
  induction actions generalizing builder with
  | nil => rfl
  | cons action actions ih =>
    rw [List.foldl_cons, ← settings_act]
    exact ih _

theorem reset_eq_configured (builder : Builder Program) :
    builder.reset = configured builder.settings := rfl

/-- Of a history, a fresh start keeps what its last calls have set, and nothing of the program. -/
theorem reset_withHistory (program : Program) (history : List Action) :
    (withHistory program history).reset = configured (history.foldl Settings.after {}) := by
  rw [reset_eq_configured, withHistory, settings_session]
  rfl

/-- A builder that was told the settings and nothing else has room as long as the limit of the item's
kind exceeds what it has accepted. -/
theorem hasRoom_run_configured (settings : Settings) {calls : List Call}
    (hcalls : ∀ call ∈ calls, call.keepsLimits = true) (item : Item) :
    ((configured settings).run calls).1.HasRoom item ↔
      item.resource.usedBy ((configured settings).stream calls) <
        (settings.limits.most item.resource).toNat := by
  have hroom := (configured settings).room_run hcalls item.resource
  have hnew : (configured settings).room item.resource =
      (settings.limits.most item.resource).toNat := room_of_new item.resource
  rw [hasRoom_iff]
  omega

/-- Starting over erases all history but the settings. Two builders, whatever programs they were given
and whatever was done with them, that end with equal settings and start over have the same answers and
the same builder, with its counts and its program, after any session, and so has a new builder with these
settings. Each limit allows as many items again as if there had been none before. -/
theorem reset_forgets_history (first second : Program) (history other : List Action)
    (hlimits : (withHistory first history).limits = (withHistory second other).limits)
    (hdefault : (withHistory first history).defaultSize = (withHistory second other).defaultSize) :
    let ended := withHistory first history
    let fresh := (new.run [.setLimits ended.limits, .setDefaultSize ended.defaultSize]).1
    (∀ later : List Action,
      ended.reset.session later = (withHistory second other).reset.session later ∧
      ended.reset.session later = fresh.session later) ∧
    ∀ calls : List Call, (∀ call ∈ calls, call.keepsLimits = true) → ∀ item : Item,
      (ended.reset.run calls).1.HasRoom item ↔
        item.resource.usedBy (ended.reset.stream calls) <
          (ended.limits.most item.resource).toNat := by
  intro ended fresh
  have hsettings : ended.settings = (withHistory second other).settings :=
    congrArg₂ Settings.mk hlimits hdefault
  have hreset : ended.reset = configured ended.settings := reset_eq_configured ended
  refine ⟨fun later => ⟨?_, ?_⟩, fun calls hcalls item => ?_⟩
  · rw [hreset, hsettings, reset_eq_configured]
  · rw [hreset]
    rfl
  · rw [hreset]
    exact hasRoom_run_configured ended.settings hcalls item

/-- One history ends at its limit, after an operand error, and the other has started over once and
declared a data member. Both allow one statement, which the first has made and can make again. -/
theorem reset_forgets_history_of_full :
    let loop : Call := .emit (.label "loop")
    let mismatch : Call := .emit
      (.binary .mov (.ofValue (.register (.lettered .a .dword))) (.ofValue (.register .dx)))
    let history : List Action :=
      [.command (.call (.setDefaultSize .word)), .command (.call (.setLimits ⟨1, 1⟩)),
        .command (.call mismatch), .command (.call loop), .command (.call loop), .listing]
    let other : List Action :=
      [.command (.call loop), .command .reset, .command (.call (.setLimits ⟨1, 1⟩)),
        .command (.call (.setDefaultSize .word)), .command (.call (.emit (.scalar "count" 1)))]
    let ended := withHistory .empty history
    let otherEnded := withHistory .empty other
    (ended.limits = otherEnded.limits ∧ ended.defaultSize = otherEnded.defaultSize) ∧
    (ended.statementCount ≠ otherEnded.statementCount ∧
      ended.dataMemberCount ≠ otherEnded.dataMemberCount) ∧
    (∀ later : List Action, ended.reset.session later = otherEnded.reset.session later) ∧
    (ended.perform loop).2.error = some (.limitExceeded "statements" 1) ∧
    ended.reset.HasRoom (.statement (.label "loop")) := by
  intro loop mismatch history other ended otherEnded
  have hlimits : ended.limits = otherEnded.limits := by decide
  have hdefault : ended.defaultSize = otherEnded.defaultSize := by decide
  obtain ⟨hsessions, hroom⟩ :=
    reset_forgets_history .empty .empty history other hlimits hdefault
  have hnothing : Resource.statements.usedBy (ended.reset.stream []) < 1 := by decide
  exact ⟨⟨hlimits, hdefault⟩, by decide, fun later => (hsessions later).1, by decide,
    (hroom [] (by simp) (.statement (.label "loop"))).mpr hnothing⟩

end Builder
end X86Listing
