import X86Listing.Proofs.GivenTexts

/-! Comments in a listing. A comment is written as it is given. Its first line is indented and marked; what
stands after a newline of it is a line of the listing like any other, so that a comment can spell code. All else
of a program stays on its lines, and a listing without the comments is the listing less the lines of the
comments. -/

namespace X86Listing

universe u

open Text

theorem flatMap_filter {α β : Type} (p : α → Bool) (f : α → List β) (items : List α) :
    (items.filter p).flatMap f = items.flatMap fun item => if p item then f item else [] := by
  induction items with
  | nil => rfl
  | cons item items ih =>
    rw [List.flatMap_cons, ← ih]
    by_cases hp : p item = true
    · rw [List.filter_cons_of_pos hp, if_pos hp, List.flatMap_cons]
    · rw [List.filter_cons_of_neg hp, if_neg hp, List.nil_append]

/-! ### Rows of a statement -/

namespace Statement

/-- The text of the comment, if the statement is one. -/
def comment? : Statement → Option String
  | .comment content => some content
  | _ => none

/-- The lines of a listing that the statement takes. -/
def rows (s : Statement) : List String := pieces s.line

theorem comment?_eq_some {s : Statement} {content : String} :
    s.comment? = some content ↔ s = .comment content := by
  cases s <;> simp [comment?]

theorem codeTexts_of_comment?_eq_none {s : Statement} (h : s.comment? = none) :
    s.codeTexts = s.givenTexts := by
  cases s with
  | comment content => cases h
  | _ => rfl

/-- Only a comment runs over the end of its line, if the texts of the code do not. -/
theorem rows_of_comment?_eq_none {s : Statement} (hcode : s.comment? = none)
    (h : ∀ text ∈ s.codeTexts, OneLine text) : s.rows = [s.line] := by
  rw [codeTexts_of_comment?_eq_none hcode] at h
  exact pieces_of_oneLine (oneLine_line h)

theorem rows_comment (content : String) :
    (Statement.comment content).rows = (pieces content).modifyHead ("    ; " ++ ·) := by
  have hmark : OneLine "    ; " := by decide
  have hline : (Statement.comment content).line = "    ; " ++ content := by
    change "    " ++ ("; " ++ content) = _
    rw [← String.append_assoc]
    rfl
  unfold rows
  rw [hline, pieces_append_of_oneLine hmark]

/-- What a comment goes on with after a newline is listed as the statement that it spells. -/
theorem rows_comment_append (content : String) (s : Statement) :
    (Statement.comment (content ++ "\n" ++ s.line)).rows = (Statement.comment content).rows ++ s.rows := by
  have hline : (Statement.comment (content ++ "\n" ++ s.line)).line =
      (Statement.comment content).line ++ "\n" ++ s.line := by
    change "    " ++ ("; " ++ (content ++ "\n" ++ s.line)) = "    " ++ ("; " ++ content) ++ "\n" ++ s.line
    simp only [String.append_assoc]
  unfold rows
  rw [hline, pieces_append_newline]

theorem length_rows_comment (content : String) :
    (Statement.comment content).rows.length = content.toList.count '\n' + 1 := by
  rw [rows_comment, List.length_modifyHead, length_pieces]

/-- One line for each statement, and one more for each newline in a comment. -/
theorem length_flatMap_rows {statements : List Statement}
    (h : ∀ s ∈ statements, ∀ text ∈ s.codeTexts, OneLine text) :
    (statements.flatMap rows).length =
      statements.length + ((statements.filterMap comment?).flatMap String.toList).count '\n' := by
  induction statements with
  | nil => rfl
  | cons s statements ih =>
    obtain ⟨hs, hrest⟩ := List.forall_mem_cons.mp h
    rw [List.flatMap_cons, List.length_append, ih hrest, List.length_cons]
    -- only a comment has a part in the newlines on the right
    cases hcomment : s.comment? with
    | none =>
      rw [rows_of_comment?_eq_none hcomment hs, List.filterMap_cons_none hcomment, List.length_singleton]
      omega
    | some content =>
      obtain rfl := comment?_eq_some.mp hcomment
      rw [length_rows_comment, List.filterMap_cons_some hcomment, List.flatMap_cons, List.count_append]
      omega

end Statement

/-! ### The listing -/

namespace Program

/-- The texts of the comments, in order. -/
def comments (program : Program) : List String :=
  program.statements.toList.filterMap Statement.comment?

/-- The program with its comments taken out. -/
def withoutComments (program : Program) : Program :=
  { program with statements := program.statements.filter fun s => s.comment?.isNone }

theorem pieces_listing {program : Program}
    (h : ∀ member ∈ program.dataMembers.toList, OneLine member.name) :
    pieces program.listing =
      program.statements.toList.flatMap Statement.rows ++
        program.dataMembers.toList.map DataMember.text ++ [""] := by
  have hmembers : ∀ line ∈ program.dataMembers.toList.map DataMember.text, OneLine line :=
    List.forall_mem_map.mpr fun member hmember => DataMember.oneLine_text (h member hmember)
  unfold listing lines
  rw [pieces_join_lines, List.flatMap_append, flatMap_pieces_of_oneLine hmembers, List.flatMap_map]
  rfl

/-- Whether nothing but comments takes more than one line of the listing. Then the lines in excess of one for
each item are as many as the newlines in comments, and there are none exactly if no comment has any. Taking the
comments out takes their rows out, and nothing else. -/
structure OnlyCommentsRunOn (program : Program) : Prop where
  listing : pieces program.listing =
    program.statements.toList.flatMap Statement.rows ++
      program.dataMembers.toList.map DataMember.text ++ [""]
  code : ∀ s ∈ program.statements.toList, s.comment? = none → s.rows = [s.line]
  length : (pieces program.listing).length =
    program.size + program.dataMembers.size + (program.comments.flatMap String.toList).count '\n' + 1
  oneEach : (pieces program.listing).length = program.size + program.dataMembers.size + 1 ↔
    ∀ content ∈ program.comments, OneLine content
  withoutComments : pieces program.withoutComments.listing =
    (program.statements.toList.flatMap fun s => if s.comment?.isNone then s.rows else []) ++
      program.dataMembers.toList.map DataMember.text ++ [""]

theorem onlyCommentsRunOn {program : Program} (h : ∀ text ∈ program.codeTexts, OneLine text) :
    program.OnlyCommentsRunOn := by
  have hstatements (s : Statement) (hs : s ∈ program.statements.toList) :
      ∀ text ∈ s.codeTexts, OneLine text := by
    intro text htext
    exact h text (List.mem_append_left _ (List.mem_flatMap.mpr ⟨s, hs, htext⟩))
  have hmembers (member : DataMember) (hmember : member ∈ program.dataMembers.toList) :
      OneLine member.name :=
    h member.name (List.mem_append_right _ (List.mem_map_of_mem hmember))
  have hlisting := pieces_listing hmembers
  have hlength : (pieces program.listing).length = program.size + program.dataMembers.size +
      (program.comments.flatMap String.toList).count '\n' + 1 := by
    rw [hlisting, List.length_append, List.length_append, Statement.length_flatMap_rows hstatements,
      List.length_map, Array.length_toList, Array.length_toList, List.length_singleton]
    change program.size + (program.comments.flatMap String.toList).count '\n' + _ + 1 = _
    omega
  refine ⟨hlisting, fun s hs hcode => Statement.rows_of_comment?_eq_none hcode (hstatements s hs), hlength,
    ?_, ?_⟩
  · have hnone : (pieces program.listing).length = program.size + program.dataMembers.size + 1 ↔
        (program.comments.flatMap String.toList).count '\n' = 0 := by
      rw [hlength]
      omega
    rw [hnone, List.count_eq_zero, List.mem_flatMap]
    constructor
    · intro hmem content hcontent hnewline
      exact hmem ⟨content, hcontent, hnewline⟩
    · rintro honeLine ⟨content, hcontent, hnewline⟩
      exact honeLine content hcontent hnewline
  · have hcode : program.withoutComments.statements.toList.flatMap Statement.rows =
        program.statements.toList.flatMap fun s => if s.comment?.isNone then s.rows else [] := by
      unfold withoutComments
      rw [Array.toList_filter]
      exact flatMap_filter (fun s => s.comment?.isNone) Statement.rows program.statements.toList
    rw [← hcode]
    exact pieces_listing hmembers

end Program

namespace Builder

variable {π : Type u} [ProgramSink π]

/-- In a program that is built from names, constants and literals without newlines, nothing but comments takes
more than one line of the listing: after any calls on a program or on references to one, and also where the
builder starts over. A comment takes a line for each that its text has, of which only the first is indented and
marked as a comment, so that after a newline it can spell any statement. -/
theorem only_comments_run_on (builder : Builder π) (calls : List Call) (restartable : Builder Program)
    (commands : List Command)
    (hcalls : ∀ text ∈ (ProgramSink.program builder.sink).codeTexts ++ calls.flatMap Call.codeTexts,
      OneLine text)
    (hcommands : ∀ text ∈ restartable.sink.codeTexts ++ commands.flatMap Command.codeTexts, OneLine text) :
    (ProgramSink.program (builder.run calls).1.sink).OnlyCommentsRunOn ∧
    (restartable.runCommands commands).1.sink.OnlyCommentsRunOn ∧
    (∀ content : String,
      (Statement.comment content).rows = (pieces content).modifyHead ("    ; " ++ ·)) ∧
    ∀ (content : String) (s : Statement),
      (Statement.comment (content ++ "\n" ++ s.line)).rows = (Statement.comment content).rows ++ s.rows := by
  refine ⟨?_, ?_, Statement.rows_comment, Statement.rows_comment_append⟩
  · exact Program.onlyCommentsRunOn fun text htext => hcalls text (mem_codeTexts_run htext)
  · exact Program.onlyCommentsRunOn fun text htext => hcommands text (mem_codeTexts_runCommands htext)

/-- Of a label, a comment and a string, each with one newline but the label, the comment alone takes two lines;
a comment from before the builder started over takes none. -/
theorem only_comments_run_on_of_three :
    let calls : List Call := [.emit (.label "entry"), .emit (.comment "start\n    hlt"),
      .emit (.string "text" "a\nb")]
    let commands : List Command := [.call (.emit (.comment "old\nold")), .reset] ++ calls.map .call
    let program := (Builder.new.run calls).1.sink
    ((∀ text ∈ Builder.new.sink.codeTexts ++ calls.flatMap Call.codeTexts, OneLine text) ∧
      ∀ text ∈ Builder.new.sink.codeTexts ++ commands.flatMap Command.codeTexts, OneLine text) ∧
    (pieces program.listing).length = 5 ∧
    (pieces (Builder.new.runCommands commands).1.sink.listing).length = 5 ∧
    pieces program.withoutComments.listing = ["entry:", "text db \x60a\\x0Ab\x60, 0", ""] := by
  intro calls commands program
  have hcalls : ∀ text ∈ Builder.new.sink.codeTexts ++ calls.flatMap Call.codeTexts, OneLine text := by
    decide
  have hcommands : ∀ text ∈ Builder.new.sink.codeTexts ++ commands.flatMap Command.codeTexts,
      OneLine text := by decide
  obtain ⟨hrun, hrestarted, -, -⟩ :=
    only_comments_run_on Builder.new calls Builder.new commands hcalls hcommands
  have hlabel : (Statement.label "entry").rows = ["entry:"] :=
    hrun.code (.label "entry") List.mem_cons_self rfl
  refine ⟨⟨hcalls, hcommands⟩, hrun.length, hrestarted.length, hrun.withoutComments.trans ?_⟩
  change (Statement.label "entry").rows ++ [] ++ _ ++ [""] = _
  rw [hlabel]
  rfl

/-- A comment of two lines takes both, and its listing is that of a comment and an instruction. -/
theorem comment_listed_as_halt :
    let calls : List Call := [.emit (.comment "start\n    hlt")]
    let halting : List Call := [.emit (.comment "start"), .emit (.implicit .hlt)]
    let program := (Builder.new.run calls).1.sink
    (∀ text ∈ calls.flatMap Call.codeTexts, OneLine text) ∧
    program.size = 1 ∧ program.dataMembers.size = 0 ∧
    pieces program.listing = ["    ; start", "    hlt", ""] ∧
    program.listing = (Builder.new.run halting).1.sink.listing := by
  intro calls halting program
  have hlisting : program.listing = "    ; start" ++ "\n" ++ ("    hlt" ++ "\n" ++ "") := by decide
  refine ⟨by decide, rfl, rfl, ?_, by decide⟩
  rw [hlisting, pieces_append_newline, pieces_append_newline, pieces_of_oneLine (by decide),
    pieces_of_oneLine (by decide), pieces_of_oneLine (by decide)]
  rfl

end Builder
end X86Listing
