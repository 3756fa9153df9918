import X86Listing.Program

/-! Lines of a listing. Whatever a program is built of, its texts run over a line end only where a text
that its author has given does: names, comments, constants and literals. The strings of data members are
not among these, since what is written for them is printable. So a listing splits at its newlines into one
line for each statement and each data member. -/

namespace X86Listing

/-! ### Texts on one line -/

/-- Whether the text has no newline. -/
def Text.OneLine (text : String) : Prop := '\n' ∉ text.toList

instance : DecidablePred Text.OneLine := fun text => inferInstanceAs (Decidable ('\n' ∉ text.toList))

namespace Text

@[simp] theorem oneLine_append {text later : String} :
    OneLine (text ++ later) ↔ OneLine text ∧ OneLine later := by
  unfold OneLine
  rw [String.toList_append, List.mem_append, not_or]

theorem oneLine_ofList {chars : List Char} :
    OneLine (String.ofList chars) ↔ '\n' ∉ chars := by
  unfold OneLine
  rw [String.toList_ofList]

@[simp] theorem oneLine_decimal (n : Nat) : OneLine (decimal n) := by
  apply oneLine_ofList.mpr
  intro h
  have hdigit : Char.isDigit '\n' = true := Nat.isDigit_of_mem_toDigits (by decide) (by decide) h
  exact absurd hdigit (by decide)

@[simp] theorem oneLine_hexadecimal (n : Nat) : OneLine (hexadecimal n) := by
  apply oneLine_append.mpr
  refine ⟨by decide, oneLine_ofList.mpr ?_⟩
  intro h
  obtain ⟨digit, hdigit, hnewline⟩ := exists_hexDigit_of_mem_hexDigits h
  have hprintable := (printable_hexDigit hdigit).1
  rw [← hnewline] at hprintable
  exact absurd hprintable (by decide)

@[simp] theorem Backquoted.oneLine_write (content : String) : OneLine (write content) := by
  apply oneLine_ofList.mpr
  intro h
  exact absurd (printable_of_mem_chars h).1 (by decide)

end Text

open Text

@[simp] theorem OperandSize.oneLine_text (size : OperandSize) : OneLine size.text := by
  cases size <;> decide

@[simp] theorem OperandSize.oneLine_directive (size : OperandSize) : OneLine size.directive := by
  cases size <;> decide

@[simp] theorem Register.oneLine_text (register : Register) : OneLine register.text := by
  have h : ∀ register ∈ all, OneLine register.text := by decide
  exact h register register.mem_all

@[simp] theorem Condition.oneLine_text (condition : Condition) : OneLine condition.text := by
  cases condition <;> decide

@[simp] theorem Mnemonic.oneLine_text (kind : Mnemonic) : OneLine kind.text := by
  cases kind with
  | jumpIf condition => simp [text]; decide
  | jump => decide
  | implicit op =>
    cases op with
    | signExtend size => cases size <;> decide
    | _ => decide
  | binary op | shift op | unary op | device op | address op => cases op <;> decide

/-! ### Texts of operands and statements -/

/-- The name of the symbol, if the value is one. -/
def Value.symbolName? : Value → Option String
  | .symbol s => some s.name
  | _ => none

/-- Names of the symbols among the operands. -/
def Instruction.symbolNames (i : Instruction) : List String :=
  (i.destination :: i.source.toList).filterMap fun operand => operand.value.symbolName?

/-- The texts of the statement that its author has given. -/
def Statement.givenTexts : Statement → List String
  | .instruction i => i.symbolNames
  | .implicit _ => []
  | .label name => [name]
  | .comment content => [content]
  | .constant c => [c.name, c.value]
  | .literal code => [code]

/-- The texts of the program that its author has given, strings of data members apart. -/
def Program.givenTexts (program : Program) : List String :=
  program.statements.toList.flatMap Statement.givenTexts ++
    program.dataMembers.toList.map DataMember.name

theorem Value.oneLine_text {value : Value} (h : ∀ name ∈ value.symbolName?, OneLine name) :
    OneLine value.text := by
  cases value with
  | register r => exact r.oneLine_text
  | immediate n => exact oneLine_hexadecimal n.toNat
  | symbol s => exact h s.name rfl

@[simp] theorem Operand.oneLine_offsetText (displacement : Int) : OneLine (offsetText displacement) := by
  have hplus : OneLine "+" := by decide
  have hminus : OneLine "-" := by decide
  have hnothing : OneLine "" := by decide
  unfold offsetText
  split
  · exact oneLine_append.mpr ⟨hplus, oneLine_hexadecimal _⟩
  · split
    · exact oneLine_append.mpr ⟨hminus, oneLine_hexadecimal _⟩
    · exact hnothing

theorem Operand.oneLine_text {operand : Operand}
    (h : ∀ name ∈ operand.value.symbolName?, OneLine name) : OneLine operand.text := by
  have hvalue := Value.oneLine_text h
  have hopen : OneLine "[" := by decide
  have hclose : OneLine "]" := by decide
  unfold text
  split
  · exact hvalue
  · simp [hopen, hclose, hvalue]

theorem Instruction.oneLine_operandText (size : Option OperandSize) {operand : Operand}
    (h : ∀ name ∈ operand.value.symbolName?, OneLine name) : OneLine (operandText size operand) := by
  have hoperand := Operand.oneLine_text h
  have hptr : OneLine " ptr " := by decide
  unfold operandText
  split
  · split
    · simp [hptr, hoperand]
    · exact hoperand
  · exact hoperand

theorem Instruction.oneLine_text {i : Instruction} (h : ∀ name ∈ i.symbolNames, OneLine name) :
    OneLine i.text := by
  have hblank : OneLine " " := by decide
  have hcomma : OneLine ", " := by decide
  have hoperand (operand : Operand) (hmem : operand ∈ i.destination :: i.source.toList) :
      OneLine (operandText i.size operand) :=
    oneLine_operandText i.size fun name hname =>
      h name (List.mem_filterMap.mpr ⟨operand, hmem, hname⟩)
  have hdestination := hoperand i.destination List.mem_cons_self
  unfold text
  split
  · rename_i source hsource
    have hsource := hoperand source (by simp [hsource])
    simp [hblank, hcomma, hdestination, hsource]
  · simp [hblank, hdestination]

/-- A statement is written on one line, if the texts that its author has given are. -/
theorem Statement.oneLine_text {s : Statement} (h : ∀ text ∈ s.givenTexts, OneLine text) :
    OneLine s.text := by
  cases s with
  | instruction i => exact Instruction.oneLine_text h
  | implicit kind => exact kind.oneLine_text
  | label name =>
    have hcolon : OneLine ":" := by decide
    exact oneLine_append.mpr ⟨h name List.mem_cons_self, hcolon⟩
  | comment content =>
    have hmark : OneLine "; " := by decide
    exact oneLine_append.mpr ⟨hmark, h content List.mem_cons_self⟩
  | constant c =>
    have hequ : OneLine " equ " := by decide
    have hname := h c.name List.mem_cons_self
    have hvalue := h c.value (List.mem_cons_of_mem _ List.mem_cons_self)
    exact oneLine_append.mpr ⟨oneLine_append.mpr ⟨hname, hequ⟩, hvalue⟩
  | literal code => exact h code List.mem_cons_self

theorem Statement.oneLine_line {s : Statement} (h : ∀ text ∈ s.givenTexts, OneLine text) :
    OneLine s.line := by
  have hindent : OneLine "    " := by decide
  unfold line
  split
  · exact oneLine_text h
  · exact oneLine_append.mpr ⟨hindent, oneLine_text h⟩

/-- A data member is written on one line, if its name is: of a string, every byte is made printable. -/
theorem DataMember.oneLine_text {member : DataMember} (h : OneLine member.name) :
    OneLine member.text := by
  have hblank : OneLine " " := by decide
  have hrepetition : OneLine (repetitionText member.count) := by
    have htimes : OneLine "times " := by decide
    have hnothing : OneLine "" := by decide
    unfold repetitionText
    split
    · exact hnothing
    · simp [htimes, hblank]
  have hvalue : OneLine member.value.text := by
    cases member.value with
    | integer number => exact oneLine_hexadecimal number.toNat
    | string content =>
      have hzero : OneLine ", 0" := by decide
      exact oneLine_append.mpr ⟨Backquoted.oneLine_write content, hzero⟩
  simp [text, h, hblank, hrepetition, hvalue]

/-! ### The pieces of a text -/

namespace Text

/-- What stands between the newlines of the text. -/
def pieces (text : String) : List String := (text.split '\n').toList.map String.Slice.copy

theorem pieces_eq_splitOn (text : String) :
    pieces text = (text.toList.splitOn '\n').map String.ofList := String.toList_split_char

theorem pieces_of_oneLine {text : String} (h : OneLine text) : pieces text = [text] := by
  rw [pieces_eq_splitOn, List.splitOn_eq_singleton h, List.map_singleton, String.ofList_toList]

theorem pieces_append_newline (text later : String) :
    pieces (text ++ "\n" ++ later) = pieces text ++ pieces later := by
  have hchars : (text ++ "\n" ++ later).toList = text.toList ++ '\n' :: later.toList := by
    rw [String.toList_append, String.toList_append, List.append_assoc]
    rfl
  rw [pieces_eq_splitOn, hchars, List.splitOn_append_cons_self, List.map_append, ← pieces_eq_splitOn,
    ← pieces_eq_splitOn]

theorem splitOn_append_of_not_mem {chars : List Char} (h : '\n' ∉ chars) (later : List Char) :
    (chars ++ later).splitOn '\n' = (later.splitOn '\n').modifyHead (chars ++ ·) := by
  induction chars with
  | nil =>
    rw [List.nil_append]
    cases later.splitOn '\n' <;> rfl
  | cons c chars ih =>
    rw [List.mem_cons, not_or] at h
    have hc : ¬((c == '\n') = true) := fun hsame => h.1 (beq_iff_eq.mp hsame).symm
    rw [List.cons_append, List.splitOn_cons_eq_if_modifyHead, if_neg hc, ih h.2, List.modifyHead_modifyHead]
    rfl

theorem flatMap_pieces_of_oneLine {lines : List String} (h : ∀ line ∈ lines, OneLine line) :
    lines.flatMap pieces = lines := by
  induction lines with
  | nil => rfl
  | cons line lines ih =>
    obtain ⟨hline, hlines⟩ := List.forall_mem_cons.mp h
    rw [List.flatMap_cons, pieces_of_oneLine hline, ih hlines]
    rfl

/-- A text without newlines stands before the first piece of what follows it. -/
theorem pieces_append_of_oneLine {lead : String} (h : OneLine lead) (text : String) :
    pieces (lead ++ text) = (pieces text).modifyHead (lead ++ ·) := by
  rw [pieces_eq_splitOn, pieces_eq_splitOn, String.toList_append, splitOn_append_of_not_mem h]
  cases text.toList.splitOn '\n' with
  | nil => rfl
  | cons first rest =>
    change String.ofList (lead.toList ++ first) :: _ = (lead ++ String.ofList first) :: _
    rw [String.ofList_append, String.ofList_toList]

theorem length_splitOn (chars : List Char) :
    (chars.splitOn '\n').length = chars.count '\n' + 1 := by
  induction chars with
  | nil => rfl
  | cons c chars ih =>
    rw [List.splitOn_cons_eq_if_modifyHead]
    split
    · rename_i hc
      rw [List.length_cons, ih, List.count_cons, if_pos hc]
    · rename_i hc
      rw [List.length_modifyHead, ih, List.count_cons, if_neg hc]

theorem length_pieces (text : String) : (pieces text).length = text.toList.count '\n' + 1 := by
  rw [pieces_eq_splitOn, List.length_map, length_splitOn]

theorem pieces_join_lines (lines : List String) :
    pieces (String.join (lines.map (· ++ "\n"))) = lines.flatMap pieces ++ [""] := by
  induction lines with
  | nil => exact pieces_of_oneLine (by decide)
  | cons line lines ih =>
    rw [List.map_cons, String.join_cons, pieces_append_newline, ih, List.flatMap_cons, List.append_assoc]

end Text

/-! ### The listing -/

theorem Program.oneLine_of_mem_lines {program : Program}
    (h : ∀ text ∈ program.givenTexts, OneLine text) : ∀ line ∈ program.lines, OneLine line := by
  intro line hline
  rcases List.mem_append.mp hline with hline | hline
  · obtain ⟨s, hs, rfl⟩ := List.mem_map.mp hline
    apply Statement.oneLine_line
    intro text htext
    exact h text (List.mem_append_left _ (List.mem_flatMap.mpr ⟨s, hs, htext⟩))
  · obtain ⟨member, hmember, rfl⟩ := List.mem_map.mp hline
    apply DataMember.oneLine_text
    exact h member.name (List.mem_append_right _ (List.mem_map_of_mem hmember))

/-- Lines without newlines, each ended by one, are found again between the newlines, and nothing stands
after the last. -/
theorem Text.split_join_lines {lines : List String} (h : ∀ line ∈ lines, OneLine line) :
    ((String.join (lines.map (· ++ "\n"))).split '\n').toList.map String.Slice.copy = lines ++ [""] := by
  have hpieces := pieces_join_lines lines
  rw [flatMap_pieces_of_oneLine h] at hpieces
  exact hpieces

/-- Split at its newlines, the listing of a program is one line for each statement, flush left for a label
and indented for all else, then one line for each data member, flush left. Each line ends in a newline,
and only the names, comments, constants and literals of the program have to be without one. -/
theorem Program.split_listing (program : Program) (h : ∀ text ∈ program.givenTexts, OneLine text) :
    ∃ lines : List String,
      program.listing = String.join (lines.map (· ++ "\n")) ∧
      (program.listing.split '\n').toList.map String.Slice.copy = lines ++ [""] ∧
      lines.length = program.size + program.dataMembers.size ∧
      (∀ (index : Nat) (s : Statement), program.statements[index]? = some s →
        lines[index]? = some (if s.isLabel then s.text else "    " ++ s.text)) ∧
      ∀ (index : Nat) (member : DataMember), program.dataMembers[index]? = some member →
        lines[program.size + index]? = some member.text := by
  have hsize : (program.statements.toList.map Statement.line).length = program.size := by
    simp [size]
  refine ⟨program.lines, rfl, Text.split_join_lines (oneLine_of_mem_lines h), ?_, ?_, ?_⟩
  · simp [lines, size]
  · intro index s hs
    have hline : (program.statements.toList.map Statement.line)[index]? = some s.line := by
      rw [List.getElem?_map, Array.getElem?_toList, hs]
      rfl
    obtain ⟨hindex, -⟩ := List.getElem?_eq_some_iff.mp hline
    rw [lines, List.getElem?_append_left hindex]
    exact hline
  · intro index member hmember
    rw [lines, List.getElem?_append_right (by omega), hsize, Nat.add_sub_cancel_left,
      List.getElem?_map, Array.getElem?_toList, hmember]
    rfl

/-- The string of the data member holds a newline, and its declaration is the last of four lines. -/
theorem Program.split_listing_of_string :
    let move : Instruction := ⟨.binary .mov, .indirect (.symbol ⟨"text"⟩) (-4),
      some (.direct (.register (.lettered .a .dword))), some .dword⟩
    let program : Program := ⟨#[.label "entry", .instruction move, .comment "done"],
      #[⟨"text", .string "a\nb", .byte, 1⟩]⟩
    (∀ text ∈ program.givenTexts, OneLine text) ∧
    ∃ lines : List String,
      (program.listing.split '\n').toList.map String.Slice.copy = lines ++ [""] ∧
      lines.length = 4 ∧
      lines[0]? = some "entry:" ∧
      lines[1]? = some "    mov dword ptr [text-0x4], eax" ∧
      lines[3]? = some "text db \x60a\\x0Ab\x60, 0" := by
  intro move program
  have htexts : ∀ text ∈ program.givenTexts, OneLine text := by decide
  obtain ⟨lines, -, hsplit, hlength, hstatements, hmembers⟩ := split_listing program htexts
  refine ⟨htexts, lines, hsplit, hlength, ?_, ?_, ?_⟩
  · exact hstatements 0 _ rfl
  · exact hstatements 1 _ rfl
  · exact hmembers 0 _ rfl

end X86Listing
