import X86Listing.Proofs.SinkView

/-! Independence of the sink. A builder never reads its sink back, so that the same calls get the same
replies and add the same items on every sink, and each sink ends as the fold of these items. -/

namespace X86Listing

universe u v w

/-- The texts of the items in the order they came. -/
structure Transcript where
  lines : Array String
  deriving DecidableEq

namespace Transcript

/-- The transcript without lines. -/
def empty : Transcript := ⟨#[]⟩

/-- Writes an item at the end. -/
def write (transcript : Transcript) (item : Item) : Transcript :=
  ⟨transcript.lines.push item.text⟩

instance : Sink Transcript where
  append transcript statement := transcript.write (.statement statement)
  defineData transcript member := transcript.write (.data member)

theorem accept_eq_write (transcript : Transcript) (item : Item) :
    Sink.accept transcript item = transcript.write item := by
  cases item <;> rfl

theorem toList_accept (transcript : Transcript) (items : List Item) :
    (items.foldl Sink.accept transcript).lines.toList =
      transcript.lines.toList ++ items.map Item.text := by
  induction items generalizing transcript with
  | nil => simp
  | cons item items ih =>
    rw [List.foldl_cons, ih, accept_eq_write, write, Array.toList_push, List.append_assoc]
    rfl

end Transcript

namespace Builder

/-- What the caller sees of the same calls on two builders is the same: every reply, with its result and
its log, the items that are added, and both counters after each call. -/
structure Agrees {σ : Type u} {τ : Type v} [Sink σ] [Sink τ] (builder : Builder σ)
    (other : Builder τ) (calls : List Call) : Prop where
  replies : (builder.run calls).2 = (other.run calls).2
  stream : builder.stream calls = other.stream calls
  statementCount : ∀ made : Nat,
    (builder.run (calls.take made)).1.statementCount = (other.run (calls.take made)).1.statementCount
  dataMemberCount : ∀ made : Nat,
    (builder.run (calls.take made)).1.dataMemberCount =
      (other.run (calls.take made)).1.dataMemberCount

theorem agrees_mapSink {σ : Type u} {τ : Type v} [Sink σ] [Sink τ] {view : σ → τ}
    (hview : Sink.Preserves view) (builder : Builder σ) (calls : List Call) :
    Agrees (builder.mapSink view) builder calls where
  replies := by rw [run_mapSink hview]
  stream := stream_mapSink hview builder calls
  statementCount made := by
    rw [run_mapSink hview]
    rfl
  dataMemberCount made := by
    rw [run_mapSink hview]
    rfl

theorem Agrees.symm {σ : Type u} {τ : Type v} [Sink σ] [Sink τ] {builder : Builder σ}
    {other : Builder τ} {calls : List Call} (h : Agrees builder other calls) :
    Agrees other builder calls where
  replies := h.replies.symm
  stream := h.stream.symm
  statementCount made := (h.statementCount made).symm
  dataMemberCount made := (h.dataMemberCount made).symm

theorem Agrees.trans {σ : Type u} {τ : Type v} {ρ : Type w} [Sink σ] [Sink τ] [Sink ρ]
    {first : Builder σ} {second : Builder τ} {third : Builder ρ} {calls : List Call}
    (h : Agrees first second calls) (h' : Agrees second third calls) :
    Agrees first third calls where
  replies := h.replies.trans h'.replies
  stream := h.stream.trans h'.stream
  statementCount made := (h.statementCount made).trans (h'.statementCount made)
  dataMemberCount made := (h.dataMemberCount made).trans (h'.dataMemberCount made)

/-- Every builder agrees with the one that keeps a journal, of which it is the image. -/
theorem agrees_journal {σ : Type u} [Sink σ] (sink : σ) (calls : List Call) :
    Agrees (ofSink sink) (ofSink Journal.empty) calls :=
  agrees_mapSink (Journal.preserves_replay sink) (ofSink Journal.empty) calls

theorem agrees_ofSink {σ : Type u} {τ : Type v} [Sink σ] [Sink τ] (sink : σ) (other : τ)
    (calls : List Call) : Agrees (ofSink sink) (ofSink other) calls :=
  (agrees_journal sink calls).trans (agrees_journal other calls).symm

/-- On every sink a run ends in the fold of the added items, and which items these are, the replies and
the counters do not depend on the sink. A journal holds the items themselves, a transcript their texts,
and a program, or what hands everything on to one, the statements and the data members apart. -/
theorem sink_independent {σ : Type u} {τ : Type v} {π : Type w} [Sink σ] [Sink τ] [ProgramSink π]
    (sink : σ) (other : τ) (host : π) (calls : List Call) :
    let items := (ofSink sink).stream calls
    ((ofSink sink).run calls).1.sink = items.foldl Sink.accept sink ∧
    Agrees (ofSink sink) (ofSink other) calls ∧
    ((ofSink Journal.empty).run calls).1.sink.items.toList = items ∧
    ((ofSink Transcript.empty).run calls).1.sink.lines.toList = items.map Item.text ∧
    (ProgramSink.program ((ofSink host).run calls).1.sink).statements.toList =
      (ProgramSink.program host).statements.toList ++ items.filterMap Item.statement? ∧
    (ProgramSink.program ((ofSink host).run calls).1.sink).dataMembers.toList =
      (ProgramSink.program host).dataMembers.toList ++ items.filterMap Item.member? := by
  intro items
  have hjournal : (ofSink Journal.empty).stream calls = items :=
    (agrees_journal sink calls).stream.symm
  have htranscript : (ofSink Transcript.empty).stream calls = items :=
    (agrees_ofSink Transcript.empty sink calls).stream
  have hhost : (ofSink host).stream calls = items := (agrees_ofSink host sink calls).stream
  have hprogram : ProgramSink.program ((ofSink host).run calls).1.sink =
      items.foldl Sink.accept (ProgramSink.program host) := by
    rw [sink_run, hhost]
    exact ProgramSink.preserves.foldl host items
  refine ⟨sink_run _ calls, agrees_ofSink sink other calls, ?_, ?_, ?_⟩
  · rw [sink_run, hjournal, Journal.toList_accept]
    rfl
  · rw [sink_run, htranscript, Transcript.toList_accept]
    rfl
  · rw [hprogram]
    exact Program.accept_append _ items

end Builder
end X86Listing
