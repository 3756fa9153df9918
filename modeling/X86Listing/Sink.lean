import X86Listing.Program

/-! Sinks. A sink takes the items of a program one by one, and is never read back by who fills it. A
program is a sink, a journal keeps the items of both kinds in the order they came, and a forwarding sink
hands everything on. -/

namespace X86Listing

universe u

/-- What a builder hands to its sink. -/
inductive Item where
  | statement (statement : Statement)
  | data (member : DataMember)
  deriving DecidableEq

/-- A state that takes statements and data members. -/
class Sink (σ : Type u) where
  /-- Takes a statement. -/
  append : σ → Statement → σ
  /-- Takes a data member. -/
  defineData : σ → DataMember → σ

/-- Takes an item of either kind. -/
def Sink.accept {σ : Type u} [Sink σ] (sink : σ) : Item → σ
  | .statement statement => append sink statement
  | .data member => defineData sink member

/-- Text of the item after the name of its kind. -/
def Item.text : Item → String
  | .statement s => "statement " ++ s.text
  | .data member => "data " ++ member.text

instance : Sink Program := ⟨Program.append, Program.defineData⟩

/-- The items in the order they came. -/
structure Journal where
  items : Array Item
  deriving DecidableEq

namespace Journal

/-- The journal without items. -/
def empty : Journal := ⟨#[]⟩

/-- Adds an item at the end. -/
def record (journal : Journal) (item : Item) : Journal := ⟨journal.items.push item⟩

@[simp] theorem toList_items_record (journal : Journal) (item : Item) :
    (journal.record item).items.toList = journal.items.toList ++ [item] := by
  simp [record]

end Journal

instance : Sink Journal where
  append journal statement := journal.record (.statement statement)
  defineData journal member := journal.record (.data member)

/-- A sink that hands everything on to another. -/
structure Forwarding (σ : Type u) where
  target : σ
  deriving DecidableEq

instance {σ : Type u} [Sink σ] : Sink (Forwarding σ) where
  append sink statement := ⟨Sink.append sink.target statement⟩
  defineData sink member := ⟨Sink.defineData sink.target member⟩

end X86Listing
