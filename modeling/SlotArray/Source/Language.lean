import SlotArray.Source.Grammar.Statement

/-! The whole language: as many levels of the grammar as a text needs. -/
namespace SlotArray.Source

namespace Grammar

/-- The grammar of a given number of levels. Each level is made from the one inside it, when
that is asked for. -/
def levels : Nat → Grammar
  | 0 => empty
  | n + 1 => {
    expr := fun structs trees => anyExpr (levels n) structs trees
    operand := fun structs trees => anyOperand (levels n) structs trees
    type := fun sums trees => anyType (levels n) sums trees
    pattern := fun trees => anyPattern (levels n) trees
    bound := fun trees => anyBound (levels n) trees
    statements := fun trees => anyStatements (levels n) trees
    arms := fun trees => anyArms (levels n) trees
    fields := fun trees => namedFields (levels n) trees
    declaration := fun trees => anyDeclaration (levels n) trees }

/-- A grammar with levels enough for some trees. A phrase is no more than a few levels above
one that is a token shorter. -/
def enough (trees : List TokenTree) : Grammar := levels (4 * TokenTree.totalWeight trees + 4)

end Grammar

/-- Reads all of some trees as one phrase. -/
def readWhole {α : Type} (phrase : Grammar → Reading TokenTree α) (trees : List TokenTree) :
    Option α :=
  Reading.whole (Phrase.toEnd (phrase (.enough trees))) trees

/-- Reads trees as expressions with commas between them. -/
def readExprs (trees : List TokenTree) : Option (List Expr) :=
  readWhole (fun g => do
    return (← Phrase.itemsToEnd (g.expr true)).map Prod.fst) trees

/-- Reads trees as the declaration of a struct. -/
def readStruct (trees : List TokenTree) : Option StructItem :=
  readWhole Grammar.structItem trees

/-- Reads trees as paths with commas between them. -/
def readPaths (trees : List TokenTree) : Option (List PathPhrase) :=
  readWhole (fun g => do
    return (← Phrase.itemsToEnd (Grammar.path g false)).map Prod.fst) trees

end SlotArray.Source
