import SlotArray.Fault
import SlotArray.Source.Language

/-! Invocations in a source text: the arguments of a tag, or a list of entries. -/
namespace SlotArray

/-- Why an invocation is refused. -/
inductive Refusal where
  | notATuple
  | hasFields
  | hasWhereClause
  | tooManyParameters
  | noPlainParameter
  | nameOfElement (element : String)
  | pass (error : PassError)
  /-- What was made of the invocation is no source text. -/
  | unreadable
deriving DecidableEq, Repr

def Refusal.message : Refusal → String
  | .notATuple => "expected a `(name, namespace, size)` tuple"
  | .hasFields => "#[struct_array] generates the fields; declare the struct without any"
  | .hasWhereClause => "#[struct_array] does not support where clauses"
  | .tooManyParameters => "#[struct_array] takes at most one type parameter"
  | .noPlainParameter => "expected a single plain type parameter for the element type"
  | .nameOfElement element =>
    "`" ++ element ++ "` is also the element type parameter; name the parameter differently, " ++
      "e.g. `struct " ++ element ++ "<E>;`"
  | .pass error => error.message
  | .unreadable =>
    "struct array expansion is not valid Rust: cannot parse string into token stream"

/-- What is wrong with an invocation. -/
inductive InvocationError where
  /-- The text is no sequence of tokens with matching brackets. -/
  | notTokens
  /-- The tokens do not form what has to stand there. -/
  | malformed
  | notAStruct
  | refused (refusal : Refusal) (span : Source.Span)
deriving DecidableEq, Repr

/-- The largest value of an integer argument. -/
def maxInteger : Nat := 0x7FFFFFFFFFFFFFFFFFFFFFFFFFFFFFFF

/-- The argument that a literal is, unless its kind or its size makes it none. -/
def Argument.ofLiteral? (text : String) : Option Argument :=
  match Source.LiteralValue.ofText text with
  | .text text => some (.string text)
  | .boolean value => some (.boolean value)
  | .integer value => if value ≤ maxInteger then some (.integer value) else none
  | .float value => some (.float value)
  | .other => none

/-- The argument that a literal behind a minus sign is. -/
def Argument.ofNegative? (text : String) : Option Argument :=
  match Source.LiteralValue.ofText text with
  | .integer value => if value ≤ maxInteger then some (.integer (-value)) else none
  | .float value => some (.float value.neg)
  | _ => none

/-- The argument that an expression is. All but literals are kept as source text; an invisible group is
what stands in it. -/
def Argument.ofExpr : Source.Expr → Argument
  | .literal text trees =>
    (Argument.ofLiteral? text).getD (.other (Source.TokenTree.write trees))
  | .negative text trees =>
    (Argument.ofNegative? text).getD (.other (Source.TokenTree.write trees))
  | .grouped inner _ => Argument.ofExpr inner
  | expr => .other (Source.TokenTree.write expr.trees)

/-- A declaration with the one tag that asks for a container. -/
def Occurrence.tagged (declaration : String) (arguments : List Argument) : Occurrence :=
  ⟨declaration, [⟨tagName, arguments⟩]⟩

/-- The tokens of a text. -/
def tokensOf (source : String) : Except InvocationError (List Source.TokenTree) :=
  (Source.TokenTree.ofText? source).elim (.error .notTokens) .ok

/-- The struct that a text declares. -/
def structOf (source : String) : Except InvocationError Source.StructItem :=
  (Source.TokenTree.ofText? source >>= Source.readStruct).elim (.error .notAStruct) .ok

/-- Reads trees as expressions with commas between them. -/
def exprsOf (trees : List Source.TokenTree) : Except InvocationError (List Source.Expr) :=
  (Source.readExprs trees).elim (.error .malformed) .ok

/-- The arguments of a tag on a declaration. -/
def readTagged (declaration : String) (trees : List Source.TokenTree) :
    Except InvocationError Occurrence := do
  let exprs ← exprsOf trees
  return .tagged declaration (exprs.map Argument.ofExpr)

/-- An entry of a list of containers, and its place. -/
structure Entry where
  occurrence : Occurrence
  span : Source.Span
deriving DecidableEq, Repr

/-- How messages call the entry at an index. -/
def entryLabel (index : Nat) : String := "struct_arrays! entry #" ++ toString (index + 1)

/-- The entry that an expression is: a tuple of arguments, or one argument in parentheses. -/
def Entry.ofExpr (index : Nat) (expr : Source.Expr) : Except InvocationError Entry :=
  match expr with
  | .tuple items _ => .ok ⟨.tagged (entryLabel index) (items.map Argument.ofExpr), expr.span⟩
  | .parenthesized inner _ => .ok ⟨.tagged (entryLabel index) [.ofExpr inner], expr.span⟩
  | _ => .error (.refused .notATuple expr.span)

/-- The entries of a list. All of it has to be well-formed before any entry is looked at. -/
def readEntries (trees : List Source.TokenTree) : Except InvocationError (List Entry) := do
  let exprs ← exprsOf trees
  exprs.zipIdx.mapM fun (expr, index) => Entry.ofExpr index expr

end SlotArray
