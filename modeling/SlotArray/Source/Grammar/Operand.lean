import SlotArray.Source.Grammar.Operation
import SlotArray.Source.Grammar.Pattern

/-! Expressions without operators between their parts: what stands alone, the calls, fields
and indices behind it, and the signs in front of it. -/
namespace SlotArray.Source.Grammar
open Phrase

/-- A phrase as an expression of a given form. -/
def compound (form : Form) (phrase : Phrase) : Reading TokenTree Expr := do
  return .compound form (← phrase)

/-- Arguments in parentheses. -/
def callArguments (g : Grammar) : Phrase := enclosed .parenthesis (list (g.exprTrees true))

/-! What follows an expression -/

/-- The fields that a number with a point stands for, and whether the point comes last. -/
def pointFields (text : List Char) (start : Position) : Option (List TokenTree × Bool) :=
  let whole := text.takeWhile (· != '.')
  let fraction := (text.dropWhile (· != '.')).tail
  let point := start.advance whole
  let behind := point.after '.'
  let dot : TokenTree := .leaf (.mark '.' false) ⟨point, behind⟩
  match fieldNumber? whole with
  | some first =>
    let first : TokenTree := .leaf (.literal (toString first)) ⟨start, point⟩
    if fraction.isEmpty then some ([first, dot], true)
    else
      match fieldNumber? fraction with
      | some second =>
        some ([first, dot,
          .leaf (.literal (toString second)) ⟨behind, behind.advance fraction⟩], false)
      | none => none
  | none => none

/-- Takes a number with a point or an exponent behind the dot of a field access. -/
def pointNumber : Reading TokenTree (List TokenTree × Bool) := inSight fun
  | .leaf (.literal text) span :: rest =>
    match LiteralValue.ofText text with
    | .float _ => (pointFields text.toList span.first).map fun fields => (fields, rest)
    | _ => none
  | _ => none

/-- Whether a number with a point or an exponent is ahead. -/
def startsPointNumber : Ahead := fun trees =>
  match TokenTree.seen trees with
  | .leaf (.literal text) _ :: _ =>
    match LiteralValue.ofText text with
    | .float _ => true
    | _ => false
  | _ => false

/-- A field or a method call behind its dot. -/
def access (g : Grammar) : Phrase := do
  if ← nextIs (word "await") then word "await"
  else
    let named ← nextIs name
    let field ← member
    if !named then return field
    let types ← ifNext (mark "::") (inOrder [mark "::", angleArguments g])
    if !types.isEmpty || (← nextIs (groupOf .parenthesis)) then
      return field ++ types ++ (← callArguments g)
    else return field

/-- A dot and what is accessed with it. A number with a point stands for two fields. -/
def dotAccess (g : Grammar) : Phrase := do
  let dot ← mark "."
  if ← ask startsPointNumber then
    let (fields, open_) ← pointNumber
    if open_ then return dot ++ fields ++ (← access g) else return dot ++ fields
  else return dot ++ (← access g)

/-- The calls, fields, indices and question marks behind an expression. Behind a range there
are neither fields nor question marks. -/
def trailers (g : Grammar) (expr : Expr) : Reading TokenTree Expr :=
  fun trees => go (TokenTree.totalSteps trees + 1) expr trees
where
  /-- `fuel` is one more than the number of steps ahead, so it lasts when each trailer takes one. -/
  go : Nat → Expr → Reading TokenTree Expr
    | 0, _ => failure
    | fuel + 1, expr => do
      let onward (trailer : Phrase) : Reading TokenTree Expr := do
        go fuel (.compound .other (expr.trees ++ (← trailer)))
      let ranged := expr.form = .range
      if ← nextIs (groupOf .parenthesis) then onward (callArguments g)
      else if (← nextIs (mark ".")) && !(← nextIs (mark "..")) && !ranged then
        onward (dotAccess g)
      else if ← nextIs (groupOf .bracket) then onward (enclosed .bracket (g.exprTrees true))
      else if (← nextIs (mark "?")) && !ranged then onward (mark "?")
      else return expr

/-! Expressions that end with their own braces -/

/-- An `if` with its branches. -/
def conditional (g : Grammar) : Phrase := fun trees => go (TokenTree.totalSteps trees + 1) trees
where
  /-- `fuel` is one more than the number of steps ahead, so it lasts when each branch takes one. -/
  go : Nat → Phrase
    | 0 => failure
    | fuel + 1 => do
      let opening ← inOrder [word "if", g.exprTrees false, g.block]
      if ← nextIs (word "else") then
        let between ← word "else"
        if ← nextIs (word "if") then return opening ++ between ++ (← go fuel)
        else return opening ++ between ++ (← g.block)
      else return opening

/-- A `while` loop. -/
def whileLoop (g : Grammar) : Phrase :=
  inOrder [word "while", g.exprTrees false, attributedBlock g]

/-- A `for` loop. -/
def forLoop (g : Grammar) : Phrase :=
  inOrder [word "for", alternativeTrees g, word "in", g.exprTrees false, attributedBlock g]

/-- A loop without an end. -/
def endlessLoop (g : Grammar) : Phrase := inOrder [word "loop", attributedBlock g]

/-- A loop or a block behind its label. -/
def labeled (g : Grammar) : Phrase := do
  let label ← inOrder [lifetime, mark ":"]
  if ← nextIs (word "while") then return label ++ (← whileLoop g)
  else if ← nextIs (word "for") then return label ++ (← forLoop g)
  else if ← nextIs (word "loop") then return label ++ (← endlessLoop g)
  else return label ++ (← attributedBlock g)

/-- Whether lifetimes that a closure holds for are ahead, and not a loop. -/
def startsBinder : Ahead := fun trees =>
  starts (word "for" *> mark "<" *> lifetime) trees ||
    starts (word "for" *> mark "<" *> mark ">") trees

/-- Whether an expression that ends with its own braces is ahead. -/
def startsBlockLike : Ahead := fun trees =>
  starts (oneWordOf ["if", "while", "loop", "match", "unsafe"]) trees ||
    (starts (word "for") trees && !startsBinder trees) ||
    starts (oneWordOf ["try", "const"] *> groupOf .brace) trees ||
    starts (groupOf .brace) trees || starts lifetime trees

/-- An expression that ends with its own braces. -/
def blockLike (g : Grammar) : Reading TokenTree Expr :=
  compound .block do
    if ← nextIs (word "if") then conditional g
    else if ← nextIs (word "while") then whileLoop g
    else if ← nextIs (word "for") then forLoop g
    else if ← nextIs (word "loop") then endlessLoop g
    else if ← nextIs (word "match") then
      inOrder [word "match", g.exprTrees false,
        enclosed .brace (inOrder [innerAttributes g, g.arms])]
    else if ← nextIs (oneWordOf ["unsafe", "const"]) then inOrder [anyWord, attributedBlock g]
    else if ← nextIs (word "try") then inOrder [word "try", g.block]
    else if ← nextIs lifetime then labeled g
    else attributedBlock g

/-! What begins with a path -/

/-- A field of a struct and its value. A name alone has the value of the variable. -/
def fieldValue (g : Grammar) : Phrase := do
  let attributes ← attributeTrees g
  let named ← nextIs name
  let field ← member
  if !named || ((← nextIs (mark ":")) && !(← nextIs (mark "::"))) then
    return attributes ++ field ++ (← mark ":") ++ (← g.exprTrees true)
  else return attributes ++ field

/-- The fields of a struct. Two dots at the end may name the value of the others. -/
def fieldValues (g : Grammar) : Phrase := do
  let stop : Ahead := fun trees => trees.isEmpty || starts (mark "..") trees
  let items ← itemsUntil stop "," (fieldValue g)
  let fields := flat items
  if ← ask List.isEmpty then return fields
  if items.getLast?.any fun item => item.2.isEmpty then failure
  let dots ← mark ".."
  if ← ask List.isEmpty then return fields ++ dots
  else return fields ++ dots ++ (← g.exprTrees true)

/-- An expression that begins with a given path. -/
def behindPath (g : Grammar) (structs : Bool) (path : PathPhrase) : Reading TokenTree Expr := do
  if !path.qualified && (← ask startsMacroCall) && path.isPlain then
    let (delimiter, call) ← macroCall
    let form := if delimiter = .brace then Form.bracedCall else .other
    return .compound form (path.trees ++ call)
  else if structs && (← nextIs (groupOf .brace)) then
    return .compound .other (path.trees ++ (← enclosed .brace (fieldValues g)))
  else return .path path

/-- An expression that begins with a path. -/
def pathExpr (g : Grammar) (structs : Bool) : Reading TokenTree Expr := do
  behindPath g structs (← qualifiedPath g true)

/-! Invisible groups -/

/-- The attributes in front of an expression. One that begins within an invisible group belongs to what
stands there. -/
def exprAttributes (g : Grammar) : Phrase :=
  Attribute.flat <$> each (outside (mark "#")) (attributeAfter g (mark "#"))

/-- An expression in an invisible group. What follows the group may go on with a path in it. -/
def groupedExpr (g : Grammar) (structs : Bool) : Reading TokenTree Expr := do
  let (inner, span) ← insideInvisible (g.expr true)
  match inner with
  | .path path =>
    let longer ← furtherSegments g true path
    match ← behindPath g structs longer with
    | .path whole =>
      if whole.segments.length = path.segments.length then
        return .grouped (.path whole) [.invisible whole.trees span]
      else return .path whole
    | other => return other
  | _ => return .grouped inner [.invisible inner.trees span]

/-! At the beginning of a statement -/

/-- An expression at the beginning of a statement or of the body of an arm. One that ends
with its own braces ends there, unless a field or a question mark follows; an invisible group
around it does not matter. -/
def leadingExpr (g : Grammar) : Reading TokenTree Expr := do
  let attributes ← exprAttributes g
  if ← ask startsInvisible then
    let expr ← groupedExpr g true
    if expr.ungrouped.form = .block then closedAfter attributes expr
    else operations g true .any ((← trailers g expr).behind attributes)
  else if ← ask startsBlockLike then closedAfter attributes (← blockLike g)
  else
    let expr ← g.operand true
    operations g true .any (expr.behind attributes)
where
  /-- An expression that may end where it does. -/
  closedAfter (attributes : List TokenTree) (expr : Expr) : Reading TokenTree Expr := do
    if ((← nextIs (mark ".")) && !(← nextIs (mark ".."))) || (← nextIs (mark "?")) then
      let expr ← trailers g expr
      operations g true .any (expr.behind attributes)
    else return expr.behind attributes

/-- The arms of a match. One whose body ends with its own braces needs no comma. -/
def anyArms (g : Grammar) : Phrase :=
  whileNext skip do
    let opening ← inOrder [attributeTrees g, alternativeTrees g,
      ifNext (word "if") (inOrder [word "if", g.exprTrees true]), mark "=>"]
    let body ← leadingExpr g
    let needed := body.form ≠ .block && !(← ask List.isEmpty)
    let comma ← if needed then mark "," else perhaps (mark ",")
    return opening ++ body.trees ++ comma

/-! What stands alone -/

/-- A literal. -/
def literalExpr : Reading TokenTree Expr := do
  match ← literal with
  | [.leaf (.literal text) span] => return .literal text [.leaf (.literal text) span]
  | [.leaf (.word text) span] => return .literal text [.leaf (.word text) span]
  | _ => failure

/-- An expression in parentheses, or a tuple. -/
def parenthesized (g : Grammar) : Reading TokenTree Expr := do
  let (inner, span) ← inside .parenthesis do
    if ← ask List.isEmpty then return Expr.tuple [] []
    let first ← g.expr true
    if ← ask List.isEmpty then return Expr.parenthesized first first.trees
    let comma ← mark ","
    let others ← itemsToEnd (g.expr true)
    return Expr.tuple (first :: others.map Prod.fst)
      (first.trees ++ comma ++ flat (others.map fun item => (item.1.trees, item.2)))
  return inner.withTrees [.group .parenthesis inner.trees span]

/-- An array: its elements, or one element and their number. -/
def array (g : Grammar) : Phrase :=
  enclosed .bracket do
    if ← ask List.isEmpty then return []
    let first ← g.exprTrees true
    if ← ask List.isEmpty then return first
    else if ← nextIs (mark ",") then return first ++ (← mark ",") ++ (← list (g.exprTrees true))
    else return first ++ (← mark ";") ++ (← g.exprTrees true)

/-- Whether a closure is ahead. -/
def startsClosure : Ahead := fun trees =>
  starts (mark "|") trees || starts (oneWordOf ["move", "static"]) trees || startsBinder trees ||
    (starts (word "const") trees && !starts (word "const" *> groupOf .brace) trees) ||
    starts (word "async" *> mark "|") trees || starts (word "async" *> word "move") trees

/-- A parameter of a closure. -/
def closureParameter (g : Grammar) : Phrase :=
  inOrder [attributeTrees g, PatternPhrase.trees <$> g.pattern,
    ifNext (mark ":") (inOrder [mark ":", g.typeTrees true])]

/-- A closure. With the type of its value, the body has to be a block. -/
def closure (g : Grammar) (structs : Bool) : Phrase := do
  let opening ← inOrder [ifNext (word "for") (binder g), perhaps (word "const"),
    perhaps (word "static"), perhaps (word "async"), perhaps (word "move"), mark "|",
    sequence (starts (mark "|")) "," (closureParameter g), mark "|"]
  if ← nextIs (mark "->") then
    return opening ++ (← inOrder [mark "->", g.typeTrees true, g.block])
  else return opening ++ (← g.exprTrees structs)

/-- The signs that may begin an expression, each with the operators that begin like it. -/
def exprSigns : List (String × List String) :=
  [("!", ["!="]), ("-", ["-=", "->"]), ("*", ["*="]), ("|", ["|="]), ("&", ["&="]),
    ("<", ["<=", "<<="])]

/-- Whether an expression is ahead where none is needed. -/
def startsExpr : Ahead := fun trees =>
  (starts anyWord trees && !starts (word "as") trees) ||
    starts anyGroup trees || starts literal trees ||
    exprSigns.any (fun (sign, others) => starts (mark sign) trees &&
      others.all fun other => !starts (mark other) trees) ||
    starts (mark "..") trees || starts (mark "::") trees || starts lifetime trees ||
    starts (mark "#") trees

/-- A `break` with the label and the value it takes along. -/
def breakExpr (g : Grammar) (structs : Bool) : Phrase := do
  let opening ← word "break"
  let label ← perhaps lifetime
  if !label.isEmpty && (← nextIs (mark ":")) then failure
  if (← ask startsExpr) && (structs || !(← nextIs (groupOf .brace))) then
    return opening ++ label ++ (← g.exprTrees structs)
  else return opening ++ label

/-- A `return` with its value. -/
def returnExpr (g : Grammar) : Phrase := do
  let opening ← word "return"
  if ← ask startsExpr then return opening ++ (← g.exprTrees true) else return opening

/-- A `yield` with its value. -/
def yieldExpr (g : Grammar) : Phrase := do
  let opening ← word "yield"
  if (← ask List.isEmpty) || (← nextIs (mark ",")) || (← nextIs (mark ";")) then return opening
  else return opening ++ (← g.exprTrees true)

/-- A condition that binds names. -/
def letExpr (g : Grammar) (structs : Bool) : Phrase := do
  let opening ← inOrder [word "let", alternativeTrees g, mark "="]
  let value ← operations g structs .comparison (← g.operand structs)
  return opening ++ value.trees

/-- An operation that the compiler has built in. -/
def builtinExpr : Phrase := inOrder [word "builtin", mark "#", name, groupOf .parenthesis]

/-- A phrase as an expression that is kept as it stands in the source. -/
def asIs (phrase : Phrase) : Reading TokenTree Expr := do
  let start ← Reading.peek
  let _ ← phrase
  compound .asWritten (since start)

/-- An expression that stands alone. -/
def atom (g : Grammar) (structs : Bool) : Reading TokenTree Expr := do
  let asyncBlock := word "async" *> perhaps (word "move") *> groupOf .brace
  let tryPath := word "try" *> (do if ← nextIs (mark "!") then mark "!" else mark "::")
  if ← ask startsInvisible then groupedExpr g structs
  else if ← nextIs literal then literalExpr
  else if ← nextIs asyncBlock then
    compound .other (inOrder [word "async", perhaps (word "move"), g.block])
  else if ← ask startsBlockLike then blockLike g
  else if ← ask startsClosure then compound .other (closure g structs)
  else if ← nextIs (word "builtin" *> mark "#") then asIs builtinExpr
  else if (← ask startsPath) || (← nextIs tryPath) then pathExpr g structs
  else if ← nextIs (groupOf .parenthesis) then parenthesized g
  else if ← nextIs (word "break") then compound .other (breakExpr g structs)
  else if ← nextIs (word "continue") then
    compound .other (inOrder [word "continue", perhaps lifetime])
  else if ← nextIs (word "return") then compound .other (returnExpr g)
  else if ← nextIs (word "become") then
    asIs (inOrder [word "become", g.exprTrees true])
  else if ← nextIs (groupOf .bracket) then compound .other (array g)
  else if ← nextIs (word "let") then compound .other (letExpr g structs)
  else if ← nextIs (word "yield") then compound .other (yieldExpr g)
  else if ← nextIs (mark "..") then rangeFromStart g structs
  else compound .other (word "_")

/-! Signs in front -/

/-- What follows the ampersand of a reference. -/
def referenceMode : Phrase := do
  if (← nextIs (word "raw" *> oneWordOf ["mut", "const"])) then
    inOrder [word "raw", oneWordOf ["mut", "const"]]
  else perhaps (word "mut")

/-- A sign in front of an operand. -/
def sign : Phrase := do
  if ← nextIs (mark "*") then mark "*"
  else if ← nextIs (mark "!") then mark "!"
  else mark "-"

/-- An operand: attributes, signs, what stands alone, and what follows it. A minus sign in
front of a literal belongs to its value. -/
def anyOperand (g : Grammar) (structs : Bool) : Reading TokenTree Expr := do
  let start ← Reading.peek
  let attributes ← exprAttributes g
  if ← nextIs (outside (mark "&")) then
    let reference ← inOrder [mark "&", referenceMode]
    let inner ← g.operand structs
    return .compound .other (attributes ++ reference ++ inner.trees)
  else if ← nextIs (outside sign) then
    let negative ← nextIs (mark "-")
    let sign ← sign
    let inner ← g.operand structs
    let trees := attributes ++ sign ++ inner.trees
    match inner with
    | .literal text _ =>
      return if negative then .negative text trees else .compound .other trees
    | _ => return .compound .other trees
  else
    let expr ← trailers g (← atom g structs)
    if expr.form = .asWritten then compound .asWritten (since start)
    else if !attributes.isEmpty && expr.form = .range then failure
    else return expr.behind attributes

end SlotArray.Source.Grammar
