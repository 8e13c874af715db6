import SlotArray.Reading
import SlotArray.Source.Identifier

/-! Phrases: readers of token trees that hand back what they take.

What comes back is spaced as an operator is written: its characters stand together, and
two operators apart, however they stood in the source. A reader either takes all of a
phrase or fails; what may be missing is asked for first, with `nextIs`.

Invisible groups are looked through: what stands in one is taken as if it stood by itself. Only
the readers that say so look for a group. -/
namespace SlotArray.Source

/-- A reader that hands back the trees it takes. -/
abbrev Phrase := Reading TokenTree (List TokenTree)

/-- A question about the trees ahead. -/
abbrev Ahead := List TokenTree → Bool

/-- Whether a reader succeeds on what is ahead. -/
def starts {α : Type} (reader : Reading TokenTree α) : Ahead :=
  fun trees => (reader trees).isSome

namespace Phrase
variable {α : Type}

/-- Answers a question about what is ahead and takes nothing. -/
def ask (question : Ahead) : Reading TokenTree Bool :=
  fun trees => some (question trees, trees)

/-- Whether a reader would succeed next. -/
def nextIs (reader : Reading TokenTree α) : Reading TokenTree Bool :=
  ask (starts reader)

/-- A reader that enters the invisible groups ahead. -/
def inSight (reader : Reading TokenTree α) : Reading TokenTree α :=
  fun trees => reader (TokenTree.seen trees)

/-- Takes one leaf that passes a test. -/
def leafThat (test : Leaf → Bool) : Phrase := inSight fun
  | .leaf inner span :: rest => if test inner then some ([.leaf inner span], rest) else none
  | _ => none

/-- Takes the characters of an operator. Each but the last has to join the next, and they
come back joined up to the last. -/
def markChars : List Char → Phrase
  | [], trees => some ([], trees)
  | c :: more, trees =>
    match TokenTree.seen trees with
    | .leaf (.mark found joint) span :: rest =>
      if c = found && (more.isEmpty || joint) then
        match markChars more rest with
        | some (others, rest) => some (.leaf (.mark c !more.isEmpty) span :: others, rest)
        | none => none
      else none
    | _ => none

/-- Takes an operator. -/
def mark (text : String) : Phrase := markChars text.toList

/-- Takes a given word. -/
def word (text : String) : Phrase := leafThat fun
  | .word found => found == text
  | _ => false

/-- Takes one of some words. -/
def oneWordOf (texts : List String) : Phrase := leafThat fun
  | .word found => texts.contains found
  | _ => false

/-- Takes a word of any kind. -/
def anyWord : Phrase := leafThat fun
  | .word _ => true
  | _ => false

/-- Takes an identifier. -/
def name : Phrase := leafThat fun
  | .word found => isName found
  | _ => false

/-- Takes a lifetime: a quote and the word that belongs to it. -/
def lifetime : Phrase := inSight fun
  | .leaf (.mark '\'' true) quoteSpan :: rest =>
    match TokenTree.seen rest with
    | .leaf (.word text) span :: rest =>
      some ([.leaf (.mark '\'' true) quoteSpan, .leaf (.word text) span], rest)
    | _ => none
  | _ => none

/-- Whether a literal is a number. -/
def isNumeral (text : String) : Bool :=
  text.toList.head?.any Char.isDigit

/-- Takes a literal: a written one, a truth value, or a number behind a minus sign. -/
def literal : Phrase := inSight fun
  | .leaf (.literal text) span :: rest => some ([.leaf (.literal text) span], rest)
  | .leaf (.word text) span :: rest =>
    if text = "true" || text = "false" then some ([.leaf (.word text) span], rest) else none
  | .leaf (.mark '-' _) markSpan :: rest =>
    match TokenTree.seen rest with
    | .leaf (.literal text) span :: rest =>
      if isNumeral text then
        some ([.leaf (.mark '-' false) markSpan, .leaf (.literal text) span], rest)
      else none
    | _ => none
  | _ => none

/-- Takes any group in brackets as it stands, but none that begins within an invisible one. -/
def anyGroup : Phrase
  | .group delimiter content span :: rest => some ([.group delimiter content span], rest)
  | _ => none

/-- Takes a group of one kind as it stands. -/
def groupOf (delimiter : Delimiter) : Phrase := inSight fun
  | .group found content span :: rest =>
    if found = delimiter then some ([.group found content span], rest) else none
  | _ => none

/-- Succeeds when nothing but invisible groups is left, and takes those. -/
def noneLeft : Reading TokenTree Unit :=
  fun trees => if (TokenTree.seen trees).isEmpty then some ((), []) else none

/-- A reader that has to take everything. -/
def toEnd (reader : Reading TokenTree α) : Reading TokenTree α := do
  let value ← reader
  noneLeft
  return value

/-- Takes a group of one kind, all of whose content a reader takes. -/
def inside (delimiter : Delimiter) (reader : Reading TokenTree α) :
    Reading TokenTree (α × Span) := inSight fun
  | .group found content span :: rest =>
    if found = delimiter then
      (Reading.whole (toEnd reader) content).map fun value => ((value, span), rest)
    else none
  | _ => none

/-- Takes a group of one kind around a phrase. -/
def enclosed (delimiter : Delimiter) (phrase : Phrase) : Phrase := do
  let (content, span) ← inside delimiter phrase
  return [.group delimiter content span]

/-- Whether an invisible group is ahead. -/
def startsInvisible : Ahead
  | .invisible _ _ :: _ => true
  | _ => false

/-- A reader that enters no invisible group. -/
def outside (reader : Reading TokenTree α) : Reading TokenTree α :=
  fun trees => if startsInvisible trees then none else reader trees

/-- Takes an invisible group, all of whose content a reader takes. -/
def insideInvisible (reader : Reading TokenTree α) : Reading TokenTree (α × Span)
  | .invisible content span :: rest =>
    (Reading.whole (toEnd reader) content).map fun value => ((value, span), rest)
  | _ => none

/-- Passes over one tree, or over a lifetime as a whole. Questions about what follows the
next tree begin with it. -/
def skip : Reading TokenTree Unit
  | .leaf (.mark '\'' true) _ :: .leaf (.word _) _ :: rest => some ((), rest)
  | _ :: rest => some ((), rest)
  | [] => none

/-- Whether a reader would succeed behind the next tree. That is the first one in an invisible
group, or the group as a whole. -/
def follows (reader : Reading TokenTree α) : Ahead := fun trees =>
  (match trees with
    | .invisible content _ :: _ => starts (skip *> reader) content
    | _ => false) || starts (skip *> reader) trees

/-- Whether a reader would succeed behind the next tree. -/
def secondIs (reader : Reading TokenTree α) : Reading TokenTree Bool := ask (follows reader)

/-- Takes phrases one after another. -/
def inOrder : List Phrase → Phrase
  | [] => return []
  | first :: rest => do return (← first) ++ (← inOrder rest)

/-- Takes a phrase if it is ahead. For phrases of a few leaves, which are not read twice. -/
def perhaps (phrase : Phrase) : Phrase := do
  if ← nextIs phrase then phrase else return []

/-- Takes a phrase if its beginning is ahead, and then has to take all of it. -/
def ifNext (beginning : Reading TokenTree α) (phrase : Phrase) : Phrase := do
  if ← nextIs beginning then phrase else return []

/-- Reads things as long as the beginning of one is ahead. -/
def each {β : Type} (beginning : Reading TokenTree β) (item : Reading TokenTree α) :
    Reading TokenTree (List α) :=
  fun trees => go (TokenTree.totalSteps trees + 1) trees
where
  /-- `fuel` is one more than the number of steps ahead, so it lasts when each thing takes one. -/
  go : Nat → Reading TokenTree (List α)
    | 0 => failure
    | fuel + 1 => do
      if ← nextIs beginning then
        let first ← item
        return first :: (← go fuel)
      else return []

/-- Takes a phrase again and again as long as its beginning is ahead. -/
def whileNext {β : Type} (beginning : Reading TokenTree β) (phrase : Phrase) : Phrase := do
  return (← each beginning phrase).flatten

/-- Takes things with a separator after each but perhaps the last, up to what stops them. Each
comes with its separator. -/
def itemsUntil (stop : Ahead) (separator : String) (item : Reading TokenTree α) :
    Reading TokenTree (List (α × List TokenTree)) :=
  fun trees => go (TokenTree.totalSteps trees + 1) trees
where
  go : Nat → Reading TokenTree (List (α × List TokenTree))
    | 0 => failure
    | fuel + 1 => do
      if ← ask stop then return []
      let first ← item
      if ← nextIs (mark separator) then
        let between ← mark separator
        return (first, between) :: (← go fuel)
      else return [(first, [])]

/-- The trees of phrases and their separators. -/
def flat (items : List (List TokenTree × List TokenTree)) : List TokenTree :=
  items.flatMap fun (item, separator) => item ++ separator

/-- Takes phrases with separators, up to what stops them. -/
def sequence (stop : Ahead) (separator : String) (phrase : Phrase) : Phrase := do
  return flat (← itemsUntil stop separator phrase)

/-- Takes things with commas to the end. Behind the last one there has to be a comma or nothing. -/
def itemsToEnd (item : Reading TokenTree α) : Reading TokenTree (List (α × List TokenTree)) := do
  let items ← itemsUntil List.isEmpty "," item
  Reading.atEnd
  return items

/-- Takes phrases with commas to the end. -/
def list (phrase : Phrase) : Phrase := do
  return flat (← itemsToEnd phrase)

/-- What was taken since an earlier moment, as it stood in the source. -/
def since (earlier : List TokenTree) : Phrase :=
  fun trees => some (TokenTree.upTo earlier (TokenTree.totalSteps earlier - TokenTree.totalSteps trees), trees)

/-- What was taken since an earlier moment: as it stood in the source if it has to be kept so,
and else the trees that the readers handed back. -/
def keptSince (earlier : List TokenTree) (kept : Bool) (trees : List TokenTree) : Phrase :=
  if kept then since earlier else return trees

end Phrase
end SlotArray.Source
