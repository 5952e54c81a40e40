import DocStore.Regex.Match

/-!
# The syntax of patterns

The syntax tree of a pattern, and what can be wrong with a pattern.
-/

namespace DocStore.Pattern

/-! ## Characters and classes -/

/-- A character of a pattern. One written with two hexadecimal digits after a
backslash may also stand for a byte. -/
structure Literal where
  char : Char
  isByte : Bool
  deriving DecidableEq, Repr

inductive Shorthand where
  | digit
  | space
  | word
  deriving DecidableEq, Repr

/-- A named property of characters, `name` alone or `name=value`. -/
structure Property where
  name : String
  value : Option String
  negated : Bool
  deriving DecidableEq, Repr

inductive ClassOperation where
  | intersection
  | difference
  | symmetricDifference
  deriving DecidableEq, Repr

/-- What stands between brackets. -/
inductive ClassExpr where
  | literal (l : Literal)
  | range (first last : Literal)
  | named (ranges : List (Nat × Nat)) (negated : Bool)
  | shorthand (s : Shorthand) (negated : Bool)
  | property (p : Property)
  | bracketed (negated : Bool) (body : ClassExpr)
  | union (items : List ClassExpr)
  | operation (op : ClassOperation) (a b : ClassExpr)
  deriving Repr

def ClassExpr.ofItems : List ClassExpr → ClassExpr
  | [item] => item
  | items => .union items

/-! ## Patterns -/

inductive Flag where
  | caseInsensitive
  | multiLine
  | dotMatchesNewline
  | swapGreed
  | unicode
  | carriageReturn
  | ignoreBlanks
  deriving DecidableEq, Repr

/-- Flags to switch on and flags to switch off. -/
structure FlagChange where
  on : List Flag
  off : List Flag
  deriving DecidableEq, Repr

def FlagChange.setting (change : FlagChange) (flag : Flag) : Option Bool :=
  if change.on.contains flag then some true
  else if change.off.contains flag then some false
  else none

inductive Assertion where
  | caret
  | dollar
  | textStart
  | textEnd
  | word (edge : WordEdge)
  deriving DecidableEq, Repr

/-- What can stand alone in a pattern, or as an item of a class. -/
inductive Primitive where
  | literal (l : Literal)
  | dot
  | assertion (a : Assertion)
  | shorthand (s : Shorthand) (negated : Bool)
  | property (p : Property)
  deriving DecidableEq, Repr

inductive Node where
  | empty
  | flags (change : FlagChange)
  | primitive (p : Primitive)
  | bracketed (negated : Bool) (body : ClassExpr)
  | rep (body : Node) (least : Nat) (most : Option Nat)
  | group (change : FlagChange) (body : Node)
  | concat (items : List Node)
  | alternation (branches : List Node)
  deriving Repr

def Node.ofItems : List Node → Node
  | [] => .empty
  | [item] => item
  | items => .concat items

def Node.ofBranches : List Node → Node
  | [branch] => branch
  | branches => .alternation branches

/-! ## Depth -/

mutual

/-- How deep the brackets of a class nest. -/
def ClassExpr.depth : ClassExpr → Nat
  | .bracketed _ body => body.depth + 1
  | .union items => if items.isEmpty then 0 else itemsDepth items + 1
  | .operation _ a b => max a.depth b.depth + 1
  | _ => 0

def itemsDepth : List ClassExpr → Nat
  | [] => 0
  | item :: rest => max item.depth (itemsDepth rest)

end

mutual

def Node.depth : Node → Nat
  | .bracketed _ body => body.depth + 1
  | .rep body _ _ => body.depth + 1
  | .group _ body => body.depth + 1
  | .concat items => nodesDepth items + 1
  | .alternation branches => nodesDepth branches + 1
  | _ => 0

def nodesDepth : List Node → Nat
  | [] => 0
  | node :: rest => max node.depth (nodesDepth rest)

end

def maxDepth : Nat := 250

/-! ## Faults -/

inductive SyntaxError where
  | unclosedGroup
  | unopenedGroup
  | unsupportedLookAround
  | badGroupName
  | duplicateGroupName
  | emptyFlags
  | unknownFlag
  | duplicateFlag
  | danglingNegation
  | unclosedFlags
  | unclosedClass
  | badClassItem
  | badClassRange
  | nothingToRepeat
  | unclosedCount
  | missingCount
  | countTooLarge
  | countsOutOfOrder
  | unfinishedEscape
  | unknownEscape
  | backreference
  | badHexDigit
  | missingHexDigits
  | notACharacter
  | badWordBoundary
  | badProperty
  | unknownProperty
  | tooDeep
  | unicodeNotAllowed
  | matchesInvalidText
  | tooLarge
  deriving DecidableEq, Repr

def SyntaxError.message : SyntaxError → String
  | unclosedGroup => "unclosed group"
  | unopenedGroup => "unopened group"
  | unsupportedLookAround => "look-around is not supported"
  | badGroupName => "invalid group name"
  | duplicateGroupName => "duplicate group name"
  | emptyFlags => "group flags are missing"
  | unknownFlag => "unrecognized flag"
  | duplicateFlag => "duplicate flag"
  | danglingNegation => "flag negation without a flag"
  | unclosedFlags => "unclosed group flags"
  | unclosedClass => "unclosed character class"
  | badClassItem => "invalid item in character class"
  | badClassRange => "invalid character class range"
  | nothingToRepeat => "repetition operator without an expression"
  | unclosedCount => "unclosed counted repetition"
  | missingCount => "repetition count without a number"
  | countTooLarge => "repetition count is too large"
  | countsOutOfOrder => "repetition counts are out of order"
  | unfinishedEscape => "incomplete escape sequence"
  | unknownEscape => "unrecognized escape sequence"
  | backreference => "backreferences are not supported"
  | badHexDigit => "invalid hexadecimal digit"
  | missingHexDigits => "hexadecimal digits are missing"
  | notACharacter => "hexadecimal digits do not name a character"
  | badWordBoundary => "invalid word boundary"
  | badProperty => "invalid property name"
  | unknownProperty => "unknown property"
  | tooDeep => "the pattern nests too deeply"
  | unicodeNotAllowed => "this needs Unicode mode"
  | matchesInvalidText => "the pattern can match invalid text"
  | tooLarge => "the pattern is too large"

end DocStore.Pattern
