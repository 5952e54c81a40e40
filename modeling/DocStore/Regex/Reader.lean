import DocStore.Bytes
import DocStore.Decimal
import DocStore.Regex.Syntax

/-!
# Reading patterns

From the text of a pattern to its syntax tree (`Pattern.read`). The reader
keeps the groups that are still open on a stack, and so does the reader of
bracketed classes. In verbose mode blanks and comments, from `#` to the end of
the line, are skipped between any two characters, even inside a class.

Each step of a reader takes at least one character, so the number of
characters bounds the number of steps.
-/

namespace DocStore.Pattern

/-! ## Blanks -/

def skipFrom : Bool → List Char → List Char
  | _, [] => []
  | true, c :: rest => skipFrom (c != '\n') rest
  | false, c :: rest =>
      if c = '#' then skipFrom true rest
      else if Unicode.isWhiteSpace c then skipFrom false rest
      else c :: rest

/-- Skips blanks and comments, in verbose mode. -/
def skip (verbose : Bool) (s : List Char) : List Char :=
  if verbose then skipFrom false s else s

theorem length_skipFrom_le (comment : Bool) (s : List Char) :
    (skipFrom comment s).length ≤ s.length := by
  induction s generalizing comment with
  | nil => cases comment <;> simp [skipFrom]
  | cons c rest ih =>
      cases comment
      · simp only [skipFrom]
        split
        · exact Nat.le_succ_of_le (ih true)
        · split
          · exact Nat.le_succ_of_le (ih false)
          · exact Nat.le_refl _
      · exact Nat.le_succ_of_le (ih (c != '\n'))

theorem length_skip_le (verbose : Bool) (s : List Char) :
    (skip verbose s).length ≤ s.length := by
  unfold skip
  split
  · exact length_skipFrom_le false s
  · exact Nat.le_refl _

/-! ## Numbers -/

def readDigits (verbose : Bool) : List Char → List Char × List Char
  | [] => ([], [])
  | c :: rest =>
      if isDecimalDigit c then
        let (digits, tail) := readDigits verbose (skip verbose rest)
        (c :: digits, tail)
      else ([], c :: rest)
termination_by s => s.length
decreasing_by exact Nat.lt_succ_of_le (length_skip_le verbose rest)

def largestCount : Nat := twoTo 32 - 1

/-- A count of a repetition; white space around it is skipped in any mode. -/
def readCount (verbose : Bool) (s : List Char) : Except SyntaxError (Nat × List Char) :=
  let (digits, rest) := readDigits verbose (s.dropWhile Unicode.isWhiteSpace)
  if digits.isEmpty then .error .missingCount
  else if largestCount < ofDigits digits then .error .countTooLarge
  else .ok (ofDigits digits, rest.dropWhile Unicode.isWhiteSpace)

/-- The bounds of a counted repetition, after the opening brace and up to the
closing one. -/
def readCounts (verbose : Bool) (s : List Char) :
    Except SyntaxError ((Nat × Option Nat) × List Char) := do
  let (least, rest) ← readCount verbose (skip verbose s)
  match rest with
  | '\x7d' :: rest => return ((least, some least), rest)
  | ',' :: rest =>
      match skip verbose rest with
      | '\x7d' :: rest => return ((least, none), rest)
      | rest =>
          let (most, rest) ← readCount verbose rest
          match rest with
          | '\x7d' :: rest =>
              if least ≤ most then return ((least, some most), rest)
              else throw .countsOutOfOrder
          | _ => throw .unclosedCount
  | _ => throw .unclosedCount

/-! ## Escapes -/

def charOfCode (code : Nat) : Except SyntaxError Char :=
  if code.isValidChar then .ok (Char.ofNat code) else .error .notACharacter

/-- Exactly `count` hexadecimal digits. -/
def readHexDigits (verbose : Bool) :
    Nat → Nat → List Char → Except SyntaxError (Nat × List Char)
  | 0, code, rest => .ok (code, rest)
  | _ + 1, _, [] => .error .unfinishedEscape
  | count + 1, code, c :: rest =>
      match hexDigit? c with
      | some d => readHexDigits verbose count (16 * code + d) (skip verbose rest)
      | none => .error .badHexDigit

/-- The characters up to a closing brace, blanks apart. -/
def readBraced (verbose : Bool) : List Char → Except SyntaxError ((List Char) × List Char)
  | [] => .error .unfinishedEscape
  | c :: rest =>
      if c = '\x7d' then .ok ([], rest)
      else do
        let (more, tail) ← readBraced verbose (skip verbose rest)
        return (c :: more, tail)
termination_by s => s.length
decreasing_by exact Nat.lt_succ_of_le (length_skip_le verbose rest)

def hexValue? (digits : List Char) : Option Nat :=
  digits.foldlM (fun n c => (hexDigit? c).map (16 * n + ·)) 0

/-- The code of a character, in `digits` hexadecimal digits or in braces. -/
def readHex (verbose : Bool) (digits : Nat) (s : List Char) :
    Except SyntaxError (Literal × List Char) := do
  match skip verbose s with
  | [] => throw .unfinishedEscape
  | '\x7b' :: rest =>
      let (body, rest) ← readBraced verbose (skip verbose rest)
      match hexValue? body with
      | none => throw .badHexDigit
      | some code =>
          if body.isEmpty then throw .missingHexDigits
          else return (⟨← charOfCode code, false⟩, rest)
  | rest =>
      let (code, rest) ← readHexDigits verbose digits 0 rest
      return (⟨← charOfCode code, digits == 2⟩, rest)

/-- Splits a property into name and value at `!=`, else at `:`, else at `=`. -/
def splitProperty (body : List Char) : List Char × Option (List Char) × Bool :=
  let rec unequal : List Char → Option (List Char × List Char)
    | '!' :: '=' :: value => some ([], value)
    | c :: rest => (unequal rest).map fun (name, value) => (c :: name, value)
    | [] => none
  match unequal body with
  | some (name, value) => (name, some value, true)
  | none =>
      let mark := if body.contains ':' then ':' else '='
      match body.dropWhile (· != mark) with
      | _ :: value => (body.takeWhile (· != mark), some value, false)
      | [] => (body, none, false)

def readProperty (verbose negated : Bool) (s : List Char) :
    Except SyntaxError (Property × List Char) := do
  match skip verbose s with
  | [] => throw .unfinishedEscape
  | '\x7b' :: rest =>
      let (body, rest) ← readBraced verbose (skip verbose rest)
      let (name, value, unequal) := splitProperty body
      return (⟨String.ofList name, value.map String.ofList, negated != unequal⟩, rest)
  | c :: rest =>
      if c = '\\' then throw .badProperty
      else return (⟨String.ofList [c], none, negated⟩, rest)

def isBoundaryNameChar (c : Char) : Bool := c.isAlpha || c == '-'

def readBoundaryName (verbose : Bool) : List Char → List Char × List Char
  | [] => ([], [])
  | c :: rest =>
      if isBoundaryNameChar c then
        let (name, tail) := readBoundaryName verbose (skip verbose rest)
        (c :: name, tail)
      else ([], c :: rest)
termination_by s => s.length
decreasing_by exact Nat.lt_succ_of_le (length_skip_le verbose rest)

/-- After `\b`: the name of a special boundary in braces. Braces that do not
start with a letter or a hyphen are left for a counted repetition. -/
def readBoundary (verbose : Bool) (s : List Char) : Except SyntaxError (WordEdge × List Char) :=
  match s with
  | '\x7b' :: rest =>
      match skip verbose rest with
      | [] => .error .badWordBoundary
      | c :: more =>
          if !isBoundaryNameChar c then .ok (.boundary, s)
          else
            let (name, tail) := readBoundaryName verbose (c :: more)
            match tail with
            | '\x7d' :: tail =>
                match String.ofList name with
                | "start" => .ok (.start, tail)
                | "end" => .ok (.stop, tail)
                | "start-half" => .ok (.startHalf, tail)
                | "end-half" => .ok (.stopHalf, tail)
                | _ => .error .badWordBoundary
            | _ => .error .badWordBoundary
  | _ => .ok (.boundary, s)

/-- Characters that a backslash turns into themselves. -/
def isEscapable (c : Char) : Bool :=
  c.toNat < 128 && !c.isAlphanum && c != '<' && c != '>'

/-- What a backslash and the characters after it stand for. -/
def readEscape (verbose : Bool) : List Char → Except SyntaxError (Primitive × List Char)
  | [] => .error .unfinishedEscape
  | c :: rest => do
      let special (code : Nat) : Except SyntaxError (Primitive × List Char) :=
        .ok (.literal ⟨Char.ofNat code, false⟩, rest)
      if isDecimalDigit c then throw .backreference
      else if isEscapable c then return (.literal ⟨c, false⟩, rest)
      else
        match c with
        | 'x' => let (l, rest) ← readHex verbose 2 rest; return (.literal l, rest)
        | 'u' => let (l, rest) ← readHex verbose 4 rest; return (.literal l, rest)
        | 'U' => let (l, rest) ← readHex verbose 8 rest; return (.literal l, rest)
        | 'p' => let (p, rest) ← readProperty verbose false rest; return (.property p, rest)
        | 'P' => let (p, rest) ← readProperty verbose true rest; return (.property p, rest)
        | 'd' => return (.shorthand .digit false, rest)
        | 'D' => return (.shorthand .digit true, rest)
        | 's' => return (.shorthand .space false, rest)
        | 'S' => return (.shorthand .space true, rest)
        | 'w' => return (.shorthand .word false, rest)
        | 'W' => return (.shorthand .word true, rest)
        | 'a' => special 7
        | 'f' => special 12
        | 't' => special 9
        | 'n' => special 10
        | 'r' => special 13
        | 'v' => special 11
        | 'A' => return (.assertion .textStart, rest)
        | 'z' => return (.assertion .textEnd, rest)
        | 'b' =>
            let (edge, rest) ← readBoundary verbose rest
            return (.assertion (.word edge), rest)
        | 'B' => return (.assertion (.word .inside), rest)
        | '<' => return (.assertion (.word .start), rest)
        | '>' => return (.assertion (.word .stop), rest)
        | _ => throw .unknownEscape

/-! ## Classes -/

/-- A class around the one being read, or an operation that waits for its
right-hand side. -/
inductive ClassFrame where
  | opened (items : List ClassExpr) (negated : Bool)
  | pending (op : ClassOperation) (left : ClassExpr)

def namedRanges : List (String × List (Nat × Nat)) :=
  [("alnum", [(0x30, 0x39), (0x41, 0x5A), (0x61, 0x7A)]),
   ("alpha", [(0x41, 0x5A), (0x61, 0x7A)]),
   ("ascii", [(0x00, 0x7F)]),
   ("blank", [(0x09, 0x09), (0x20, 0x20)]),
   ("cntrl", [(0x00, 0x1F), (0x7F, 0x7F)]),
   ("digit", [(0x30, 0x39)]),
   ("graph", [(0x21, 0x7E)]),
   ("lower", [(0x61, 0x7A)]),
   ("print", [(0x20, 0x7E)]),
   ("punct", [(0x21, 0x2F), (0x3A, 0x40), (0x5B, 0x60), (0x7B, 0x7E)]),
   ("space", [(0x09, 0x0D), (0x20, 0x20)]),
   ("upper", [(0x41, 0x5A)]),
   ("word", [(0x30, 0x39), (0x41, 0x5A), (0x5F, 0x5F), (0x61, 0x7A)]),
   ("xdigit", [(0x30, 0x39), (0x41, 0x46), (0x61, 0x66)])]

/-- A named class such as `[:alpha:]`, after its opening bracket. -/
def readNamed? (s : List Char) : Option (ClassExpr × List Char) :=
  match s with
  | ':' :: body =>
      let (negated, body) := match body with
        | '^' :: rest => (true, rest)
        | _ => (false, body)
      match body.dropWhile (· != ':') with
      | ':' :: ']' :: rest =>
          (namedRanges.lookup (String.ofList (body.takeWhile (· != ':')))).map
            fun ranges => (.named ranges negated, rest)
      | _ => none
  | _ => none

def literalItem (c : Char) : ClassExpr := .literal ⟨c, false⟩

/-- Hyphens at the start of a class are literal. -/
def readHyphens (verbose : Bool) : List Char → List ClassExpr × List Char
  | [] => ([], [])
  | c :: rest =>
      if c = '-' then
        let (items, tail) := readHyphens verbose (skip verbose rest)
        (literalItem '-' :: items, tail)
      else ([], c :: rest)
termination_by s => s.length
decreasing_by exact Nat.lt_succ_of_le (length_skip_le verbose rest)

/-- After an opening bracket: the negation sign, and what is literal only at
the start. Answers the first items, last first. -/
def readClassStart (verbose : Bool) (s : List Char) :
    Except SyntaxError ((Bool × List ClassExpr) × List Char) := do
  let (negated, rest) := match skip verbose s with
    | '^' :: rest => (true, skip verbose rest)
    | rest => (false, rest)
  let (hyphens, rest) := readHyphens verbose rest
  match rest with
  | [] => throw .unclosedClass
  | ']' :: more =>
      if hyphens.isEmpty then return ((negated, [literalItem ']']), skip verbose more)
      else return ((negated, hyphens), rest)
  | _ => return ((negated, hyphens), rest)

def readClassItem (verbose : Bool) : List Char → Except SyntaxError (Primitive × List Char)
  | [] => .error .unclosedClass
  | '\\' :: rest => readEscape verbose rest
  | c :: rest => .ok (.literal ⟨c, false⟩, rest)

def itemOfPrimitive : Primitive → Except SyntaxError ClassExpr
  | .literal l => .ok (.literal l)
  | .shorthand s negated => .ok (.shorthand s negated)
  | .property p => .ok (.property p)
  | .dot => .error .badClassItem
  | .assertion _ => .error .badClassItem

def endOfPrimitive : Primitive → Except SyntaxError Literal
  | .literal l => .ok l
  | _ => .error .badClassRange

/-- One item, or a range if a hyphen follows that does not end the class and
is not doubled. -/
def readClassRange (verbose : Bool) (s : List Char) :
    Except SyntaxError (ClassExpr × List Char) := do
  let (first, rest) ← readClassItem verbose s
  match skip verbose rest with
  | [] => throw .unclosedClass
  | '-' :: more =>
      let more := skip verbose more
      if more.head? == some ']' || more.head? == some '-' then
        return (← itemOfPrimitive first, skip verbose rest)
      else
        let (last, rest) ← readClassItem verbose more
        let first ← endOfPrimitive first
        let last ← endOfPrimitive last
        if first.char ≤ last.char then return (.range first last, rest)
        else throw .badClassRange
  | rest => return (← itemOfPrimitive first, rest)

/-- Finishes the operation on top of the stack with its right-hand side. -/
def closeOperation (stack : List ClassFrame) (right : ClassExpr) :
    ClassExpr × List ClassFrame :=
  match stack with
  | .pending op left :: below => (.operation op left right, below)
  | _ => (right, stack)

def operationAt? : List Char → Option (ClassOperation × List Char)
  | '&' :: '&' :: rest => some (.intersection, rest)
  | '-' :: '-' :: rest => some (.difference, rest)
  | '~' :: '~' :: rest => some (.symmetricDifference, rest)
  | _ => none

/-- Reads a class to its closing bracket. `items` are those of the innermost
open class since its last operator, last first. -/
def readClass (verbose : Bool) : Nat → List ClassFrame → List ClassExpr → List Char →
    Except SyntaxError ((Bool × ClassExpr) × List Char)
  | 0, _, _, _ => .error .unclosedClass
  | steps + 1, stack, items, s =>
      match skip verbose s with
      | [] => .error .unclosedClass
      | '[' :: rest =>
          match readNamed? rest with
          | some (item, rest) => readClass verbose steps stack (item :: items) rest
          | none => do
              let ((negated, first), rest) ← readClassStart verbose rest
              readClass verbose steps (.opened items negated :: stack) first rest
      | ']' :: rest =>
          match closeOperation stack (.ofItems items.reverse) with
          | (body, [.opened _ negated]) => .ok ((negated, body), rest)
          | (body, .opened outer negated :: below) =>
              readClass verbose steps below (.bracketed negated body :: outer) rest
          | _ => .error .unclosedClass
      | rest =>
          match operationAt? rest with
          | some (op, rest) =>
              let (left, below) := closeOperation stack (.ofItems items.reverse)
              readClass verbose steps (.pending op left :: below) [] rest
          | none => do
              let (item, rest) ← readClassRange verbose rest
              readClass verbose steps stack (item :: items) rest

/-! ## Groups -/

def flagOf? : Char → Option Flag
  | 'i' => some .caseInsensitive
  | 'm' => some .multiLine
  | 's' => some .dotMatchesNewline
  | 'U' => some .swapGreed
  | 'u' => some .unicode
  | 'R' => some .carriageReturn
  | 'x' => some .ignoreBlanks
  | _ => none

/-- Flags up to the colon or parenthesis that ends them, which is answered
too. `off` says that a minus sign has been read, `dangling` that it was the
last thing read. -/
def readFlags (change : FlagChange) (off dangling : Bool) :
    List Char → Except SyntaxError ((FlagChange × Char) × List Char)
  | [] => .error .unclosedFlags
  | c :: rest =>
      if c = ':' ∨ c = ')' then
        if dangling then .error .danglingNegation else .ok ((change, c), rest)
      else if c = '-' then
        if off then .error .duplicateFlag else readFlags change true true rest
      else
        match flagOf? c with
        | none => .error .unknownFlag
        | some flag =>
            if (change.setting flag).isSome then .error .duplicateFlag
            else if off then
              readFlags { change with off := flag :: change.off } off false rest
            else readFlags { change with on := flag :: change.on } off false rest

def isNameStart (c : Char) : Bool := c == '_' || Unicode.isAlphabetic c

def isNameChar (c : Char) : Bool :=
  c == '_' || c == '.' || c == '[' || c == ']' || Unicode.isAlphanumeric c

def readGroupName (s : List Char) : Except SyntaxError (String × List Char) :=
  let name := s.takeWhile (· != '>')
  match s.dropWhile (· != '>') with
  | [] => .error .badGroupName
  | _ :: rest =>
      if name.isEmpty || !name.head?.any isNameStart || !name.all isNameChar then
        .error .badGroupName
      else .ok (String.ofList name, rest)

/-! ## Patterns -/

/-- What surrounds an open group. -/
structure Frame where
  items : List Node
  branches : List Node
  verbose : Bool
  /-- The flags of the group itself. -/
  change : FlagChange

/-- A pattern read so far: the items of the current branch and the finished
branches of the innermost open group, last first, and the groups around it. -/
structure Progress where
  verbose : Bool
  names : List String
  items : List Node
  branches : List Node
  frames : List Frame

def Progress.push (p : Progress) (node : Node) : Progress :=
  { p with items := node :: p.items }

/-- The innermost open group as a whole. -/
def Progress.body (p : Progress) : Node :=
  .ofBranches (Node.ofItems p.items.reverse :: p.branches).reverse

def Progress.enter (p : Progress) (change : FlagChange) : Progress :=
  { p with
    verbose := (change.setting .ignoreBlanks).getD p.verbose
    items := []
    branches := []
    frames := ⟨p.items, p.branches, p.verbose, change⟩ :: p.frames }

def noFlags : FlagChange := ⟨[], []⟩

def enterNamed (p : Progress) (s : List Char) : Except SyntaxError (Progress × List Char) := do
  let (name, rest) ← readGroupName s
  if p.names.contains name then throw .duplicateGroupName
  else return ({ p with names := name :: p.names }.enter noFlags, rest)

/-- After an opening parenthesis: a group of some kind, or a change of flags
for the rest of the group around it. -/
def openGroup (p : Progress) (s : List Char) : Except SyntaxError (Progress × List Char) := do
  match skip p.verbose s with
  | '?' :: '=' :: _ => throw .unsupportedLookAround
  | '?' :: '!' :: _ => throw .unsupportedLookAround
  | '?' :: '<' :: '=' :: _ => throw .unsupportedLookAround
  | '?' :: '<' :: '!' :: _ => throw .unsupportedLookAround
  | '?' :: 'P' :: '<' :: rest => enterNamed p rest
  | '?' :: '<' :: rest => enterNamed p rest
  | '?' :: rest =>
      let ((change, mark), rest) ← readFlags noFlags false false rest
      if mark = ':' then return (p.enter change, rest)
      else if change = noFlags then throw .emptyFlags
      else
        let verbose := (change.setting .ignoreBlanks).getD p.verbose
        return ({ p.push (.flags change) with verbose }, rest)
  | rest => return (p.enter noFlags, rest)

def closeGroup (p : Progress) : Except SyntaxError Progress :=
  match p.frames with
  | [] => .error .unopenedGroup
  | frame :: frames =>
      .ok { p with
        verbose := frame.verbose
        items := .group frame.change p.body :: frame.items
        branches := frame.branches
        frames }

/-- Repeats the last item; a change of flags cannot be repeated. -/
def repeatLast (p : Progress) (least : Nat) (most : Option Nat) :
    Except SyntaxError Progress :=
  match p.items with
  | [] => .error .nothingToRepeat
  | .flags _ :: _ => .error .nothingToRepeat
  | item :: items => .ok { p with items := .rep item least most :: items }

/-- A question mark after a repetition makes it lazy, which is all one here. -/
def dropLazyMark : List Char → List Char
  | '?' :: rest => rest
  | s => s

/-- Reads on from the character `c`, which is not skipped. -/
def step (p : Progress) (c : Char) (rest : List Char) :
    Except SyntaxError (Progress × List Char) := do
  match c with
  | '(' => openGroup p rest
  | ')' => return (← closeGroup p, rest)
  | '|' =>
      return ({ p with items := [], branches := .ofItems p.items.reverse :: p.branches }, rest)
  | '[' =>
      let ((negated, first), rest) ← readClassStart p.verbose rest
      let ((negated, body), rest) ←
        readClass p.verbose (rest.length + 1) [.opened [] negated] first rest
      return (p.push (.bracketed negated body), rest)
  | '?' => return (← repeatLast p 0 (some 1), dropLazyMark rest)
  | '*' => return (← repeatLast p 0 none, dropLazyMark rest)
  | '+' => return (← repeatLast p 1 none, dropLazyMark rest)
  | '\x7b' =>
      let ((least, most), rest) ← readCounts p.verbose rest
      return (← repeatLast p least most, dropLazyMark (skip p.verbose rest))
  | '\\' =>
      let (primitive, rest) ← readEscape p.verbose rest
      return (p.push (.primitive primitive), rest)
  | '.' => return (p.push (.primitive .dot), rest)
  | '^' => return (p.push (.primitive (.assertion .caret)), rest)
  | '$' => return (p.push (.primitive (.assertion .dollar)), rest)
  | c => return (p.push (.primitive (.literal ⟨c, false⟩)), rest)

def finish (p : Progress) : Except SyntaxError Node :=
  if !p.frames.isEmpty then .error .unclosedGroup
  else if maxDepth < p.body.depth then .error .tooDeep
  else .ok p.body

def run : Nat → Progress → List Char → Except SyntaxError Node
  | 0, p, _ => finish p
  | steps + 1, p, s =>
      match skip p.verbose s with
      | [] => finish p
      | c :: rest => do
          let (p, rest) ← step p c rest
          run steps p rest

/-- Reads a pattern; `verbose` is the mode it starts in. -/
def read (verbose : Bool) (pattern : String) : Except SyntaxError Node :=
  run (pattern.length + 1) ⟨verbose, [], [], [], []⟩ pattern.toList

end DocStore.Pattern
