import DocStore.Double
import DocStore.Regex.Syntax

/-!
# What a pattern denotes

The regular expression for a syntax tree (`Node.denote`). Flags decide what
the parts mean: a change of flags holds to the end of the group it stands in,
later branches included.

Outside Unicode mode only ASCII characters belong to classes. A class that
would need others is refused, because it could match a part of a character.
-/

namespace DocStore.Pattern

/-! ## Modes -/

structure Mode where
  caseInsensitive : Bool
  multiLine : Bool
  dotMatchesNewline : Bool
  carriageReturn : Bool
  unicode : Bool
  deriving DecidableEq, Repr

def Mode.apply (m : Mode) (change : FlagChange) : Mode where
  caseInsensitive := (change.setting .caseInsensitive).getD m.caseInsensitive
  multiLine := (change.setting .multiLine).getD m.multiLine
  dotMatchesNewline := (change.setting .dotMatchesNewline).getD m.dotMatchesNewline
  carriageReturn := (change.setting .carriageReturn).getD m.carriageReturn
  unicode := (change.setting .unicode).getD m.unicode

/-- The set up to case, if the mode ignores case. -/
def Mode.fold (m : Mode) (set : CharSet) : CharSet :=
  if !m.caseInsensitive then set
  else if m.unicode then .caseClosure set
  else .inter .ascii (.caseClosure set)

/-- The set or its complement; outside Unicode mode no complement is a set of
ASCII characters. -/
def Mode.negate (m : Mode) (negated : Bool) (set : CharSet) : Except SyntaxError CharSet :=
  if !negated then .ok set
  else if m.unicode then .ok (.complement set)
  else .error .matchesInvalidText

/-! ## Properties -/

/-- Names of properties are compared without case, blanks, hyphens and a
leading "is". -/
def normalizeName (name : String) : String :=
  let chars := (name.toList.filter fun c => c != ' ' && c != '_' && c != '-').map Char.toLower
  match chars with
  | ['i', 's', 'c'] => "isc"
  | 'i' :: 's' :: rest => String.ofList rest
  | _ => String.ofList chars

open Unicode.Category in
def categoryGroups : List (String × List Unicode.Category) :=
  [("l", [lu, ll, lt, lm, lo]), ("letter", [lu, ll, lt, lm, lo]),
   ("lc", [lu, ll, lt]), ("casedletter", [lu, ll, lt]),
   ("lu", [lu]), ("uppercaseletter", [lu]),
   ("ll", [ll]), ("lowercaseletter", [ll]),
   ("lt", [lt]), ("titlecaseletter", [lt]),
   ("lm", [lm]), ("modifierletter", [lm]),
   ("lo", [lo]), ("otherletter", [lo]),
   ("m", [mn, mc, me]), ("mark", [mn, mc, me]), ("combiningmark", [mn, mc, me]),
   ("mn", [mn]), ("nonspacingmark", [mn]),
   ("mc", [mc]), ("spacingmark", [mc]),
   ("me", [me]), ("enclosingmark", [me]),
   ("n", [nd, nl, no]), ("number", [nd, nl, no]),
   ("nd", [nd]), ("decimalnumber", [nd]), ("digit", [nd]),
   ("nl", [nl]), ("letternumber", [nl]),
   ("no", [no]), ("othernumber", [no]),
   ("p", [pc, pd, ps, pe, pi, pf, po]), ("punctuation", [pc, pd, ps, pe, pi, pf, po]),
   ("punct", [pc, pd, ps, pe, pi, pf, po]),
   ("pc", [pc]), ("connectorpunctuation", [pc]),
   ("pd", [pd]), ("dashpunctuation", [pd]),
   ("ps", [ps]), ("openpunctuation", [ps]),
   ("pe", [pe]), ("closepunctuation", [pe]),
   ("pi", [pi]), ("initialpunctuation", [pi]),
   ("pf", [pf]), ("finalpunctuation", [pf]),
   ("po", [po]), ("otherpunctuation", [po]),
   ("s", [sm, sc, sk, so]), ("symbol", [sm, sc, sk, so]),
   ("sm", [sm]), ("mathsymbol", [sm]),
   ("sc", [sc]), ("currencysymbol", [sc]),
   ("sk", [sk]), ("modifiersymbol", [sk]),
   ("so", [so]), ("othersymbol", [so]),
   ("z", [zs, zl, zp]), ("separator", [zs, zl, zp]),
   ("zs", [zs]), ("spaceseparator", [zs]),
   ("zl", [zl]), ("lineseparator", [zl]),
   ("zp", [zp]), ("paragraphseparator", [zp]),
   ("c", [cc, cf, cs, co, cn]), ("other", [cc, cf, cs, co, cn]),
   ("cc", [cc]), ("control", [cc]), ("cntrl", [cc]),
   ("cf", [cf]), ("format", [cf]),
   ("co", [co]), ("privateuse", [co]),
   ("cn", [cn]), ("unassigned", [cn])]

def categorySet? (name : String) : Option CharSet :=
  match name with
  | "any" => some .any
  | "ascii" => some .ascii
  | "assigned" => some (.complement (.categories [.cn]))
  | _ => (categoryGroups.lookup name).map .categories

/-- Properties that characters have or lack. Scripts are not among the known
properties. -/
def binarySet? : String → Option CharSet
  | "alphabetic" => some .alphabetic
  | "alpha" => some .alphabetic
  | "whitespace" => some .space
  | "wspace" => some .space
  | "space" => some .space
  | "lowercase" => some .lowercase
  | "lower" => some .lowercase
  | "uppercase" => some .uppercase
  | "upper" => some .uppercase
  | _ => none

def propertySet? (p : Property) : Option CharSet :=
  let name := normalizeName p.name
  match p.value with
  | none => (binarySet? name).or (categorySet? name)
  | some value =>
      if name = "gc" ∨ name = "generalcategory" then categorySet? (normalizeName value)
      else none

/-! ## Characters and classes -/

/-- The character that a literal stands for; outside Unicode mode a byte that
is no ASCII character stands for none. -/
def Mode.charOf (m : Mode) (l : Literal) : Except SyntaxError Char :=
  if !m.unicode && l.isByte && 128 ≤ l.char.toNat then .error .matchesInvalidText
  else .ok l.char

/-- A literal inside a class. -/
def Mode.classChar (m : Mode) (l : Literal) : Except SyntaxError Char := do
  let c ← m.charOf l
  if !m.unicode && 128 ≤ c.toNat then throw .unicodeNotAllowed
  else return c

def asciiShorthand : Shorthand → CharSet
  | .digit => .ranges [(0x30, 0x39)]
  | .space => .ranges [(0x09, 0x0D), (0x20, 0x20)]
  | .word => .ranges [(0x30, 0x39), (0x41, 0x5A), (0x5F, 0x5F), (0x61, 0x7A)]

def unicodeShorthand : Shorthand → CharSet
  | .digit => .digit
  | .space => .space
  | .word => .word

def Mode.shorthand (m : Mode) (s : Shorthand) : CharSet :=
  if m.unicode then unicodeShorthand s else asciiShorthand s

def Mode.property (m : Mode) (p : Property) : Except SyntaxError CharSet :=
  if !m.unicode then .error .unicodeNotAllowed
  else
    match propertySet? p with
    | none => .error .unknownProperty
    | some set => m.negate p.negated (m.fold set)

def combine : ClassOperation → CharSet → CharSet → CharSet
  | .intersection => .inter
  | .difference => .difference
  | .symmetricDifference => .symmetricDifference

mutual

/-- The characters of a class. Case is folded before a class is negated and
before two classes are combined. -/
def ClassExpr.denote (m : Mode) : ClassExpr → Except SyntaxError CharSet
  | .literal l => do
      let c ← m.classChar l
      return .singleton c
  | .range first last => do
      let first ← m.classChar first
      let last ← m.classChar last
      return .ranges [(first.toNat, last.toNat)]
  | .named ranges negated => m.negate negated (m.fold (.ranges ranges))
  | .shorthand s negated => m.negate negated (m.shorthand s)
  | .property p => m.property p
  | .bracketed negated body => do
      let set ← body.denote m
      m.negate negated (m.fold set)
  | .union items => unionOf m items
  | .operation op a b => do
      let left ← a.denote m
      let right ← b.denote m
      return combine op (m.fold left) (m.fold right)

def unionOf (m : Mode) : List ClassExpr → Except SyntaxError CharSet
  | [] => .ok .none
  | item :: items => do
      let set ← item.denote m
      let rest ← unionOf m items
      return .union set rest

end

/-- Any character but those that end lines. -/
def Mode.dot (m : Mode) : CharSet :=
  if m.dotMatchesNewline then .any
  else if m.carriageReturn then .complement (.ranges [(0x0A, 0x0A), (0x0D, 0x0D)])
  else .complement (.ranges [(0x0A, 0x0A)])

def Mode.anchor (m : Mode) : Assertion → Anchor
  | .caret => if m.multiLine then .lineStart m.carriageReturn else .textStart
  | .dollar => if m.multiLine then .lineEnd m.carriageReturn else .textEnd
  | .textStart => .textStart
  | .textEnd => .textEnd
  | .word edge => .word edge (m.shorthand .word)

def Primitive.denote (m : Mode) : Primitive → Except SyntaxError Regex
  | .literal l => do
      let c ← m.charOf l
      if m.unicode || c.toNat < 128 then return .char (m.fold (.singleton c))
      else return .char (.singleton c)
  | .dot => if m.unicode then .ok (.char m.dot) else .error .matchesInvalidText
  | .assertion a => .ok (.anchor (m.anchor a))
  | .shorthand s negated => do
      let set ← m.negate negated (m.shorthand s)
      return .char set
  | .property p => do
      let set ← m.property p
      return .char set

/-! ## Patterns -/

mutual

/-- The expression for a syntax tree in a mode, and the mode after it. -/
def Node.denote (m : Mode) : Node → Except SyntaxError (Regex × Mode)
  | .empty => .ok (.empty, m)
  | .flags change => .ok (.empty, m.apply change)
  | .primitive p => do
      let r ← p.denote m
      return (r, m)
  | .bracketed negated body => do
      let set ← body.denote m
      let set ← m.negate negated (m.fold set)
      return (.char set, m)
  | .rep body least most => do
      let (r, m) ← body.denote m
      return (r.times least most, m)
  | .group change body => do
      let (r, _) ← body.denote (m.apply change)
      return (r, m)
  | .concat items => sequenceOf m items
  | .alternation branches => choiceOf m branches

def sequenceOf (m : Mode) : List Node → Except SyntaxError (Regex × Mode)
  | [] => .ok (.empty, m)
  | item :: items => do
      let (first, m) ← item.denote m
      let (rest, m) ← sequenceOf m items
      return (if items.isEmpty then first else first.followedBy rest, m)

def choiceOf (m : Mode) : List Node → Except SyntaxError (Regex × Mode)
  | [] => .ok (.char .none, m)
  | branch :: branches => do
      let (first, m) ← branch.denote m
      let (rest, m) ← choiceOf m branches
      return (if branches.isEmpty then first else .alt first rest, m)

end

/-! ## Size -/

/-- About how many bytes a matching machine needs for one character of the
set. -/
def setSize : CharSet → Nat
  | .ranges rs =>
      if !rs.all (·.2 < 128) then 32 + 40 * rs.length
      else if rs.length ≤ 1 then 32
      else 32 + 8 * rs.length
  | .categories _ => 12000
  | .word => 20000
  | .digit => 2500
  | .space => 500
  | .alphabetic => 20000
  | .lowercase => 12000
  | .uppercase => 12000
  | .union a b => setSize a + setSize b
  | .inter a b => max (setSize a) (setSize b)
  | .difference a b => max (setSize a) (setSize b)
  | .symmetricDifference a b => setSize a + setSize b
  | .complement a => setSize a + 400
  | .caseClosure a => setSize a + 16

/-- About how many bytes a machine needs that matches the expression. Every
required repetition is a copy, and so is every optional one that is bounded. -/
def size : Regex → Nat
  | .empty => 32
  | .char set => setSize set
  | .anchor _ => 32
  | .seq a b => size a + size b
  | .alt a b => size a + size b + 64
  | .rep r least most =>
      match most with
      | none => (max least 1) * size r + 64
      | some most => least * size r + (most - least) * (size r + 48) + 32

def largestSize : Nat := 10 * twoTo 20

/-- The expression for a whole pattern, unless it takes too much room. -/
def denote (m : Mode) (node : Node) : Except SyntaxError Regex := do
  let (r, _) ← node.denote m
  if largestSize < size r then throw .tooLarge else return r

end DocStore.Pattern
