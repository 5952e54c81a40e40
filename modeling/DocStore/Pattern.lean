import DocStore.Error
import DocStore.Regex.Denote
import DocStore.Regex.Reader

/-!
# Patterns

A pattern is its text together with the test that the text stands for under
some options. Options are single letters: `i` ignores case, `m` lets `^` and
`$` match at line ends, `s` lets `.` match a newline, `x` ignores blanks and
comments, and `u` changes nothing, since patterns are in Unicode mode anyway.

What a text stands for is up to an engine. A store is given one and asks
nothing of it but an answer for every text, so what is shown about stores holds
with any engine. The one that they run with is `Pattern.reader`.
-/

namespace DocStore

structure Pattern where
  text : String
  /-- Whether the pattern occurs somewhere in a text. -/
  occursIn : String → Bool

namespace Pattern

structure Options where
  caseInsensitive : Bool
  multiLine : Bool
  dotMatchesNewline : Bool
  verbose : Bool
  deriving DecidableEq, Repr

/-- What gives patterns their meaning: the test that a pattern stands for, or
the reason why a text is no pattern. -/
class Engine where
  compile : Options → String → Except String (String → Bool)

def Options.none : Options := ⟨false, false, false, false⟩

def Options.add? (o : Options) : Char → Option Options
  | 'i' => some { o with caseInsensitive := true }
  | 'm' => some { o with multiLine := true }
  | 's' => some { o with dotMatchesNewline := true }
  | 'x' => some { o with verbose := true }
  | 'u' => some o
  | _ => Option.none

def unsupportedOption (c : Char) : String :=
  "unsupported option '" ++ String.singleton c ++ "'"

/-- Reads option letters; the first unknown one is the fault. -/
def readOptions (o : Options) : List Char → Except Char Options
  | [] => .ok o
  | c :: rest =>
      match o.add? c with
      | some o => readOptions o rest
      | Option.none => .error c

/-- The options are checked before the pattern is read. -/
def compile [Engine] (text options : String) : Except Error Pattern :=
  match readOptions .none options.toList with
  | .error c => .error (.invalidPattern text (unsupportedOption c))
  | .ok o =>
      match Engine.compile o text with
      | .error reason => .error (.invalidPattern text reason)
      | .ok occursIn => .ok ⟨text, occursIn⟩

/-- Splits `/pattern/flags` at its first and last slash; the flags are ASCII
letters, or none. -/
def delimited? (s : String) : Option (String × String) :=
  match s.toList with
  | '/' :: body =>
      let flags := body.reverse.takeWhile (· != '/')
      match body.reverse.dropWhile (· != '/') with
      | _ :: pattern =>
          if flags.all Char.isAlpha then
            some (String.ofList pattern.reverse, String.ofList flags.reverse)
          else Option.none
      | [] => Option.none
  | _ => Option.none

/-! ## The engine of the library -/

/-- The mode that a pattern starts in. -/
def Options.mode (o : Options) : Mode :=
  ⟨o.caseInsensitive, o.multiLine, o.dotMatchesNewline, false, true⟩

/-- The engine that the library brings along: patterns as `read` and `denote`
understand them. Of the named properties of characters it knows those of
`propertySet?`, and no scripts; how much room a pattern takes is an estimate
(`size`). -/
instance reader : Engine where
  compile o text :=
    match read o.verbose text >>= denote o.mode with
    | .error fault => .error fault.message
    | .ok regex => .ok regex.occursIn

end Pattern

end DocStore
