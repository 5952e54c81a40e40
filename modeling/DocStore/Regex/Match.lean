import DocStore.Regex.CharSet

/-!
# Matching

A regular expression over characters, with assertions about the place between
two characters. Whether it occurs somewhere in a text (`Regex.occursIn`) is
decided in one pass: at every place the search holds the expressions of which
the rest of a match would have to be an instance, a new search starts at each
place, and reading a character replaces every expression by what is left of it
(`Regex.residuals`). No choice is ever taken back, so greedy and lazy
repetition make no difference.
-/

namespace DocStore

/-! ## Places and assertions -/

/-- A place in a text, by the characters on either side of it. -/
structure Place where
  before : Option Char
  after : Option Char
  deriving DecidableEq, Repr

inductive WordEdge where
  | boundary
  | inside
  | start
  | stop
  | startHalf
  | stopHalf
  deriving DecidableEq, Repr

inductive Anchor where
  | textStart
  | textEnd
  /-- The flag says whether a carriage return ends a line too. -/
  | lineStart (carriageReturn : Bool)
  | lineEnd (carriageReturn : Bool)
  /-- The set says which characters make words. -/
  | word (edge : WordEdge) (wordChars : CharSet)
  deriving DecidableEq, Repr

namespace Anchor

def wordHolds (edge : WordEdge) (before after : Bool) : Bool :=
  match edge with
  | .boundary => before != after
  | .inside => before == after
  | .start => !before && after
  | .stop => before && !after
  | .startHalf => !before
  | .stopHalf => !after

/-- Between a carriage return and a line feed no line starts or ends. -/
def holds (p : Place) : Anchor → Bool
  | textStart => p.before.isNone
  | textEnd => p.after.isNone
  | lineStart carriageReturn =>
      p.before.isNone || p.before == some '\n'
        || (carriageReturn && p.before == some '\r' && p.after != some '\n')
  | lineEnd carriageReturn =>
      p.after.isNone
        || (if carriageReturn then
              p.after == some '\r' || (p.after == some '\n' && p.before != some '\r')
            else p.after == some '\n')
  | word edge wordChars =>
      wordHolds edge (p.before.any wordChars.mem) (p.after.any wordChars.mem)

end Anchor

/-! ## Expressions -/

inductive Regex where
  | empty
  | char (set : CharSet)
  | anchor (a : Anchor)
  | seq (a b : Regex)
  | alt (a b : Regex)
  /-- At least `least` and, if there is a bound, at most `most` times. -/
  | rep (r : Regex) (least : Nat) (most : Option Nat)
  deriving DecidableEq, Repr

namespace Regex

/-- Matches the empty text at the place. -/
def nullable (p : Place) : Regex → Bool
  | empty => true
  | char _ => false
  | anchor a => a.holds p
  | seq a b => a.nullable p && b.nullable p
  | alt a b => a.nullable p || b.nullable p
  | rep r least _ => least == 0 || r.nullable p

/-- Matches the empty text at every place, for want of an assertion. -/
def skippable : Regex → Bool
  | empty => true
  | char _ => false
  | anchor _ => false
  | seq a b => a.skippable && b.skippable
  | alt a b => a.skippable || b.skippable
  | rep r least _ => least == 0 || r.skippable

def followedBy : Regex → Regex → Regex
  | empty, b => b
  | a, b => seq a b

/-- Repetition; what may always be skipped need not be repeated. -/
def times (r : Regex) (least : Nat) (most : Option Nat) : Regex :=
  rep r (if r.skippable then 0 else least) most

/-- How many of the first repetitions may be empty when reading starts in the
next one: any number up to the last required one if the expression matches the
empty text here, and none otherwise. -/
def skips (emptyHere : Bool) (least : Nat) : List Nat :=
  if emptyHere then List.range (max least 1) else [0]

/-- What is left to match after the character, in every way that the
expression can start with it at the place. -/
def residuals (p : Place) (c : Char) : Regex → List Regex
  | empty => []
  | char set => if set.mem c then [empty] else []
  | anchor _ => []
  | seq a b =>
      (a.residuals p c).map (·.followedBy b)
        ++ (if a.nullable p then b.residuals p c else [])
  | alt a b => a.residuals p c ++ b.residuals p c
  | rep r least most =>
      let starts := r.residuals p c
      (skips (r.nullable p) least).flatMap fun skipped =>
        if most.any (· ≤ skipped) then []
        else
          starts.map (·.followedBy
            (rep r (least - (skipped + 1)) (most.map (· - (skipped + 1)))))

/-! ## Search -/

def addNew (live : List Regex) (r : Regex) : List Regex :=
  if live.contains r then live else r :: live

/-- Looks for `r` in the rest of a text, given the expressions that searches
begun earlier still have to match. -/
def search (r : Regex) (live : List Regex) (before : Option Char) : List Char → Bool
  | [] => (addNew live r).any (·.nullable ⟨before, none⟩)
  | c :: rest =>
      let here : Place := ⟨before, some c⟩
      let live := addNew live r
      live.any (·.nullable here)
        || search r ((live.flatMap (·.residuals here c)).foldl addNew []) (some c) rest

def occursIn (r : Regex) (text : String) : Bool := search r [] none text.toList

end Regex

end DocStore
