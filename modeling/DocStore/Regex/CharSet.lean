import DocStore.Unicode.Class
import DocStore.Unicode.Folding

/-!
# Sets of characters

The character classes of a pattern, kept as the expression that describes them
and tested by membership (`CharSet.mem`).
-/

namespace DocStore

inductive CharSet where
  | ranges (ranges : List (Nat × Nat))
  | categories (categories : List Unicode.Category)
  | word
  | digit
  | space
  | alphabetic
  | lowercase
  | uppercase
  | union (a b : CharSet)
  | inter (a b : CharSet)
  | difference (a b : CharSet)
  | symmetricDifference (a b : CharSet)
  | complement (a : CharSet)
  /-- All characters that differ from one of the set only in case. -/
  | caseClosure (a : CharSet)
  deriving DecidableEq, Repr

namespace CharSet

def none : CharSet := ranges []

def any : CharSet := ranges [(0, 0x10FFFF)]

def ascii : CharSet := ranges [(0, 0x7F)]

def singleton (c : Char) : CharSet := ranges [(c.toNat, c.toNat)]

def mem : CharSet → Char → Bool
  | ranges rs, c => Unicode.inRanges rs c
  | categories ks, c => ks.contains (Unicode.category c)
  | word, c => Unicode.isWord c
  | digit, c => Unicode.isDigit c
  | space, c => Unicode.isWhiteSpace c
  | alphabetic, c => Unicode.isAlphabetic c
  | lowercase, c => Unicode.isLowercase c
  | uppercase, c => Unicode.isUppercase c
  | union a b, c => a.mem c || b.mem c
  | inter a b, c => a.mem c && b.mem c
  | difference a b, c => a.mem c && !b.mem c
  | symmetricDifference a b, c => a.mem c != b.mem c
  | complement a, c => !a.mem c
  | caseClosure a, c => (Unicode.caseVariants c).any a.mem

end CharSet

end DocStore
