import Propositional.Text.Alphanumeric

/-!
# Spellings

An operator may have several spellings: symbols, and words. A word spelling is written whole, so it
does not stand where a letter or digit follows it.

* `spellingFits` — a spelling stands at the beginning of a text.
* `longestFirst` — the spellings in the order in which they are tried: longer ones first, equally
  long ones as they were given.
* `fittingSpelling?` — the spelling that an operator with the given spellings is read by.
-/

namespace Propositional

/-- A spelling stands at the beginning of a text; if it is a word, it ends there. -/
def spellingFits (spelling : String) (text : List Char) : Bool :=
  spelling.toList.isPrefixOf text &&
    !(isAlphanumericWord spelling && (text.drop spelling.length).head?.any isWordChar)

/-- Puts a spelling in front of the ones that are not longer. -/
def insertByLength (s : String) : List String → List String
  | [] => [s]
  | t :: rest => if s.length < t.length then t :: insertByLength s rest else s :: t :: rest

/-- The spellings by falling length. -/
def longestFirst (spellings : List String) : List String := spellings.foldr insertByLength []

/-- The first of the spellings, longest first, that stands at the beginning of a text. -/
def fittingSpelling? (spellings : List String) (text : List Char) : Option String :=
  (longestFirst spellings).find? (spellingFits · text)

example : longestFirst ["&", "and", "&&", "∧"] = ["and", "&&", "&", "∧"] := by decide

end Propositional
