import Propositional.Token.Basic

/-!
# The token classes of the expression language

The language comes in two sizes. The core has negation, conjunction and disjunction; the extension
adds exclusive disjunction, implication and equivalence. Both need the base: blanks, parentheses
and variables.

* `Collection.join` — the classes of some collections, each class once, where it first occurs.
* `defaultClasses`, `coreClasses` — the whole language and its core.
-/

namespace Propositional

namespace TokenClass

/-- The class that operator classes specialise: it has no meaning and no spellings. -/
def unboundOperator : TokenClass := { name := "OperatorToken", family := .operator }

/-- The classes that name a family and fix no pieces of text. -/
def abstract : List TokenClass :=
  [{ name := "IToken", family := .other }, { name := "WhitespaceToken", family := .blank },
    { name := "IdentifierToken", family := .identifier }, unboundOperator,
    { name := "OpenParenthesisToken", family := .opening },
    { name := "CloseParenthesisToken", family := .closing },
    { name := "EndOfInputToken", family := .finish }]

/-- The class of an operator that binds as its connective does. -/
def ofKind (name : String) (kind : Connective) (spellings : List String) : TokenClass :=
  unboundOperator.specialise name { kind := some (some kind), spellings := some spellings }

def whitespace : TokenClass :=
  { name := "Whitespace", family := .blank, regex := some .blanks }
def openParenthesis : TokenClass :=
  { name := "OpenParenthesis", family := .opening, text := some "(" }
def closeParenthesis : TokenClass :=
  { name := "CloseParenthesis", family := .closing, text := some ")" }
def variableName : TokenClass :=
  { name := "Variable", family := .identifier, regex := some .identifier }
def endOfInput : TokenClass := { name := "EndOfInput", family := .finish }

@[simp] theorem whitespace_pattern : whitespace.pattern = .blanks := rfl
@[simp] theorem openParenthesis_pattern : openParenthesis.pattern = .text "(" := rfl
@[simp] theorem closeParenthesis_pattern : closeParenthesis.pattern = .text ")" := rfl
@[simp] theorem variableName_pattern : variableName.pattern = .identifier := rfl
@[simp] theorem variableName_role : variableName.role = .identifier := rfl

def negation : TokenClass := ofKind "Negation" .not ["!", "~", "¬", "NOT"]
def conjunction : TokenClass := ofKind "And" .and ["&&", "&", "∧", "AND"]
def disjunction : TokenClass := ofKind "Or" .or ["||", "|", "∨", "OR"]
def exclusion : TokenClass := ofKind "Xor" .xor ["^", "⊕", "XOR"]
def implication : TokenClass := ofKind "Implies" .implies ["=>", "->", "→", "IMPLIES"]
def equivalence : TokenClass := ofKind "Iff" .iff ["<=>", "<->", "↔", "IFF"]

end TokenClass

/-- The groups of classes that a language is put together from. -/
inductive Collection where
  | base
  | core
  | extended
  deriving DecidableEq, Repr

namespace Collection

open TokenClass

def classes : Collection → List TokenClass
  | base => [whitespace, openParenthesis, closeParenthesis, variableName]
  | core => [negation, conjunction, disjunction]
  | extended => [exclusion, implication, equivalence]

/-- The classes of some collections, each where it first occurs. -/
def join (collections : List Collection) : List TokenClass :=
  (collections.flatMap classes).eraseDups

def ofName? : String → Option Collection
  | "base" => some base
  | "core" => some core
  | "extended" => some extended
  | _ => none

end Collection

/-- The classes of the whole language. -/
def defaultClasses : List TokenClass := Collection.join [.base, .core, .extended]

/-- The classes of the core language. -/
def coreClasses : List TokenClass := Collection.join [.base, .core]

namespace TokenClass

theorem defaultClasses_eq : defaultClasses = [whitespace, openParenthesis, closeParenthesis,
    variableName, negation, conjunction, disjunction, exclusion, implication, equivalence] := by
  decide

theorem coreClasses_eq : coreClasses = [whitespace, openParenthesis, closeParenthesis,
    variableName, negation, conjunction, disjunction] := by
  decide

theorem mem_defaultClasses_of_mem_coreClasses {c : TokenClass} (h : c ∈ coreClasses) :
    c ∈ defaultClasses := by
  rw [coreClasses_eq] at h
  rw [defaultClasses_eq]
  exact List.mem_append_left [exclusion, implication, equivalence] h

/-- Every class that can be asked for by name. -/
def named : List TokenClass := abstract ++ defaultClasses ++ [endOfInput]

def ofName? (name : String) : Option TokenClass := named.find? (·.name == name)

end TokenClass

end Propositional
