import Propositional.Token.Builtin

/-!
# Lexing

A lexer tries the classes of its language one after the other at the current place; the first that
has a token there wins. Identifiers are tried last, so that word operators take their words first.

* `Lexer.ofCandidates` — a lexer from a list of classes, each of which is checked.
* `Lexer.scan` — the pieces of a text up to its end, or up to the first place where no class has a
  token. The pieces before an error are there: who reads them reaches the error last.
* `Scan.tokens` — the pieces that are not blank.
* `Scan.take` — what is seen by someone who asks for that many tokens.
-/

namespace Propositional

/-! ## Languages -/

/-- What may be handed in as a token class. -/
inductive Candidate where
  | tokenClass (c : TokenClass)
  /-- Something else, by its written form. -/
  | foreign (form : String)
  deriving DecidableEq, Repr

/-- Why a list of candidates is no language. -/
inductive LanguageError where
  | notATokenClass (form : String)
  | noMeaning (name : String)
  deriving DecidableEq, Repr

def LanguageError.message : LanguageError → String
  | .notATokenClass form => form ++ " is not a token"
  | .noMeaning name => "class '" ++ name ++ "' has no kind. OperatorToken must have a kind"

/-- A lexer holds the classes of its language in the order in which they are tried. -/
structure Lexer where
  classes : List TokenClass
  deriving DecidableEq, Repr

namespace Lexer

/-- Identifiers go behind everything else; otherwise the order stays. -/
def ofClasses (classes : List TokenClass) : Lexer :=
  ⟨classes.filter (!·.isIdentifier) ++ classes.filter (·.isIdentifier)⟩

/-- The token class of a candidate; an operator class must have a meaning. -/
def check : Candidate → Except LanguageError TokenClass
  | .foreign form => .error (.notATokenClass form)
  | .tokenClass c => if c.role = .unbound then .error (.noMeaning c.name) else .ok c

/-- The lexer of a list of candidates; the first bad one is reported. -/
def ofCandidates (candidates : List Candidate) : Except LanguageError Lexer :=
  (candidates.mapM check).map ofClasses

/-- The lexer of the whole language. -/
def default : Lexer := ofClasses defaultClasses

/-- The lexer of the core language. -/
def core : Lexer := ofClasses coreClasses

/-- The operator classes, each with its operator, in the order in which they are tried. -/
def operators (lexer : Lexer) : List (TokenClass × Operator) :=
  lexer.classes.filterMap fun c => c.operator?.map (c, ·)

end Lexer

/-! ## Scanning -/

/-- Why a text cannot be scanned on. -/
inductive LexError where
  | unrecognized (char : Char) (position : Nat)
  /-- A class was tried whose pieces of text have not been fixed. -/
  | unmatchable
  deriving DecidableEq, Repr

/-- What comes after the tokens of a scan. -/
inductive Scan.Ending where
  | complete
  | failed (error : LexError)
  /-- An empty token, found at the same place over and over. -/
  | repeating (token : Token)
  deriving DecidableEq, Repr

/-- The pieces that a text falls into, blanks among them, and what comes after them. -/
structure Scan where
  lexemes : List Token
  ending : Scan.Ending
  deriving DecidableEq, Repr

/-- The tokens of a text: blanks mean nothing. -/
def Scan.tokens (s : Scan) : List Token := s.lexemes.filter (!·.cls.isBlank)

/-- The first class that has a token at the beginning of a text, with the token's length. -/
def firstMatch : List TokenClass → List Char → Except Unmatchable (Option (TokenClass × Nat))
  | [], _ => .ok none
  | c :: rest, cs =>
    match c.lexeme? cs with
    | .error e => .error e
    | .ok (some n) => .ok (some (c, n))
    | .ok none => firstMatch rest cs

/-- The closing token of a text with the given length. -/
def endToken (length : Nat) : Token := ⟨.endOfInput, "", length, length⟩

/-- One more piece in front of a scan. -/
def Scan.cons (t : Token) (s : Scan) : Scan := { s with lexemes := t :: s.lexemes }

/-- Scans on at a place: `skip` characters still belong to the piece before. -/
def scanFrom (classes : List TokenClass) (skip place : Nat) : List Char → Scan
  | [] => ⟨[endToken place], .complete⟩
  | c :: rest =>
    match skip with
    | skip + 1 => scanFrom classes skip (place + 1) rest
    | 0 =>
      match firstMatch classes (c :: rest) with
      | .error _ => ⟨[], .failed .unmatchable⟩
      | .ok none => ⟨[], .failed (.unrecognized c place)⟩
      | .ok (some (cls, n)) =>
        let token : Token := ⟨cls, String.ofList ((c :: rest).take n), place, place + n⟩
        if n = 0 then ⟨[], .repeating token⟩
        else (scanFrom classes (n - 1) (place + 1) rest).cons token

namespace Lexer

/-- The pieces of a text. -/
def scan (lexer : Lexer) (text : String) : Scan := scanFrom lexer.classes 0 0 text.toList

end Lexer

/-- What is seen when `n` tokens are asked for: an error only if there are fewer. -/
def Scan.take (s : Scan) (n : Nat) : List Token × Option LexError :=
  let missing := n - s.tokens.length
  match s.ending with
  | .complete => (s.tokens.take n, none)
  | .failed e => (s.tokens.take n, if missing = 0 then none else some e)
  | .repeating t => (s.tokens.take n ++ List.replicate missing t, none)

/-- What is seen by someone who asks for every token. -/
def Scan.error? (s : Scan) : Option LexError :=
  match s.ending with
  | .failed e => some e
  | _ => none

end Propositional
