import TypeAtlas.Source.CSharp.Dialect
import TypeAtlas.Source.CSharp.Grammar
import TypeAtlas.Source.CSharp.Lexeme
import TypeAtlas.Source.Java.Dialect
import TypeAtlas.Source.Java.Grammar
import TypeAtlas.Source.Java.Lexeme
import TypeAtlas.Source.Language

/-!
# Reading a source text

A source text is cut into tokens, read by the grammar of its language and searched for types. A
byte order mark at its front belongs to no token.
-/
namespace TypeAtlas
namespace Source

namespace Language

/-- The tokens of a source text. -/
def tokens : Language → List Char → List Token
  | csharp => Lexeme.tokens CSharp.lexeme
  | java => Lexeme.tokens Java.lexeme

/-- The syntax tree of a token list. -/
def tree : Language → Nat → List Token → Node
  | csharp => CSharp.grammar.tree
  | java => Java.grammar.tree

/-- How declarations of the language are read. -/
def dialect : Language → Dialect
  | csharp => CSharp.dialect
  | java => Java.dialect

/-- A source text with its syntax tree. -/
def parse (l : Language) (source : List Char) : Parsed :=
  let mark := source.head? == some (Char.ofNat 0xFEFF)
  let body := if mark then source.drop 1 else source
  ⟨body, l.tree body.length (l.tokens body)⟩

end Language

/-- What was found in one source text. -/
structure Extraction where
  types : List Declaration
  /-- The text is not in the grammar of its language. -/
  hasErrors : Bool
  deriving DecidableEq, Repr

/-- Reads a source text that is recorded under a path. -/
def extract (l : Language) (source path : String) : Extraction :=
  let p := l.parse source.toList
  ⟨l.dialect.declarations p path, p.root.hasError⟩

end Source
end TypeAtlas
