/-!
# Tokens

What a source text is cut into before a grammar reads it. Blanks between tokens are not kept, but
every token knows where it stands and whether it directly touches the one before it. Comments and
those directives that may stand anywhere are tokens too: a grammar looks past them and the syntax
tree keeps them.
-/
namespace TypeAtlas
namespace Source

/-- What a token is, as far as that can be told from its characters alone. -/
inductive TokenClass where
  /-- A name or a keyword. -/
  | word
  /-- A numeric literal. -/
  | number
  /-- A character or string literal without holes. -/
  | text
  /-- The opening of a string literal with holes. -/
  | textOpen
  /-- The end of a string literal with holes. -/
  | textClose
  /-- The opening of a hole. -/
  | holeOpen
  /-- The format text at the end of a hole. -/
  | holeFormat
  /-- The end of a hole. -/
  | holeClose
  /-- An operator or a bracket. -/
  | symbol
  /-- A directive that splits a text into branches. -/
  | branch
  /-- A comment. -/
  | comment
  /-- A directive that may stand between any two tokens. -/
  | directive
  /-- Characters that begin no token. -/
  | stray
  deriving DecidableEq, Repr

/-- A token and the half-open range of character positions it takes up. -/
structure Token where
  cls : TokenClass
  text : String
  start : Nat
  stop : Nat
  /-- The token directly touches the one before it. -/
  touching : Bool
  deriving Repr

/-- Tokens that a grammar looks past. -/
def Token.isExtra (t : Token) : Bool :=
  t.cls = .comment || t.cls = .directive

end Source
end TypeAtlas
