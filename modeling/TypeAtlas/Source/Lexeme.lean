import TypeAtlas.Source.Token

/-!
# Lexemes

A language tells how the text from some position on begins: how many characters belong together
and what they are. Cutting a whole text into tokens is then the same for all languages.

String literals may have holes that hold code, with string literals in them again. The surroundings
of a position are therefore a stack of `Mode`s: code outside of all literals is the empty stack.
-/
namespace TypeAtlas
namespace Source

/-- The spelling of a string literal with holes. -/
structure TextStyle where
  /-- How many quotes close the literal. -/
  quotes : Nat
  /-- How many braces open a hole; zero stands for a backslash and one brace. -/
  braces : Nat
  /-- A backslash takes the next character along. -/
  escapes : Bool
  /-- The literal may go over several lines. -/
  multiline : Bool

/-- What surrounds a position. -/
inductive Mode where
  /-- The text of a string literal. -/
  | text (style : TextStyle)
  /-- The code of a hole, inside so many open brackets. -/
  | hole (style : TextStyle) (depth : Nat)

/-- How a text begins. -/
structure Lexeme where
  /-- What the characters are; nothing for blanks and for the text of a literal. -/
  cls : Option TokenClass
  /-- How many characters belong together. -/
  length : Nat
  /-- What surrounds the position behind them. -/
  modes : List Mode
  /-- The text of the token, where it is not the characters themselves. -/
  label : Option String := none

namespace Lexeme

/-- Cuts a text into tokens. `pos` is the position of the first character and `touching` tells
whether the last lexeme was a token. A lexeme takes at least one character, so as many steps as
there are characters suffice, and no more than there are. -/
def tokensFrom (next : List Mode → List Char → Lexeme) :
    Nat → Nat → Bool → List Mode → List Char → List Token
  | 0, _, _, _, _ => []
  | _ + 1, _, _, _, [] => []
  | n + 1, pos, touching, modes, c :: cs =>
    let lx := next modes (c :: cs)
    let taken := (c :: cs).take (max 1 lx.length)
    let stop := pos + taken.length
    let rest := (c :: cs).drop taken.length
    match lx.cls with
    | none => tokensFrom next n stop false lx.modes rest
    | some cls =>
      ⟨cls, lx.label.getD (String.ofList taken), pos, stop, touching⟩
        :: tokensFrom next n stop true lx.modes rest

/-- Cuts a whole text into tokens. -/
def tokens (next : List Mode → List Char → Lexeme) (cs : List Char) : List Token :=
  tokensFrom next cs.length 0 false [] cs

/-! ### Lengths -/

/-- How many characters satisfy `p` before one does not. -/
def runLength (p : Char → Bool) (cs : List Char) : Nat :=
  (cs.takeWhile p).length

/-- How many characters stand before the first line end. -/
def lineLength (cs : List Char) : Nat :=
  runLength (fun c => c != '\n' && c != '\r') cs

/-- The length of a text up to and with the first occurrence of `*/`. -/
def blockCommentLength? : List Char → Option Nat
  | [] => none
  | [_] => none
  | c :: d :: rest =>
    if c == '*' && d == '/' then some 2 else (blockCommentLength? (d :: rest)).map (· + 1)

/-- The length of a quoted literal behind its opening quote, the closing quote included. A
backslash takes the next character along; the literal ends on its line. -/
def quotedLength? (quote : Char) : List Char → Option Nat
  | [] => none
  | c :: rest =>
    if c == quote then some 1
    else if c == '\n' then none
    else if c == '\\' then
      match rest with
      | [] => none
      | _ :: rest' => (quotedLength? quote rest').map (· + 2)
    else (quotedLength? quote rest).map (· + 1)

/-- The longest of the listed symbols that the text begins with, the list being in order of
falling length. -/
def symbolLength? (symbols : List String) (cs : List Char) : Option Nat :=
  (symbols.find? fun s => s.toList.isPrefixOf cs).map String.length

/-- The digits of a base, with underscores. -/
def isDigitOf (base : Nat) (c : Char) : Bool :=
  c == '_' ||
    match base with
    | 2 => c == '0' || c == '1'
    | 16 => c.isDigit || ('a' ≤ c && c ≤ 'f') || ('A' ≤ c && c ≤ 'F')
    | _ => c.isDigit

/-- The length of an exponent, zero if there is none. -/
def exponentLength (mark : Char → Bool) (cs : List Char) : Nat :=
  match cs with
  | e :: rest =>
    if mark e then
      let sign := match rest with
        | s :: _ => if s == '+' || s == '-' then 1 else 0
        | [] => 0
      let digits := runLength (isDigitOf 10) (rest.drop sign)
      if digits == 0 then 0 else 1 + sign + digits
    else 0
  | [] => 0

end Lexeme

/-! ### Modes -/

/-- A bracket was opened. -/
def Mode.openBracket : List Mode → List Mode
  | .hole s d :: rest => .hole s (d + 1) :: rest
  | modes => modes

/-- A bracket was closed. -/
def Mode.closeBracket : List Mode → List Mode
  | .hole s (d + 1) :: rest => .hole s d :: rest
  | modes => modes

/-- What surrounds the position behind a symbol. -/
def Mode.afterSymbol (modes : List Mode) (c : Char) : List Mode :=
  if c == '(' || c == '[' || c == '{' then Mode.openBracket modes
  else if c == ')' || c == ']' || c == '}' then Mode.closeBracket modes
  else modes

end Source
end TypeAtlas
