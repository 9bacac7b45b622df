import TypeAtlas.Source.Lexeme
import TypeAtlas.Text.Letter

/-!
# Lexemes of Java

Every greater-than sign is a token of its own, so that a grammar can close nested type arguments;
a shift is read as several such tokens that touch. String literals are always read as an opening,
holes and a close.
-/
namespace TypeAtlas
namespace Source
namespace Java

open Lexeme

/-- Blanks between tokens. -/
def isSpace (c : Char) : Bool :=
  c == ' ' || (9 ≤ c.toNat && c.toNat ≤ 13)

/-- A character that may open a name. -/
def isWordStart (c : Char) : Bool :=
  c == '_' || c == '$' || Text.isNameStart c

/-- A character that may stand in a name. -/
def isWordPart (c : Char) : Bool :=
  c == '$' || c.toNat == 0xA2 || Text.isNameContinue c

/-- The operators and brackets, the longer ones first. -/
def symbols : List String :=
  ["<<=", "...", "::", "->", "&&", "||", "==", "!=", "<=", "+=", "-=", "*=", "/=", "%=", "&=",
   "|=", "^=", "<<", "++", "--", "\x7b", "\x7d", "(", ")", "[", "]", ";", ":", ",", ".", "<", ">",
   "=", "+", "-", "*", "/", "%", "&", "|", "^", "!", "~", "?", "@"]

/-- The marks behind a number that tell its type. -/
def isNumberSuffix (c : Char) : Bool :=
  c == 'l' || c == 'L' || c == 'f' || c == 'F' || c == 'd' || c == 'D'

/-- The length of the point and the fraction behind an integral part. -/
def fractionLength (cs : List Char) : Nat :=
  match cs with
  | '.' :: rest =>
    match rest with
    | d :: _ =>
      if d.isDigit then 1 + runLength (isDigitOf 10) rest
      else if d == '.' then 0
      else if isWordStart d && !isNumberSuffix d && d != 'e' && d != 'E' then 0
      else 1
    | [] => 1
  | _ => 0

/-- The length of a decimal number that begins with a digit or a point. -/
def decimalLength (cs : List Char) : Nat :=
  let whole := runLength (isDigitOf 10) cs
  let fraction := fractionLength (cs.drop whole)
  let exponent := exponentLength (fun c => c == 'e' || c == 'E') (cs.drop (whole + fraction))
  let size := whole + fraction + exponent
  size + min 1 (runLength isNumberSuffix (cs.drop size))

/-- The length of a hexadecimal number behind its mark. -/
def hexLength (cs : List Char) : Nat :=
  let whole := runLength (isDigitOf 16) cs
  let fraction := match cs.drop whole with
    | '.' :: rest => 1 + runLength (isDigitOf 16) rest
    | _ => 0
  let exponent := exponentLength (fun c => c == 'p' || c == 'P') (cs.drop (whole + fraction))
  let size := if exponent == 0 then whole else whole + fraction + exponent
  size + min 1 (runLength isNumberSuffix (cs.drop size))

/-- The length of a number. -/
def numberLength (cs : List Char) : Nat :=
  match cs with
  | '0' :: m :: rest =>
    if m == 'x' || m == 'X' then 2 + hexLength rest
    else if m == 'b' || m == 'B' then
      let digits := runLength (isDigitOf 2) rest
      2 + digits + min 1 (runLength isNumberSuffix (rest.drop digits))
    else decimalLength cs
  | _ => decimalLength cs

/-- A word; the one keyword with a hyphen is a word, too. -/
def wordLexeme (modes : List Mode) (cs : List Char) : Lexeme :=
  let size := runLength isWordPart cs
  if cs.take size == "non".toList && "-sealed".toList.isPrefixOf (cs.drop size) then
    ⟨some .word, size + 7, modes, none⟩
  else ⟨some .word, size, modes, none⟩

/-- A lexeme of code. -/
def codeLexeme (modes : List Mode) (cs : List Char) : Lexeme :=
  match cs with
  | [] => ⟨none, 0, modes, none⟩
  | c :: rest =>
    if isSpace c then ⟨none, runLength isSpace cs, modes, none⟩
    else if isWordStart c then wordLexeme modes cs
    else if c.isDigit then ⟨some .number, numberLength cs, modes, none⟩
    else if "//".toList.isPrefixOf cs then
      ⟨some .comment, runLength (fun c => c != '\n') cs, modes, none⟩
    else if "/*".toList.isPrefixOf cs then
      match blockCommentLength? (rest.drop 1) with
      | some n => ⟨some .comment, n + 2, modes, none⟩
      | none => ⟨some .stray, 2, modes, none⟩
    else if "\"\"\"".toList.isPrefixOf cs then
      ⟨some .textOpen, 3, .text ⟨3, 0, true, true⟩ :: modes, none⟩
    else if c == '"' then ⟨some .textOpen, 1, .text ⟨1, 0, true, false⟩ :: modes, none⟩
    else if c.toNat == 39 then
      match quotedLength? c rest with
      | some n => ⟨some (if n == 1 then .stray else .text), n + 1, modes, none⟩
      | none => ⟨some .stray, 1, modes, none⟩
    else if c == '.' && (rest.head?.map Char.isDigit).getD false then
      ⟨some .number, decimalLength cs, modes, none⟩
    else
      match symbolLength? symbols cs with
      | some n => ⟨some .symbol, n, Mode.afterSymbol modes c, none⟩
      | none => ⟨some .stray, 1, modes, none⟩

/-- A lexeme inside a string literal. -/
def textLexeme (style : TextStyle) (outer : List Mode) (cs : List Char) : Lexeme :=
  let inside := Mode.text style :: outer
  match cs with
  | [] => ⟨none, 0, outer, none⟩
  | '\\' :: '\x7b' :: _ => ⟨some .holeOpen, 2, .hole style 0 :: inside, none⟩
  | '\\' :: _ :: _ => ⟨none, 2, inside, none⟩
  | '\n' :: _ =>
    if style.multiline then ⟨none, 1, inside, none⟩ else ⟨some .stray, 1, outer, none⟩
  | '"' :: _ =>
    if style.quotes ≤ runLength (· == '"') cs then ⟨some .textClose, style.quotes, outer, none⟩
    else ⟨none, 1, inside, none⟩
  | _ => ⟨none, 1, inside, none⟩

/-- How a text begins. -/
def lexeme (modes : List Mode) (cs : List Char) : Lexeme :=
  match modes with
  | [] => codeLexeme [] cs
  | .text style :: outer => textLexeme style outer cs
  | .hole style depth :: outer =>
    match depth, cs with
    | 0, '\x7d' :: _ => ⟨some .holeClose, 1, outer, none⟩
    | _, _ => codeLexeme (.hole style depth :: outer) cs

end Java
end Source
end TypeAtlas
