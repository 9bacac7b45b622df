import TypeAtlas.Source.Lexeme
import TypeAtlas.Text.Blank
import TypeAtlas.Text.Letter

/-!
# Lexemes of C#

Every greater-than sign is a token of its own, so that a grammar can close nested type arguments;
comparison and shift are read as several such tokens that touch. Literals without holes are one
token. Directives take up their line: those that open, split or close a branch are tokens for the
grammar, all others may stand anywhere.
-/
namespace TypeAtlas
namespace Source
namespace CSharp

open Lexeme

/-- Blanks between tokens. -/
def isSpace (c : Char) : Bool :=
  c == ' ' || (9 ≤ c.toNat && c.toNat ≤ 13) || c.toNat == 0xA0 || c.toNat == 0xFEFF
    || c.toNat == 0x3000

/-- A character that may open a name. -/
def isWordStart (c : Char) : Bool :=
  c == '_' || Text.isNameStart c

/-- The operators and brackets, the longer ones first. -/
def symbols : List String :=
  ["<<=", "??=", "=>", "->", "::", "..", "&&", "||", "==", "!=", "<=", "+=", "-=", "*=", "/=",
   "%=", "&=", "|=", "^=", "<<", "??", "++", "--", "\x7b", "\x7d", "(", ")", "[", "]", ";", ":",
   ",", ".", "<", ">", "=", "+", "-", "*", "/", "%", "&", "|", "^", "!", "~", "?"]

/-! ### Numbers -/

/-- The marks of an integral type. -/
def isIntegralSuffix (c : Char) : Bool :=
  c == 'u' || c == 'U' || c == 'l' || c == 'L'

/-- The marks of a type with a fraction. -/
def isRealSuffix (c : Char) : Bool :=
  c == 'f' || c == 'F' || c == 'd' || c == 'D' || c == 'm' || c == 'M'

/-- The length of the point and the fraction behind an integral part. -/
def fractionLength (cs : List Char) : Nat :=
  match cs with
  | '.' :: d :: rest => if d.isDigit then 1 + runLength (isDigitOf 10) (d :: rest) else 0
  | _ => 0

/-- The length of the mark behind a number. -/
def suffixLength (cs : List Char) : Nat :=
  let integral := runLength isIntegralSuffix cs
  if integral == 0 then min 1 (runLength isRealSuffix cs) else integral

/-- The length of a decimal number that begins with a digit or a point. -/
def decimalLength (cs : List Char) : Nat :=
  let whole := runLength (isDigitOf 10) cs
  let fraction := fractionLength (cs.drop whole)
  let exponent := exponentLength (fun c => c == 'e' || c == 'E') (cs.drop (whole + fraction))
  let size := whole + fraction + exponent
  size + suffixLength (cs.drop size)

/-- The length of a number written in a base other than ten, behind its mark. -/
def basedLength (base : Nat) (cs : List Char) : Nat :=
  let digits := runLength (isDigitOf base) cs
  digits + runLength isIntegralSuffix (cs.drop digits)

/-- The length of a number. -/
def numberLength (cs : List Char) : Nat :=
  match cs with
  | '0' :: m :: rest =>
    if m == 'x' || m == 'X' then 2 + basedLength 16 rest
    else if m == 'b' || m == 'B' then 2 + basedLength 2 rest
    else decimalLength cs
  | _ => decimalLength cs

/-! ### Words -/

/-- The length of an escaped character of a name, zero if there is none. -/
def nameEscapeLength (cs : List Char) : Nat :=
  match cs with
  | '\\' :: 'u' :: rest => if runLength (isDigitOf 16) (rest.take 4) == 4 then 6 else 0
  | '\\' :: 'U' :: rest => if runLength (isDigitOf 16) (rest.take 8) == 8 then 10 else 0
  | _ => 0

/-- The length of what continues a name; the first argument bounds the steps. -/
def wordRest : Nat → List Char → Nat
  | 0, _ => 0
  | _ + 1, [] => 0
  | n + 1, c :: cs =>
    if Text.isNameContinue c then 1 + wordRest n cs
    else
      let size := nameEscapeLength (c :: cs)
      if size == 0 then 0 else size + wordRest n ((c :: cs).drop size)

/-- The length of a name, zero if the text begins with none. -/
def wordLength (cs : List Char) : Nat :=
  let mark := match cs with
    | '@' :: _ => 1
    | _ => 0
  let body := cs.drop mark
  match body with
  | c :: _ =>
    let first := if isWordStart c then 1 else nameEscapeLength body
    if first == 0 then 0 else mark + first + wordRest body.length (body.drop first)
  | [] => 0

/-! ### Literals without holes -/

/-- The length of a verbatim literal behind its opening quote: a doubled quote stands for one. -/
def verbatimLength? : List Char → Option Nat
  | [] => none
  | '"' :: '"' :: rest => (verbatimLength? rest).map (· + 2)
  | '"' :: _ => some 1
  | _ :: rest => (verbatimLength? rest).map (· + 1)

/-- The length of a raw literal behind its opening quotes; as many quotes close it. -/
def rawLength? (quotes : Nat) : List Char → Option Nat
  | [] => none
  | c :: rest =>
    let run := runLength (· == '"') (c :: rest)
    if quotes ≤ run then some run else (rawLength? quotes rest).map (· + 1)

/-- The length of the mark of an encoded literal. -/
def encodingLength (cs : List Char) : Nat :=
  match cs with
  | u :: '8' :: _ => if u == 'u' || u == 'U' then 2 else 0
  | _ => 0

/-- A literal without holes, its opening being `opening` characters long. -/
def literalLexeme (modes : List Mode) (cs : List Char) (opening : Nat)
    (length? : List Char → Option Nat) : Lexeme :=
  match length? (cs.drop opening) with
  | some n =>
    let size := opening + n
    ⟨some .text, size + encodingLength (cs.drop size), modes, none⟩
  | none => ⟨some .stray, opening, modes, none⟩

/-- The length of an escaped character behind its backslash. A number has as many digits as its
letter asks for. -/
def escapeLength? : List Char → Option Nat
  | [] => none
  | c :: rest =>
    let digits := runLength (fun d => isDigitOf 16 d && d != '_') rest
    if c == 'x' then if digits == 0 then none else some (1 + min digits 4)
    else if c == 'u' then if digits < 4 then none else some 5
    else if c == 'U' then if digits < 8 then none else some 9
    else some 1

/-- The length of a character literal behind its opening quote, the closing quote included. It holds
one character, which may be escaped. -/
def characterLength? : List Char → Option Nat
  | [] => none
  | c :: rest =>
    let inner := if c == '\\' then (escapeLength? rest).map (· + 1) else some 1
    inner.bind fun n =>
      if c.toNat == 39 then none
      else if ((c :: rest).drop n).head?.map Char.toNat == some 39 then some (n + 1)
      else none

/-! ### Literals with holes -/

/-- A lexeme inside the text of a literal with holes. -/
def textLexeme (style : TextStyle) (outer : List Mode) (cs : List Char) : Lexeme :=
  let inside := Mode.text style :: outer
  let raw := decide (3 ≤ style.quotes)
  match cs with
  | [] => ⟨none, 0, outer, none⟩
  | c :: rest =>
    if c == '"' then
      let run := runLength (· == '"') cs
      if raw then
        if style.quotes ≤ run then ⟨some .textClose, run, outer, none⟩
        else ⟨none, run, inside, none⟩
      else if !style.escapes && 2 ≤ run then ⟨none, 2, inside, none⟩
      else ⟨some .textClose, 1, outer, none⟩
    else if c == '\x7b' then
      let run := runLength (· == '\x7b') cs
      if raw then
        if run < style.braces then ⟨none, run, inside, none⟩
        else if style.braces < run then ⟨none, run - style.braces, inside, none⟩
        else ⟨some .holeOpen, run, .hole style 0 :: inside, none⟩
      else if 2 ≤ run then ⟨none, 2, inside, none⟩
      else ⟨some .holeOpen, 1, .hole style 0 :: inside, none⟩
    else if c == '\\' && style.escapes then
      ⟨none, if rest.isEmpty then 1 else 2, inside, none⟩
    else if c == '\n' && !style.multiline then ⟨some .stray, 1, outer, none⟩
    else ⟨none, 1, inside, none⟩

/-- The opening of a literal with holes, if the text begins with one. -/
def textOpening? (cs : List Char) : Option (Nat × TextStyle) :=
  let dollars := runLength (· == '$') cs
  let behind := cs.drop dollars
  let quotes := runLength (· == '"') behind
  if "$@\"".toList.isPrefixOf cs || "@$\"".toList.isPrefixOf cs then
    some (3, ⟨1, 1, false, true⟩)
  else if dollars == 0 || quotes == 0 then none
  else if 3 ≤ quotes then some (dollars + quotes, ⟨quotes, dollars, false, true⟩)
  else if dollars == 1 then some (2, ⟨1, 1, true, false⟩)
  else none

/-! ### Directives -/

/-- The directives that may stand anywhere. -/
def freeDirectives : List String :=
  ["region", "endregion", "pragma", "line", "nullable", "error", "warning", "define", "undef",
   "r", "load"]

/-- How many characters of a line stand before a comment. -/
def beforeComment : List Char → Nat
  | [] => 0
  | c :: cs =>
    if c == '\n' || c == '\r' then 0
    else if "//".toList.isPrefixOf (c :: cs) || "/*".toList.isPrefixOf (c :: cs) then 0
    else 1 + beforeComment cs

/-- A directive, the text beginning with a number sign. -/
def directiveLexeme (modes : List Mode) (cs : List Char) : Lexeme :=
  let gap := runLength (fun c => c == ' ' || c == '\t') (cs.drop 1)
  let letters := (cs.drop (1 + gap)).takeWhile Char.isAlpha
  let size := 1 + gap + letters.length
  let word := String.ofList letters
  if word == "if" || word == "elif" then
    let condition := beforeComment (cs.drop size)
    let blank := ((cs.drop size).take condition).all Text.isBlank
    ⟨some (if blank then .stray else .branch), size + condition, modes, some word⟩
  else if word == "else" || word == "endif" then ⟨some .branch, size, modes, some word⟩
  else if freeDirectives.contains word || "#!".toList.isPrefixOf cs then
    ⟨some .directive, lineLength cs, modes, none⟩
  else ⟨some .stray, 1, modes, none⟩

/-! ### All lexemes -/

/-- A literal, a word, a number or a symbol. -/
def tokenLexeme (modes : List Mode) (c : Char) (rest : List Char) : Lexeme :=
  let cs := c :: rest
  let quotes := runLength (· == '"') cs
  if 3 ≤ quotes then literalLexeme modes cs quotes (rawLength? quotes)
  else if c == '"' then literalLexeme modes cs 1 (quotedLength? '"')
  else if "@\"".toList.isPrefixOf cs then literalLexeme modes cs 2 verbatimLength?
  else if c.toNat == 39 then
    match characterLength? rest, quotedLength? c rest with
    | some n, _ => ⟨some .text, n + 1, modes, none⟩
    | none, some n => ⟨some .stray, n + 1, modes, none⟩
    | none, none => ⟨some .stray, 1, modes, none⟩
  else
    match textOpening? cs with
    | some (n, style) => ⟨some .textOpen, n, .text style :: modes, none⟩
    | none =>
      let word := wordLength cs
      if word != 0 then ⟨some .word, word, modes, none⟩
      else if c.isDigit || (c == '.' && (rest.head?.map Char.isDigit).getD false) then
        ⟨some .number, numberLength cs, modes, none⟩
      else
        match symbolLength? symbols cs with
        | some n => ⟨some .symbol, n, Mode.afterSymbol modes c, none⟩
        | none => ⟨some .stray, 1, modes, none⟩

/-- A lexeme of code. -/
def codeLexeme (modes : List Mode) (cs : List Char) : Lexeme :=
  match cs with
  | [] => ⟨none, 0, modes, none⟩
  | c :: rest =>
    if isSpace c then ⟨none, runLength isSpace cs, modes, none⟩
    else if "//".toList.isPrefixOf cs then ⟨some .comment, lineLength cs, modes, none⟩
    else if "/*".toList.isPrefixOf cs then
      match blockCommentLength? (rest.drop 1) with
      | some n => ⟨some .comment, n + 2, modes, none⟩
      | none => ⟨some .stray, 2, modes, none⟩
    else if c == '#' then directiveLexeme modes cs
    else tokenLexeme modes c rest

/-- The text begins with the end of a hole. -/
def closesHole (style : TextStyle) (cs : List Char) : Bool :=
  decide (style.braces ≤ runLength (· == '\x7d') cs)

/-- How a text begins. -/
def lexeme (modes : List Mode) (cs : List Char) : Lexeme :=
  match modes with
  | [] => codeLexeme [] cs
  | .text style :: outer => textLexeme style outer cs
  | .hole style depth :: outer =>
    if depth == 0 && closesHole style cs then ⟨some .holeClose, style.braces, outer, none⟩
    else if depth == 0 && cs.head? == some ':' && !"::".toList.isPrefixOf cs then
      ⟨some .holeFormat, runLength (fun c => c != '\x7d' && c != '"' && c != '\n') cs,
        .hole style depth :: outer, none⟩
    else codeLexeme (.hole style depth :: outer) cs

end CSharp
end Source
end TypeAtlas
