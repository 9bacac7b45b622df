import TypeAtlas.Text.Search
import TypeAtlas.Toml.Value

/-!
# TOML words

The parts of a TOML text below values: blanks and comments, texts in their four spellings, keys,
numbers and dates. A function that reads from the front of a text gives what it read and the rest.
-/
namespace TypeAtlas
namespace Toml

/-- A blank within a line. -/
def isSpace (c : Char) : Bool :=
  c == ' ' || c == '\t'

/-- A character that may stand in comments and texts. -/
def isPlain (c : Char) : Bool :=
  c == '\t' || (0x20 ≤ c.toNat && c.toNat != 0x7F)

/-- Cuts off a line end. -/
def newline? : List Char → Option (List Char)
  | '\n' :: cs => some cs
  | '\r' :: '\n' :: cs => some cs
  | _ => none

/-- Cuts off a comment up to the end of its line. -/
def comment? : List Char → Option (List Char)
  | '#' :: cs =>
    let rest := cs.dropWhile isPlain
    if rest.isEmpty || (newline? rest).isSome then some rest else none
  | _ => none

/-- Cuts off blanks, and a comment if there is one; then the line must end. -/
def lineEnd? (cs : List Char) : Option (List Char) :=
  let rest := cs.dropWhile isSpace
  match if rest.head? = some '#' then comment? rest else some rest with
  | none => none
  | some [] => some []
  | some left => newline? left

/-- Cuts off blanks, line ends and comments, at most so many. -/
def skipLines? : Nat → List Char → Option (List Char)
  | 0, cs => some cs
  | n + 1, cs =>
    let rest := cs.dropWhile isSpace
    match newline? rest with
    | some left => skipLines? n left
    | none =>
      if rest.head? = some '#' then (comment? rest).bind (skipLines? n) else some rest

/-! ### Texts -/

/-- The value of a hexadecimal digit. -/
def hexDigit? (c : Char) : Option Nat :=
  if '0' ≤ c ∧ c ≤ '9' then some (c.toNat - 48)
  else if 'a' ≤ c ∧ c ≤ 'f' then some (c.toNat - 87)
  else if 'A' ≤ c ∧ c ≤ 'F' then some (c.toNat - 55)
  else none

/-- The character with a number written in hexadecimal digits. -/
def charOfHex? (digits : List Char) : Option Char := do
  let n ← digits.foldlM (fun acc c => (hexDigit? c).map fun d => acc * 16 + d) 0
  if h : n.isValidChar then some (Char.ofNatAux n h) else none

/-- The character behind a backslash. -/
def escape? : List Char → Option (Char × List Char)
  | 'b' :: cs => some (Char.ofNat 8, cs)
  | 't' :: cs => some ('\t', cs)
  | 'n' :: cs => some ('\n', cs)
  | 'f' :: cs => some (Char.ofNat 12, cs)
  | 'r' :: cs => some ('\r', cs)
  | '"' :: cs => some ('"', cs)
  | '\\' :: cs => some ('\\', cs)
  | 'u' :: cs =>
    if cs.length < 4 then none else (charOfHex? (cs.take 4)).map fun c => (c, cs.drop 4)
  | 'U' :: cs =>
    if cs.length < 8 then none else (charOfHex? (cs.take 8)).map fun c => (c, cs.drop 8)
  | _ => none

/-- A single quote. -/
def isTick (c : Char) : Bool :=
  c.toNat == 0x27

/-- The rest of a text in double quotes, at most so many characters. -/
def basicText? : Nat → List Char → Option (List Char × List Char)
  | 0, _ => none
  | _ + 1, [] => none
  | n + 1, c :: cs =>
    if c = '"' then some ([], cs)
    else if c = '\\' then do
      let (e, rest) ← escape? cs
      let (text, left) ← basicText? n rest
      pure (e :: text, left)
    else if isPlain c then (basicText? n cs).map fun (text, left) => (c :: text, left)
    else none

/-- The rest of a text in single quotes. -/
def literalText? : List Char → Option (List Char × List Char)
  | [] => none
  | c :: cs =>
    if isTick c then some ([], cs)
    else if isPlain c then (literalText? cs).map fun (text, left) => (c :: text, left)
    else none

/-- A backslash before a line end, whose blanks and those of the next lines are cut off with it. -/
def foldedLine? (cs : List Char) : Option (List Char) :=
  (newline? (cs.dropWhile isSpace)).map fun rest =>
    rest.dropWhile fun c => isSpace c || c == '\n' || c == '\r'

/-- The rest of a text of several lines, at most so many characters. Three quotes end it; up to two
more quotes before them belong to it. -/
def longText? (quote : Char) (escapes : Bool) : Nat → List Char → Option (List Char × List Char)
  | 0, _ => none
  | _ + 1, [] => none
  | n + 1, c :: cs =>
    if c = quote then
      let run := (c :: cs).takeWhile (· == quote)
      if run.length < 3 then
        (longText? quote escapes n cs).map fun (text, left) => (c :: text, left)
      else
        let own := min (run.length - 3) 2
        some (run.take own, (c :: cs).drop (own + 3))
    else
      match newline? (c :: cs) with
      | some rest => (longText? quote escapes n rest).map fun (text, left) => ('\n' :: text, left)
      | none =>
        if escapes && c = '\\' then
          match foldedLine? cs with
          | some rest => longText? quote escapes n rest
          | none => do
            let (e, rest) ← escape? cs
            let (text, left) ← longText? quote escapes n rest
            pure (e :: text, left)
        else if isPlain c then
          (longText? quote escapes n cs).map fun (text, left) => (c :: text, left)
        else none

/-- A line end at the front of a text of several lines does not belong to it. -/
def dropNewline (cs : List Char) : List Char :=
  (newline? cs).getD cs

/-- A text in any spelling. -/
def text? (cs : List Char) : Option (String × List Char) :=
  let found := match cs with
    | '"' :: '"' :: '"' :: rest =>
      let body := dropNewline rest
      longText? '"' true (body.length + 1) body
    | '"' :: rest => basicText? (rest.length + 1) rest
    | a :: b :: c :: rest =>
      if isTick a && isTick b && isTick c then
        let body := dropNewline rest
        longText? a false (body.length + 1) body
      else if isTick a then literalText? (b :: c :: rest)
      else none
    | a :: rest => if isTick a then literalText? rest else none
    | [] => none
  found.map fun (text, left) => (String.ofList text, left)

/-! ### Keys -/

/-- A character of a name without quotes. -/
def isBare (c : Char) : Bool :=
  ('a' ≤ c && c ≤ 'z') || ('A' ≤ c && c ≤ 'Z') || ('0' ≤ c && c ≤ '9') || c == '-' || c == '_'

/-- One name of a key. -/
def name? (cs : List Char) : Option (String × List Char) :=
  match cs with
  | [] => none
  | c :: rest =>
    let found :=
      if c = '"' then basicText? (rest.length + 1) rest
      else if isTick c then literalText? rest
      else if isBare c then some (cs.takeWhile isBare, cs.dropWhile isBare)
      else none
    found.map fun (text, left) => (String.ofList text, left)

/-- The number of levels that values and keys must stay below. -/
def depthLimit : Nat := 80

/-- A key of at most so many names with dots in between. Blanks around names do not matter. -/
def key? : Nat → List Char → Option (List String × List Char)
  | 0, _ => none
  | n + 1, cs => do
    let (first, rest) ← name? (cs.dropWhile isSpace)
    match rest.dropWhile isSpace with
    | '.' :: more => do
      let (names, left) ← key? n more
      pure (first :: names, left)
    | left => pure ([first], left)

/-! ### Numbers and dates -/

/-- A decimal digit. -/
def isDigit (c : Char) : Bool :=
  '0' ≤ c && c ≤ '9'

/-- Digits with single underscores between them. -/
def isDigits (p : Char → Bool) (cs : List Char) : Bool :=
  (Text.splitAtChar '_' cs).all fun group => !group.isEmpty && group.all p

/-- The number that digits stand for in some base. -/
def digitsValue (base : Nat) (cs : List Char) : Nat :=
  (cs.filterMap hexDigit?).foldl (fun acc d => acc * base + d) 0

/-- A sign at the front, and what follows it. -/
def splitSign : List Char → Bool × List Char
  | '-' :: cs => (true, cs)
  | '+' :: cs => (false, cs)
  | cs => (false, cs)

/-- Decimal digits without a zero in front of others. -/
def isWhole (cs : List Char) : Bool :=
  isDigits isDigit cs && (cs == ['0'] || cs.head? != some '0')

/-- A whole number of 64 bits. -/
def isInteger (cs : List Char) : Bool :=
  let limit := Nat.pow 2 63
  match cs with
  | '0' :: 'x' :: digits =>
    isDigits (fun c => (hexDigit? c).isSome) digits && decide (digitsValue 16 digits < limit)
  | '0' :: 'o' :: digits =>
    isDigits (fun c => '0' ≤ c && c ≤ '7') digits && decide (digitsValue 8 digits < limit)
  | '0' :: 'b' :: digits =>
    isDigits (fun c => c == '0' || c == '1') digits && decide (digitsValue 2 digits < limit)
  | _ =>
    let (negative, digits) := splitSign cs
    isWhole digits
      && decide (digitsValue 10 digits < if negative then limit + 1 else limit)

/-- The decimal number with these digits and this exponent is too large for 64 bits: it is not below
the middle between the largest finite number and the next power of two. The number of its digits
decides unless it is near. -/
def isOverflow (digits : List Char) (exponent : Int) : Bool :=
  let m := digitsValue 10 digits
  let size := ((toString m).length : Int) + exponent
  if m = 0 ∨ size < 300 then false
  else if 320 < size then true
  else
    let bound := Nat.pow 2 1024 - Nat.pow 2 970
    if 0 ≤ exponent then decide (bound ≤ m * Nat.pow 10 exponent.toNat)
    else decide (bound * Nat.pow 10 (-exponent).toNat ≤ m)

/-- An exponent, none if it is no number. -/
def exponent? (cs : List Char) : Option Int :=
  let (negative, digits) := splitSign cs
  if isDigits isDigit digits then
    let n := (digitsValue 10 digits : Int)
    some (if negative then -n else n)
  else none

/-- A number with a fraction or an exponent, or one of the special ones. -/
def isFloat (cs : List Char) : Bool :=
  let (negative, body) := splitSign cs
  if body == ['i', 'n', 'f'] || body == ['n', 'a', 'n'] then true
  else
    let mantissa := body.takeWhile fun c => c != 'e' && c != 'E'
    let power := (body.dropWhile fun c => c != 'e' && c != 'E').drop 1
    let whole := mantissa.takeWhile (· != '.')
    let fraction := (mantissa.dropWhile (· != '.')).drop 1
    let hasFraction := mantissa.contains '.'
    let hasPower := body.length != mantissa.length
    let shift : Option Int := if hasPower then exponent? power else some 0
    let places := (fraction.filter isDigit).length
    (hasFraction || hasPower) && isWhole whole && (!hasFraction || isDigits isDigit fraction)
      && match shift with
        | none => false
        | some e => negative || !isOverflow (whole ++ fraction) (e - places)

/-- Two digits that stand for a number within bounds, and what follows them. -/
def pair? (low high : Nat) : List Char → Option (Nat × List Char)
  | a :: b :: cs =>
    if isDigit a && isDigit b then
      let n := digitsValue 10 [a, b]
      if low ≤ n ∧ n ≤ high then some (n, cs) else none
    else none
  | _ => none

/-- The number of days of a month. -/
def daysIn (year month : Nat) : Nat :=
  let leap := year % 4 == 0 && (year % 100 != 0 || year % 400 == 0)
  if month = 2 then (if leap then 29 else 28)
  else if [4, 6, 9, 11].contains month then 30
  else 31

/-- Year, month and day, and what follows them. -/
def calendarDate? (cs : List Char) : Option (List Char) := do
  let digits := cs.take 4
  if digits.length = 4 ∧ digits.all isDigit = true then
    let year := digitsValue 10 digits
    let '-' :: rest := cs.drop 4 | none
    let (month, rest) ← pair? 1 12 rest
    let '-' :: rest := rest | none
    let (_, rest) ← pair? 1 (daysIn year month) rest
    pure rest
  else none

/-- Hour, minute, second and a fraction of it, and what follows them. -/
def clockTime? (cs : List Char) : Option (List Char) := do
  let (_, rest) ← pair? 0 23 cs
  let ':' :: rest := rest | none
  let (_, rest) ← pair? 0 59 rest
  let ':' :: rest := rest | none
  let (_, rest) ← pair? 0 60 rest
  match rest with
  | '.' :: more => if (more.head?.map isDigit).getD false then pure (more.dropWhile isDigit) else none
  | _ => pure rest

/-- A distance from universal time, or nothing. -/
def isZone : List Char → Bool
  | [] => true
  | ['Z'] => true
  | ['z'] => true
  | c :: cs =>
    if c = '+' ∨ c = '-' then
      match pair? 0 23 cs with
      | some (_, ':' :: rest) =>
        match pair? 0 59 rest with
        | some (_, []) => true
        | _ => false
      | _ => false
    else false

/-- A date, a time, or both with a letter in between. -/
def isDate (cs : List Char) : Bool :=
  match calendarDate? cs with
  | some [] => true
  | some (c :: rest) =>
    if c = 'T' ∨ c = 't' then
      match clockTime? rest with
      | some zone => isZone zone
      | none => false
    else false
  | none => clockTime? cs == some []

/-- A character of a number or a date. -/
def isWordChar (c : Char) : Bool :=
  isBare c || c == '+' || c == '.' || c == ':'

/-- A blank may stand for the letter between date and time if a time follows. -/
def dateGap? : List Char → Option (List Char)
  | ' ' :: a :: b :: ':' :: cs => if isDigit a && isDigit b then some (a :: b :: ':' :: cs) else none
  | _ => none

/-- A truth value, a number or a date. -/
def word? (cs : List Char) : Option (Value × List Char) :=
  let word := cs.takeWhile isWordChar
  let rest := cs.dropWhile isWordChar
  if word == "true".toList then some (.bool true, rest)
  else if word == "false".toList then some (.bool false, rest)
  else if isInteger word || isFloat word then some (.number, rest)
  else if isDate word then
    match if calendarDate? word == some [] then dateGap? rest else none with
    | some more =>
      if isDate (word ++ 'T' :: more.takeWhile isWordChar) then
        some (.date, more.dropWhile isWordChar)
      else none
    | none => some (.date, rest)
  else none

end Toml
end TypeAtlas
