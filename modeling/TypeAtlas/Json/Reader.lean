import TypeAtlas.Json.Value

/-!
# Reading documents

A reader of JSON texts. It takes exactly the texts of the standard, with one exception: a string
may hold half of a surrogate pair. Such a string becomes `Value.brokenText`, which whoever asks
for a text refuses.
-/
namespace TypeAtlas
namespace Json

/-- Blanks between the parts of a document. -/
def isSpace (c : Char) : Bool :=
  c == ' ' || c == '\n' || c == '\t' || c == '\r'

/-- The text behind the blanks at its front. -/
def skipSpace (cs : List Char) : List Char :=
  cs.dropWhile isSpace

/-! ### Strings -/

/-- The value of a hexadecimal digit. -/
def hexValue? (c : Char) : Option Nat :=
  if '0' ≤ c ∧ c ≤ '9' then some (c.toNat - 48)
  else if 'a' ≤ c ∧ c ≤ 'f' then some (c.toNat - 87)
  else if 'A' ≤ c ∧ c ≤ 'F' then some (c.toNat - 55)
  else none

/-- The value of four hexadecimal digits. -/
def hexUnit? (a b c d : Char) : Option Nat := do
  let a ← hexValue? a
  let b ← hexValue? b
  let c ← hexValue? c
  let d ← hexValue? d
  pure (((a * 16 + b) * 16 + c) * 16 + d)

/-- The character that a short escape stands for. -/
def shortEscape? (c : Char) : Option Char :=
  if c = '"' ∨ c = '\\' ∨ c = '/' then some c
  else if c = 'b' then some (Char.ofNat 8)
  else if c = 'f' then some (Char.ofNat 12)
  else if c = 'n' then some '\n'
  else if c = 'r' then some '\r'
  else if c = 't' then some '\t'
  else none

/-- A character of a string, or half of a surrogate pair. -/
inductive Piece where
  | char (c : Char)
  | half (unit : Nat)

/-- The piece that a unit stands for. -/
def Piece.ofUnit (n : Nat) : Piece :=
  if 0xD800 ≤ n ∧ n ≤ 0xDFFF then .half n else .char (Char.ofNat n)

/-- The pieces of a string behind its opening quote, and what follows its closing one. -/
def readPieces : List Char → Option (List Piece × List Char)
  | [] => none
  | '"' :: rest => some ([], rest)
  | '\\' :: 'u' :: a :: b :: c :: d :: rest =>
    match hexUnit? a b c d, readPieces rest with
    | some n, some (ps, left) => some (Piece.ofUnit n :: ps, left)
    | _, _ => none
  | '\\' :: e :: rest =>
    match shortEscape? e, readPieces rest with
    | some c, some (ps, left) => some (.char c :: ps, left)
    | _, _ => none
  | c :: rest =>
    if c = '\\' ∨ c.toNat < 32 then none
    else (readPieces rest).map fun (ps, left) => (.char c :: ps, left)

/-- The characters of pieces in which every half has its other half. -/
def joinPieces? : List Piece → Option (List Char)
  | [] => some []
  | .char c :: ps => (joinPieces? ps).map (c :: ·)
  | .half h :: .half l :: ps =>
    if h < 0xDC00 ∧ 0xDC00 ≤ l then
      (joinPieces? ps).map (Char.ofNat (0x10000 + (h - 0xD800) * 0x400 + (l - 0xDC00)) :: ·)
    else none
  | .half _ :: _ => none

/-- The value of a string. -/
def textOf (ps : List Piece) : Value :=
  match joinPieces? ps with
  | some cs => .text (String.ofList cs)
  | none => .brokenText

/-! ### Numbers -/

/-- Digits at the front of a text, at least one. -/
def digits? (cs : List Char) : Option (List Char × List Char) :=
  match cs.takeWhile Char.isDigit with
  | [] => none
  | ds => some (ds, cs.dropWhile Char.isDigit)

/-- The integral part of a number: no zero stands in front of other digits. -/
def whole? (cs : List Char) : Option (List Char × List Char) :=
  match digits? cs with
  | some (['0'], rest) => some (['0'], rest)
  | some ('0' :: _, _) => none
  | r => r

/-- The fraction of a number, if there is one. -/
def fraction? (cs : List Char) : Option (List Char × List Char) :=
  match cs with
  | '.' :: rest => (digits? rest).map fun (ds, left) => ('.' :: ds, left)
  | _ => some ([], cs)

/-- The exponent of a number, if there is one. -/
def exponent? (cs : List Char) : Option (List Char × List Char) :=
  match cs with
  | e :: rest =>
    if e = 'e' ∨ e = 'E' then
      match rest with
      | s :: more =>
        if s = '+' ∨ s = '-' then (digits? more).map fun (ds, left) => (e :: s :: ds, left)
        else (digits? rest).map fun (ds, left) => (e :: ds, left)
      | [] => none
    else some ([], cs)
  | [] => some ([], [])

/-- A number without its sign. -/
def unsigned? (cs : List Char) : Option (List Char × List Char) := do
  let (w, rest) ← whole? cs
  let (f, rest) ← fraction? rest
  let (e, rest) ← exponent? rest
  pure (w ++ f ++ e, rest)

/-- A number. -/
def number? (cs : List Char) : Option (List Char × List Char) :=
  match cs with
  | '-' :: rest => (unsigned? rest).map fun (ds, left) => ('-' :: ds, left)
  | _ => unsigned? cs

/-! ### Values -/

/-- The text behind a fixed beginning. -/
def after? (front : String) (cs : List Char) : Option (List Char) :=
  if front.toList.isPrefixOf cs then some (cs.drop front.length) else none

/-- A value without parts. -/
def scalar? (cs : List Char) : Option (Value × List Char) :=
  match cs with
  | [] => none
  | c :: rest =>
    if c = '"' then (readPieces rest).map fun (ps, left) => (textOf ps, left)
    else if c = 'n' then (after? "null" cs).map fun left => (.null, left)
    else if c = 't' then (after? "true" cs).map fun left => (.bool true, left)
    else if c = 'f' then (after? "false" cs).map fun left => (.bool false, left)
    else (number? cs).map fun (ds, left) => (.number (String.ofList ds), left)

/-- A key with its colon. -/
def key? (cs : List Char) : Option (String × List Char) :=
  match skipSpace cs with
  | '"' :: rest =>
    match readPieces rest with
    | some (ps, left) =>
      match joinPieces? ps, skipSpace left with
      | some k, ':' :: more => some (String.ofList k, more)
      | _, _ => none
    | none => none
  | _ => none

mutual

/-- A value at the front of a text. The first argument bounds the steps. -/
def value? : Nat → List Char → Option (Value × List Char)
  | 0, _ => none
  | n + 1, cs =>
    match skipSpace cs with
    | '[' :: rest =>
      match skipSpace rest with
      | ']' :: left => some (.list [], left)
      | inner => (items? n inner).map fun (vs, left) => (.list vs, left)
    | '\x7b' :: rest =>
      match skipSpace rest with
      | '\x7d' :: left => some (.object [], left)
      | inner => (members? n inner).map fun (ms, left) => (.object ms, left)
    | other => scalar? other

/-- Elements up to the closing bracket. -/
def items? : Nat → List Char → Option (List Value × List Char)
  | 0, _ => none
  | n + 1, cs =>
    match value? n cs with
    | none => none
    | some (v, rest) =>
      match skipSpace rest with
      | ']' :: left => some ([v], left)
      | ',' :: more => (items? n more).map fun (vs, left) => (v :: vs, left)
      | _ => none

/-- Members up to the closing brace. -/
def members? : Nat → List Char → Option (List (String × Value) × List Char)
  | 0, _ => none
  | n + 1, cs =>
    match key? cs with
    | none => none
    | some (k, rest) =>
      match value? n rest with
      | none => none
      | some (v, rest') =>
        match skipSpace rest' with
        | '\x7d' :: left => some ([(k, v)], left)
        | ',' :: more => (members? n more).map fun (ms, left) => ((k, v) :: ms, left)
        | _ => none

end

/-- The value that a whole text stands for. -/
def parse? (s : String) : Option Value :=
  let cs := s.toList
  match value? (2 * cs.length + 2) cs with
  | some (v, rest) => if (skipSpace rest).isEmpty then some v else none
  | none => none

end Json
end TypeAtlas
