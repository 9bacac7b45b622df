/-!
# Documents

The values of a JSON document and the one way they are written here: two blanks for each level, a
member or an element on each line, nothing behind the last line. Of the characters of a string only
the quote, the backslash and those below the blank are escaped.
-/
namespace TypeAtlas
namespace Json

/-- A value of a document. Numbers keep their spelling. -/
inductive Value where
  | null
  | bool (b : Bool)
  | number (spelling : String)
  | text (s : String)
  /-- A string with half of a surrogate pair in it; it stands for no text. -/
  | brokenText
  | list (items : List Value)
  | object (members : List (String × Value))

/-- A hexadecimal digit. -/
def hexDigit (n : Nat) : Char :=
  if n < 10 then Char.ofNat (48 + n) else Char.ofNat (87 + n)

/-- How a character of a string is written. -/
def escape (c : Char) : List Char :=
  if c = '"' then ['\\', '"']
  else if c = '\\' then ['\\', '\\']
  else if c.toNat = 8 then ['\\', 'b']
  else if c.toNat = 9 then ['\\', 't']
  else if c.toNat = 10 then ['\\', 'n']
  else if c.toNat = 12 then ['\\', 'f']
  else if c.toNat = 13 then ['\\', 'r']
  else if c.toNat < 32 then
    ['\\', 'u', '0', '0', hexDigit (c.toNat / 16), hexDigit (c.toNat % 16)]
  else [c]

/-- A string with its quotes. -/
def quoted (s : String) : List Char :=
  '"' :: (s.toList.flatMap escape ++ ['"'])

/-- A new line at a depth. -/
def newline (depth : Nat) : List Char :=
  '\n' :: List.replicate (2 * depth) ' '

mutual

/-- The text of a value at a depth. -/
def Value.write (depth : Nat) : Value → List Char
  | .null => "null".toList
  | .bool b => (if b then "true" else "false").toList
  | .number s => s.toList
  | .text s => quoted s
  | .brokenText => quoted ""
  | .list [] => ['[', ']']
  | .list (v :: vs) =>
    '[' :: (newline (depth + 1) ++ v.write (depth + 1) ++ writeItems (depth + 1) vs
      ++ newline depth ++ [']'])
  | .object [] => ['\x7b', '\x7d']
  | .object ((k, v) :: ms) =>
    '\x7b' :: (newline (depth + 1) ++ quoted k ++ [':', ' '] ++ v.write (depth + 1)
      ++ writeMembers (depth + 1) ms ++ newline depth ++ ['\x7d'])

/-- The text of the elements behind the first one. -/
def writeItems (depth : Nat) : List Value → List Char
  | [] => []
  | v :: vs => ',' :: (newline depth ++ v.write depth ++ writeItems depth vs)

/-- The text of the members behind the first one. -/
def writeMembers (depth : Nat) : List (String × Value) → List Char
  | [] => []
  | (k, v) :: ms =>
    ',' :: (newline depth ++ quoted k ++ [':', ' '] ++ v.write depth ++ writeMembers depth ms)

end

/-- The text of a document. -/
def Value.render (v : Value) : String :=
  String.ofList (v.write 0)

end Json
end TypeAtlas
