import TypeAtlas.Toml.Scalar

/-!
# Reading TOML documents

A document is a sequence of lines: keys with their values, and headers that say to which table the
keys behind them belong. A byte order mark may stand at its front.
-/
namespace TypeAtlas
namespace Toml

/-- The member of a key that is split off its last name. -/
def splitKey (names : List String) : Option (List String × String) :=
  names.getLast?.map fun last => (names.dropLast, last)

/-- A key within the limit of levels. -/
def boundedKey? (cs : List Char) : Option (List String × List Char) :=
  key? (depthLimit - 1) cs

/-- Reads a value off the front of a text. -/
abbrev ValueReader := List Char → Option (Value × List Char)

/-- The elements of a list up to its closing bracket, at most so many. -/
def elements? (value : ValueReader) : Nat → List Char → Option (List Value × List Char)
  | 0, _ => none
  | _ + 1, [] => none
  | count + 1, c :: cs =>
    if c = ']' then some ([], cs)
    else do
      let (v, rest) ← value (c :: cs)
      match ← skipLines? rest.length rest with
      | ',' :: more => do
        let next ← skipLines? more.length more
        let (vs, left) ← elements? value count next
        pure (v :: vs, left)
      | ']' :: left => pure ([v], left)
      | _ => none

/-- The members of a table in braces up to its closing brace, at most so many. -/
def pairs? (value : ValueReader) : Nat → Members → List Char → Option (Members × List Char)
  | 0, _, _ => none
  | count + 1, ms, cs => do
    let (names, rest) ← boundedKey? cs
    let (path, name) ← splitKey names
    let '=' :: rest := rest | none
    let (v, rest) ← value (rest.dropWhile isSpace)
    let ms ← Members.addKey path name v .inline ms
    match rest.dropWhile isSpace with
    | ',' :: more => pairs? value count ms more
    | c :: left => if c.toNat = 0x7D then pure (ms, left) else none
    | [] => none

/-- A list behind its opening bracket. -/
def list? (value : ValueReader) (cs : List Char) : Option (Value × List Char) :=
  (skipLines? cs.length cs).bind fun rest =>
    (elements? value (rest.length + 1) rest).map fun (vs, left) => (.list vs, left)

/-- A table behind its opening brace. -/
def inlineTable? (value : ValueReader) (cs : List Char) : Option (Value × List Char) :=
  match cs.dropWhile isSpace with
  | [] => none
  | c :: rest =>
    if c.toNat = 0x7D then some (.table .inline [], rest)
    else
      (pairs? value (rest.length + 1) [] (c :: rest)).map fun (ms, left) =>
        (.table .inline ms, left)

/-- A value with at most so many levels. -/
def value? : Nat → ValueReader
  | 0, _ => none
  | _ + 1, [] => none
  | depth + 1, c :: cs =>
    if c = '"' || isTick c then (text? (c :: cs)).map fun (s, rest) => (.text s, rest)
    else if c = '[' then if depth = 0 then none else list? (value? depth) cs
    else if c.toNat = 0x7B then if depth = 0 then none else inlineTable? (value? depth) cs
    else word? (c :: cs)

/-- What is known while a document is read: all members, and the table that keys belong to. -/
structure Draft where
  root : Members
  current : List String

namespace Draft

/-- Adds a key with its value to the current table. -/
def addKey (d : Draft) (names : List String) (v : Value) : Option Draft := do
  let (path, name) ← splitKey names
  let root ← Members.descend false (Members.addKey path name v) d.current .header d.root
  pure { d with root }

/-- Goes on with the table of a header. -/
def openTable (d : Draft) (names : List String) (isElement : Bool) : Option Draft := do
  let (path, name) ← splitKey names
  let change := if isElement then Members.openElement name else Members.openTable name
  let root ← Members.descend false change path .header d.root
  pure ⟨root, names⟩

end Draft

/-- A header from its first bracket to the end of its line. -/
def header? (d : Draft) : List Char → Option (Draft × List Char)
  | '[' :: '[' :: cs => do
    let (names, rest) ← boundedKey? cs
    let ']' :: ']' :: rest := rest | none
    pure (← d.openTable names true, ← lineEnd? rest)
  | '[' :: cs => do
    let (names, rest) ← boundedKey? cs
    let ']' :: rest := rest | none
    pure (← d.openTable names false, ← lineEnd? rest)
  | _ => none

/-- A key with its value to the end of its line. -/
def keyLine? (d : Draft) (cs : List Char) : Option (Draft × List Char) := do
  let (names, rest) ← boundedKey? cs
  let '=' :: rest := rest | none
  let (v, rest) ← value? depthLimit (rest.dropWhile isSpace)
  pure (← d.addKey names v, ← lineEnd? rest)

/-- The lines of a document, at most so many. -/
def lines? : Nat → Draft → List Char → Option Draft
  | 0, d, cs => if cs.isEmpty then some d else none
  | n + 1, d, cs =>
    match cs.dropWhile isSpace with
    | [] => some d
    | c :: rest =>
      if c = '#' || c = '\n' || c = '\r' then (lineEnd? (c :: rest)).bind (lines? n d)
      else
        (if c = '[' then header? d (c :: rest) else keyLine? d (c :: rest)).bind
          fun (next, left) => lines? n next left

/-- The members of a document. -/
def parse? (s : String) : Option Members :=
  let cs := match s.toList with
    | c :: rest => if c.toNat = 0xFEFF then rest else c :: rest
    | [] => []
  (lines? (cs.length + 1) ⟨[], []⟩ cs).map Draft.root

end Toml
end TypeAtlas
