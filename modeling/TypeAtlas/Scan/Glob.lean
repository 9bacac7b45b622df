import TypeAtlas.Text.Search

/-!
# Name patterns

Patterns for relative paths. A question mark stands for one byte and a star for any number of bytes
of a name, so neither crosses a slash; two stars between slashes stand for any number of
directories. A class in brackets stands for one byte, a group in braces for one of its alternatives.
A backslash takes the next character literally.

Paths are compared byte by byte.
-/
namespace TypeAtlas

/-- A part of a pattern. -/
inductive Glob where
  /-- This character. -/
  | literal (c : Char)
  /-- One byte other than a slash. -/
  | anyByte
  /-- Any number of bytes other than a slash. -/
  | anyName
  /-- Nothing, or anything up to a slash: two stars at the front. -/
  | anyFront
  /-- A slash and anything behind it: two stars at the end. -/
  | anyBack
  /-- A slash, or two slashes with anything in between: two stars in the middle. -/
  | anyMiddle
  /-- One byte inside, or outside, of the ranges. -/
  | oneOf (outside : Bool) (ranges : List (Char × Char))
  /-- One of the alternatives. -/
  | choice (alternatives : List (List Glob))
  deriving Repr

namespace Glob

/-- The bytes of a character. -/
def charBytes (c : Char) : List UInt8 :=
  (String.singleton c).toUTF8.data.toList

/-- The slash. -/
def slash : UInt8 := 0x2F

/-! ### Matching -/

/-- Cuts off any number of leading bytes that satisfy `p` so that the rest satisfies `rest`. -/
def spans (p : UInt8 → Bool) (rest : List UInt8 → Bool) : List UInt8 → Bool
  | [] => rest []
  | b :: bs => rest (b :: bs) || (p b && spans p rest bs)

/-- Cuts off a given front. -/
def strips (front : List UInt8) (rest : List UInt8 → Bool) (bs : List UInt8) : Bool :=
  front.isPrefixOf bs && rest (bs.drop front.length)

/-- Anything up to a slash, which is cut off with it. -/
def throughSlash (rest : List UInt8 → Bool) : List UInt8 → Bool :=
  spans (fun _ => true) (strips [slash] rest)

/-- The bytes of the characters of a range. The bytes at its inner ends bound a range of bytes. -/
def rangeHolds (b : UInt8) (r : Char × Char) : Bool :=
  let low := charBytes r.1
  let high := charBytes r.2
  if r.1 = r.2 then low.contains b
  else low.dropLast.contains b || (high.drop 1).contains b
    || (decide (low.getLast?.getD 0 ≤ b) && decide (b ≤ high.head?.getD 0))

/-- A class holds a byte. -/
def classHolds (outside : Bool) (ranges : List (Char × Char)) (b : UInt8) : Bool :=
  (ranges.any (rangeHolds b)) != outside

mutual

/-- A pattern stands for nothing but the empty text and writes nothing down. -/
def isVoid : Glob → Bool
  | choice alternatives => allVoid alternatives
  | _ => false

/-- All parts are void. -/
def areVoid : List Glob → Bool
  | [] => true
  | g :: gs => g.isVoid && areVoid gs

/-- All alternatives are void. -/
def allVoid : List (List Glob) → Bool
  | [] => true
  | a :: rest => areVoid a && allVoid rest

end

mutual

/-- Some front of the text matches the part and leaves a rest that satisfies `rest`. -/
def run : Glob → (List UInt8 → Bool) → List UInt8 → Bool
  | literal c, rest, bs => strips (charBytes c) rest bs
  | anyByte, rest, bs =>
    match bs with
    | b :: more => b != slash && rest more
    | [] => false
  | anyName, rest, bs => spans (· != slash) rest bs
  | anyFront, rest, bs => rest bs || throughSlash rest bs
  | anyBack, rest, bs => strips [slash] (spans (fun _ => true) rest) bs
  | anyMiddle, rest, bs => strips [slash] (fun more => rest more || throughSlash rest more) bs
  | oneOf outside ranges, rest, bs =>
    match bs with
    | b :: more => classHolds outside ranges b && rest more
    | [] => false
  | choice alternatives, rest, bs =>
    if allVoid alternatives then rest bs else runAny alternatives rest bs

/-- The parts one after another. -/
def runAll : List Glob → (List UInt8 → Bool) → List UInt8 → Bool
  | [], rest, bs => rest bs
  | g :: gs, rest, bs => g.run (runAll gs rest) bs

/-- Some alternative that is not void. -/
def runAny : List (List Glob) → (List UInt8 → Bool) → List UInt8 → Bool
  | [], _, _ => false
  | a :: more, rest, bs => (!areVoid a && runAll a rest bs) || runAny more rest bs

end

/-- A pattern matches the whole of a path. Two stars with nothing before or behind them match every
path. -/
def matchesAll (pattern : List Glob) (path : String) : Bool :=
  match pattern with
  | [.anyFront] => true
  | _ => runAll pattern List.isEmpty path.toUTF8.data.toList

/-! ### Reading -/

/-- The ranges of a class, the last one first, whether one is still open, and the text behind the
closing bracket. A bracket or a minus at the front stands for itself; none if there is no closing
bracket, and `some none` if a range goes backwards. -/
def readRanges (first openRange : Bool) (acc : List (Char × Char)) :
    List Char → Option (Option (List (Char × Char) × List Char))
  | [] => none
  | c :: cs =>
    if c = ']' && !first then
      some (some ((if openRange then ('-', '-') :: acc else acc).reverse, cs))
    else if c = '-' && !first && !openRange then readRanges false true acc cs
    else if openRange then
      match acc with
      | (low, _) :: more =>
        if c.toNat < low.toNat then some none
        else readRanges false false ((low, c) :: more) cs
      | [] => some none
    else readRanges false false ((c, c) :: acc) cs

/-- What is known while a pattern is read: the parts of the current alternative, last one first, and
for every open group the parts before it and its alternatives so far, both last one first. -/
structure Draft where
  current : List Glob
  groups : List (List Glob × List (List Glob))

namespace Draft

/-- Puts a part behind the others. -/
def push (d : Draft) (g : Glob) : Draft :=
  { d with current := g :: d.current }

/-- Opens a group. -/
def openGroup (d : Draft) : Draft :=
  ⟨[], (d.current, []) :: d.groups⟩

/-- Ends an alternative of the innermost group. -/
def nextAlternative (d : Draft) : Draft :=
  match d.groups with
  | [] => d.push (.literal ',')
  | (before, done) :: more => ⟨[], (before, d.current.reverse :: done) :: more⟩

/-- Closes the innermost group. -/
def closeGroup (d : Draft) : Option Draft :=
  match d.groups with
  | [] => none
  | (before, done) :: more =>
    some ⟨.choice (d.current.reverse :: done).reverse :: before, more⟩

/-- Puts two stars where they stand for directories in the stead of the slash before them. -/
def pushDirectories (d : Draft) (atEnd : Bool) : Draft :=
  match d.current with
  | .anyFront :: _ => d
  | .anyBack :: _ => d
  | _ :: more => { d with current := (if atEnd then .anyBack else .anyMiddle) :: more }
  | [] => d

/-- Puts two stars that stand for bytes of a name. -/
def pushStars (d : Draft) : Draft :=
  (d.push .anyName).push .anyName

end Draft

/-- Puts two stars, given the character before them and the text behind them; gives the text that is
left and the last character read. -/
def readStars (prev : Option Char) (d : Draft) (behind : List Char) : Draft × Char × List Char :=
  let plain := (d.pushStars, '*', behind)
  let inGroup := !d.groups.isEmpty
  let opens := prev == some '/'
    || (inGroup && (prev == some ',' || prev == some (Char.ofNat 0x7B)))
  if d.current.isEmpty then
    match behind with
    | [] => (d.push .anyFront, '*', [])
    | '/' :: rest => (d.push .anyFront, '/', rest)
    | _ => plain
  else if !opens then plain
  else
    match behind with
    | [] => (d.pushDirectories true, '*', [])
    | '/' :: rest => (d.pushDirectories false, '/', rest)
    | c :: _ =>
      if inGroup && (c == ',' || c.toNat == 0x7D) then (d.pushDirectories true, '*', behind)
      else plain

/-- Reads a pattern, at most so many parts of it, behind a character. -/
def read : Nat → Option Char → Draft → List Char → Option (List Glob)
  | _, _, d, [] => if d.groups.isEmpty then some d.current.reverse else none
  | 0, _, _, _ :: _ => none
  | n + 1, prev, d, c :: cs =>
    if c = '?' then read n (some c) (d.push .anyByte) cs
    else if c = '*' then
      match cs with
      | '*' :: rest =>
        let (next, last, left) := readStars prev d rest
        read n (some last) next left
      | _ => read n (some c) (d.push .anyName) cs
    else if c = '[' then
      let (outside, body) := match cs with
        | '!' :: rest => (true, rest)
        | '^' :: rest => (true, rest)
        | _ => (false, cs)
      match readRanges true false [] body with
      | none => read n (some c) (d.push (.literal c)) cs
      | some none => none
      | some (some (ranges, rest)) => read n (some ']') (d.push (.oneOf outside ranges)) rest
    else if c.toNat = 0x7B then read n (some c) d.openGroup cs
    else if c.toNat = 0x7D then d.closeGroup.bind fun closed => read n (some c) closed cs
    else if c = ',' then read n (some c) d.nextAlternative cs
    else if c = '\\' then
      match cs with
      | [] => none
      | e :: rest => read n (some e) (d.push (.literal e)) rest
    else read n (some c) (d.push (.literal c)) cs

/-- The pattern that a text stands for. None if a group is left open or closed too often, if a range
goes backwards, or if nothing follows a backslash. A bracket that is never closed stands for
itself. -/
def parse? (cs : List Char) : Option (List Glob) :=
  read cs.length none ⟨[], []⟩ cs

end Glob
end TypeAtlas
