import TypeAtlas.Files.Tree
import TypeAtlas.Scan.Glob

/-!
# Ignore files

An ignore file has a rule in each line. A rule says that what matches its pattern is to be passed
over, or, with an exclamation mark in front, that it is not. The last rule that matches decides.

A pattern with a slash before its end is compared with the whole path relative to the directory of
the file, any other one with the end of the path. With a slash at its end it is meant for
directories alone.
-/
namespace TypeAtlas

/-- What rules say about a path. -/
inductive Verdict where
  | skip
  | keep
  deriving DecidableEq, Repr

/-- A line of an ignore file. -/
structure IgnoreRule where
  pattern : List Glob
  verdict : Verdict
  /-- The rule is about directories alone. -/
  onlyDirs : Bool
  deriving Repr

namespace IgnoreRule

/-- A text ends in a slash behind which nothing is lost; a backslash before it goes with it. -/
def cutSlash (cs : List Char) : List Char × Bool :=
  match cs.reverse with
  | '/' :: '\\' :: rest => (rest.reverse, true)
  | '/' :: rest => (rest.reverse, true)
  | _ => (cs, false)

/-- The text of a line without blanks at its end, which stay if the last one is escaped. -/
def cutBlanks (cs : List Char) : List Char :=
  match cs.reverse with
  | ' ' :: '\\' :: _ => cs
  | _ => Text.dropEndWhile Text.isBlank cs

/-- The pattern text of a rule whose pattern is or is not bound to the directory of the file. Two
stars at the end stand for what is inside a directory, not for the directory itself. -/
def patternText (bound : Bool) (cs : List Char) : List Char :=
  let free := !bound && !cs.contains '/'
  let text := if free && cs != ['*', '*'] then '*' :: '*' :: '/' :: cs else cs
  if ['/', '*', '*'].isSuffixOf text then text ++ ['/', '*'] else text

/-- The verdict of a line, whether its pattern is bound to the directory of the file, and the rest
of the line. -/
def front : List Char → Verdict × Bool × List Char
  | '\\' :: '!' :: rest => (.skip, false, '!' :: rest)
  | '\\' :: '#' :: rest => (.skip, false, '#' :: rest)
  | '!' :: '/' :: rest => (.keep, true, rest)
  | '!' :: rest => (.keep, false, rest)
  | '/' :: rest => (.skip, true, rest)
  | cs => (.skip, false, cs)

/-- The rule of a line. Comments, empty lines and lines without a pattern have none. -/
def parse? (line : List Char) : Option IgnoreRule :=
  if line.head? = some '#' then none
  else
    let text := cutBlanks line
    if text = [] then none
    else
      let (verdict, bound, rest) := front text
      let (body, onlyDirs) := cutSlash rest
      (Glob.parse? (patternText bound body)).map fun pattern => ⟨pattern, verdict, onlyDirs⟩

/-- A rule is about a path, relative to the directory of its file. -/
def applies (r : IgnoreRule) (path : String) (isDir : Bool) : Bool :=
  (isDir || !r.onlyDirs) && Glob.matchesAll r.pattern path

/-- What the rules of a file say: the last one that applies decides. -/
def verdict? (rules : List IgnoreRule) (path : String) (isDir : Bool) : Option Verdict :=
  (rules.reverse.find? fun r => r.applies path isDir).map IgnoreRule.verdict

/-- The lines of an ignore file. A line that is not well-formed text ends the file. A byte order
mark at the front is passed over. -/
def fileLines (bytes : ByteArray) : List (List Char) :=
  let readable := (go bytes.data.toList).map (fun l => String.fromUTF8? ⟨l.toArray⟩)
  match (readable.takeWhile Option.isSome).filterMap id with
  | [] => []
  | first :: rest =>
    first.toList.dropWhile (fun c => c.toNat == 0xFEFF) :: rest.map String.toList
where
  /-- The bytes of the lines. -/
  go : List UInt8 → List (List UInt8)
    | [] => []
    | 0x0A :: bs => [] :: go bs
    | 0x0D :: 0x0A :: bs => [] :: go bs
    | b :: bs =>
      match bs with
      | [] => [[b]]
      | _ =>
        match go bs with
        | [] => [[b]]
        | l :: ls => (b :: l) :: ls

/-- The rules of an ignore file. -/
def ofFile (bytes : ByteArray) : List IgnoreRule :=
  (fileLines bytes).filterMap parse?

end IgnoreRule
end TypeAtlas
