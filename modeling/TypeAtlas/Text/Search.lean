import TypeAtlas.Text.Blank

/-!
# Searching and cutting texts

Occurrence of one text in another, cutting at a character, cutting into lines. The work is done on
lists of characters; the functions on `String` only change the representation.
-/
namespace TypeAtlas
namespace Text

/-- `pat` stands somewhere in the text. The empty pattern stands in every text. -/
def occursIn (pat : List Char) : List Char → Bool
  | [] => pat.isEmpty
  | c :: cs => pat.isPrefixOf (c :: cs) || occursIn pat cs

theorem occursIn_iff {pat text : List Char} : occursIn pat text = true ↔ pat <:+: text := by
  induction text with
  | nil => simp [occursIn]
  | cons c cs ih =>
    simp only [occursIn, Bool.or_eq_true, List.isPrefixOf_iff_prefix, ih, List.infix_cons_iff]

/-- The text `s` contains the text `pat`. -/
def contains (s pat : String) : Bool :=
  occursIn pat.toList s.toList

/-- The text `s` opens with the text `pat`. -/
def startsWith (s pat : String) : Bool :=
  pat.toList.isPrefixOf s.toList

/-- The pieces between the separators; there is always one more piece than there are separators. -/
def splitAtChar (sep : Char) : List Char → List (List Char)
  | [] => [[]]
  | c :: cs =>
    if c = sep then [] :: splitAtChar sep cs
    else
      match splitAtChar sep cs with
      | [] => [[c]]
      | piece :: pieces => (c :: piece) :: pieces

/-- `splitAtChar` on texts. -/
def split (sep : Char) (s : String) : List String :=
  (splitAtChar sep s.toList).map String.ofList

/-- The lines of a text. A line ends at a line feed; what follows the last line feed is a line
only if it is not empty. Carriage returns at the end of a line are part of its end. -/
def lines (cs : List Char) : List (List Char) :=
  let pieces := splitAtChar '\n' cs
  let kept := if pieces.getLast? = some [] then pieces.dropLast else pieces
  kept.map (dropEndWhile (· == '\r'))

/-- The texts put one after another with `sep` in between. -/
def join (sep : String) : List String → String
  | [] => ""
  | [s] => s
  | s :: rest => s ++ sep ++ join sep rest

/-- Every occurrence of one character replaced by another. -/
def replaceChar (old new : Char) (s : String) : String :=
  String.ofList (s.toList.map fun c => if c = old then new else c)

/-- What follows the last character that satisfies `p`; the whole text if there is none. -/
def afterLast (p : Char → Bool) (cs : List Char) : List Char :=
  (cs.reverse.takeWhile (fun c => !p c)).reverse

/-- Equality of texts up to the case of ASCII letters. -/
def eqIgnoreAsciiCase (s t : String) : Bool :=
  s.toList.map Char.toLower == t.toList.map Char.toLower

/-- The text without the dots it opens with. -/
def dropLeadingDots (s : String) : String :=
  String.ofList (s.toList.dropWhile (· == '.'))

end Text
end TypeAtlas
