import TypeAtlas.Source.Token
import TypeAtlas.Source.Node

/-!
# Grammars

A grammar is a table of rules over named parts. A rule reads a token list from the left and either
fails or yields the nodes it built and the tokens it left. Choice is ordered: the second
alternative is tried only if the first one fails, and what an alternative read is not taken up
again once it succeeded.

Tokens that a grammar looks past become nodes in front of the token they precede. A node that is
built from the yield of a rule leaves those at its front to its surroundings, so a comment ends up
below the smallest node that has something on both sides of it.

A text is read twice at most. The first reading takes only what the grammar allows. If that fails,
the second reading may also use the rules under `mend`, which pass over tokens that fit nowhere and
leave an error node for them.
-/
namespace TypeAtlas
namespace Source

/-- A test of one token. -/
inductive TokenTest where
  /-- A word that is not reserved. -/
  | name
  /-- Any word. -/
  | anyWord
  /-- One certain word. -/
  | word (w : String)
  /-- One certain symbol. -/
  | symbol (s : String)
  /-- One certain symbol that touches the token before it. -/
  | glued (s : String)
  /-- A branching directive of one kind. -/
  | branch (w : String)
  /-- Any token of a class. -/
  | cls (c : TokenClass)
  /-- Any token but one of the listed symbols. -/
  | otherThan (symbols : List String)

/-- The rules of a grammar whose named parts are of type `ν`. -/
inductive Rule (ν : Type) where
  /-- Reads nothing. -/
  | empty
  /-- Reads one token and yields a leaf. -/
  | token (test : TokenTest)
  /-- Reads one part after the other. -/
  | seq (first second : Rule ν)
  /-- Reads the second part where the first one fails. -/
  | alt (first second : Rule ν)
  /-- Reads the part as often as it goes. -/
  | many (part : Rule ν)
  /-- Succeeds where the part would; reads nothing. -/
  | ahead (part : Rule ν)
  /-- Succeeds where the part would fail; reads nothing. -/
  | notAhead (part : Rule ν)
  /-- A named part of the grammar. -/
  | ref (name : ν)
  /-- Puts the yield of the part below a new node. -/
  | node (kind : Kind) (part : Rule ν)
  /-- Gives the last node of the part's yield a role. -/
  | role (role : Role) (part : Rule ν)
  /-- Fails on the first reading. -/
  | mend (part : Rule ν)
  /-- Succeeds at the end of the text only. -/
  | done

/-- A table of rules, with the words that are no names. -/
structure Grammar (ν : Type) where
  rule : ν → Rule ν
  start : ν
  reserved : List String

namespace TokenTest

/-- The token passes the test. -/
def passes (reserved : List String) (t : Token) : TokenTest → Bool
  | name => decide (t.cls = .word) && !reserved.contains t.text
  | anyWord => decide (t.cls = .word)
  | word w => decide (t.cls = .word) && t.text == w
  | symbol s => decide (t.cls = .symbol) && t.text == s
  | glued s => decide (t.cls = .symbol) && t.touching && t.text == s
  | branch w => decide (t.cls = .branch) && t.text == w
  | cls c => decide (t.cls = c)
  | otherThan ss => !(decide (t.cls = .symbol) && ss.contains t.text)

/-- The kind of the leaf that the token becomes. -/
def leafKind (t : Token) : TokenTest → Kind
  | name => .identifier
  | anyWord => .identifier
  | word w => .keyword w
  | symbol s => .symbol s
  | glued s => .symbol s
  | branch _ => .directive
  | cls .word => .identifier
  | cls .symbol => .symbol t.text
  | cls .comment => .comment
  | cls .directive => .directive
  | cls _ => .literal
  | otherThan _ => .error

end TokenTest

/-- The leaf for a token. -/
def Token.leaf (t : Token) (k : Kind) : Node :=
  .mk k none t.start t.stop []

/-- The leaf for a token that the grammar looks past. -/
def Token.extraLeaf (t : Token) : Node :=
  t.leaf (if t.cls = .comment then .comment else .directive)

/-- The leaves of a list of tokens that the grammar looks past. -/
def extraLeaves (ts : List Token) : List Node :=
  ts.map Token.extraLeaf

/-- Nodes that stand for tokens a grammar looks past. -/
def Node.isExtra (n : Node) : Bool :=
  n.children.isEmpty && (n.kind = .comment || n.kind = .directive)

/-- Puts nodes below a new one. Comments at the front stay outside; without anything else there is
no new node. -/
def wrapNodes (k : Kind) (out : List Node) : List Node :=
  let front := out.takeWhile Node.isExtra
  let inner := out.dropWhile Node.isExtra
  match inner.head?, inner.getLast? with
  | some first, some last => front ++ [.mk k none first.start last.stop inner]
  | _, _ => front

/-- Gives the last node of a list a role. -/
def roleLast (r : Role) : List Node → List Node
  | [] => []
  | [n] => [n.withRole r]
  | n :: m :: rest => n :: roleLast r (m :: rest)

/-- What a rule yields: the nodes it built and the tokens it left. -/
abbrev Yield := Option (List Node × List Token)

/-- Reads a token list by a rule. `mending` tells the second reading from the first. The first
argument bounds the depth of the reading. -/
def Rule.read {ν : Type} (g : Grammar ν) (mending : Bool) : Nat → Rule ν → List Token → Yield
  | 0, _, _ => none
  | n + 1, r, ts =>
    match r with
    | .empty => some ([], ts)
    | .token test =>
      match ts.dropWhile Token.isExtra with
      | [] => none
      | t :: rest =>
        if test.passes g.reserved t then
          some (extraLeaves (ts.takeWhile Token.isExtra) ++ [t.leaf (test.leafKind t)], rest)
        else none
    | .seq p q =>
      match p.read g mending n ts with
      | none => none
      | some (out, rest) =>
        match q.read g mending n rest with
        | none => none
        | some (out', rest') => some (out ++ out', rest')
    | .alt p q =>
      match p.read g mending n ts with
      | some y => some y
      | none => q.read g mending n ts
    | .many p =>
      match p.read g mending n ts with
      | none => some ([], ts)
      | some (out, rest) =>
        match (Rule.many p).read g mending n rest with
        | none => none
        | some (out', rest') => some (out ++ out', rest')
    | .ahead p =>
      match p.read g mending n ts with
      | none => none
      | some _ => some ([], ts)
    | .notAhead p =>
      match p.read g mending n ts with
      | none => some ([], ts)
      | some _ => none
    | .ref name => (g.rule name).read g mending n ts
    | .node k p =>
      match p.read g mending n ts with
      | none => none
      | some (out, rest) => some (wrapNodes k out, rest)
    | .role r p =>
      match p.read g mending n ts with
      | none => none
      | some (out, rest) => some (roleLast r out, rest)
    | .mend p => if mending then p.read g mending n ts else none
    | .done =>
      if (ts.dropWhile Token.isExtra).isEmpty then some (extraLeaves ts, []) else none

/-- How deep a reading of so many tokens may go. -/
def Grammar.depth (count : Nat) : Nat :=
  400 * (count + 2)

/-- The syntax tree of a token list; `length` is the length of the text. -/
def Grammar.tree {ν : Type} (g : Grammar ν) (length : Nat) (ts : List Token) : Node :=
  let limit := Grammar.depth ts.length
  let root := fun out => Node.mk .unit none 0 length out
  match (g.rule g.start).read g false limit ts with
  | some (out, _) => root out
  | none =>
    match (g.rule g.start).read g true limit ts with
    | some (out, _) => root out
    | none => root [.mk .error none 0 length []]

/-! ### Ways to write rules -/

namespace Rule
variable {ν : Type}

/-- One part after another. -/
def all : List (Rule ν) → Rule ν
  | [] => empty
  | [r] => r
  | r :: rs => seq r (all rs)

/-- The first part that succeeds. -/
def oneOf : List (Rule ν) → Rule ν
  | [] => notAhead empty
  | [r] => r
  | r :: rs => alt r (oneOf rs)

/-- The part or nothing. -/
def opt (r : Rule ν) : Rule ν :=
  alt r empty

/-- The part at least once. -/
def many1 (r : Rule ν) : Rule ν :=
  seq r (many r)

/-- The part at least once, with a separator in between. -/
def sepBy (sep r : Rule ν) : Rule ν :=
  seq r (many (seq sep r))

/-- A certain word. -/
def word (w : String) : Rule ν :=
  token (.word w)

/-- A certain symbol. -/
def sym (s : String) : Rule ν :=
  token (.symbol s)

/-- A certain symbol that touches the token before it. -/
def glued (s : String) : Rule ν :=
  token (.glued s)

/-- One of several words. -/
def words (ws : List String) : Rule ν :=
  oneOf (ws.map word)

/-- One of several symbols. -/
def syms (ss : List String) : Rule ν :=
  oneOf (ss.map sym)

/-- A word that is not reserved. -/
def name : Rule ν :=
  token .name

/-- Any word. -/
def anyWord : Rule ν :=
  token .anyWord

/-- The part with commas in between. -/
def commas (r : Rule ν) : Rule ν :=
  sepBy (sym ",") r

/-- The part between two symbols. -/
def between (opening closing : String) (r : Rule ν) : Rule ν :=
  all [sym opening, r, sym closing]

end Rule

end Source
end TypeAtlas
