import TypeAtlas.Record.Basic
import TypeAtlas.Source.Node

/-!
# Declarations found in a syntax tree

What both languages have in common when types are taken out of a syntax tree: the declaration
nodes in the order of the text, the imports of the file, and names written with dots.
-/
namespace TypeAtlas
namespace Source

/-- A type found in a source text, with its declaration as it is written. -/
structure Declaration where
  record : TypeRecord
  text : String
  deriving DecidableEq, Repr

/-- A name written with dots, freed of all blanks. -/
def dottedName (cs : List Char) : String :=
  String.ofList (List.intercalate ['.']
    ((Text.splitAtChar '.' cs).map fun piece => (Text.words piece).flatten))

/-- The kind of type that a node declares. -/
def declaredKind? : Kind → Option TypeKind
  | .classDeclaration => some .classType
  | .interfaceDeclaration => some .interfaceType
  | .structDeclaration => some .structType
  | _ => none

/-- The nodes that declare a type, each with its kind and its ancestors from the nearest on. An
outer type comes before the types inside it. -/
def declaringNodes (root : Node) : List (TypeKind × Node × List Node) :=
  (root.walk []).filterMap fun (n, above) => (declaredKind? n.kind).map fun k => (k, n, above)

/-- The imports of a file as they are written. -/
def importTexts (p : Parsed) : List String :=
  ((p.root.walk []).filter fun (n, _) => decide (n.kind = .importLine)).map fun (n, _) =>
    n.text p.source

/-- The name in a node's name role. -/
def dottedNameOf? (p : Parsed) (n : Node) : Option String :=
  (n.child? .name).map fun m => dottedName (m.chars p.source)

/-- The texts of the parameters of a method. A parameter needs a name; a missing type is written
as the empty text. -/
def parametersOf (p : Parsed) (method : Node) : List Parameter :=
  match method.child? .parameters with
  | none => []
  | some list =>
    (list.childrenOf .parameter).filterMap fun q =>
      (q.child? .name).map fun name =>
        { type := ((q.child? .type).map (Node.text p.source)).getD ""
          name := name.text p.source }

/-- What a language decides about a declaration. -/
structure Dialect where
  /-- The namespace of a declaration with these ancestors. -/
  scope : Parsed → List Node → String
  /-- The base list, if there is one. -/
  bases? : Parsed → Node → Option (List String)
  /-- The flags; whether a type is inherited is decided elsewhere. -/
  flags : Parsed → Node → Flags
  /-- The methods. -/
  methods : Parsed → Node → List Method

/-- The type that a node declares, unless it has no name. -/
def Dialect.declaration? (d : Dialect) (p : Parsed) (path : String) (imports : List String) :
    TypeKind × Node × List Node → Option Declaration
  | (kind, n, above) =>
    (n.child? .name).map fun name =>
      let bare := (TypeRecord.new (name.text p.source) kind (d.scope p above) path).withImports
        imports
      let based := match d.bases? p n with
        | some bases => bare.withBases bases
        | none => bare
      { record := (based.withFlags (d.flags p n)).withMethods (d.methods p n)
        text := n.text p.source }

/-- The types declared in a source text. -/
def Dialect.declarations (d : Dialect) (p : Parsed) (path : String) : List Declaration :=
  (declaringNodes p.root).filterMap (d.declaration? p path (importTexts p))

end Source
end TypeAtlas
