import TypeAtlas.Source.Declaration

/-!
# Declarations of C#

The namespace of a type is the one of the nearest namespace block around it, else the one that the
file as a whole is given, else the global one. Only direct members of a type count.
-/
namespace TypeAtlas
namespace Source
namespace CSharp

/-- A node that gives a namespace to what is below it. -/
def isNamespace (n : Node) : Bool :=
  n.kind = .namespaceBlock || n.kind = .namespaceLine

/-- The namespace of the nearest ancestor that gives one. -/
def enclosingScope? (p : Parsed) (above : List Node) : Option String :=
  (above.find? isNamespace).bind (dottedNameOf? p)

/-- The namespace that the file as a whole is given. -/
def fileScope? (p : Parsed) : Option String :=
  (p.root.childOf? .namespaceLine).bind (dottedNameOf? p)

/-- The namespace of a declaration with these ancestors. -/
def scope (p : Parsed) (above : List Node) : String :=
  (enclosingScope? p above).getD ((fileScope? p).getD "")

/-- An entry of a base list. -/
def isBase (n : Node) : Bool :=
  n.kind != .argumentList && n.kind != .comment

/-- The base list as it is written. -/
def bases? (p : Parsed) (n : Node) : Option (List String) :=
  (n.childOf? .baseList).map fun list =>
    (list.namedChildren.filter isBase).map (Node.text p.source)

/-- The modifiers of a declaration. -/
def modifiers (p : Parsed) (n : Node) : List String :=
  (n.childrenOf .modifier).map fun m => String.ofList (Text.trim (m.chars p.source))

/-- The member list of a type. -/
def memberList? (n : Node) : Option Node :=
  match (n.child? .body).filter fun b => decide (b.kind = .memberList) with
  | some b => some b
  | none => n.childOf? .memberList

/-- The direct members of one kind. -/
def members (n : Node) (k : Kind) : List Node :=
  ((memberList? n).map fun b => b.childrenOf k).getD []

/-- A declaration of variables of the plain integer type. -/
def declaresInt (p : Parsed) (declared : Node) : Bool :=
  match declared.child? .type with
  | some t => decide (t.kind = .primitiveType) && t.text p.source == "int"
  | none => false

/-- Some field is of the plain integer type. -/
def hasIntField (p : Parsed) (n : Node) : Bool :=
  (members n .fieldDeclaration).any fun field =>
    (field.childrenOf .variableDeclaration).any (declaresInt p)

/-- The flags of a declaration. -/
def flags (p : Parsed) (n : Node) : Flags :=
  let words := modifiers p n
  { isStatic := words.contains "static"
    isSealed := words.contains "sealed"
    isAbstract := words.contains "abstract"
    hasIntField := hasIntField p n
    isInherited := false }

/-- A method; only a body in braces counts as one. -/
def method? (p : Parsed) (m : Node) : Option Method :=
  (m.child? .name).map fun name =>
    { name := name.text p.source
      kind := if (modifiers p m).contains "static" then .ofType else .ofValue
      returnType := ((m.child? .type).map (Node.text p.source)).getD ""
      body := ((m.child? .body).filter fun b => decide (b.kind = .block)).map (Node.text p.source)
      parameters := parametersOf p m }

/-- The methods of a type. -/
def methods (p : Parsed) (n : Node) : List Method :=
  (members n .methodDeclaration).filterMap (method? p)

/-- How declarations of C# are read. -/
def dialect : Dialect :=
  ⟨scope, bases?, flags, methods⟩

end CSharp
end Source
end TypeAtlas
