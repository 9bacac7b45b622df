import TypeAtlas.Source.Declaration

/-!
# Declarations of Java

A file has one package, and it is the namespace of every type in it. A base list is made of what
stands behind the superclass keyword and of the interface lists; every named node there is an
entry. Only direct members of a type count.
-/
namespace TypeAtlas
namespace Source
namespace Java

/-- A node that can name a package. -/
def isName (n : Node) : Bool :=
  n.kind = .qualifiedName || n.kind = .identifier

/-- The package of a file. -/
def package? (p : Parsed) : Option String :=
  (p.root.childOf? .packageLine).bind fun line =>
    (line.namedChildren.find? isName).map fun n => dottedName (n.chars p.source)

/-- The namespace of every declaration of the file. -/
def scope (p : Parsed) (_ : List Node) : String :=
  (package? p).getD ""

/-- A node with entries of the base list. -/
def isBaseClause (n : Node) : Bool :=
  n.kind = .superclass || n.kind = .superInterfaces

/-- The entries of the base list in one clause. -/
def clauseBases (p : Parsed) (clause : Node) : List String :=
  if clause.kind = .superclass then clause.namedChildren.map (Node.text p.source)
  else
    (clause.childrenOf .typeList).flatMap fun list =>
      list.namedChildren.map (Node.text p.source)

/-- The base list as it is written. -/
def bases? (p : Parsed) (n : Node) : Option (List String) :=
  let clauses := n.children.filter isBaseClause
  if clauses.isEmpty then none else some (clauses.flatMap (clauseBases p))

/-- A keyword stands among the modifiers of a declaration. -/
def hasModifier (n : Node) (word : String) : Bool :=
  (n.childrenOf .modifierList).any fun list =>
    list.children.any fun c => decide (c.kind = .keyword word)

/-- The direct members of one kind. -/
def members (n : Node) (k : Kind) : List Node :=
  ((n.child? .body).map fun b => b.childrenOf k).getD []

/-- Some field is of the plain integer type. -/
def hasIntField (p : Parsed) (n : Node) : Bool :=
  (members n .fieldDeclaration).any fun field =>
    match field.child? .type with
    | some t => decide (t.kind = .primitiveType) && t.text p.source == "int"
    | none => false

/-- The flags of a declaration. A final type is a sealed one. -/
def flags (p : Parsed) (n : Node) : Flags :=
  { isStatic := hasModifier n "static"
    isSealed := hasModifier n "final" || hasModifier n "sealed"
    isAbstract := hasModifier n "abstract"
    hasIntField := hasIntField p n
    isInherited := false }

/-- A method. -/
def method? (p : Parsed) (m : Node) : Option Method :=
  (m.child? .name).map fun name =>
    { name := name.text p.source
      kind := if hasModifier m "static" then .ofType else .ofValue
      returnType := ((m.child? .type).map (Node.text p.source)).getD ""
      body := (m.child? .body).map (Node.text p.source)
      parameters := parametersOf p m }

/-- The methods of a type. -/
def methods (p : Parsed) (n : Node) : List Method :=
  (members n .methodDeclaration).filterMap (method? p)

/-- How declarations of Java are read. -/
def dialect : Dialect :=
  ⟨scope, bases?, flags, methods⟩

end Java
end Source
end TypeAtlas
