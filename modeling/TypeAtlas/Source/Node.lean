/-!
# Syntax trees

A node has a kind, the range of characters it spans, the role it plays for its parent and its
children in the order of the text. Comments are children like all others, of the smallest node
that has something on both sides of them.

The functions here only look at a tree. Nothing is assumed of it but, where a proof needs it,
`Node.Nested`: a child stays inside its parent.
-/
namespace TypeAtlas
namespace Source

/-- What a node of a syntax tree stands for. The kinds are those that the extraction of types asks
about; all else is `other`. Each is given with the names that the syntax trees of the two languages
have for it, C# before Java where they differ. -/
inductive Kind where
  /-- A certain word; not a named node. -/
  | keyword (word : String)
  /-- A certain operator or bracket; not a named node. -/
  | symbol (text : String)
  /-- `identifier`, where it is not a type. -/
  | identifier
  /-- A number, a character or a string. -/
  | literal
  /-- `comment`; `line_comment` or `block_comment`. -/
  | comment
  /-- A line for the preprocessor, such as `preproc_region` or `preproc_pragma`. C# only. -/
  | directive
  /-- `ERROR`, or a node that is missing from the text. -/
  | error
  /-- `compilation_unit`; `program`. -/
  | unit
  /-- `namespace_declaration`. C# only. -/
  | namespaceBlock
  /-- `file_scoped_namespace_declaration`. C# only. -/
  | namespaceLine
  /-- `package_declaration`. Java only. -/
  | packageLine
  /-- `using_directive`; `import_declaration`. -/
  | importLine
  /-- `class_declaration`. -/
  | classDeclaration
  /-- `interface_declaration`. -/
  | interfaceDeclaration
  /-- `struct_declaration`; `record_declaration`. -/
  | structDeclaration
  /-- `modifier`, one for each word. C# only. -/
  | modifier
  /-- `modifiers`, one for all words and annotations. Java only. -/
  | modifierList
  /-- `base_list`. C# only. -/
  | baseList
  /-- `superclass`. Java only. -/
  | superclass
  /-- `super_interfaces` of a class or a record, `extends_interfaces` of an interface. Java only. -/
  | superInterfaces
  /-- `type_list` inside an interface clause. Java only. -/
  | typeList
  /-- `argument_list`; in a base list, what the constructor of a base is given. -/
  | argumentList
  /-- `declaration_list`; `class_body` or `interface_body`. -/
  | memberList
  /-- `field_declaration`. -/
  | fieldDeclaration
  /-- `variable_declaration`, the type and the names of variables. C# only. -/
  | variableDeclaration
  /-- `variable_declarator`, the name of a variable and its first value. Java only. -/
  | declarator
  /-- `method_declaration`. -/
  | methodDeclaration
  /-- `parameter_list`; `formal_parameters`. -/
  | parameterList
  /-- `parameter`; `formal_parameter`. -/
  | parameter
  /-- `spread_parameter`: its name stands in a `declarator`. Java only; in C# the type and the name
  of such a parameter are children of the parameter list itself. -/
  | restParameter
  /-- `receiver_parameter`. Java only. -/
  | receiverParameter
  /-- `block`. -/
  | block
  /-- `predefined_type`; `integral_type`. -/
  | primitiveType
  /-- A type in any other form, such as `generic_name`, `array_type`, `type_identifier` or, as a
  type in C#, a mere `identifier`. -/
  | type
  /-- `qualified_name`; `scoped_identifier`. In C# a namespace of one word is one, too. -/
  | qualifiedName
  /-- Everything that is not asked about. -/
  | other
  deriving DecidableEq, Repr

/-- Keywords and symbols are not named; all other nodes are. -/
def Kind.isNamed : Kind → Bool
  | .keyword _ => false
  | .symbol _ => false
  | _ => true

/-- The role a node plays for its parent. -/
inductive Role where
  | name
  /-- The type of a variable or a parameter, or what a method returns. -/
  | type
  | body
  | parameters
  deriving DecidableEq, Repr

/-- A node of a syntax tree. -/
inductive Node where
  | mk (kind : Kind) (role : Option Role) (start stop : Nat) (children : List Node)

namespace Node

/-- What the node stands for. -/
def kind : Node → Kind
  | mk k _ _ _ _ => k

/-- The role the node plays for its parent. -/
def role : Node → Option Role
  | mk _ r _ _ _ => r

/-- The position of the node's first character. -/
def start : Node → Nat
  | mk _ _ a _ _ => a

/-- The position behind the node's last character. -/
def stop : Node → Nat
  | mk _ _ _ b _ => b

/-- The node's children in the order of the text. -/
def children : Node → List Node
  | mk _ _ _ _ cs => cs

/-- The node in another role. -/
def withRole (r : Role) : Node → Node
  | mk k _ a b cs => mk k (some r) a b cs

/-- The characters of the source that the node spans. -/
def chars (source : List Char) (n : Node) : List Char :=
  (source.drop n.start).take (n.stop - n.start)

/-- The text of the source that the node spans. -/
def text (source : List Char) (n : Node) : String :=
  String.ofList (n.chars source)

/-- The direct children of one kind. -/
def childrenOf (n : Node) (k : Kind) : List Node :=
  n.children.filter fun c => decide (c.kind = k)

/-- The first direct child of one kind. -/
def childOf? (n : Node) (k : Kind) : Option Node :=
  n.children.find? fun c => decide (c.kind = k)

/-- The first direct child in a role. -/
def child? (n : Node) (r : Role) : Option Node :=
  n.children.find? fun c => decide (c.role = some r)

/-- The direct children that are named. -/
def namedChildren (n : Node) : List Node :=
  n.children.filter fun c => c.kind.isNamed

mutual

/-- The node and everything below it, each with its ancestors from the nearest on; a node comes
before what is below it. -/
def walk (above : List Node) : Node → List (Node × List Node)
  | mk k r a b cs => (mk k r a b cs, above) :: walkAll (mk k r a b cs :: above) cs

/-- The walks of several siblings, one after another. -/
def walkAll (above : List Node) : List Node → List (Node × List Node)
  | [] => []
  | c :: cs => walk above c ++ walkAll above cs

end

mutual

/-- An error stands at the node or below it. -/
def hasError : Node → Bool
  | mk k _ _ _ cs => decide (k = .error) || anyHasError cs

/-- An error stands at one of the nodes or below it. -/
def anyHasError : List Node → Bool
  | [] => false
  | c :: cs => hasError c || anyHasError cs

end

mutual

/-- Every child stays inside its parent, at every depth. -/
def Nested : Node → Prop
  | mk _ _ a b cs => a ≤ b ∧ NestedIn a b cs

/-- The nodes lie between two positions and are nested themselves. -/
def NestedIn (a b : Nat) : List Node → Prop
  | [] => True
  | c :: cs => (a ≤ c.start ∧ c.stop ≤ b ∧ Nested c) ∧ NestedIn a b cs

end

end Node

/-- A source text with its syntax tree. -/
structure Parsed where
  source : List Char
  root : Node

end Source
end TypeAtlas
