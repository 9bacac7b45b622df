import TypeAtlas.Text.Search

/-!
# Type records

A record describes one type: where it is declared, what it is called, what its file imports, what
its modifiers and members say about it. Everything behind the extraction works on records alone.

A type may be declared in several parts. `TypeRecord.absorb` takes a further part into the first
one.
-/
namespace TypeAtlas

/-- The kind of a type. -/
inductive TypeKind where
  | classType
  | interfaceType
  | structType
  deriving DecidableEq, Repr

namespace TypeKind

/-- The name of a kind in documents and tables. -/
def label : TypeKind → String
  | classType => "Class"
  | interfaceType => "Interface"
  | structType => "Struct"

/-- The kind with a name. -/
def ofLabel? (s : String) : Option TypeKind :=
  if s = "Class" then some classType
  else if s = "Interface" then some interfaceType
  else if s = "Struct" then some structType
  else none

theorem ofLabel?_label (k : TypeKind) : ofLabel? k.label = some k := by
  cases k <;> rfl

end TypeKind

/-- Whether a method belongs to the type or to its values. -/
inductive MethodKind where
  | ofType
  | ofValue
  deriving DecidableEq, Repr

namespace MethodKind

/-- The name of a kind of method in documents. -/
def label : MethodKind → String
  | ofType => "static"
  | ofValue => "instance"

/-- The kind of method with a name. -/
def ofLabel? (s : String) : Option MethodKind :=
  if s = "static" then some ofType
  else if s = "instance" then some ofValue
  else none

end MethodKind

/-- What modifiers and members say about a type. -/
structure Flags where
  isStatic : Bool
  isSealed : Bool
  isAbstract : Bool
  /-- Some field is of the plain integer type. -/
  hasIntField : Bool
  /-- The declaration has a base list. -/
  isInherited : Bool
  deriving DecidableEq, Repr

/-- No flag is set. -/
def Flags.unset : Flags :=
  ⟨false, false, false, false, false⟩

/-- A parameter as it is written. -/
structure Parameter where
  type : String
  name : String
  deriving DecidableEq, Repr

/-- A method of a type. -/
structure Method where
  name : String
  kind : MethodKind
  /-- The return type as it is written. -/
  returnType : String
  /-- The body as it is written, braces included. -/
  body : Option String
  parameters : List Parameter
  deriving DecidableEq, Repr

/-- What is known about one type. -/
structure TypeRecord where
  fileName : String
  filePath : String
  kind : TypeKind
  name : String
  /-- The dotted namespace; empty for the global one. -/
  scope : String
  /-- The imports of the declaring files as they are written. -/
  imports : List String
  flags : Flags
  /-- The base list as it is written, if there is one. -/
  bases : Option (List String)
  methods : List Method
  deriving DecidableEq, Repr

/-- A list followed by those entries of another one that it does not hold, each once. -/
def union (own other : List String) : List String :=
  other.foldl (fun acc x => if x ∈ acc then acc else acc ++ [x]) own

namespace TypeRecord

/-- The name of the file at the end of a path; both slashes separate. -/
def fileNameOf (path : String) : String :=
  String.ofList (Text.afterLast (fun c => c == '/' || c == '\\') path.toList)

/-- A record of a type without imports, flags, bases and methods. -/
def new (name : String) (kind : TypeKind) (scope path : String) : TypeRecord :=
  ⟨fileNameOf path, path, kind, name, scope, [], .unset, none, []⟩

/-- Sets the imports. -/
def withImports (imports : List String) (r : TypeRecord) : TypeRecord :=
  { r with imports }

/-- Sets the flags; whether the type is inherited is decided by the base list alone. -/
def withFlags (flags : Flags) (r : TypeRecord) : TypeRecord :=
  { r with flags := { flags with isInherited := r.bases.isSome } }

/-- Sets the base list. -/
def withBases (bases : List String) (r : TypeRecord) : TypeRecord :=
  { r with bases := some bases, flags := { r.flags with isInherited := true } }

/-- Sets the methods. -/
def withMethods (methods : List Method) (r : TypeRecord) : TypeRecord :=
  { r with methods }

/-- The base list of two parts of a type. -/
def mergedBases (own other : Option (List String)) : Option (List String) :=
  match other with
  | none => own
  | some bases => some (union (own.getD []) bases)

/-- Takes another part of the same type in. Imports and bases are united in the order of their
first appearance, methods are appended, flags are combined; all else stays. -/
def absorb (r other : TypeRecord) : TypeRecord :=
  { r with
    imports := union r.imports other.imports
    bases := mergedBases r.bases other.bases
    methods := r.methods ++ other.methods
    flags :=
      { isStatic := r.flags.isStatic || other.flags.isStatic
        isSealed := r.flags.isSealed || other.flags.isSealed
        isAbstract := r.flags.isAbstract || other.flags.isAbstract
        hasIntField := r.flags.hasIntField || other.flags.hasIntField
        isInherited := r.flags.isInherited || other.bases.isSome } }

/-- Namespace and name with a dot in between. -/
def identifier (r : TypeRecord) : String :=
  r.scope ++ "." ++ r.name

/-- The pair that tells types apart. -/
def key (r : TypeRecord) : String × String :=
  (r.scope, r.name)

/-- The base list, empty if there is none. -/
def baseNames (r : TypeRecord) : List String :=
  r.bases.getD []

/-- A written type is a name, or a name with type arguments. -/
def isTypeNamed (name type : String) : Bool :=
  type == name || Text.startsWith type (name ++ "<")

/-- A method has the named type in its signature, or its body contains the name. -/
def methodUses (name : String) (m : Method) : Bool :=
  isTypeNamed name m.returnType
    || m.parameters.any (fun p => isTypeNamed name p.type)
    || (m.body.map fun b => Text.contains b name).getD false

/-- Some method uses the name. -/
def uses (r : TypeRecord) (name : String) : Bool :=
  r.methods.any (methodUses name)

end TypeRecord
end TypeAtlas
