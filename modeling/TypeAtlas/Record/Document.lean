import TypeAtlas.Json.Reader
import TypeAtlas.Record.Basic

/-!
# Metadata documents

The document of a type record. A record, its flags, its methods and their parameters may also be
written as the list of their members in order; of an object, members that are not known are passed
over and none may stand twice. A kind may also be written as an object whose only member has that
name and is null.
-/
namespace TypeAtlas

open Json (Value)

/-! ### Writing -/

/-- A list of texts. -/
def textList (xs : List String) : Value :=
  .list (xs.map .text)

/-- A member that is left out if there is nothing to write. -/
def optionalMember (name : String) : Option Value → List (String × Value)
  | some v => [(name, v)]
  | none => []

/-- The document of a parameter. -/
def Parameter.document (p : Parameter) : Value :=
  .object [("Type", .text p.type), ("Name", .text p.name)]

/-- The document of a method. -/
def Method.document (m : Method) : Value :=
  .object ([("Name", .text m.name), ("Kind", .text m.kind.label),
    ("ReturnType", .text m.returnType)]
    ++ optionalMember "Body" (m.body.map .text)
    ++ [("Parameters", .list (m.parameters.map Parameter.document))])

/-- The document of the flags. -/
def Flags.document (f : Flags) : Value :=
  .object [("IsStatic", .bool f.isStatic), ("IsSealed", .bool f.isSealed),
    ("IsAbstract", .bool f.isAbstract), ("HasNumericField", .bool f.hasIntField),
    ("IsInherited", .bool f.isInherited)]

namespace TypeRecord

/-- The document of a record. -/
def document (r : TypeRecord) : Value :=
  .object ([("FileName", .text r.fileName), ("FilePath", .text r.filePath),
    ("TypeKind", .text r.kind.label), ("TypeName", .text r.name), ("Namespace", .text r.scope),
    ("Imports", textList r.imports), ("Flags", r.flags.document)]
    ++ optionalMember "BaseTypeNames" (r.bases.map textList)
    ++ [("Functions", .list (r.methods.map Method.document))])

/-- The text of the document of a record. -/
def render (r : TypeRecord) : String :=
  r.document.render

end TypeRecord

/-! ### Reading -/

namespace Json
namespace Value

/-- The text that a value is. -/
def text? : Value → Option String
  | text s => some s
  | _ => none

/-- The truth value that a value is. -/
def bool? : Value → Option Bool
  | bool b => some b
  | _ => none

/-- The elements of a list, each read by `f`. -/
def list? {α : Type} (f : Value → Option α) : Value → Option (List α)
  | list vs => vs.mapM f
  | _ => none

/-- Nothing for null and for what is missing. -/
def option? {α : Type} (f : Value → Option α) : Option Value → Option (Option α)
  | none => some none
  | some null => some none
  | some v => (f v).map some

/-- A name among those that `f` knows, as a text or as the only member of an object. -/
def choice? {α : Type} (f : String → Option α) : Value → Option α
  | text s => f s
  | object [(k, null)] => f k
  | _ => none

/-- The values of the named members of an object, or the elements of a list of that length. A
member may be missing. -/
def members? (names : List String) : Value → Option (List (Option Value))
  | list vs => if vs.length = names.length then some (vs.map some) else none
  | object ms =>
    if names.all fun n => decide ((ms.filter fun m => m.1 == n).length ≤ 1) then
      some (names.map fun n => (ms.find? fun m => m.1 == n).map Prod.snd)
    else none
  | _ => none

end Value
end Json

/-- The parameter that a value describes. -/
def Parameter.ofDocument? (v : Value) : Option Parameter := do
  let [some type, some name] ← v.members? ["Type", "Name"] | none
  pure ⟨← type.text?, ← name.text?⟩

/-- The method that a value describes. -/
def Method.ofDocument? (v : Value) : Option Method := do
  let [some name, some kind, some returnType, body, some parameters] ←
    v.members? ["Name", "Kind", "ReturnType", "Body", "Parameters"] | none
  pure ⟨← name.text?, ← kind.choice? MethodKind.ofLabel?, ← returnType.text?,
    ← Value.option? Value.text? body, ← parameters.list? Parameter.ofDocument?⟩

/-- The flags that a value describes. -/
def Flags.ofDocument? (v : Value) : Option Flags := do
  let [some a, some b, some c, some d, some e] ←
    v.members? ["IsStatic", "IsSealed", "IsAbstract", "HasNumericField", "IsInherited"] | none
  pure ⟨← a.bool?, ← b.bool?, ← c.bool?, ← d.bool?, ← e.bool?⟩

namespace TypeRecord

/-- The record that a value describes. -/
def ofDocument? (v : Value) : Option TypeRecord := do
  let [some fileName, some filePath, some kind, some name, some scope, some imports, some flags,
      bases, some methods] ←
    v.members? ["FileName", "FilePath", "TypeKind", "TypeName", "Namespace", "Imports", "Flags",
      "BaseTypeNames", "Functions"] | none
  pure ⟨← fileName.text?, ← filePath.text?, ← kind.choice? TypeKind.ofLabel?, ← name.text?,
    ← scope.text?, ← imports.list? Value.text?, ← Flags.ofDocument? flags,
    ← Value.option? (Value.list? Value.text?) bases, ← methods.list? Method.ofDocument?⟩

/-- The record that a text describes. -/
def parse? (s : String) : Option TypeRecord :=
  (Json.parse? s).bind ofDocument?

end TypeRecord
end TypeAtlas
