import TypeAtlas.Path

/-!
# Languages

The languages whose sources are read, and how a file tells its language by its extension.
-/
namespace TypeAtlas
namespace Source

/-- A language whose sources are read. -/
inductive Language where
  | csharp
  | java
  deriving DecidableEq, Repr

namespace Language

/-- All languages. -/
def every : List Language :=
  [csharp, java]

/-- The name of a language. -/
def label : Language → String
  | csharp => "C#"
  | java => "Java"

/-- The extension of the language's files. -/
def extension : Language → String
  | csharp => "cs"
  | java => "java"

/-- The extensions of all languages. -/
def extensions : List String :=
  every.map extension

/-- The language of an extension, whatever the case of its letters. -/
def ofExtension? (ext : String) : Option Language :=
  every.find? fun l => Text.eqIgnoreAsciiCase l.extension ext

/-- The language of a file. -/
def ofPath? (path : String) : Option Language :=
  (Path.extension? path).bind ofExtension?

end Language
end Source
end TypeAtlas
