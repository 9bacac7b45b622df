import TypeAtlas.Source.Grammar

/-!
# The grammar of Java

The rules are as generous as they can be where types do not depend on it: statements and methods
may stand at the top of a file, imports and packages anywhere among statements, and operators have
no precedence. Named parts come in the order types, expressions, statements, declarations.
-/
namespace TypeAtlas
namespace Source
namespace Java

/-- The named parts of the grammar. -/
inductive Part where
  -- types
  | qualifiedName | annotation | annotationValue | dimension | typeArguments | plainType | type
  | typeParameters
  -- expressions
  | parens | lambdaAhead | lambda | expr | operation | operand | primary | suffix | arguments
  | creation | arrayInitializer | stringLiteral | recordPattern | pattern | switchBody
  -- statements
  | block | statement | declarator | localVariable | parenthesized
  -- declarations
  | modifiers | typeDeclaration | classBody | classMember | interfaceBody | interfaceMember
  | annotationBody | annotationMember | enumBody | formalParameters | formalParameter | method
  | throwsClause | superInterfaces | braces | skip | topItem | file

namespace Part

open Rule

/-- A named part as a rule. -/
instance : Coe Part (Rule Part) :=
  ⟨Rule.ref⟩

/-- The words that cannot be names. -/
def reserved : List String :=
  ["abstract", "assert", "boolean", "break", "byte", "case", "catch", "char", "class", "continue",
   "default", "do", "double", "else", "enum", "extends", "final", "finally", "float", "for", "if",
   "implements", "import", "instanceof", "int", "interface", "long", "native", "new", "package",
   "private", "protected", "public", "return", "short", "static", "strictfp", "super", "switch",
   "synchronized", "this", "throw", "throws", "transient", "try", "void", "volatile", "while",
   "true", "false", "null"]

/-! ### Types -/

/-- A word for integers of some width. -/
def integral : Rule Part :=
  words ["byte", "short", "int", "long", "char"]

/-- The name of a type, with type arguments at any step. -/
def namedType : Rule Part :=
  all [name, opt typeArguments,
    many (all [sym ".", many annotation, name, opt typeArguments])]

/-- A type without dimensions. -/
def simpleType : Rule Part :=
  oneOf [integral, words ["float", "double", "boolean", "void"], namedType]

/-- A type argument with a question mark. -/
def wildcard : Rule Part :=
  all [many annotation, sym "?", opt (all [words ["extends", "super"], type])]

/-! ### Expressions -/

/-- A symbol made of greater-than signs that assigns. -/
def shiftAssign : Rule Part :=
  oneOf [all [sym ">", glued ">", glued ">", glued "="], all [sym ">", glued ">", glued "="]]

/-- An operator that assigns. -/
def assignment : Rule Part :=
  oneOf [syms ["=", "+=", "-=", "*=", "/=", "%=", "&=", "|=", "^=", "<<="], shiftAssign]

/-- An operator between two operands. -/
def binary : Rule Part :=
  oneOf [
    syms ["||", "&&", "|", "^", "&", "==", "!=", "<", "<=", "+", "-", "*", "/", "%", "<<"],
    all [notAhead shiftAssign,
      oneOf [all [sym ">", glued ">", glued ">"], all [sym ">", glued ">"],
        all [sym ">", glued "="], sym ">"]]]

/-- A literal without holes. -/
def literal : Rule Part :=
  oneOf [token (.cls .number), token (.cls .text), words ["true", "false", "null"], stringLiteral]

/-- What may follow the type of a cast to a type that has a name. -/
def castFollow : Rule Part :=
  oneOf [lambdaAhead, name, literal, syms ["(", "!", "~"],
    words ["this", "super", "new", "switch", "byte", "short", "int", "long", "char", "float",
      "double", "boolean", "void"]]

/-- A change of type in front of an operand. -/
def cast : Rule Part :=
  oneOf [
    all [sym "(", words ["byte", "short", "int", "long", "char", "float", "double", "boolean"],
      many dimension, sym ")", operand],
    all [sym "(", type, many (all [sym "&", type]), sym ")", ahead castFollow,
      oneOf [lambda, operand]]]

/-- What may follow the two colons of a reference to a method. -/
def methodReference : Rule Part :=
  all [sym "::", opt typeArguments, oneOf [word "new", name]]

/-- A test of the type of a value. -/
def instanceTest : Rule Part :=
  all [word "instanceof", opt (word "final"),
    oneOf [recordPattern, all [type, opt name]]]

/-- One alternative of a switch. -/
def switchLabel : Rule Part :=
  oneOf [
    all [word "case", commas (oneOf [pattern, word "default", operation]),
      opt (all [word "when", expr])],
    word "default"]

/-- The fixed text of a rule after an arrow. -/
def switchResult : Rule Part :=
  oneOf [block, all [word "throw", expr, sym ";"], all [expr, sym ";"]]

/-! ### Statements -/

/-- A loop with a header in parentheses. -/
def forStatement : Rule Part :=
  all [word "for", sym "(",
    oneOf [
      all [opt modifiers, plainType, name, many dimension, sym ":", expr],
      all [oneOf [localVariable, all [opt (commas expr), sym ";"]], opt expr, sym ";",
        opt (commas expr)]],
    sym ")", statement]

/-- What a try statement holds open. -/
def resources : Rule Part :=
  all [sym "(",
    sepBy (sym ";")
      (oneOf [all [opt modifiers, plainType, name, many dimension, sym "=", expr], expr]),
    opt (sym ";"), sym ")"]

/-- What a try statement does with an exception. -/
def catchClause : Rule Part :=
  all [word "catch", sym "(", opt modifiers, sepBy (sym "|") type, name, many dimension, sym ")",
    block]

/-- What a try statement does at the end. -/
def finallyClause : Rule Part :=
  all [word "finally", block]

/-- A statement that watches for exceptions. -/
def tryStatement : Rule Part :=
  all [word "try",
    oneOf [
      all [resources, block, many catchClause, opt finallyClause],
      all [block, oneOf [all [many1 catchClause, opt finallyClause], finallyClause]]]]

/-- A statement that a keyword opens. -/
def keywordStatement : Rule Part :=
  oneOf [
    all [word "if", parenthesized, statement, opt (all [word "else", statement])],
    all [word "while", parenthesized, statement],
    forStatement,
    all [word "do", statement, word "while", parenthesized, sym ";"],
    all [word "switch", parenthesized, switchBody, notAhead (sym ".")],
    all [word "return", opt expr, sym ";"],
    all [word "break", opt name, sym ";"],
    all [word "continue", opt name, sym ";"],
    all [word "throw", expr, sym ";"],
    tryStatement,
    all [word "synchronized", parenthesized, block],
    all [word "assert", expr, opt (all [sym ":", expr]), sym ";"],
    all [word "yield", expr, sym ";"]]

/-! ### Declarations -/

/-- The package of a file. -/
def packageLine : Rule Part :=
  node .packageLine (all [many annotation, word "package", qualifiedName, sym ";"])

/-- An import. -/
def importLine : Rule Part :=
  node .importLine (all [word "import", opt (word "static"), qualifiedName,
    opt (all [sym ".", sym "*"]), sym ";"])

/-- One line of a module. -/
def moduleLine : Rule Part :=
  all [
    oneOf [
      all [word "requires", many (words ["transitive", "static"]), qualifiedName],
      all [words ["exports", "opens"], qualifiedName,
        opt (all [word "to", commas qualifiedName])],
      all [word "uses", qualifiedName],
      all [word "provides", qualifiedName, word "with", commas qualifiedName]],
    sym ";"]

/-- A module. -/
def moduleDeclaration : Rule Part :=
  node .other (all [many annotation, opt (word "open"), word "module", qualifiedName, sym "\x7b",
    many moduleLine, sym "\x7d"])

/-- The types that a sealed type allows below it. -/
def permits : Rule Part :=
  node .other (all [word "permits", commas type])

/-- A class. -/
def classDeclaration : Rule Part :=
  node .classDeclaration (all [opt modifiers, word "class", role .name anyWord,
    opt typeParameters, opt (node .superclass (all [word "extends", type])),
    opt superInterfaces, opt permits, role .body classBody])

/-- A record. -/
def recordDeclaration : Rule Part :=
  node .structDeclaration (all [opt modifiers, word "record", role .name anyWord,
    opt typeParameters, formalParameters, opt superInterfaces, role .body classBody])

/-- An interface. -/
def interfaceDeclaration : Rule Part :=
  node .interfaceDeclaration (all [opt modifiers, word "interface", role .name anyWord,
    opt typeParameters,
    opt (node .superInterfaces (all [word "extends", node .typeList (commas type)])),
    opt permits, role .body interfaceBody])

/-- An enumeration. -/
def enumDeclaration : Rule Part :=
  node .other (all [opt modifiers, word "enum", anyWord, opt superInterfaces, enumBody])

/-- An annotation type. -/
def annotationDeclaration : Rule Part :=
  node .other (all [opt modifiers, sym "@", word "interface", anyWord, annotationBody])

/-- A constructor of a class, or the short form of a record. -/
def constructor : Rule Part :=
  node .other (all [opt modifiers, opt typeParameters, name,
    oneOf [all [formalParameters, opt throwsClause, block], block]])

/-- A declared variable and its first value. -/
def declaratorOf (declared : Rule Part) : Rule Part :=
  node .declarator (all [role .name declared, many dimension,
    opt (all [sym "=", oneOf [arrayInitializer, expr]])])

/-- Fields of one type; `k` tells fields from constants. -/
def fields (k : Kind) : Rule Part :=
  node k (all [opt modifiers, notAhead (word "record"), role .type plainType,
    commas (declaratorOf anyWord), sym ";"])

/-- A parameter list that holds something unexpected. -/
def brokenParameters : Rule Part :=
  all [sym "(",
    many (node .error (token (.otherThan ["(", ")", "\x7b", "\x7d", ";"]))), sym ")"]

/-- The rule of a named part. -/
def rule : Part → Rule Part
  -- types
  | qualifiedName =>
    oneOf [node .qualifiedName (all [name, many1 (all [sym ".", anyWord])]), name]
  | annotation =>
    node .other (all [sym "@", qualifiedName,
      opt (all [sym "(",
        opt (oneOf [commas (all [name, sym "=", annotationValue]), annotationValue]), sym ")"])])
  | annotationValue =>
    node .other (oneOf [
      annotation,
      all [sym "\x7b", opt (commas annotationValue), opt (sym ","), sym "\x7d"],
      operation])
  | dimension => all [many annotation, sym "[", sym "]"]
  | typeArguments => all [sym "<", opt (commas (oneOf [wildcard, type])), sym ">"]
  | plainType =>
    oneOf [
      all [node .primitiveType integral, notAhead dimension],
      node .type (all [simpleType, many dimension])]
  | type => oneOf [node .type (all [many1 annotation, plainType]), plainType]
  | typeParameters =>
    node .other (all [sym "<",
      commas (all [many annotation, name,
        opt (all [word "extends", sepBy (sym "&") type])]),
      sym ">"])
  -- expressions
  | parens =>
    all [sym "(", many (oneOf [parens, token (.otherThan ["(", ")"])]), sym ")"]
  | lambdaAhead => ahead (oneOf [all [name, sym "->"], all [parens, sym "->"]])
  | lambda =>
    all [lambdaAhead,
      oneOf [name, all [sym "(", opt (commas name), sym ")"], formalParameters],
      sym "->", oneOf [block, expr]]
  | expr =>
    node .other (oneOf [lambda, all [operation, opt (all [assignment, expr])]])
  | operation =>
    all [operand, many (oneOf [all [binary, oneOf [lambda, operand]], instanceTest]),
      opt (all [sym "?", expr, sym ":", expr])]
  | operand =>
    oneOf [
      all [syms ["+", "-", "!", "~", "++", "--"], operand],
      cast,
      all [primary, many suffix]]
  | primary =>
    oneOf [
      literal,
      all [type, methodReference],
      all [type, sym ".", word "class"],
      all [words ["this", "super"], opt arguments],
      creation,
      all [word "switch", parenthesized, switchBody],
      parenthesized,
      all [name, opt arguments]]
  | suffix =>
    oneOf [
      all [sym ".",
        oneOf [
          all [name, opt arguments],
          all [typeArguments, oneOf [name, word "super"], arguments],
          word "this",
          all [word "super", opt arguments],
          creation,
          stringLiteral]],
      all [sym "[", expr, sym "]"],
      methodReference,
      syms ["++", "--"]]
  | arguments => all [sym "(", opt (commas expr), sym ")"]
  | creation =>
    all [word "new", many annotation, opt typeArguments, simpleType,
      oneOf [
        all [arguments, opt classBody],
        all [many1 dimension, arrayInitializer],
        all [many1 (all [many annotation, sym "[", expr, sym "]"]), many dimension]]]
  | arrayInitializer =>
    node .other (all [sym "\x7b", opt (commas (oneOf [arrayInitializer, expr])), opt (sym ","),
      sym "\x7d"])
  | stringLiteral =>
    node .literal (all [token (.cls .textOpen),
      many (all [token (.cls .holeOpen), expr, token (.cls .holeClose)]),
      token (.cls .textClose)])
  | recordPattern =>
    all [plainType, sym "(", opt (commas (oneOf [pattern, word "_"])), sym ")", opt name]
  | pattern =>
    oneOf [recordPattern, all [opt modifiers, plainType, name]]
  | switchBody =>
    node .other (all [sym "\x7b",
      many (oneOf [
        all [switchLabel,
          oneOf [all [sym "->", switchResult], all [sym ":", many statement]]],
        mend skip]),
      sym "\x7d"])
  -- statements
  | parenthesized => all [sym "(", expr, sym ")"]
  | block =>
    node .block (all [sym "\x7b", many (oneOf [statement, mend skip]), sym "\x7d"])
  | declarator => declaratorOf name
  | localVariable =>
    node .other (all [opt modifiers, notAhead (word "record"), plainType, commas declarator,
      sym ";"])
  | statement =>
    oneOf [
      block,
      node .other (sym ";"),
      node .other keywordStatement,
      packageLine,
      importLine,
      moduleDeclaration,
      typeDeclaration,
      node .other (all [name, sym ":", statement]),
      localVariable,
      node .other (all [expr, sym ";"])]
  -- declarations
  | modifiers =>
    node .modifierList (many1 (oneOf [
      annotation,
      words ["public", "protected", "private", "abstract", "static", "final", "strictfp",
        "default", "synchronized", "native", "transient", "volatile", "non-sealed"],
      all [word "sealed", notAhead (syms ["(", "=", ";", ",", ".", "[", ")"])]]))
  | typeDeclaration =>
    oneOf [classDeclaration, interfaceDeclaration, recordDeclaration, enumDeclaration,
      annotationDeclaration]
  | superInterfaces =>
    node .superInterfaces (all [word "implements", node .typeList (commas type)])
  | throwsClause => all [word "throws", commas type]
  | classBody =>
    node .memberList (all [sym "\x7b", many (oneOf [classMember, mend skip]), sym "\x7d"])
  | classMember =>
    oneOf [
      sym ";",
      block,
      node .other (all [word "static", block]),
      typeDeclaration,
      method,
      fields .fieldDeclaration,
      constructor]
  | interfaceBody =>
    node .memberList (all [sym "\x7b", many (oneOf [interfaceMember, mend skip]), sym "\x7d"])
  | interfaceMember => oneOf [sym ";", typeDeclaration, method, fields .other]
  | annotationBody =>
    node .other (all [sym "\x7b", many (oneOf [annotationMember, mend skip]), sym "\x7d"])
  | annotationMember =>
    oneOf [
      sym ";",
      typeDeclaration,
      node .other (all [opt modifiers, plainType, name, sym "(", sym ")", many dimension,
        opt (all [word "default", annotationValue]), sym ";"]),
      fields .other]
  | enumBody =>
    node .other (all [sym "\x7b",
      opt (commas (node .other (all [opt modifiers, name, opt arguments, opt classBody]))),
      opt (sym ","),
      opt (all [sym ";", many (oneOf [classMember, mend skip])]),
      many (mend skip),
      sym "\x7d"])
  | formalParameters =>
    node .parameterList (oneOf [
      all [sym "(",
        opt (oneOf [
          all [node .receiverParameter (all [plainType, many (all [name, sym "."]), word "this"]),
            opt (all [sym ",", commas formalParameter])],
          commas formalParameter]),
        sym ")"],
      mend brokenParameters])
  | formalParameter =>
    oneOf [
      node .restParameter (all [opt modifiers, plainType, many annotation, sym "...",
        many annotation, declarator]),
      node .parameter (all [opt modifiers, role .type plainType, role .name anyWord,
        many dimension])]
  | method =>
    node .methodDeclaration (all [opt modifiers, opt (all [typeParameters, many annotation]),
      notAhead (all [word "record", name, sym "("]),
      role .type plainType, role .name anyWord, role .parameters formalParameters, many dimension,
      opt throwsClause, oneOf [role .body block, sym ";"]])
  | braces =>
    all [sym "\x7b", many (oneOf [braces, token (.otherThan ["\x7b", "\x7d"])]), sym "\x7d"]
  | skip => node .error (oneOf [braces, token (.otherThan ["\x7d"])])
  | topItem => oneOf [statement, method]
  | file =>
    all [many (oneOf [topItem, mend skip, mend (node .error (token (.otherThan [])))]), done]

end Part

/-- The grammar of Java. -/
def grammar : Grammar Part :=
  ⟨Part.rule, .file, Part.reserved⟩

end Java
end Source
end TypeAtlas
