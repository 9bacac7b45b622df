import TypeAtlas.Source.Grammar

/-!
# The grammar of C#

The rules are as generous as they can be where types do not depend on it: any member may stand in
any member list, statements may stand at the top of a file, and operators have no precedence.
Named parts come in the order types, expressions, patterns, statements, declarations.

Branching directives may split a list of declarations, statements or enumeration members. All
branches are read; a member below a branch is not a direct member of the type around it.
-/
namespace TypeAtlas
namespace Source
namespace CSharp

/-- The named parts of the grammar. -/
inductive Part where
  -- types
  | typeArguments | baseType | type | testedType | typeParameters | attributeList | attributeUse
  -- expressions
  | parens | lambdaAhead | lambda | query | queryBody | expr | operation | operand | primary
  | suffix | argument | arguments | creation | initializer | interpolated | switchArms
  -- patterns
  | pattern | patternAtom | subpatterns | properties | designation
  -- statements
  | block | statement | statementBranch | declarators | statementExpr | tuplePattern
  -- declarations
  | modifier | parameterList | parameter | baseList | constraint | functionBody | accessors
  | memberList | declaration | declarationBranch | typeDeclaration | enumBranch | enumMember
  | qualifiedName | usingLine | namespaceBlock | braces | skip | topItem | topBranch | file

namespace Part

open Rule

/-- A named part as a rule. -/
instance : Coe Part (Rule Part) :=
  ⟨Rule.ref⟩

/-- The words that cannot be names. -/
def reserved : List String :=
  ["abstract", "as", "base", "bool", "break", "byte", "case", "catch", "char", "checked", "class",
   "const", "continue", "decimal", "default", "delegate", "do", "double", "else", "enum", "event",
   "explicit", "extern", "false", "finally", "fixed", "float", "for", "foreach", "goto", "if",
   "implicit", "in", "int", "interface", "internal", "is", "lock", "long", "namespace", "new",
   "null", "object", "operator", "out", "override", "params", "private", "protected", "public",
   "readonly", "ref", "return", "sbyte", "sealed", "short", "sizeof", "stackalloc", "static",
   "string", "struct", "switch", "this", "throw", "true", "try", "typeof", "uint", "ulong",
   "unchecked", "unsafe", "ushort", "using", "virtual", "void", "volatile", "while"]

/-- The parts of a list, split by branching directives. -/
def branches (item : Rule Part) : Rule Part :=
  node .other (all [token (.branch "if"), many item,
    many (all [token (.branch "elif"), many item]),
    opt (all [token (.branch "else"), many item]),
    token (.branch "endif")])

/-- A list of parts between braces; what fits nowhere may be passed over. -/
def bracesOf (item : Rule Part) : Rule Part :=
  all [sym "\x7b", many (oneOf [item, mend skip]), sym "\x7d"]

/-! ### Types -/

/-- A word for a predefined type. -/
def predefined : Rule Part :=
  words ["bool", "byte", "char", "decimal", "double", "float", "int", "long", "object", "sbyte",
    "short", "string", "uint", "ulong", "ushort", "nint", "nuint", "void"]

/-- A name with type arguments. -/
def simpleName : Rule Part :=
  all [name, opt typeArguments]

/-- The name of a type. -/
def namedType : Rule Part :=
  all [opt (all [name, sym "::"]), simpleName, many (all [sym ".", simpleName])]

/-- A type of several components. -/
def tupleType : Rule Part :=
  all [sym "(", type, opt name, many1 (all [sym ",", type, opt name]), sym ")"]

/-- A pointer to a function. -/
def functionPointer : Rule Part :=
  all [word "delegate", sym "*",
    opt (all [words ["managed", "unmanaged"],
      opt (all [sym "[", commas name, sym "]"])]),
    sym "<", commas (all [many (words ["ref", "out", "in", "readonly"]), type]), sym ">"]

/-- The brackets of an array type. -/
def rank : Rule Part :=
  all [sym "[", many (sym ","), sym "]"]

/-- What may follow a type to make another one. -/
def typeSuffix : Rule Part :=
  oneOf [syms ["?", "*"], rank]

/-! ### Expressions -/

/-- The words that join the parts of a query or a pattern. -/
def joiningWords : List String :=
  ["and", "or", "when", "with", "select", "group", "orderby", "join", "let", "where", "into", "on",
   "equals", "by", "ascending", "descending"]

/-- A name that joins nothing. -/
def plainName : Rule Part :=
  all [notAhead (words joiningWords), name]

/-- A literal. -/
def literal : Rule Part :=
  oneOf [token (.cls .number), token (.cls .text), words ["true", "false", "null"], interpolated]

/-- What an operand may begin with, signs apart. -/
def operandStart : Rule Part :=
  oneOf [plainName, literal, syms ["(", "!", "~"], predefined,
    words ["this", "base", "new", "typeof", "sizeof", "default", "checked", "unchecked",
      "stackalloc", "delegate", "static"]]

/-- A symbol made of greater-than signs that assigns. -/
def shiftAssign : Rule Part :=
  oneOf [all [sym ">", glued ">", glued ">", glued "="], all [sym ">", glued ">", glued "="]]

/-- An operator that assigns. -/
def assignment : Rule Part :=
  oneOf [syms ["=", "+=", "-=", "*=", "/=", "%=", "&=", "|=", "^=", "<<=", "??="], shiftAssign]

/-- An operator with greater-than signs. -/
def greaterOperator : Rule Part :=
  all [notAhead shiftAssign,
    oneOf [all [sym ">", glued ">", glued ">"], all [sym ">", glued ">"],
      all [sym ">", glued "="], sym ">"]]

/-- An operator between two operands. -/
def binary : Rule Part :=
  oneOf [
    syms ["||", "&&", "|", "^", "&", "==", "!=", "<", "<=", "+", "-", "*", "/", "%", "<<", "??"],
    greaterOperator]

/-- An operator inside a constant of a pattern. -/
def constantOperator : Rule Part :=
  syms ["+", "-", "*", "/", "%", "<<", "|", "^", "&"]

/-- What may follow the type arguments of a name inside an expression. -/
def genericFollow : Rule Part :=
  oneOf [
    syms ["(", ")", "]", "\x7b", "\x7d", ":", ";", ",", ".", "?", "==", "!=", "|", "^", "&&", "||",
      "&", "[", "=>", ">", "??", "!"],
    token (.cls .holeClose), token (.cls .holeFormat), done]

/-- Type arguments inside an expression. -/
def expressionTypeArguments : Rule Part :=
  all [typeArguments, ahead genericFollow]

/-- A change of type in front of an operand. -/
def cast : Rule Part :=
  oneOf [
    all [sym "(", predefined, many typeSuffix, sym ")", operand],
    all [sym "(", type, sym ")", ahead operandStart, oneOf [lambda, operand]]]

/-- What follows an operand: another one, a test, a choice or a change. -/
def operationRest : Rule Part :=
  oneOf [
    all [binary, oneOf [lambda, operand]],
    all [word "is", pattern],
    all [word "as", testedType],
    all [word "switch", switchArms],
    all [word "with", initializer],
    all [sym "..", opt operand]]

/-- A clause of a query between its beginning and its result. -/
def queryClause : Rule Part :=
  oneOf [
    all [word "from", oneOf [all [name, word "in"], all [type, name, word "in"]], expr],
    all [word "let", name, sym "=", expr],
    all [word "where", expr],
    all [word "join", oneOf [all [name, word "in"], all [type, name, word "in"]], expr,
      word "on", expr, word "equals", expr, opt (all [word "into", name])],
    all [word "orderby", commas (all [expr, opt (words ["ascending", "descending"])])]]

/-- A function without a name. -/
def anonymousFunction : Rule Part :=
  all [many (words ["static", "async"]), word "delegate", opt parameterList, block]

/-- Brackets with expressions. -/
def sizedRank : Rule Part :=
  all [sym "[", oneOf [commas expr, many (sym ",")], sym "]"]

/-- What may stand behind an element of memory or a member. -/
def access : Rule Part :=
  oneOf [
    all [sym ".", anyWord, opt expressionTypeArguments],
    all [sym "->", anyWord, opt expressionTypeArguments],
    all [sym "?", sym ".", anyWord, opt expressionTypeArguments],
    all [sym "?", glued "[", commas argument, sym "]"],
    all [sym "[", commas argument, sym "]"]]

/-- What may stand behind an operand and does something. -/
def action : Rule Part :=
  oneOf [arguments, syms ["++", "--", "!"]]

/-! ### Statements -/

/-- A loop over the elements of something. -/
def foreachStatement : Rule Part :=
  all [opt (word "await"), word "foreach", sym "(",
    oneOf [all [type, name, word "in"], all [expr, word "in"]], expr, sym ")", statement]

/-- A loop with a header of three parts. -/
def forStatement : Rule Part :=
  all [word "for", sym "(", opt (oneOf [all [declarators, ahead (sym ";")], commas expr]), sym ";",
    opt expr, sym ";", opt (commas expr), sym ")", statement]

/-- A label of a switch statement. -/
def switchLabel : Rule Part :=
  oneOf [
    all [word "case",
      oneOf [all [pattern, opt (all [word "when", operation]), sym ":"], all [expr, sym ":"]]],
    all [word "default", sym ":"]]

/-- A statement that watches for exceptions. -/
def tryStatement : Rule Part :=
  all [word "try", block,
    many (all [word "catch", opt (all [sym "(", type, opt plainName, sym ")"]),
      opt (all [word "when", sym "(", expr, sym ")"]), block]),
    opt (all [word "finally", block])]

/-- A statement that a keyword opens. -/
def keywordStatement : Rule Part :=
  oneOf [
    all [word "if", sym "(", expr, sym ")", statement, opt (all [word "else", statement])],
    all [word "while", sym "(", expr, sym ")", statement],
    all [word "do", statement, word "while", sym "(", expr, sym ")", sym ";"],
    forStatement,
    foreachStatement,
    all [word "switch", sym "(", commas argument, sym ")",
      bracesOf (all [switchLabel, many statement])],
    tryStatement,
    all [word "return", opt expr, sym ";"],
    all [word "throw", opt expr, sym ";"],
    all [words ["break", "continue"], sym ";"],
    all [word "goto", oneOf [all [word "case", expr], word "default", name], sym ";"],
    all [word "yield", oneOf [all [word "return", expr], word "break"], sym ";"],
    all [word "lock", sym "(", expr, sym ")", statement],
    all [word "fixed", sym "(", declarators, sym ")", statement],
    all [opt (word "await"), word "using", sym "(",
      oneOf [all [declarators, ahead (sym ")")], expr], sym ")", statement],
    all [words ["checked", "unchecked", "unsafe"], block]]

/-- A function inside a body. -/
def localFunction : Rule Part :=
  all [many attributeList, many modifier, type, name, opt typeParameters, parameterList,
    many constraint, functionBody]

/-- Variables inside a body. -/
def localVariables : Rule Part :=
  all [opt (word "await"), opt (word "using"), many modifier, declarators, sym ";"]

/-! ### Declarations -/

/-- What stands in front of a declaration. -/
def front : Rule Part :=
  all [many attributeList, many modifier]

/-- The interface a member belongs to, written in front of its name. -/
def explicitInterface : Rule Part :=
  all [opt (all [name, sym "::"]), many (all [simpleName, sym "."])]

/-- The body of a type, or the semicolon in its place. A semicolon belongs to the body only if it
touches it. -/
def typeBody : Rule Part :=
  oneOf [all [role .body memberList, opt (glued ";")], sym ";"]

/-- The part of a type declaration behind its keyword. -/
def typeRest : Rule Part :=
  all [role .name anyWord, opt typeParameters, opt parameterList, opt baseList, many constraint,
    typeBody]

/-- A class. -/
def classDeclaration : Rule Part :=
  node .classDeclaration (all [front, word "class", typeRest])

/-- An interface. -/
def interfaceDeclaration : Rule Part :=
  node .interfaceDeclaration (all [front, word "interface", typeRest])

/-- A structure; it may be bound to the stack. -/
def structDeclaration : Rule Part :=
  node .structDeclaration
    (all [many attributeList, many (oneOf [modifier, word "ref"]), word "struct", typeRest])

/-- A record. -/
def recordDeclaration : Rule Part :=
  node .other (all [front, word "record", opt (words ["class", "struct"]), typeRest])

/-- An enumeration. -/
def enumDeclaration : Rule Part :=
  node .other (all [front, word "enum", anyWord, opt baseList,
    node .other (bracesOf (oneOf [enumMember, enumBranch])), opt (glued ";")])

/-- The type of a function. -/
def delegateDeclaration : Rule Part :=
  node .other (all [front, word "delegate", type, name, opt typeParameters, parameterList,
    many constraint, sym ";"])

/-- The name of a member. Behind a type every word is one that does not open another kind of
member. -/
def memberName : Rule Part :=
  all [notAhead (words ["this", "operator"]), anyWord]

/-- Variables of one type. -/
def variablesOf (declared : Rule Part) : Rule Part :=
  node .variableDeclaration (all [role .type type,
    commas (all [oneOf [declared, tuplePattern],
      opt (all [sym "[", commas argument, sym "]"]),
      opt (all [sym "=", oneOf [initializer, expr]])])])

/-- A method. -/
def method : Rule Part :=
  node .methodDeclaration (all [front, role .type type, explicitInterface, role .name memberName,
    opt typeParameters, role .parameters parameterList, many constraint, functionBody])

/-- Fields of one type. -/
def fields : Rule Part :=
  node .fieldDeclaration (all [front, variablesOf memberName, sym ";"])

/-- A property. -/
def property : Rule Part :=
  node .other (all [front, type, explicitInterface, memberName,
    oneOf [
      all [accessors, opt (all [sym "=", oneOf [initializer, expr], sym ";"])],
      all [sym "=>", expr, sym ";"]]])

/-- A member that is used like an array. -/
def indexer : Rule Part :=
  node .other (all [front, type, explicitInterface, word "this", sym "[", commas parameter,
    sym "]", oneOf [accessors, all [sym "=>", expr, sym ";"]]])

/-- An event. -/
def event : Rule Part :=
  node .other (all [front, word "event",
    oneOf [all [declarators, sym ";"], all [type, explicitInterface, name, accessors]]])

/-- The symbols that can be given a meaning. -/
def operatorSymbol : Rule Part :=
  oneOf [
    syms ["!", "~", "++", "--", "+", "-", "*", "/", "%", "^", "|", "&", "<<", "==", "!=", "<=",
      "<"],
    all [sym ">", glued ">", glued ">"], all [sym ">", glued ">"], all [sym ">", glued "="],
    sym ">", words ["true", "false"]]

/-- The meaning of an operator. -/
def operator : Rule Part :=
  node .other (all [front, type, explicitInterface, word "operator", opt (word "checked"),
    operatorSymbol, parameterList, functionBody])

/-- A change between types. -/
def conversion : Rule Part :=
  node .other (all [front, words ["implicit", "explicit"], explicitInterface, word "operator",
    opt (word "checked"), type, parameterList, functionBody])

/-- A constructor. -/
def constructor : Rule Part :=
  node .other (all [front, name, parameterList,
    opt (all [sym ":", words ["base", "this"], arguments]), functionBody])

/-- A destructor. -/
def destructor : Rule Part :=
  node .other (all [front, sym "~", name, parameterList, functionBody])

/-- The namespace of a file. -/
def namespaceLine : Rule Part :=
  node .namespaceLine (all [word "namespace", role .name qualifiedName, sym ";"])

/-- An attribute of a whole assembly or module. -/
def globalAttribute : Rule Part :=
  node .other (all [sym "[", words ["assembly", "module"], sym ":", commas attributeUse,
    opt (sym ","), sym "]"])

/-- A parameter list that holds something unexpected. -/
def brokenParameters : Rule Part :=
  all [sym "(",
    many (node .error (token (.otherThan ["(", ")", "\x7b", "\x7d", ";"]))), sym ")"]

/-- The words that change what a declaration means. -/
def modifierWord : Rule Part :=
  oneOf [
    words ["abstract", "const", "extern", "fixed", "internal", "new", "override", "private",
      "protected", "public", "readonly", "sealed", "static", "unsafe", "virtual", "volatile"],
    all [words ["async", "file", "partial", "required"],
      notAhead (syms ["(", ")", "=", "=>", ";", ",", ".", ":", "?", "[", "<", "\x7b"])]]

/-- The rule of a named part. -/
def rule : Part → Rule Part
  -- types
  | typeArguments => all [sym "<", oneOf [commas type, many (sym ",")], sym ">"]
  | baseType => oneOf [predefined, tupleType, functionPointer, namedType]
  | type =>
    oneOf [
      node .type (all [word "scoped", type, ahead name]),
      node .type (all [word "ref", opt (word "readonly"), type]),
      all [node .primitiveType predefined, notAhead typeSuffix],
      node .type (all [baseType, many typeSuffix])]
  | testedType =>
    all [baseType, many (oneOf [
      sym "*", rank,
      all [sym "?", notAhead (oneOf [operandStart, syms ["-", "+", "++", "--", "&", "^"]])]])]
  | typeParameters =>
    node .other (all [sym "<",
      commas (all [many attributeList, opt (words ["in", "out"]), name]), sym ">"])
  | attributeList =>
    node .other (all [sym "[", opt (all [anyWord, sym ":"]), commas attributeUse, opt (sym ","),
      sym "]"])
  | attributeUse =>
    node .other (all [namedType,
      opt (all [sym "(",
        opt (commas (all [opt (all [name, syms ["=", ":"]]), expr])), sym ")"])])
  -- expressions
  | parens =>
    all [sym "(", many (oneOf [parens, token (.otherThan ["(", ")"])]), sym ")"]
  | lambdaAhead =>
    ahead (all [many attributeList, many (words ["static", "async"]),
      oneOf [all [name, sym "=>"], all [parens, sym "=>"], all [type, parens, sym "=>"]]])
  | lambda =>
    all [lambdaAhead, many attributeList,
      many (all [words ["static", "async"], notAhead (sym "=>")]),
      oneOf [all [name, sym "=>"], all [parameterList, sym "=>"],
        all [type, parameterList, sym "=>"]],
      oneOf [block, expr]]
  | query =>
    all [word "from", oneOf [all [name, word "in"], all [type, name, word "in"]], expr, queryBody]
  | queryBody =>
    all [many queryClause,
      oneOf [all [word "select", expr], all [word "group", expr, word "by", expr]],
      opt (all [word "into", name, queryBody])]
  | expr =>
    node .other (oneOf [lambda, query,
      all [operation, opt (all [assignment, oneOf [initializer, expr]])]])
  | operation =>
    all [operand, many operationRest, opt (all [sym "?", expr, sym ":", expr])]
  | operand =>
    oneOf [
      all [syms ["+", "-", "!", "~", "++", "--", "&", "*", "^"], operand],
      all [sym "..", opt operand],
      all [word "await", ahead operandStart, operand],
      all [word "ref", operand],
      all [word "throw", expr],
      cast,
      all [primary, many suffix]]
  | primary =>
    oneOf [
      literal,
      all [word "default", opt (all [sym "(", type, sym ")"])],
      all [words ["typeof", "sizeof"], sym "(", type, sym ")"],
      all [words ["checked", "unchecked"], sym "(", expr, sym ")"],
      creation,
      all [word "stackalloc",
        oneOf [
          all [sym "[", opt expr, sym "]", initializer],
          all [baseType, many (syms ["?", "*"]), many1 sizedRank, opt initializer]]],
      anonymousFunction,
      words ["this", "base"],
      all [sym "[", opt (commas expr), opt (sym ","), sym "]"],
      all [sym "(", commas argument, sym ")"],
      predefined,
      all [opt (all [name, sym "::"]), name, opt expressionTypeArguments]]
  | suffix => oneOf [access, action]
  | argument =>
    all [opt (all [name, sym ":"]), many (words ["ref", "out", "in"]),
      oneOf [all [type, name, ahead (syms [",", ")", "]"])], expr]]
  | arguments => node .argumentList (all [sym "(", opt (commas argument), sym ")"])
  | creation =>
    all [word "new",
      oneOf [
        all [rank, initializer],
        initializer,
        all [arguments, opt initializer],
        all [baseType, many (syms ["?", "*"]),
          oneOf [
            all [many1 sizedRank, opt initializer],
            all [arguments, opt initializer],
            initializer]]]]
  | initializer =>
    node .other (all [sym "\x7b", opt (commas (oneOf [initializer, expr])), opt (sym ","),
      sym "\x7d"])
  | interpolated =>
    node .literal (all [token (.cls .textOpen),
      many (all [token (.cls .holeOpen), expr, opt (all [sym ",", expr]),
        opt (token (.cls .holeFormat)), token (.cls .holeClose)]),
      token (.cls .textClose)])
  | switchArms =>
    node .other (all [sym "\x7b",
      opt (commas (all [pattern, opt (all [word "when", operation]), sym "=>", expr])),
      opt (sym ","), sym "\x7d"])
  -- patterns
  | pattern => all [patternAtom, many (all [words ["and", "or"], patternAtom])]
  | patternAtom =>
    oneOf [
      all [word "not", notAhead (syms ["=>", ":", ")", ","]), patternAtom],
      all [oneOf [syms ["<", "<="], all [sym ">", opt (glued "=")]], operand,
        many (all [constantOperator, operand])],
      all [word "var", designation],
      all [subpatterns, opt properties, opt designation],
      all [properties, opt designation],
      all [sym "[", opt (commas pattern), opt (sym ","), sym "]", opt designation],
      all [sym "..", opt pattern],
      all [testedType,
        oneOf [
          all [subpatterns, opt properties, opt designation,
            notAhead (syms [".", "(", "["])],
          all [properties, opt designation],
          designation,
          ahead (oneOf [
            syms [")", "]", "\x7d", ",", ";", ":", "=>", "&&", "||", "??", "?", "==", "!=", "|",
              "&", "^", "="],
            words ["and", "or", "when", "is", "as", "switch"],
            token (.cls .holeClose)])]],
      all [operand, many (all [constantOperator, operand])],
      testedType]
  | subpatterns =>
    all [sym "(",
      opt (commas (all [opt (all [sepBy (sym ".") name, sym ":"]), pattern])), sym ")"]
  | properties =>
    all [sym "\x7b",
      opt (commas (all [opt (all [sepBy (sym ".") name, sym ":"]), pattern])), opt (sym ","),
      sym "\x7d"]
  | designation =>
    oneOf [plainName, all [sym "(", opt (commas designation), sym ")"]]
  -- statements
  | block => node .block (bracesOf statement)
  | statementBranch => branches statement
  | declarators => variablesOf name
  | tuplePattern =>
    all [sym "(", commas (oneOf [name, tuplePattern]), sym ")"]
  | statementExpr =>
    oneOf [
      all [word "await", ahead operandStart, operand, opt (all [assignment, expr])],
      all [oneOf [creation, all [sym "(", commas argument, sym ")", notAhead operandStart]],
        many (all [many access, action]),
        opt (all [many access, assignment, oneOf [initializer, expr]])],
      all [syms ["+", "-", "!", "~", "++", "--", "&", "*", "^"], operand,
        opt (all [assignment, oneOf [initializer, expr]])],
      all [primary,
        oneOf [
          all [many1 (all [many access, action]),
            opt (all [many access, assignment, oneOf [initializer, expr]])],
          all [many access, assignment, oneOf [initializer, expr]]]],
      all [cast, assignment, oneOf [initializer, expr]],
      all [cast, ahead (sym ";")],
      all [word "ref", operand, assignment, expr]]
  | statement =>
    oneOf [
      block,
      node .other (sym ";"),
      node .other keywordStatement,
      node .other (all [name, sym ":", statement]),
      node .other localFunction,
      node .other localVariables,
      node .other (all [statementExpr, sym ";"]),
      statementBranch]
  -- declarations
  | modifier => node .modifier modifierWord
  | parameterList =>
    node .parameterList (oneOf [
      all [sym "(", opt (commas parameter), sym ")"],
      mend brokenParameters])
  | parameter =>
    oneOf [
      -- a parameter that takes any number of values has no node of its own
      all [many attributeList, word "params", role .type type, role .name name],
      node .parameter (all [many attributeList,
        many (node .modifier (words ["ref", "out", "in", "this", "readonly"])),
        oneOf [all [role .type type, role .name anyWord], role .name name],
        opt (all [sym "=", expr])])]
  | baseList => node .baseList (all [sym ":", commas (all [type, opt arguments])])
  | constraint =>
    node .other (all [word "where", name, sym ":",
      commas (oneOf [
        all [word "class", opt (sym "?")],
        word "struct",
        word "default",
        all [word "new", sym "(", sym ")"],
        all [word "allows", word "ref", word "struct"],
        type])])
  | functionBody =>
    oneOf [
      role .body block,
      all [role .body (node .other (all [sym "=>", expr])), sym ";"],
      sym ";"]
  | accessors =>
    node .other (bracesOf (all [front, name, functionBody]))
  | memberList => node .memberList (bracesOf declaration)
  | declaration =>
    oneOf [usingLine, namespaceBlock, typeDeclaration, event, conversion, method, fields, property,
      indexer, operator, constructor, destructor, declarationBranch]
  | declarationBranch => branches declaration
  | typeDeclaration =>
    oneOf [classDeclaration, interfaceDeclaration, structDeclaration, enumDeclaration,
      recordDeclaration, delegateDeclaration]
  | enumMember =>
    node .other (all [many attributeList, name, opt (all [sym "=", expr]),
      oneOf [sym ",", ahead (sym "\x7d"), ahead (token (.cls .branch))]])
  | enumBranch => branches enumMember
  | qualifiedName =>
    node .qualifiedName (all [opt (all [anyWord, sym "::"]), anyWord, opt typeArguments,
      many (all [sym ".", anyWord, opt typeArguments])])
  | usingLine =>
    node .importLine (all [opt (word "global"), word "using",
      oneOf [
        all [opt (word "unsafe"), name, sym "=", type],
        all [opt (word "static"), opt (word "unsafe"), qualifiedName]],
      sym ";"])
  | namespaceBlock =>
    node .namespaceBlock (all [word "namespace", role .name qualifiedName, role .body memberList,
      opt (glued ";")])
  | braces =>
    all [sym "\x7b", many (oneOf [braces, token (.otherThan ["\x7b", "\x7d"])]), sym "\x7d"]
  | skip => node .error (oneOf [braces, token (.otherThan ["\x7d"])])
  | topItem =>
    oneOf [
      node .other (all [word "extern", word "alias", name, sym ";"]),
      usingLine,
      globalAttribute,
      namespaceBlock,
      namespaceLine,
      typeDeclaration,
      topBranch,
      statement]
  | topBranch => branches topItem
  | file =>
    all [many (oneOf [topItem, mend skip, mend (node .error (token (.otherThan [])))]), done]

end Part

/-- The grammar of C#. -/
def grammar : Grammar Part :=
  ⟨Part.rule, .file, Part.reserved⟩

end CSharp
end Source
end TypeAtlas
