import DocBlock.Decl.TypeExpr

/-! # Declarations

One constructor per family of declarations, each with only what the family has. Variables and
properties share one shape, and so do all declarations that take parameters; what they are is their
role. -/

namespace DocBlock

/-- What a literal initializer is. -/
inductive LiteralKind where
  | number
  | string
  | boolean
  deriving DecidableEq, Inhabited, Repr

/-- The type that a literal has. -/
def LiteralKind.typeName : LiteralKind → String
  | number => "number"
  | string => "string"
  | boolean => "boolean"

/-- The value that a declaration starts with. -/
structure Initializer where
  /-- The expression as written. -/
  text : String
  /-- The kind of literal, when the expression is one. -/
  literal : Option LiteralKind := none
  deriving DecidableEq, Inhabited, Repr

/-- From where a member may be used. -/
inductive Access where
  | everywhere
  | ownClass
  | subclasses
  deriving DecidableEq, Inhabited, Repr

/-- The keyword of an access level, which is also the tag that documents it. -/
def Access.keyword : Access → String
  | everywhere => "public"
  | ownClass => "private"
  | subclasses => "protected"

/-- The modifiers of a member. -/
structure Modifiers where
  /-- The declared access level. -/
  access : Option Access := none
  /-- Whether the member belongs to the class itself. -/
  isStatic : Bool := false
  deriving DecidableEq, Inhabited, Repr

/-- Which of the two heritage clauses a type stands in. -/
inductive HeritageKind where
  | extends_
  | implements_
  deriving DecidableEq, Inhabited, Repr

/-- One heritage clause of a class or interface. -/
structure HeritageClause where
  /-- Which clause it is. -/
  kind : HeritageKind
  /-- The types it lists. -/
  types : List TypeExpr
  deriving Inhabited, Repr

/-- A variable or a property. -/
structure Variable where
  /-- The declared name. -/
  name : String := ""
  /-- The type annotation. -/
  type : Option TypeExpr := none
  /-- The initial value. -/
  initializer : Option Initializer := none
  /-- The modifiers of a class property. -/
  modifiers : Modifiers := {}
  /-- Whether the property may be absent. -/
  optional : Bool := false
  deriving Inhabited, Repr

/-- What a declaration of the shape `Variable` is. -/
inductive VariableRole where
  /-- A variable of a file or namespace. -/
  | standalone
  /-- A property of a class, an interface or an object type. -/
  | member
  deriving DecidableEq, Inhabited, Repr

/-- A declaration that takes parameters. The parameters are its children. -/
structure Callable where
  /-- The declared name, when there is one. -/
  name : Option String := none
  /-- The names of the type parameters. -/
  typeParams : List String := []
  /-- The annotated type of the result. -/
  returnType : Option TypeExpr := none
  /-- Whether the body returns a value somewhere. -/
  returnsValue : Bool := false
  /-- The modifiers of a class member. -/
  modifiers : Modifiers := {}
  deriving Inhabited, Repr

/-- What a declaration of the shape `Callable` is. -/
inductive CallableRole where
  | function
  /-- A method of a class, an interface or an object type. -/
  | method
  | constructor
  | callSignature
  | constructSignature
  /-- An inline function or constructor type. -/
  | functionType
  deriving DecidableEq, Inhabited, Repr

/-- A parameter of a callable declaration. -/
structure Parameter where
  /-- The declared name. -/
  name : String := ""
  /-- The type annotation. -/
  type : Option TypeExpr := none
  /-- The default value. -/
  initializer : Option Initializer := none
  /-- Whether the parameter takes all remaining arguments. -/
  rest : Bool := false
  /-- Whether the parameter is marked as one that may be left out. -/
  optional : Bool := false
  deriving Inhabited, Repr

/-- An interface. -/
structure Interface where
  /-- The declared name. -/
  name : String := ""
  /-- The names of the type parameters. -/
  typeParams : List String := []
  /-- The heritage clauses. -/
  heritage : List HeritageClause := []
  /-- How many members of every kind it has. -/
  memberCount : Nat := 0
  deriving Inhabited, Repr

/-- A class. -/
structure Class where
  /-- The declared name. -/
  name : String := ""
  /-- The names of the type parameters. -/
  typeParams : List String := []
  /-- The heritage clauses. -/
  heritage : List HeritageClause := []
  deriving Inhabited, Repr

/-- A type alias. -/
structure TypeAlias where
  /-- The declared name. -/
  name : String := ""
  /-- The names of the type parameters. -/
  typeParams : List String := []
  /-- The type it stands for. -/
  type : Option TypeExpr := none
  deriving Inhabited, Repr

/-- A member of an enumeration. -/
structure EnumMember where
  /-- The name of the member. -/
  name : String
  /-- The value given to it. -/
  initializer : Option Initializer := none
  deriving Inhabited, Repr

/-- An enumeration. -/
structure Enum where
  /-- The declared name. -/
  name : String := ""
  /-- The members, in order. -/
  members : List EnumMember := []
  /-- The modifiers. -/
  modifiers : Modifiers := {}
  deriving Inhabited, Repr

/-- A namespace or an ambient module. -/
structure Namespace where
  /-- The name, without quotes. -/
  name : String := ""
  /-- Whether the name was written in quotes. -/
  external : Bool := false
  deriving Inhabited, Repr

/-- A declaration. -/
inductive Decl where
  /-- A source file, with the name that a module directive gives it. -/
  | file (moduleName : Option String)
  | variableDecl (role : VariableRole) (decl : Variable)
  | callable (role : CallableRole) (decl : Callable)
  /-- A getter or a setter. -/
  | accessor (name : String) (setter : Bool)
  | parameter (decl : Parameter)
  | interface (decl : Interface)
  | classDecl (decl : Class)
  | typeAlias (decl : TypeAlias)
  | enum (decl : Enum)
  | namespaceDecl (decl : Namespace)
  | exportAssignment
  /-- An inline object type. -/
  | objectType
  deriving Inhabited, Repr

namespace Decl

/-- What a declaration is, in the words of the reports. -/
def kindName : Decl → String
  | file _ => "source file"
  | variableDecl .standalone _ => "variable"
  | variableDecl .member _ => "property"
  | callable .function _ => "function"
  | callable .method _ => "method"
  | callable .constructor _ => "constructor"
  | callable .callSignature _ => "call signature"
  | callable .constructSignature _ => "construct signature"
  | callable .functionType _ => "function type"
  | accessor _ _ => "accessor"
  | parameter _ => "parameter"
  | interface _ => "interface"
  | classDecl _ => "class"
  | typeAlias _ => "type alias"
  | enum _ => "enum"
  | namespaceDecl _ => "namespace"
  | exportAssignment => "export assignment"
  | objectType => "object type"

/-- The declared name. -/
def name? : Decl → Option String
  | variableDecl _ v => some v.name
  | callable _ c => c.name
  | accessor name _ => some name
  | parameter p => some p.name
  | interface i => some i.name
  | classDecl c => some c.name
  | typeAlias a => some a.name
  | enum e => some e.name
  | namespaceDecl n => some n.name
  | file _ => none
  | exportAssignment => none
  | objectType => none

/-- The type annotation; for callable declarations, that of the result. -/
def annotation? : Decl → Option TypeExpr
  | variableDecl _ v => v.type
  | parameter p => p.type
  | typeAlias a => a.type
  | callable _ c => c.returnType
  | _ => none

/-- The declaration with another type annotation, where it can have one. -/
def annotate (type : TypeExpr) : Decl → Decl
  | variableDecl role v => variableDecl role { v with type := some type }
  | parameter p => parameter { p with type := some type }
  | typeAlias a => typeAlias { a with type := some type }
  | callable role c => callable role { c with returnType := some type }
  | decl => decl

/-- The declaration with other heritage clauses, where it can have some. -/
def inherit (heritage : List HeritageClause) : Decl → Decl
  | classDecl c => classDecl { c with heritage }
  | interface i => interface { i with heritage }
  | decl => decl

/-- The names of the type parameters. -/
def typeParams : Decl → List String
  | callable _ c => c.typeParams
  | interface i => i.typeParams
  | classDecl c => c.typeParams
  | typeAlias a => a.typeParams
  | _ => []

/-- The modifiers of members; other declarations have none. -/
def modifiers : Decl → Modifiers
  | variableDecl _ v => v.modifiers
  | callable .function c => c.modifiers
  | callable .method c => c.modifiers
  | callable .constructor c => c.modifiers
  | enum e => e.modifiers
  | _ => {}

/-- The initial value. -/
def initializer? : Decl → Option Initializer
  | variableDecl _ v => v.initializer
  | parameter p => p.initializer
  | _ => none

/-- The heritage clauses. -/
def heritage : Decl → List HeritageClause
  | interface i => i.heritage
  | classDecl c => c.heritage
  | _ => []

/-! ## Families of declarations -/

/-- Whether a declaration is a source file. -/
def isFile : Decl → Bool
  | file _ => true
  | _ => false

/-- Whether a declaration is a namespace or an ambient module. -/
def isNamespace : Decl → Bool
  | namespaceDecl _ => true
  | _ => false

/-- Whether a declaration is a parameter. -/
def isParameter : Decl → Bool
  | parameter _ => true
  | _ => false

/-- Whether a declaration is an inline object type. -/
def isObjectType : Decl → Bool
  | objectType => true
  | _ => false

/-- Whether a declaration is an inline function type. -/
def isFunctionType : Decl → Bool
  | callable .functionType _ => true
  | _ => false

/-- Whether a declaration is an interface. -/
def isInterface : Decl → Bool
  | interface _ => true
  | _ => false

/-- Whether a declaration is a class or an interface. -/
def isClassLike : Decl → Bool
  | interface _ => true
  | classDecl _ => true
  | _ => false

/-- Whether a declaration gives its name to the declarations inside it. -/
def isNamedScope : Decl → Bool
  | interface _ => true
  | classDecl _ => true
  | enum _ => true
  | namespaceDecl _ => true
  | _ => false

/-- Whether the declarations inside a declaration are documented as its members. -/
def isOwner : Decl → Bool
  | file _ => true
  | objectType => true
  | decl => decl.isNamedScope

/-- Whether an anonymous type can take its name from a declaration. -/
def namesAnonymous : Decl → Bool
  | variableDecl _ _ => true
  | callable .function _ => true
  | callable .method _ => true
  | parameter _ => true
  | _ => false

end Decl

end DocBlock
