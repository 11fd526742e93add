import DocBlock.Decl.Basic
import DocBlock.Source.Token

/-! # The written form of a module

What the source reader keeps of a file: its declarations, with the types, parameters and members
they are written with. Every declaration has an `Origin`. Of a function body only the constructs
matter in which a `return` may stand; they are kept as `Code`. -/

namespace DocBlock.Source

/-! ## Bodies -/

/-- A construct of a function body. -/
inductive Construct where
  /-- A statement other than `return`. -/
  | statement
  /-- A `return` with a value. -/
  | returnValue
  /-- A `return` without a value. -/
  | returnNothing
  /-- A function, with its parameters and body. -/
  | function
  /-- An arrow function, with its parameters and body. -/
  | arrow
  /-- A class, with all of its members. -/
  | classBody
  /-- A method of an object, with its parameters and body. -/
  | method
  /-- A getter of an object. -/
  | getter
  /-- A setter of an object. -/
  | setter
  deriving DecidableEq, Inhabited, Repr

/-- A construct and the constructs inside it, in order. -/
inductive Code where
  | node (construct : Construct) (parts : List Code)
  deriving Inhabited, Repr

/-- Whether the returns inside a construct are those of a function of its own. The bodies of getters
and setters of an object are read as a part of the function around them. -/
def Construct.ownsReturns : Construct → Bool
  | function => true
  | arrow => true
  | classBody => true
  | method => true
  | _ => false

mutual

/-- Whether a value is returned in a construct, outside of the functions in it. -/
def Code.returnsValue : Code → Bool
  | .node .returnValue _ => true
  | .node construct parts => !construct.ownsReturns && Code.anyReturnsValue parts

/-- Whether a value is returned in one of several constructs. -/
def Code.anyReturnsValue : List Code → Bool
  | [] => false
  | code :: codes => code.returnsValue || Code.anyReturnsValue codes

end

/-! ## Declarations -/

/-- Where a declaration was found. -/
structure Origin where
  /-- The first line of the declaration. -/
  excerpt : String := ""
  /-- The documentation block before the declaration, as written. -/
  doc : Option String := none
  deriving DecidableEq, Inhabited, Repr

/-- What a member of an interface or object type is that takes parameters. -/
inductive MemberRole where
  | method
  | callSignature
  | constructSignature
  deriving DecidableEq, Inhabited, Repr

/-- The role of the declaration that such a member becomes. -/
def MemberRole.callableRole : MemberRole → CallableRole
  | method => .method
  | callSignature => .callSignature
  | constructSignature => .constructSignature

/-- A parameter apart from its type. -/
structure ParamShape where
  /-- The name; a parameter that is taken apart has none. -/
  name : Option Word := none
  /-- Whether it is marked as one that may be left out. -/
  optional : Bool := false
  /-- Whether it takes all remaining arguments. -/
  rest : Bool := false
  /-- The default value. -/
  initializer : Option Initializer := none
  deriving Inhabited, Repr

mutual

/-- The written form of a type. -/
inductive TypeForm where
  /-- A keyword, `this` or a literal. -/
  | word (text : String)
  | named (name : String) (args : List TypeForm)
  | array (element : TypeForm)
  | union (members : List TypeForm)
  /-- A `typeof` query, as written. -/
  | query (text : String)
  | object (origin : Origin) (members : List MemberForm)
  | function (origin : Origin) (typeParams : List String) (params : List ParamForm)
      (result : TypeForm)
  /-- Any other type, as written. -/
  | other (text : String)

/-- The written form of a parameter. -/
inductive ParamForm where
  | mk (origin : Origin) (shape : ParamShape) (type : Option TypeForm)

/-- The written form of a member of an interface or object type. -/
inductive MemberForm where
  | property (origin : Origin) (name : String) (optional : Bool) (type : Option TypeForm)
  | callable (origin : Origin) (role : MemberRole) (name : Option String)
      (typeParams : List String) (params : List ParamForm) (result : Option TypeForm)
  | accessor (origin : Origin) (name : String) (setter : Bool)
  /-- An index signature. -/
  | index

end

instance : Inhabited TypeForm := ⟨.other ""⟩
instance : Inhabited ParamForm := ⟨.mk {} {} none⟩
instance : Inhabited MemberForm := ⟨.index⟩

/-- The signature and body of a function. -/
structure FunctionForm where
  /-- The names of the type parameters. -/
  typeParams : List String := []
  /-- The parameters. -/
  params : List ParamForm := []
  /-- The annotated type of the result. -/
  result : Option TypeForm := none
  /-- The constructs of the body, when there is one. -/
  body : Option (List Code) := none
  deriving Inhabited

/-- A type that a class or interface inherits from. -/
structure HeritageForm where
  /-- The name, as written. -/
  name : String
  /-- The generic arguments. -/
  args : List TypeForm := []
  deriving Inhabited

/-- The written form of a class member. -/
inductive ClassMemberForm where
  | constructor (origin : Origin) (access : Option Access) (params : List ParamForm)
  | method (origin : Origin) (name : String) (modifiers : Modifiers) (function : FunctionForm)
  | accessor (origin : Origin) (name : String) (setter : Bool)
  /-- A property; the type stands beside the other parts. -/
  | property (origin : Origin) (decl : Variable) (type : Option TypeForm)
  deriving Inhabited

/-- The written form of a class. -/
structure ClassForm where
  /-- The names of the type parameters. -/
  typeParams : List String := []
  /-- The class it extends. -/
  parent : Option HeritageForm := none
  /-- The interfaces it implements. -/
  interfaces : List HeritageForm := []
  /-- The members that are documented. -/
  members : List ClassMemberForm := []
  deriving Inhabited

/-- A declaration of a file or namespace. -/
inductive Item where
  | variable (origin : Origin) (name : String) (initializer : Option Initializer)
      (type : Option TypeForm)
  | function (origin : Origin) (name : String) (function : FunctionForm)
  | classDecl (origin : Origin) (name : String) (decl : ClassForm)
  | interface (origin : Origin) (name : String) (typeParams : List String)
      (parents : List HeritageForm) (members : List MemberForm)
  | typeAlias (origin : Origin) (name : String) (typeParams : List String) (type : TypeForm)
  | enum (origin : Origin) (name : String) (members : List EnumMember)
  | namespaceDecl (origin : Origin) (name : String) (external : Bool) (items : List Item)
  | exportAssignment (origin : Origin)
  deriving Inhabited

/-- The written form of a file. -/
structure ModuleForm where
  /-- The name that a module directive gives to the file. -/
  moduleName : Option String := none
  /-- The declarations, in order. -/
  items : List Item := []
  deriving Inhabited

end DocBlock.Source
