/-! # Tokens of source code

A place in a text is given by what is left to read from there, so a token knows the text that
starts with it and the text after it. Words are not divided into names and keywords here: many
keywords are names at most places, and only the grammar knows which. So a word has its name, and
beside it the keyword that it may stand for. -/

namespace DocBlock.Source

/-- Whether a character is one of the marks that comments put around the name of a parameter. -/
def isNameMark (c : Char) : Bool :=
  c == '[' || c == ']' || c == '=' || c == '.'

/-- The spelling of a word, which holds no such mark. -/
structure Word where
  /-- The characters. -/
  text : String
  plain : ∀ c ∈ text.toList, isNameMark c = false
  deriving DecidableEq, Repr

instance : Inhabited Word := ⟨"", fun _ h => absurd h List.not_mem_nil⟩

/-- The word with a given spelling, if there is one. -/
def Word.of? (text : String) : Option Word :=
  if h : text.toList.any isNameMark = false then
    some ⟨text, fun c hc => by simpa using List.any_eq_false.1 h c hc⟩
  else none

/-- What a token is. -/
inductive TokenKind where
  /-- A word: what it is called as a name, and the keyword it stands for, if it can be one. -/
  | word (name : Word) (keyword : Option String)
  /-- A name that starts with `#`. -/
  | privateName
  | number
  | bigint
  | string
  | regex
  /-- A piece of text between two tags of an element. -/
  | elementText
  | punctuator (text : String)
  /-- The opening of an expression inside a template. -/
  | substitution
  /-- The end of the text. -/
  | ending
  /-- Something that is no token. -/
  | invalid
  deriving DecidableEq, Inhabited, Repr

/-- A token in its text. -/
structure Token where
  /-- What the token is. -/
  kind : TokenKind
  /-- The text from the first character of the token on. -/
  start : List Char
  /-- The text after the token. -/
  after : List Char
  /-- Whether a line ends between the token and the one before it. -/
  lineBreak : Bool := false
  /-- The documentation block that belongs to the token, as written. -/
  doc : Option String := none
  deriving Inhabited, Repr

namespace Token

/-- Whether a token is the given punctuator. -/
def isMark (token : Token) (text : String) : Bool :=
  token.kind == .punctuator text

/-- Whether a token stands for the given keyword. -/
def isWord (token : Token) (keyword : String) : Bool :=
  match token.kind with
  | .word _ (some word) => word == keyword
  | _ => false

/-- Whether a token is a word. -/
def isAnyWord (token : Token) : Bool :=
  match token.kind with
  | .word _ _ => true
  | _ => false

end Token

/-! ## Keywords -/

/-- The words that are never names. -/
def reservedWords : List String :=
  ["break", "case", "catch", "class", "const", "continue", "debugger", "default", "delete", "do",
   "else", "enum", "export", "extends", "false", "finally", "for", "function", "if", "import", "in",
   "instanceof", "new", "null", "return", "super", "switch", "this", "throw", "true", "try",
   "typeof", "var", "void", "while", "with"]

/-- The further words that are no names inside a module. -/
def moduleReservedWords : List String :=
  ["await", "implements", "interface", "let", "package", "private", "protected", "public", "static",
   "yield"]

/-- The words that mean something at some places only and are names everywhere. -/
def contextualWords : List String :=
  ["abstract", "accessor", "any", "as", "assert", "asserts", "async", "bigint", "boolean", "declare",
   "from", "get", "global", "infer", "intrinsic", "is", "keyof", "meta", "module", "namespace",
   "never", "number", "object", "of", "out", "override", "readonly", "require", "satisfies", "set",
   "string", "symbol", "target", "type", "undefined", "unique", "unknown", "using"]

/-- Whether a word is a keyword at some place. -/
def isKeyword (name : String) : Bool :=
  reservedWords.contains name || moduleReservedWords.contains name || contextualWords.contains name

/-- Whether a word may name a variable. -/
def isFreeName (name : String) : Bool :=
  !reservedWords.contains name && !moduleReservedWords.contains name

/-- Whether a token is a word that may name a variable. -/
def Token.isFreeName (token : Token) : Bool :=
  match token.kind with
  | .word _ (some keyword) => DocBlock.Source.isFreeName keyword
  | .word _ none => true
  | _ => false

/-! ## Comments after tokens -/

/-- The keywords that a comment on the same line does not attach to. After any other word the
comment still belongs to that word. -/
def openWords : List String :=
  ["await", "break", "case", "catch", "class", "const", "continue", "debugger", "default", "delete",
   "do", "else", "export", "extends", "false", "finally", "for", "function", "if", "import", "in",
   "instanceof", "let", "new", "null", "return", "super", "switch", "this", "throw", "true", "try",
   "typeof", "var", "void", "while", "with", "yield", "module"]

/-- Whether a comment that follows on the same line belongs to the token itself, and not to the
token after the comment. -/
def TokenKind.keepsComment : TokenKind → Bool
  | word _ (some keyword) => !openWords.contains keyword
  | word _ none => true
  | privateName => true
  | number => true
  | bigint => true
  | string => true
  | regex => true
  | elementText => true
  | substitution => true
  | punctuator text => text == ";" || text == "\x7b" || text == "\x7d"
  | ending => false
  | invalid => false

/-- The text from one place up to a later one. -/
def textBetween (start stop : List Char) : String :=
  String.ofList (start.take (start.length - stop.length))

end DocBlock.Source
