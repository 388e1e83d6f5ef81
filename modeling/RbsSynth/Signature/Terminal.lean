/-!
The terminals of the signature language.

`Terminal.scanOrder` is the order in which a lexer tries them.  A terminal of a higher rank comes
first, and inside one rank those that can take more text come first.
-/

namespace RbsSynth.Signature

inductive Terminal
  | namespacePath
  | selfOptionalDot
  | selfDot
  | label
  | suffixedName
  | attributeWord
  | baseType
  | mixinWord
  | visibilityWord
  | annotation
  | symbol
  | string
  | lowerName
  | globalName
  | instanceVariable
  | interfaceName
  | upperName
  | integer
  | blank
  | comment
  | uncheckedWord
  | singletonWord
  | interfaceWord
  | moduleWord
  | aliasWord
  | classWord
  | selfWord
  | typeWord
  | operator
  | varianceWord
  | dots
  | defWord
  | endWord
  | arrow
  | doubleStar
  | ampersand
  | caret
  | colon
  | comma
  | equals
  | leftBrace
  | less
  | leftParen
  | leftBracket
  | question
  | rightBrace
  | rightParen
  | rightBracket
  | star
  | bar
  | endOfText
  deriving DecidableEq

namespace Terminal

/-- Every terminal but the end of the text, in the order in which a lexer tries them. -/
def scanOrder : List Terminal :=
  [namespacePath, selfOptionalDot, selfDot,
   label, suffixedName, attributeWord, baseType, mixinWord, visibilityWord,
   annotation, symbol, string, lowerName, globalName, instanceVariable, interfaceName, upperName,
   integer, blank, comment, uncheckedWord, singletonWord, interfaceWord, moduleWord, aliasWord,
   classWord, selfWord, typeWord, operator, varianceWord, dots, defWord, endWord, arrow,
   doubleStar, ampersand, caret, colon, comma, equals, leftBrace, less, leftParen, leftBracket,
   question, rightBrace, rightParen, rightBracket, star, bar]

def all : List Terminal := scanOrder ++ [endOfText]

/-- The number of a terminal is its place in `all`. -/
def number (t : Terminal) : Nat := t.ctorIdx

theorem number_all : all.map number = List.range all.length := by decide

/-- The name by which messages call a terminal. -/
def name : Terminal → String
  | namespacePath => "NAMESPACE"
  | selfOptionalDot => "SELFQ_DOT"
  | selfDot => "SELF_DOT"
  | label => "KEYWORD_LABEL"
  | suffixedName => "METHOD_SUFFIXED"
  | attributeWord => "ATTR_KIND"
  | baseType => "BASE_TYPE"
  | mixinWord => "MIXIN_KIND"
  | visibilityWord => "VISIBILITY"
  | annotation => "ANNOTATION"
  | symbol => "SYMBOL"
  | string => "STRING"
  | lowerName => "LIDENT"
  | globalName => "GIDENT"
  | instanceVariable => "IVAR"
  | interfaceName => "INTERFACE_IDENT"
  | upperName => "UIDENT"
  | integer => "INTEGER"
  | blank => "WS"
  | comment => "COMMENT"
  | uncheckedWord => "UNCHECKED"
  | singletonWord => "SINGLETON"
  | interfaceWord => "_INTERFACE"
  | moduleWord => "_MODULE"
  | aliasWord => "_ALIAS"
  | classWord => "_CLASS"
  | selfWord => "SELF"
  | typeWord => "_TYPE"
  | operator => "OPERATOR"
  | varianceWord => "VARIANCE"
  | dots => "DOTS"
  | defWord => "_DEF"
  | endWord => "_END"
  | arrow => "__ANON_0"
  | doubleStar => "__ANON_1"
  | ampersand => "AMPERSAND"
  | caret => "CIRCUMFLEX"
  | colon => "COLON"
  | comma => "COMMA"
  | equals => "EQUAL"
  | leftBrace => "LBRACE"
  | less => "LESSTHAN"
  | leftParen => "LPAR"
  | leftBracket => "LSQB"
  | question => "QMARK"
  | rightBrace => "RBRACE"
  | rightParen => "RPAR"
  | rightBracket => "RSQB"
  | star => "STAR"
  | bar => "VBAR"
  | endOfText => "$END"

/-- The one spelling of a terminal that has only one. -/
def spelling? : Terminal → Option String
  | selfOptionalDot => some "self?."
  | selfDot => some "self."
  | singletonWord => some "singleton"
  | interfaceWord => some "interface"
  | moduleWord => some "module"
  | aliasWord => some "alias"
  | classWord => some "class"
  | selfWord => some "self"
  | typeWord => some "type"
  | dots => some "..."
  | defWord => some "def"
  | endWord => some "end"
  | arrow => some "->"
  | doubleStar => some "**"
  | ampersand => some "&"
  | caret => some "^"
  | colon => some ":"
  | comma => some ","
  | equals => some "="
  | leftBrace => some "\x7b"
  | less => some "<"
  | leftParen => some "("
  | leftBracket => some "["
  | question => some "?"
  | rightBrace => some "\x7d"
  | rightParen => some ")"
  | rightBracket => some "]"
  | star => some "*"
  | bar => some "|"
  | _ => none

/-- The terminals with one spelling that a wider terminal of the same rank takes whole.  Where both
may stand, only the wider one is tried, and a match of such a spelling is the narrow terminal. -/
def covers : Terminal → List Terminal
  | lowerName =>
    [singletonWord, interfaceWord, moduleWord, aliasWord, classWord, selfWord, typeWord, defWord,
     endWord]
  | operator => [doubleStar, ampersand, caret, less, star, bar]
  | _ => []

/-- Blanks and comments may stand between any two tokens. -/
def isSkipped : Terminal → Bool
  | blank | comment => true
  | _ => false

end Terminal

end RbsSynth.Signature
