/-! The closed vocabulary of module scripts: words, marks and operators with their lexemes,
and the kinds that tokens carry. A kind has a canonical name, which all operators share,
and a description, which tells operators apart. -/
namespace ScriptTree

inductive Keyword where
  | letWord | constWord | varWord | functionWord | returnWord
  | importWord | exportWord | defaultWord | fromWord | asWord
  deriving DecidableEq, Repr

inductive Punct where
  | parenLeft | parenRight | braceLeft | braceRight
  | comma | dot | semicolon | assign | asterisk
  deriving DecidableEq, Repr

inductive Operator where
  | add | sub | mul | quo | rem | xor | and | or | tilde | shl | shr
  deriving DecidableEq, Repr

inductive Kind where
  | keyword (word : Keyword)
  | punct (mark : Punct)
  | operator (op : Operator)
  | identifier
  | number
  | string
  deriving DecidableEq, Repr

inductive LexemeError where
  | unknown
  deriving DecidableEq, Repr

def LexemeError.message : LexemeError → String
  | .unknown => "Matching variant not found"

namespace Keyword

def all : List Keyword :=
  [letWord, constWord, varWord, functionWord, returnWord,
    importWord, exportWord, defaultWord, fromWord, asWord]

def lexeme : Keyword → String
  | letWord => "let"
  | constWord => "const"
  | varWord => "var"
  | functionWord => "function"
  | returnWord => "return"
  | importWord => "import"
  | exportWord => "export"
  | defaultWord => "default"
  | fromWord => "from"
  | asWord => "as"

def name : Keyword → String
  | letWord => "Let"
  | constWord => "Const"
  | varWord => "Var"
  | functionWord => "Function"
  | returnWord => "Return"
  | importWord => "Import"
  | exportWord => "Export"
  | defaultWord => "Default"
  | fromWord => "From"
  | asWord => "As"

def ofLexeme (text : String) : Except LexemeError Keyword :=
  match all.find? (fun word => word.lexeme == text) with
  | some word => .ok word
  | none => .error .unknown

end Keyword

namespace Punct

def all : List Punct :=
  [parenLeft, parenRight, braceLeft, braceRight, comma, dot, semicolon, assign, asterisk]

def lexeme : Punct → String
  | parenLeft => "("
  | parenRight => ")"
  | braceLeft => "\x7b"
  | braceRight => "\x7d"
  | comma => ","
  | dot => "."
  | semicolon => ";"
  | assign => "="
  | asterisk => "*"

def name : Punct → String
  | parenLeft => "LeftParen"
  | parenRight => "RightParen"
  | braceLeft => "LeftCurly"
  | braceRight => "RightCurly"
  | comma => "Comma"
  | dot => "Dot"
  | semicolon => "Semicolon"
  | assign => "Assign"
  | asterisk => "Asterisk"

def ofLexeme (text : String) : Except LexemeError Punct :=
  match all.find? (fun mark => mark.lexeme == text) with
  | some mark => .ok mark
  | none => .error .unknown

end Punct

namespace Operator

def all : List Operator :=
  [add, sub, mul, quo, rem, xor, and, or, tilde, shl, shr]

def lexeme : Operator → String
  | add => "+"
  | sub => "-"
  | mul => "*"
  | quo => "/"
  | rem => "%"
  | xor => "^"
  | and => "&"
  | or => "|"
  | tilde => "~"
  | shl => "<<"
  | shr => ">>"

def ofLexeme (text : String) : Except LexemeError Operator :=
  match all.find? (fun op => op.lexeme == text) with
  | some op => .ok op
  | none => .error .unknown

end Operator

namespace Kind

def name : Kind → String
  | keyword word => word.name
  | punct mark => mark.name
  | operator _ => "Operator"
  | identifier => "Identifier"
  | number => "Number"
  | string => "StringLiteral"

def description : Kind → String
  | keyword word => "'" ++ word.lexeme ++ "'"
  | punct mark => "'" ++ mark.lexeme ++ "'"
  | operator op => "Operator '" ++ op.lexeme ++ "'"
  | identifier => "Identifier"
  | number => "Number Literals"
  | string => "String Literals"

end Kind

end ScriptTree
