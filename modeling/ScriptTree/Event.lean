import ScriptTree.Session
/-! What a listener hears while a text is read: each byte that no token takes, then that the
text is cut into tokens, then that these are read as a program. -/
namespace ScriptTree

inductive Event where
  | skipped (byte : Text.StrayByte)
  | tokenized (bytes tokens : Nat)
  | parsed (tokens statements : Nat)
  deriving DecidableEq, Repr

inductive Level where
  | trace | debug
  deriving DecidableEq, Repr

namespace Level

def name : Level → String
  | trace => "TRACE"
  | debug => "DEBUG"

end Level

namespace Event

def level : Event → Level
  | skipped _ => .trace
  | tokenized _ _ => .debug
  | parsed _ _ => .debug

def message : Event → String
  | skipped _ => "skip unrecognized byte"
  | tokenized _ _ => "source tokenized"
  | parsed _ _ => "program parsed"

def ofTokenizing (text : String) : List Event :=
  (Text.strays text).map skipped ++
    match Text.tokenize text with
    | .ok tokens => [tokenized text.utf8ByteSize tokens.length]
    | .error _ => []

def ofParsing (tokens : List Token) : List Event :=
  match parseTokens tokens with
  | .ok program => [parsed tokens.length program.body.length]
  | .error _ => []

def ofText (text : String) : List Event :=
  ofTokenizing text ++
    match Text.tokenize text with
    | .ok tokens => ofParsing tokens
    | .error _ => []

end Event

end ScriptTree
