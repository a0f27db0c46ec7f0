import ScriptTree.Vocabulary

/-! Tokens and the byte spans they cover. Literals keep their lexeme besides their text: a quoted
text with its quotes, a number as it is. All other tokens have none, and are written as their
text is. -/
namespace ScriptTree

/-- The half-open byte range from `start` to `stop`. -/
structure Span where
  start : Nat
  stop : Nat
  deriving DecidableEq, Repr

namespace Span

def through (first last : Span) : Span := ⟨first.start, last.stop⟩

def length (s : Span) : Nat := s.stop - s.start

def isEmpty (s : Span) : Bool := s.start == s.stop

end Span

structure Token where
  kind : Kind
  text : String
  span : Span
  raw : Option String
  deriving DecidableEq, Repr

namespace Token

def plain (kind : Kind) (text : String) (start : Nat) : Token :=
  ⟨kind, text, ⟨start, start + text.utf8ByteSize⟩, none⟩

def literal (kind : Kind) (text raw : String) (start : Nat) : Token :=
  ⟨kind, text, ⟨start, start + raw.utf8ByteSize⟩, some raw⟩

def is (t : Token) (kind : Kind) : Bool := t.kind == kind

def lexeme (t : Token) : String := t.raw.getD t.text

def description (t : Token) : String :=
  match t.kind with
  | .identifier => "Identifier '" ++ t.text ++ "'"
  | .number => t.kind.description ++ " " ++ t.lexeme
  | .string => t.kind.description ++ " " ++ t.lexeme
  | kind => kind.description

end Token

end ScriptTree
