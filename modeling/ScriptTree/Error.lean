import ScriptTree.Token
import ScriptTree.Text.Quoted
/-! The two ways in which a script is refused, where each is reported, and its wording. -/
namespace ScriptTree

inductive Error where
  | unexpectedChar (pos : Nat) (char : Char)
  | unexpectedToken (pos : Nat) (expected : List Kind) (actual : Option Token)
  deriving DecidableEq, Repr

namespace Error

def pos : Error → Nat
  | unexpectedChar pos _ => pos
  | unexpectedToken pos _ _ => pos

def expectation : List Kind → String
  | [] => "expected something"
  | [kind] => "expected " ++ kind.description
  | kinds => "expected one of [" ++ ", ".intercalate (kinds.map Kind.description) ++ "]"

def finding : Option Token → String
  | none => "EOF"
  | some token => token.description

def message : Error → String
  | unexpectedChar pos char =>
    Nat.repr pos ++ ": unexpected character " ++ Text.quoted char
  | unexpectedToken pos expected actual =>
    Nat.repr pos ++ ": " ++ expectation expected ++ ", found " ++ finding actual

end Error

end ScriptTree
