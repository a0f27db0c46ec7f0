import ScriptTree.Parser.Statement
import ScriptTree.Text.Tokenize
/-! Reading programs from one token list, again and again. A session keeps its place: what a
failing reading has passed is gone, and the next one goes on at the token that was refused. -/
namespace ScriptTree

structure Session where
  tokens : List Token
  cursor : Nat
  deriving DecidableEq, Repr

namespace Session

def ofTokens (tokens : List Token) : Session := ⟨tokens, 0⟩

def ofText (text : String) : Except Error Session :=
  (Text.tokenize text).map ofTokens

def run (s : Session) (parser : Parser α) : Except Error α × Session :=
  let (answer, cursor) := parser s.tokens.toArray s.cursor
  (answer, { s with cursor })

def readProgram (s : Session) : Except Error Program × Session := s.run Parser.program

def readPrograms (s : Session) : Nat → List (Except Error Program)
  | 0 => []
  | count + 1 => s.readProgram.1 :: s.readProgram.2.readPrograms count

end Session

def parseTokens (tokens : List Token) : Except Error Program :=
  (Session.ofTokens tokens).readProgram.1

def parse (text : String) : Except Error Program :=
  match Text.tokenize text with
  | .ok tokens => parseTokens tokens
  | .error e => .error e

end ScriptTree
