import ScriptTree.Error
import ScriptTree.Text.Piece
/-! The tokens of a text, at their byte positions, and the bytes that no token takes. -/
namespace ScriptTree.Text

def width (cs : List Char) : Nat := (String.ofList cs).utf8ByteSize

def placed (pos : Nat) (kind : Kind) (text : List Char) : Option (List Char) → Token
  | none => .plain kind (String.ofList text) pos
  | some raw => .literal kind (String.ofList text) (String.ofList raw) pos

def tokensFrom (pos : Nat) : List Piece → Except Error (List Token)
  | [] => .ok []
  | .fault number _ :: _ => .error (.unexpectedChar (pos + width number) '.')
  | .lexeme kind text raw :: more =>
    match tokensFrom (pos + width (raw.getD text)) more with
    | .ok tokens => .ok (placed pos kind text raw :: tokens)
    | .error e => .error e
  | .blank char :: more => tokensFrom (pos + width [char]) more
  | .stray char :: more => tokensFrom (pos + width [char]) more

structure StrayByte where
  pos : Nat
  byte : UInt8
  deriving DecidableEq, Repr

def bytesFrom (pos : Nat) : List UInt8 → List StrayByte
  | [] => []
  | byte :: more => ⟨pos, byte⟩ :: bytesFrom (pos + 1) more

def straysFrom (pos : Nat) : List Piece → List StrayByte
  | [] => []
  | .stray char :: more =>
    bytesFrom pos (String.utf8EncodeChar char) ++ straysFrom (pos + width [char]) more
  | piece :: more => straysFrom (pos + width piece.chars) more

def piecesOf (text : String) : List Piece := pieces none text.toList

def tokenize (text : String) : Except Error (List Token) := tokensFrom 0 (piecesOf text)

def strays (text : String) : List StrayByte := straysFrom 0 (piecesOf text)

end ScriptTree.Text
