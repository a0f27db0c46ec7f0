import ScriptTree.Token
/-! Structured values as they are handed to other programs. The fields of a record may come
in any order. -/
namespace ScriptTree

inductive Wire where
  | null
  | flag (flag : Bool)
  | number (number : Nat)
  | text (text : String)
  | list (items : List Wire)
  | record (fields : List (String × Wire))

namespace Wire

def optional (form : α → Wire) : Option α → Wire
  | none => null
  | some value => form value

end Wire

namespace Span

def fields (s : Span) : List (String × Wire) :=
  [("start", .number s.start), ("end", .number s.stop)]

end Span

namespace Token

/-- The field `rawText` is left out where no lexeme is kept. -/
def wire (t : Token) : Wire :=
  .record ([("kind", .text t.kind.name), ("text", .text t.text)] ++ t.span.fields ++
    match t.raw with
    | none => []
    | some raw => [("rawText", .text raw)])

end Token

end ScriptTree
