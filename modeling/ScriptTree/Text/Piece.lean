import ScriptTree.Vocabulary
/-! A text cut into pieces, each read at the front of what the pieces before it left. A piece
knows no position; it keeps the characters it was cut from, so the pieces of a text spell it. -/
namespace ScriptTree.Text

inductive Piece where
  | blank (char : Char)
  | stray (char : Char)
  | lexeme (kind : Kind) (text : List Char) (raw : Option (List Char))
  /-- A number with a second point behind it. Nothing of `unread` is cut. -/
  | fault (number unread : List Char)
  deriving DecidableEq, Repr

namespace Piece

def chars : Piece → List Char
  | blank char => [char]
  | stray char => [char]
  | lexeme _ text raw => raw.getD text
  | fault number unread => number ++ unread

def kind? : Piece → Option Kind
  | lexeme kind _ _ => some kind
  | _ => none

end Piece

def isBlank (c : Char) : Bool := c == ' ' || c == '\t' || c == '\n' || c == '\r'

def isQuote (c : Char) : Bool := c == '\x27' || c == '"' || c == '\x60'

def isWordPart (c : Char) : Bool := c.isAlphanum || c == '_'

def wordKind (word : List Char) : Kind :=
  match Keyword.ofLexeme (String.ofList word) with
  | .ok reserved => .keyword reserved
  | .error _ => .identifier

def starKind : Option Kind → Kind
  | some (.keyword .importWord) => .punct .asterisk
  | some (.keyword .exportWord) => .punct .asterisk
  | _ => .operator .mul

def cutWord (c : Char) (cs : List Char) : Piece × List Char :=
  let word := c :: cs.takeWhile isWordPart
  (.lexeme (wordKind word) word none, cs.dropWhile isWordPart)

def cutQuoted (quote : Char) (cs : List Char) : Piece × List Char :=
  let text := cs.takeWhile (· != quote)
  match cs.dropWhile (· != quote) with
  | [] => (.lexeme .string text (some (quote :: text)), [])
  | close :: rest => (.lexeme .string text (some (quote :: text ++ [close])), rest)

def number (digits : List Char) : Piece := .lexeme .number digits (some digits)

def cutNumber (cs : List Char) : Piece × List Char :=
  let whole := cs.takeWhile Char.isDigit
  match cs.dropWhile Char.isDigit with
  | '.' :: more =>
    let decimal := whole ++ '.' :: more.takeWhile Char.isDigit
    match more.dropWhile Char.isDigit with
    | '.' :: rest => (.fault decimal ('.' :: rest), [])
    | rest => (number decimal, rest)
  | rest => (number whole, rest)

def operator? (spelling : List Char) : Option Piece :=
  match Operator.ofLexeme (String.ofList spelling) with
  | .ok op => some (.lexeme (.operator op) spelling none)
  | .error _ => none

def cutSymbol (c : Char) (cs : List Char) : Piece × List Char :=
  match Punct.ofLexeme (String.singleton c) with
  | .ok mark => (.lexeme (.punct mark) [c] none, cs)
  | .error _ =>
    match operator? (c :: cs.take 1) with
    | some piece => (piece, cs.drop 1)
    | none => ((operator? [c]).getD (.stray c), cs)

def cut (last : Option Kind) (c : Char) (cs : List Char) : Piece × List Char :=
  if isBlank c then (.blank c, cs)
  else if c.isAlpha then cutWord c cs
  else if c == '*' then (.lexeme (starKind last) [c] none, cs)
  else if isQuote c then cutQuoted c cs
  else if c.isDigit then cutNumber (c :: cs)
  else cutSymbol c cs

theorem quotedShortens (quote : Char) (cs : List Char) :
    (cutQuoted quote cs).2.length ≤ cs.length := by
  have shorter := (cs.dropWhile_suffix (· != quote)).length_le
  unfold cutQuoted
  split
  · exact Nat.zero_le _
  · rename_i close rest left
    rw [left] at shorter
    exact Nat.le_of_succ_le shorter

theorem numberShortens (cs : List Char) :
    (cutNumber cs).2.length ≤ (cs.dropWhile Char.isDigit).length := by
  unfold cutNumber
  split
  · rename_i more left
    have shorter := (more.dropWhile_suffix Char.isDigit).length_le
    rw [left]
    split
    · exact Nat.zero_le _
    · exact Nat.le_succ_of_le shorter
  · exact Nat.le_refl _

theorem symbolShortens (c : Char) (cs : List Char) :
    (cutSymbol c cs).2.length ≤ cs.length := by
  unfold cutSymbol
  split
  · simp
  · split <;> simp

theorem cutShortens (last : Option Kind) (c : Char) (cs : List Char) :
    (cut last c cs).2.length < (c :: cs).length := by
  unfold cut
  repeat' split
  · simp
  · exact Nat.lt_succ_of_le (List.dropWhile_suffix _).length_le
  · simp
  · exact Nat.lt_succ_of_le (quotedShortens _ _)
  · rename_i digit
    refine Nat.lt_of_le_of_lt (numberShortens _) (Nat.lt_succ_of_le ?_)
    rw [List.dropWhile_cons, if_pos digit]
    exact (List.dropWhile_suffix _).length_le
  · exact Nat.lt_succ_of_le (symbolShortens _ _)

def pieces (last : Option Kind) : List Char → List Piece
  | [] => []
  | c :: cs =>
    (cut last c cs).1 :: pieces ((cut last c cs).1.kind?.or last) (cut last c cs).2
termination_by cs => cs.length
decreasing_by exact cutShortens last c cs

end ScriptTree.Text
