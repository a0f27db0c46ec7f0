/-! Classes of characters as tables of closed ranges of code points. -/
namespace ScriptTree.Text

structure CodeRange where
  first : Nat
  last : Nat
  deriving DecidableEq, Repr

def CodeRange.holds (range : CodeRange) (c : Char) : Bool :=
  range.first ≤ c.toNat && c.toNat ≤ range.last

abbrev CodeTable := List CodeRange

def CodeTable.holds (table : CodeTable) (c : Char) : Bool := table.any (·.holds c)

end ScriptTree.Text
