/-!
# Sets of characters given by ranges

The character classes of this library are sets of code points. Each is written down once, as a
list of inclusive ranges, and `inRanges` asks whether a character lies in one of them.
-/

namespace SchemaDiagram
namespace Text

/-- Whether the character lies in one of the inclusive ranges of code points. -/
def inRanges (ranges : List (Nat × Nat)) (c : Char) : Bool :=
  ranges.any fun r => decide (r.1 ≤ c.toNat) && decide (c.toNat ≤ r.2)

@[simp] theorem inRanges_nil (c : Char) : inRanges [] c = false := rfl

@[simp] theorem inRanges_cons (r : Nat × Nat) (rs : List (Nat × Nat)) (c : Char) :
    inRanges (r :: rs) c = (decide (r.1 ≤ c.toNat) && decide (c.toNat ≤ r.2) || inRanges rs c) :=
  rfl

end Text
end SchemaDiagram
