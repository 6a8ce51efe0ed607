/-!
Sets of characters given by ranges of code points. The character classes of the library are
tables of this form; membership is a linear test, so a class is also something that can be
computed with inside a proof.
-/

namespace Reclaim.Text

abbrev Ranges := List (Nat × Nat)

def Ranges.has (table : Ranges) (c : Char) : Bool :=
  table.any fun (low, high) => low ≤ c.toNat && c.toNat ≤ high

@[simp] theorem Ranges.has_nil (c : Char) : Ranges.has [] c = false := rfl

@[simp] theorem Ranges.has_cons (low high : Nat) (table : Ranges) (c : Char) :
    Ranges.has ((low, high) :: table) c =
      ((low ≤ c.toNat && c.toNat ≤ high) || Ranges.has table c) := rfl

end Reclaim.Text
