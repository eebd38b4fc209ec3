/-! # Properties given by ranges of code points -/

namespace ErSchema.Text.Property

def inRanges (ranges : List (Nat × Nat)) (code : Nat) : Bool :=
  ranges.any fun range => range.1 ≤ code && code ≤ range.2

end ErSchema.Text.Property
