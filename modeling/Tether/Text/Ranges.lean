set_option autoImplicit false

/- Sets of code points as sorted bounds: membership flips at every bound, starting outside. -/
namespace Tether.Text.Ranges

/-- The number of bounds in positions `low` to `high` that are at most `code`, plus `low`. -/
def rank (bounds : Array Nat) (code low high : Nat) : Nat :=
  if _ : low < high then
    let middle := (low + high) / 2
    if bounds.getD middle 0 ≤ code then rank bounds code (middle + 1) high
    else rank bounds code low middle
  else low
termination_by high - low

def contains (bounds : Array Nat) (code : Nat) : Bool :=
  rank bounds code 0 bounds.size % 2 == 1

end Tether.Text.Ranges
