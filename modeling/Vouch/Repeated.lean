/-! An operation applied to many copies of one element.

The number of steps is that of the bits of the count: half of the copies are
combined once, and the result with itself. For an associative operation this is the
combination of all copies in a row. -/
namespace Vouch

/-- `count` copies of `a` combined. -/
@[specialize] def repeated {α : Type} (op : α → α → α) (unit : α) (count : Nat) (a : α) : α :=
  if count = 0 then unit
  else
    let half := repeated op unit (count / 2) a
    let even := op half half
    if count % 2 = 0 then even else op even a
termination_by count

end Vouch
