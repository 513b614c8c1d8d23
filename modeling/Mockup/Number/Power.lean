/-! Powers of two and of ten: the bounds of words, and the scales of units. -/

namespace Mockup.Number

def twoTo (e : Nat) : Nat := Nat.pow 2 e

def tenTo (e : Nat) : Nat := Nat.pow 10 e

theorem twoTo_pos (e : Nat) : 0 < twoTo e := Nat.pow_pos (by decide)

theorem tenTo_pos (e : Nat) : 0 < tenTo e := Nat.pow_pos (by decide)

end Mockup.Number
