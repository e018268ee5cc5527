import LamLang.Binary64.Basic

/-
  Arithmetic on 64-bit floating-point numbers.

  Key definitions include:
    * `LamLang.Binary64.add`
    * `LamLang.Binary64.sub`
    * `LamLang.Binary64.mul`
    * `LamLang.Binary64.div`

  Finite operands are combined as rational numbers, and the
  exact result is rounded once.
-/

------------------------------------------------------------
-- Sums
------------------------------------------------------------

namespace LamLang

namespace Binary64

/-
  The rounded sum of finite numbers.  A sum of zero is
  negative only if both of its terms are.
-/
def addFinite
    (s t : Bool)
    (a b : Nat) :
    Binary64 :=
  let sum := signed s (magnitude a) + signed t (magnitude b)
  ofMagnitude
    (if sum = 0 then s && t else decide (sum < 0)) sum

/- Addition. -/
def add : Binary64 → Binary64 → Binary64
| .nan, _ => .nan
| .infinite _, .nan => .nan
| .finite _ _, .nan => .nan
| .infinite s, .infinite t =>
    if s = t then .infinite s else .nan
| .infinite s, .finite _ _ => .infinite s
| .finite _ _, .infinite t => .infinite t
| .finite s a, .finite t b => addFinite s t a.val b.val

/- Subtraction adds the number with its sign changed. -/
def sub
    (x y : Binary64) :
    Binary64 :=
  x.add y.neg

end Binary64

end LamLang

------------------------------------------------------------
-- Products and Quotients
------------------------------------------------------------

namespace LamLang

namespace Binary64

/- Multiplication; zero times an infinity is no number. -/
def mul : Binary64 → Binary64 → Binary64
| .nan, _ => .nan
| .infinite _, .nan => .nan
| .finite _ _, .nan => .nan
| .infinite s, .infinite t => .infinite (s != t)
| .infinite s, .finite t b =>
    if b.val = 0 then .nan else .infinite (s != t)
| .finite s a, .infinite t =>
    if a.val = 0 then .nan else .infinite (s != t)
| .finite s a, .finite t b =>
    ofMagnitude (s != t) (magnitude a.val * magnitude b.val)

/-
  Division.  A quotient of zeros or of infinities is no
  number, and any other number over zero is infinite.
-/
def div : Binary64 → Binary64 → Binary64
| .nan, _ => .nan
| .infinite _, .nan => .nan
| .finite _ _, .nan => .nan
| .infinite _, .infinite _ => .nan
| .infinite s, .finite t _ => .infinite (s != t)
| .finite s _, .infinite t => zero (s != t)
| .finite s a, .finite t b =>
    if b.val = 0 then
      if a.val = 0 then .nan else .infinite (s != t)
    else
      ofMagnitude (s != t)
        (magnitude a.val / magnitude b.val)

end Binary64

end LamLang
