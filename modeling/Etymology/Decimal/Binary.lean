namespace Etymology.Decimal

/-- A finite value without its sign, `m * 2 ^ q`. -/
structure Binary where
  m : Nat
  q : Int
  /-- The gap to the value below is half the gap to the value above. -/
  narrowBelow : Bool

def isNegative (bits : UInt64) : Bool :=
  bits >>> 63 == 1

def exponentField (bits : UInt64) : Nat :=
  ((bits >>> 52) &&& 0x7FF).toNat

def fractionField (bits : UInt64) : Nat :=
  (bits &&& 0xFFFFFFFFFFFFF).toNat

def isFinite (bits : UInt64) : Bool :=
  exponentField bits != 0x7FF

def isNaN (bits : UInt64) : Bool :=
  !isFinite bits && fractionField bits != 0

/-- Both zeros, the positive and the negative one. -/
def isZero (bits : UInt64) : Bool :=
  exponentField bits == 0 && fractionField bits == 0

/-- Meaningful for finite values only. -/
def Binary.ofBits (bits : UInt64) : Binary :=
  let e := exponentField bits
  let f := fractionField bits
  if e == 0 then ⟨f, -1074, false⟩ else ⟨0x10000000000000 + f, (e : Int) - 1075, f == 0 && decide (1 < e)⟩

/-- The integer that a finite value is, if it is one. -/
def integral? (bits : UInt64) : Option Int :=
  let x := Binary.ofBits bits
  let size := Nat.pow 2 (-x.q).toNat
  if isFinite bits && x.m % size == 0 then
    let n : Int := ((x.m / size * Nat.pow 2 x.q.toNat : Nat) : Int)
    some (if isNegative bits then -n else n)
  else none

/-- `digits * 10 ^ exp`. -/
structure Digits where
  digits : Nat
  exp : Int

/-- Compares `a * 10 ^ i` with `n * 2 ^ j`. -/
def compareScaled (a : Nat) (i : Int) (n : Nat) (j : Int) : Ordering :=
  compare (a * Nat.pow 10 i.toNat * Nat.pow 2 (-j).toNat) (n * Nat.pow 2 j.toNat * Nat.pow 10 (-i).toNat)

/-- The decimal lies between the halfway points to the two neighbours. A halfway point itself reads
back exactly if the value is even. -/
def Binary.readsBack (x : Binary) (d : Digits) : Bool :=
  let low := compareScaled d.digits d.exp (4 * x.m - if x.narrowBelow then 1 else 2) (x.q - 2)
  let high := compareScaled d.digits d.exp (4 * x.m + 2) (x.q - 2)
  let even := x.m % 2 == 0
  (low == .gt || (even && low == .eq)) && (high == .lt || (even && high == .eq))

/-- The bits of the value nearest to `m * 10 ^ e`. Far outside the range of finite values the
answer is settled by the size of the number alone, so that no huge power is computed. -/
def nearestBits (negative : Bool) (m : Nat) (e : Int) : UInt64 :=
  let size : Int := (m.log2 * 30103 / 100000 : Nat) + e
  let magnitude : UInt64 :=
    if m == 0 || size < -340 then 0
    else if 320 < size then 0x7FF0000000000000
    else (Float.ofScientific m (decide (e < 0)) e.natAbs).toBits
  if negative then magnitude ||| 0x8000000000000000 else magnitude

end Etymology.Decimal
