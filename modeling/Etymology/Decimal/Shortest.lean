import Etymology.Decimal.Binary

namespace Etymology.Decimal

/-- The least `k` such that the value is below `10 ^ k`. -/
def Binary.scale (x : Binary) : Int :=
  let guess := ((x.m.log2 : Int) + x.q) * 30103 / 100000
  match [guess - 1, guess, guess + 1, guess + 2].find? fun k => compareScaled 1 k x.m x.q == .gt with
  | some k => k
  | none => guess + 3

/-- The neighbours of the value on the grid of multiples of `10 ^ g` that read back; of two the
nearer, and on a tie the even one. -/
def Binary.onGrid? (x : Binary) (g : Int) : Option Digits :=
  let num := x.m * Nat.pow 2 x.q.toNat * Nat.pow 10 (-g).toNat
  let den := Nat.pow 2 (-x.q).toNat * Nat.pow 10 g.toNat
  let below := num / den
  match x.readsBack ⟨below, g⟩, x.readsBack ⟨below + 1, g⟩ with
  | false, false => none
  | true, false => some ⟨below, g⟩
  | false, true => some ⟨below + 1, g⟩
  | true, true =>
    match compare (2 * num) ((2 * below + 1) * den) with
    | .lt => some ⟨below, g⟩
    | .gt => some ⟨below + 1, g⟩
    | .eq => some ⟨if below % 2 == 0 then below else below + 1, g⟩

/-- Moves the zeros at the end of the digits into the exponent. -/
def Digits.stripped (d : Digits) : Digits :=
  if h : d.digits ≠ 0 ∧ d.digits % 10 = 0 then Digits.stripped ⟨d.digits / 10, d.exp + 1⟩ else d
termination_by d.digits
decreasing_by exact Nat.div_lt_self (Nat.pos_of_ne_zero h.1) (by decide)

/-- Seventeen digits suffice for every value, so the exact digits behind them are never needed. -/
def Binary.shortest (x : Binary) : Digits :=
  let k := x.scale
  let found := (List.range 17).findSome? fun (n : Nat) => x.onGrid? (k - (n + 1))
  (found.getD ⟨x.m * Nat.pow 2 x.q.toNat * Nat.pow 5 (-x.q).toNat, min x.q 0⟩).stripped

def zeros (n : Nat) : List Char :=
  List.replicate n '0'

/-- Digits are written around a point while the leading one stands for `10 ^ (-4)` to `10 ^ 15`,
and otherwise with an exponent that has a sign and at least two digits. -/
def Digits.layout (d : Digits) : List Char :=
  let ds := Nat.toDigits 10 d.digits
  let e := (ds.length : Int) - 1 + d.exp
  if -4 ≤ e && e < 16 then
    if 0 ≤ d.exp then ds ++ zeros d.exp.toNat ++ ['.', '0']
    else if 0 ≤ e then ds.take (e.toNat + 1) ++ '.' :: ds.drop (e.toNat + 1)
    else '0' :: '.' :: zeros (-e - 1).toNat ++ ds
  else
    let tail := if ds.length ≤ 1 then [] else '.' :: ds.drop 1
    let power := Nat.toDigits 10 e.natAbs
    ds.take 1 ++ tail ++ 'e' :: (if e < 0 then '-' else '+') :: zeros (2 - power.length) ++ power

/-- The text of a value given by its bits. -/
def floatText (bits : UInt64) : String :=
  let sign := if isNegative bits then ['-'] else []
  if isNaN bits then "nan"
  else if !isFinite bits then String.ofList (sign ++ ['i', 'n', 'f'])
  else if isZero bits then String.ofList (sign ++ ['0', '.', '0'])
  else String.ofList (sign ++ (Binary.ofBits bits).shortest.layout)

end Etymology.Decimal
