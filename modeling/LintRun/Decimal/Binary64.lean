/-!
# Doubles as exact numbers

A finite double is `± m · 2 ^ q` with natural `m`. `parts` takes a double apart into that form,
and `nearest` goes the other way: it rounds an exact quotient to the nearest double, a tie to the
even one. All arithmetic between the two is on naturals.
-/
namespace LintRun.Decimal

/-- A double taken apart. -/
inductive Parts where
  | nan
  | infinite (negative : Bool)
  | finite (negative : Bool) (m : Nat) (q : Int)
  deriving DecidableEq, Repr

/-- The parts of a double, read off its bits; zero has `m = 0`. -/
def parts (x : Float) : Parts :=
  let bits : Nat := x.toBits.toNat
  let negative := bits / Nat.pow 2 63 == 1
  let field : Nat := bits / Nat.pow 2 52 % Nat.pow 2 11
  let fraction : Nat := bits % Nat.pow 2 52
  if field == 2047 then
    if fraction == 0 then .infinite negative else .nan
  else if field == 0 then .finite negative fraction (-1074)
  else .finite negative (fraction + Nat.pow 2 52) ((field : Int) - 1075)

/-- The double with the magnitude `m · 2 ^ q`, for `m ≤ 2 ^ 53` and `q ≥ -1074`; a magnitude
beyond the largest double is infinite. -/
def assemble (negative : Bool) (m : Nat) (q : Int) : Float :=
  let (m, q) := if m == Nat.pow 2 53 then (Nat.pow 2 52, q + 1) else (m, q)
  let sign := if negative then Nat.pow 2 63 else 0
  let magnitude :=
    if m < Nat.pow 2 52 then m
    else
      let field := (q + 1075).toNat
      if field ≥ 2047 then 2047 * Nat.pow 2 52 else field * Nat.pow 2 52 + (m - Nat.pow 2 52)
  Float.ofBits (UInt64.ofNat (sign + magnitude))

/-- A quotient of naturals rounded to the nearest natural, a tie to the even one. -/
def roundDiv (num den : Nat) : Nat :=
  let floor := num / den
  let twice := 2 * (num % den)
  if twice < den then floor
  else if twice > den then floor + 1
  else floor + floor % 2

/-- `num / den / 2 ^ q` as a quotient of naturals. -/
def scaleBinary (num den : Nat) (q : Int) : Nat × Nat :=
  if q < 0 then (num * Nat.pow 2 (-q).toNat, den) else (num, den * Nat.pow 2 q.toNat)

/-- The double nearest to `± num / den`, a tie to the even one. -/
def nearest (negative : Bool) (num den : Nat) : Float :=
  if num == 0 then assemble negative 0 (-1074)
  else
    let guess : Int := (num.log2 : Int) - den.log2 - 53
    let q := max guess (-1074)
    let (n, d) := scaleBinary num den q
    let q := if n / d ≥ Nat.pow 2 53 then q + 1 else q
    let (n, d) := scaleBinary num den q
    assemble negative (roundDiv n d) q

/-- The double nearest to an integer. -/
def ofInt (n : Int) : Float := nearest (n < 0) n.natAbs 1

def toInt? (x : Float) : Option Int :=
  match parts x with
  | .finite negative m q =>
    let whole? : Option Nat :=
      if q ≥ 0 then some (m * Nat.pow 2 q.toNat)
      else
        let unit := Nat.pow 2 (-q).toNat
        if m % unit == 0 then some (m / unit) else none
    whole?.map fun n => if negative then -(n : Int) else n
  | _ => none

def infinity (negative : Bool) : Float := assemble negative (Nat.pow 2 52) 1000

def notANumber : Float := Float.ofBits 0x7FF8000000000000

def isFinite (x : Float) : Bool :=
  match parts x with
  | .finite .. => true
  | _ => false

end LintRun.Decimal
