/-
Double-precision numbers, without the machine's arithmetic.

A finite double is kept as its rank: the position of its magnitude in the
increasing list of all finite magnitudes, so that rank 0 is zero, rank 1 the
smallest subnormal and neighbours have neighbouring ranks. Everything else is
exact arithmetic on natural numbers: a rank stands for `significand * 2 ^ scale`
units of `2 ^ -1074`, a quotient is rounded to the nearest rank with ties to the
even one, and the shortest decimal of a rank is found by trying one to
seventeen digits until a candidate rounds back to the rank.

Ranks make rounding short. A quotient whose integer part in units has at most 53
bits is rounded as it stands; a longer one is first shifted until it has 53, and
the shift is added to the exponent field. A carry out of the significand moves
into that field by itself, because the fields are adjacent digits of one number.
-/

set_option autoImplicit false

namespace SourceDrift

/-- A power of two. -/
def twoTo (n : Nat) : Nat := Nat.pow 2 n

/-- A power of ten. -/
def tenTo (n : Nat) : Nat := Nat.pow 10 n

/-- The number of ranks that share an exponent field: one for each fraction. -/
def ranksPerBinade : Nat := 4503599627370496

/-- The number of finite magnitudes. -/
def finiteRanks : Nat := 2047 * ranksPerBinade

/-- A double-precision number. A not-a-number has no payload and no sign, since
nothing that reads or writes one can tell. -/
inductive Binary64 where
  | finite (negative : Bool) (rank : Fin finiteRanks)
  | infinite (negative : Bool)
  | nan
  deriving DecidableEq

namespace Binary64

/-! ## What a rank stands for -/

/-- The significand of a rank, with the leading bit that normal numbers leave
out of their fraction field. -/
def significand (rank : Nat) : Nat :=
  if rank < ranksPerBinade then rank else ranksPerBinade + rank % ranksPerBinade

/-- The power of two that the significand is shifted by. Subnormals and the
first binade share scale 0, which is what the truncated subtraction says. -/
def scale (rank : Nat) : Nat :=
  rank / ranksPerBinade - 1

/-- The magnitude of a rank, counted in units of `2 ^ -1074`. -/
def units (rank : Nat) : Nat :=
  significand rank * twoTo (scale rank)

/-- One, in the units that ranks count. -/
def unitsPerOne : Nat := twoTo 1074

/-! ## Rounding -/

/-- The quotient rounded to the nearest natural number, a tie to the even one. -/
def roundQuotient (num den : Nat) : Nat :=
  let whole := num / den
  let rest := num % den
  if 2 * rest < den then whole
  else if den < 2 * rest then whole + 1
  else if whole % 2 = 0 then whole
  else whole + 1

/-- The rank nearest to `num / den`. It may lie past the last finite rank, which
is how overflow shows. -/
def nearestRank (num den : Nat) : Nat :=
  -- A carry past 53 bits lands in the exponent field, which is the next binade.
  let shift := Nat.log2 (num * unitsPerOne / den) - 52
  shift * ranksPerBinade + roundQuotient (num * unitsPerOne) (den * twoTo shift)

/-- The number with a given sign and rank; ranks past the finite ones are
infinite. -/
def ofRank (negative : Bool) (rank : Nat) : Binary64 :=
  if h : rank < finiteRanks then .finite negative ⟨rank, h⟩ else .infinite negative

/-! ## Decimals -/

/-- The decimal `digits * 10 ^ exponent`. -/
structure Decimal where
  digits : Nat
  exponent : Int
  deriving DecidableEq

namespace Decimal

/-- The decimal digits of a natural number, most significant first. -/
def digitsOf (n : Nat) : List Char :=
  Nat.toDigits 10 n

/-- Numerator of the decimal as a quotient. -/
def num (d : Decimal) : Nat :=
  d.digits * tenTo d.exponent.toNat

/-- Denominator of the decimal as a quotient. -/
def den (d : Decimal) : Nat :=
  tenTo (-d.exponent).toNat

/-- The rank nearest to a decimal. Decimals beyond `10 ^ 310` are past the last
rank and those below `10 ^ -330` round to zero; they are answered at once, so
that an enormous exponent builds no enormous power. -/
def nearestRank (d : Decimal) : Nat :=
  if d.digits = 0 then 0
  else if 310 < d.exponent then finiteRanks
  else if d.exponent + (digitsOf d.digits).length < -330 then 0
  else Binary64.nearestRank d.num d.den

end Decimal

/-- The number nearest to a signed decimal. -/
def ofDecimal (negative : Bool) (d : Decimal) : Binary64 :=
  ofRank negative d.nearestRank

/-! ## The shortest decimal -/

/-- The exponent of the leading decimal digit of a rank above 0. Multiplying by
`10 ^ 400` first keeps even the smallest magnitude above one, and dropping the
fraction then drops no leading digit. -/
def leadingExponent (rank : Nat) : Int :=
  (Decimal.digitsOf (units rank * tenTo 400 / unitsPerOne)).length - 401

/-- How far `d` is from the magnitude of a rank, as a numerator over the common
denominator `unitsPerOne * d.den`. -/
def distance (rank : Nat) (d : Decimal) : Nat :=
  let a := units rank * d.den
  let b := d.num * unitsPerOne
  (a - b) + (b - a)

/-- Whether `above` is the better of two neighbours on a grid: the nearer one, or
the one with even digits where the magnitude lies halfway. -/
def prefersAbove (rank : Nat) (below above : Decimal) : Bool :=
  distance rank above < distance rank below ||
    (distance rank above == distance rank below && below.digits % 2 == 1)

/-- Of two neighbours the one that rounds to the rank, the better where both do. -/
def eitherOf? (rank : Nat) (below above : Decimal) : Option Decimal :=
  match below.nearestRank == rank, above.nearestRank == rank with
  | true, true => some (if prefersAbove rank below above then above else below)
  | true, false => some below
  | false, true => some above
  | false, false => none

/-- The magnitude of a rank without what lies behind `10 ^ exponent`. -/
def digitsAbove (rank : Nat) (exponent : Int) : Nat :=
  units rank * tenTo (-exponent).toNat / (unitsPerOne * tenTo exponent.toNat)

/-- The `n`-digit decimal that rounds to the rank, if there is one: only the two
neighbours of the magnitude on the grid of `n` digits can. -/
def shortestOf? (rank n : Nat) : Option Decimal :=
  let exponent := leadingExponent rank - n + 1
  let digits := digitsAbove rank exponent
  eitherOf? rank ⟨digits, exponent⟩ ⟨digits + 1, exponent⟩

/-- The magnitude of a rank as a decimal, in full: half a unit is five tenths, so
every magnitude ends. -/
def exactDecimal (rank : Nat) : Decimal :=
  ⟨units rank * Nat.pow 5 1074, -1074⟩

/-- **The decimal with the fewest digits that reads back as the rank.** Seventeen
digits always suffice; the exact decimal closes the search all the same, so that
what is written reads back whatever the search does. -/
def shortest (rank : Nat) : Decimal :=
  ((List.range' 1 17).findSome? (shortestOf? rank)).getD (exactDecimal rank)

/-! ## Whole numbers -/

/-- The integer that a finite number equals, if it equals one. -/
def toInt? : Binary64 → Option Int
  | .finite negative rank =>
    if units rank % unitsPerOne = 0 then
      let magnitude : Int := (units rank / unitsPerOne : Nat)
      some (if negative then -magnitude else magnitude)
    else none
  | .infinite _ => none
  | .nan => none

/-- Whether the number is neither infinite nor a not-a-number. -/
def isFinite : Binary64 → Bool
  | .finite _ _ => true
  | .infinite _ => false
  | .nan => false

/-- Whether the number is a zero of either sign. -/
def isZero : Binary64 → Bool
  | .finite _ rank => rank.val == 0
  | .infinite _ => false
  | .nan => false

end Binary64
end SourceDrift
