/-!
# Shortest decimals

A double-precision number is written with the fewest digits that read back as it: of the decimals in
the interval that rounds to the number, one with the fewest digits, and of those the nearest. Very
large and very small numbers are written with an exponent.
-/

namespace RetainedUi.Decimal

/-- A positive number `mantissa · 2 ^ exponent` with the interval around it that rounds to it. The
ends lie half a unit away, the lower one a quarter where the next number below is nearer. -/
structure Binary where
  mantissa : Nat
  exponent : Int
  /-- The next number below is only half as far away as the next one above. -/
  lowerNearer : Bool

/-- How many fractions a number of one exponent can have, 2⁵². -/
def fractions : Nat := 4503599627370496

/-- How many exponents a number can have, 2¹¹. -/
def exponents : Nat := 2048

/-- The parts of a positive finite number, from its bits. -/
def Binary.ofBits (bits : Nat) : Binary :=
  let fraction := bits % fractions
  let biased := bits / fractions % exponents
  if biased = 0 then ⟨fraction, -1074, false⟩
  else ⟨fractions + fraction, (biased : Int) - 1075, fraction = 0 && 1 < biased⟩

/-- A number written `digits · 10 ^ exponent`. -/
structure Written where
  digits : Nat
  exponent : Int

/-- How many digits a positive number has before the point; a number below one has none or, counting
the zeros after the point, fewer than none. -/
def wholeDigits (b : Binary) : Int :=
  let scaled :=
    b.mantissa * Nat.pow 2 b.exponent.toNat * Nat.pow 10 400 / Nat.pow 2 (-b.exponent).toNat
  ((Nat.toDigits 10 scaled).length : Int) - 400

/-- The decimal nearest to `b` among the multiples of `10 ^ e`, if one of them rounds to `b`; of two
that are equally near the one with an even last digit. -/
def onGrid? (b : Binary) (e : Int) : Option Written :=
  -- Everything is counted in quarters of a binary unit, times what makes both sides whole.
  let unit := Nat.pow 2 (b.exponent - 2).toNat * Nat.pow 10 (-e).toNat
  let step := Nat.pow 2 (2 - b.exponent).toNat * Nat.pow 10 e.toNat
  let value := 4 * b.mantissa * unit
  let low := value - (if b.lowerNearer then 1 else 2) * unit
  let high := value + 2 * unit
  let rounds (n : Nat) : Bool :=
    if b.mantissa % 2 = 0 then low ≤ n * step && n * step ≤ high
    else low < n * step && n * step < high
  let below := value / step
  let above := below + 1
  match rounds below, rounds above with
  | true, true =>
    let down := value - below * step
    let up := above * step - value
    if down < up ∨ down = up ∧ below % 2 = 0 then some ⟨below, e⟩ else some ⟨above, e⟩
  | true, false => some ⟨below, e⟩
  | false, true => some ⟨above, e⟩
  | false, false => none

/-- The first hit among the grids with a place for `n` digits of the number and more. The grid with
none holds the power of ten above the number. Seventeen digits always suffice. -/
def shortestFrom (b : Binary) (whole : Int) (n tries : Nat) : Written :=
  match tries with
  | 0 => ⟨0, 0⟩
  | tries + 1 =>
    match onGrid? b (whole - n) with
    | some d => d
    | none => shortestFrom b whole (n + 1) tries

/-- The shortest decimal that reads back as a positive number. -/
def shortest (b : Binary) : Written := shortestFrom b (wholeDigits b) 0 18

/-- A decimal without an exponent and with at least one digit on either side of the point. -/
def Written.positional (d : Written) : String :=
  let digits := Nat.toDigits 10 d.digits
  let zeros (n : Nat) : List Char := List.replicate n '0'
  if 0 ≤ d.exponent then .ofList (digits ++ zeros d.exponent.toNat ++ ['.', '0'])
  else
    let places := (-d.exponent).toNat
    let padded := zeros (places + 1 - digits.length) ++ digits
    let whole := padded.length - places
    .ofList (padded.take whole ++ '.' :: padded.drop whole)

/-- The power of ten that the first digit stands for. -/
def Written.power (d : Written) : Int := d.exponent + (Nat.toDigits 10 d.digits).length - 1

/-- A decimal with one digit before the point, which is left out when no digit follows, and the
power of ten with its sign. -/
def Written.scientific (d : Written) : String :=
  let mark := if d.power < 0 then "e-" else "e+"
  let digits := match Nat.toDigits 10 d.digits with
    | first :: later@(_ :: _) => first :: '.' :: later
    | digits => digits
  .ofList digits ++ mark ++ toString d.power.natAbs

/-- The least power of ten that is written without an exponent. -/
def leastPositional : Int := -5

/-- The greatest power of ten that is written without an exponent. -/
def greatestPositional : Int := 15

/-- A decimal, with an exponent where it would be long without. -/
def Written.text (d : Written) : String :=
  if leastPositional ≤ d.power ∧ d.power ≤ greatestPositional then d.positional else d.scientific

/-- A finite number with the fewest digits that read back as it. -/
def text (f : Float) : String :=
  let bits := f.toBits.toNat
  let sign := if fractions * exponents ≤ bits then "-" else ""
  let magnitude := bits % (fractions * exponents)
  sign ++ if magnitude = 0 then "0.0" else (shortest (.ofBits magnitude)).text

end RetainedUi.Decimal
