/-
Square waves in signed 16-bit samples: each period is high for its first half, rounded down, and
low for the rest. A whole number of periods loops without a click.
-/
import Chip8.Host
import Chip8.Host.Number
import Chip8.Word

namespace Chip8

/-- A square wave: samples per period, how many samples there are, and the two of them. -/
structure Wave where
  period : Nat
  length : Nat
  high : Int
  low : Int
  /-- Both halves of a period hold a sample. -/
  two_le_period : 2 ≤ period
  deriving DecidableEq

/-- Why there is no wave. -/
inductive WaveError where
  /-- A frequency of zero has no period. -/
  | zeroFrequency
  /-- The same of a decimal. -/
  | zeroDecimal
  /-- The samples per second are out of the range of decimals. -/
  | rateOutOfRange
  /-- The samples per period are. -/
  | periodOutOfRange
  /-- So are they, for a decimal frequency. -/
  | endlessPeriod (e : Endless)
  /-- No word of the host holds the samples per period. -/
  | longPeriod (e : WordOverflow)
  /-- The host does not number the samples. -/
  | refused (e : HostError)
  /-- The volume is out of the range of decimals. -/
  | volumeOutOfRange
  deriving DecidableEq

def WaveError.message : WaveError → String
  | .zeroFrequency => "division by zero"
  | .zeroDecimal => "float division by zero"
  | .rateOutOfRange => "int too large to convert to float"
  | .periodOutOfRange => "integer division result too large for a float"
  | .endlessPeriod e => e.message
  | .longPeriod e => e.message
  | .refused e => e.message
  | .volumeOutOfRange => "int too large to convert to float"

namespace Wave

/-! ## Periods -/

/-- The samples per second divided by the frequency, as an integer times a power of two: the double
nearest to the quotient. A decimal frequency divides the double nearest to the rate. -/
def quotient (frequency : Number) (rate : Int) : Except WaveError (Int × Int) :=
  match frequency with
  | .whole f =>
    if f = 0 then .error .zeroFrequency
    else
      let q := Rounding.nearestDouble rate f
      if Rounding.inRange q.1 q.2 then .ok q else .error .periodOutOfRange
  | .decimal f =>
    match Number.doubleOfInt? rate with
    | none => .error .rateOutOfRange
    | some r =>
      if f == 0 then .error .zeroDecimal
      else if (r / f).isInf then .error (.endlessPeriod ⟨⟩)
      else .ok (Rounding.parts (r / f))

/-- Samples per period: the nearest integer, of two the even one, but at least two. -/
def periodOf (frequency : Number) (rate : Int) : Except WaveError { p : Nat // 2 ≤ p } :=
  (quotient frequency rate).map fun q =>
    ⟨max 2 (Rounding.toNearestEven q.1 q.2).toNat, Nat.le_max_left ..⟩

/-- How many samples the host numbers for so many periods. They are numbered in words of the host, so
that one has to hold the samples per period too. -/
def sampleCount (host : Host) (period : Nat) (periods : Int) : Except WaveError Nat := do
  let samples := period * periods
  let count ← (host.range samples).mapError .refused
  if fitsWord samples ∧ ¬ fitsWord period then .error (.longPeriod ⟨⟩) else return count

/-! ## Samples -/

/-- The sample of a loudness between -1 and 1, rounded towards zero. Louder ones wrap at 16 bits,
and past 32 bits they are silent. -/
def sampleOf (loudness : Float) : Int :=
  let n := Rounding.truncate (loudness * 32767)
  if -2147483648 ≤ n ∧ n < 2147483648 then n.bmod 65536 else 0

/-- The periods of a wave unless another number is asked for. -/
def standardPeriods : Int := 24

/-- The wave of a frequency and a volume at a number of samples per second. -/
def square (host : Host) (frequency : Number) (rate : Int) (volume : Number) (periods : Int) :
    Except WaveError Wave := do
  let period ← periodOf frequency rate
  let count ← sampleCount host period.1 periods
  match volume.toDouble? with
  | none => .error .volumeOutOfRange
  | some v => return ⟨period.1, count, sampleOf v, sampleOf (-v), period.2⟩

def sample (w : Wave) (t : Nat) : Int := if t % w.period < w.period / 2 then w.high else w.low

/-- All samples in order. -/
def samples (w : Wave) : List Int := (List.range w.length).map w.sample

end Wave

end Chip8
