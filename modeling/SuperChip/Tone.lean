import SuperChip.Block
import SuperChip.Number.Quantity

-- One period of a square wave, as samples of sixteen bits.
namespace SuperChip

structure Tone where
  -- samples in a period, at least two
  period : Nat
  amplitude : Int
  channels : Int
  deriving DecidableEq, Repr

namespace Tone

def defaultSampleRate : Int := 44100

def defaultPitch : Int := 440

def defaultVolume : Float := 0.25

inductive Error where
  | zeroPitch
  | notANumber
  | infinite
  -- a sample that sixteen bits cannot hold
  | tooLoud (sample : Int)
  -- a sample that no machine word can hold
  | farTooLoud
  | tooManyChannels
  | noRoom (cause : Block.Refusal)
  deriving DecidableEq, Repr

def Error.message : Error → String
  | .zeroPitch => "integer division or modulo by zero"
  | .notANumber => "cannot convert float NaN to integer"
  | .infinite => "cannot convert float infinity to integer"
  | .tooLoud sample => s!"Python integer {sample} out of bounds for int16"
  | .farTooLoud | .tooManyChannels => "Python int too large to convert to C long"
  | .noRoom cause => cause.message

-- Full volume is the largest sample. The part behind the point is cut off.
def amplitudeOf : Number.Quantity → Except Error Int
  | .whole n => .ok (n * 32767)
  | .real f => match Number.parts (f * 32767) with
    | .nan => .error .notANumber
    | .infinite _ => .error .infinite
    | .finite negative mantissa exponent => .ok (Number.truncate negative mantissa exponent)

def checkSample (n : Int) : Except Error Unit :=
  if !fitsWord n then .error .farTooLoud
  else if n < -32768 ∨ 32767 < n then .error (.tooLoud n)
  else .ok ()

-- The period is rounded down, but never below two samples.
def periodOf (sampleRate pitch : Int) : Nat := (max 2 (Int.fdiv sampleRate pitch)).toNat

-- A sample takes two bytes.
def checkRoom (shape : List Int) : Except Error Unit :=
  (Block.check ⟨shape, 2, "int16"⟩).mapError .noRoom

-- The samples are made for one channel first: the first half of the period, and then the second,
-- which has the other sign. After that they are repeated for the other channels.
def ofAmplitude (period : Nat) (amplitude channels : Int) : Except Error Tone := do
  checkRoom [period]
  checkSample amplitude
  checkSample (-amplitude)
  if channels > 1 then
    if !fitsWord channels then throw .tooManyChannels
    checkRoom [period, channels]
  return ⟨period, amplitude, channels⟩

def build (sampleRate pitch : Int) (volume : Number.Quantity) (channels : Int) :
    Except Error Tone := do
  if pitch = 0 then throw .zeroPitch
  ofAmplitude (periodOf sampleRate pitch) (← amplitudeOf volume) channels

-- The beep: the default tone at a quarter of full volume.
def beep (sampleRate channels : Int) : Except Error Tone :=
  ofAmplitude (periodOf sampleRate defaultPitch) 8191 channels

-- The samples of one channel. In an odd period the second part is the longer one.
def samples (t : Tone) : List Int :=
  List.replicate (t.period / 2) t.amplitude
    ++ List.replicate (t.period - t.period / 2) (-t.amplitude)

-- One channel needs no second dimension.
def shape (t : Tone) : List Int := if t.channels > 1 then [t.period, t.channels] else [t.period]

-- All channels sound the same.
def frameOf (t : Tone) (sample : Int) : List Int :=
  if t.channels > 1 then List.replicate t.channels.toNat sample else [sample]

end Tone

end SuperChip
