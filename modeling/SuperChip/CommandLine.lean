import SuperChip.Log
import SuperChip.Number.Numeral
import SuperChip.Text.Quoted

-- The command line: one program file and a few options around it, in any order. Options may be cut
-- short as long as they stay unambiguous, and short ones may be run together.
namespace SuperChip.CommandLine

inductive Flag where
  | help
  | scale
  | cpuHz
  | noAudio
  | verbose
  deriving DecidableEq, Repr

-- The spellings of the options, in the order in which they are offered.
def spellings : List (String × Flag) :=
  [("-h", .help), ("--help", .help), ("--scale", .scale), ("-s", .scale), ("--cpu-hz", .cpuHz),
   ("--no-audio", .noAudio), ("--verbose", .verbose), ("-v", .verbose)]

def Flag.takesValue : Flag → Bool
  | scale | cpuHz => true
  | help | noAudio | verbose => false

-- An option's name in messages: all its spellings.
def Flag.title (flag : Flag) : String :=
  "/".intercalate ((spellings.filter fun s => s.2 = flag).map (·.1))

def Flag.valueKind : Flag → String
  | scale => "int"
  | _ => "float"

-- The numbers may be missing although their options were given.
structure Arguments where
  rom : String
  scale : Option Int
  cpuHz : Option Float
  noAudio : Bool
  verbosity : Nat

-- Why a command line is refused.
inductive Refusal where
  | ambiguous (given : String) (candidates : List String)
  | missingValue (flag : Flag)
  | badValue (flag : Flag) (given : String)
  -- something is attached to an option that takes no value
  | uselessValue (flag : Flag) (given : String)
  | missingRom
  | unrecognized (extras : List String)
  | badRate
  deriving DecidableEq, Repr

def Refusal.message : Refusal → String
  | .ambiguous given candidates =>
    let offered := ", ".intercalate candidates
    s!"ambiguous option: {given} could match {offered}"
  | .missingValue flag => s!"argument {flag.title}: expected one argument"
  | .badValue flag given =>
    s!"argument {flag.title}: invalid {flag.valueKind} value: {Text.quoted given}"
  | .uselessValue flag given =>
    s!"argument {flag.title}: ignored explicit argument {Text.quoted given}"
  | .missingRom => "the following arguments are required: rom"
  | .unrecognized extras => "unrecognized arguments: " ++ " ".intercalate extras
  | .badRate => "--cpu-hz must be positive"

-- A word of the command line by its looks alone.
inductive Word where
  -- what follows can only be plain
  | separator
  | plain (text : String)
  -- a long option has two dashes; a value may be attached
  | option (flag : Flag) (long : Bool) (attached : Option String)
  | unknown (text : String)
  deriving DecidableEq, Repr

def flagOf? (text : String) : Option Flag := spellings.lookup text

-- A minus, then digits, with or without a point among them. One line end behind it does not matter.
def looksNegative (text : String) : Bool :=
  match text.toList with
  | '-' :: cs =>
    let cs := if cs.getLast? = some '\n' then cs.dropLast else cs
    let rest := cs.dropWhile Text.isDigit
    match rest with
    | [] => !cs.isEmpty
    | '.' :: places => !places.isEmpty && places.all Text.isDigit
    | _ => false
  | _ => false

-- The text before the first equals sign and the text behind it.
def splitAttached (text : String) : String × Option String :=
  let cs := text.toList
  match cs.dropWhile (· ≠ '=') with
  | [] => (text, none)
  | _ :: rest => (String.ofList (cs.takeWhile (· ≠ '=')), some (String.ofList rest))

def isLong (text : String) : Bool := text.toList.take 2 = ['-', '-']

-- A long option may be cut short.
def matchLong (text : String) : Except Refusal Word :=
  let (start, attached) := splitAttached text
  match spellings.filter fun s => s.1.startsWith start with
  | [] => .ok (.unknown text)
  | [(_, flag)] => .ok (.option flag true attached)
  | several => .error (.ambiguous text (several.map (·.1)))

-- A short option has its value, or further options, right behind it.
def matchShort (text : String) : Word :=
  match flagOf? (String.ofList (text.toList.take 2)) with
  | some flag => .option flag false (some (String.ofList (text.toList.drop 2)))
  | none => .unknown text

-- What only begins like an option is plain if it is a negative number or has a space in it.
def demote (text : String) : Word → Word
  | .unknown _ => if looksNegative text || text.contains ' ' then .plain text else .unknown text
  | word => word

def classify (text : String) : Except Refusal Word :=
  if text = "--" then .ok .separator
  else if text = "-" || !text.startsWith "-" then .ok (.plain text)
  else match flagOf? text with
    | some flag => .ok (.option flag (isLong text) none)
    | none =>
      let (start, attached) := splitAttached text
      match flagOf? start, attached with
      | some flag, some value => .ok (.option flag (isLong text) (some value))
      | _, _ =>
        if isLong text then (matchLong text).map (demote text)
        else .ok (demote text (matchShort text))

-- All words of the line. Behind a separator every word is plain.
def classifyAll : List String → Except Refusal (List Word)
  | [] => .ok []
  | text :: rest => do
    match ← classify text with
    | .separator => return .separator :: rest.map .plain
    | word => return word :: (← classifyAll rest)

-- The options in one word: those without a value, and perhaps a last one that takes one, which may
-- be attached.
structure Cluster where
  flags : List Flag
  last : Option (Flag × Option String)

def Cluster.single (flag : Flag) (attached : Option String) : Cluster :=
  if flag.takesValue then ⟨[], some (flag, attached)⟩ else ⟨[flag], none⟩

-- The rest of a word of short options, behind one that takes no value. A letter that is no option
-- is blamed on the option before it.
def Cluster.ofLetters (before : Flag) : List Char → Except Refusal Cluster
  | [] => .ok ⟨[], none⟩
  | c :: rest => match flagOf? (String.ofList ['-', c]) with
    | none => .error (.uselessValue before (String.ofList (c :: rest)))
    | some flag =>
      if flag.takesValue then
        .ok ⟨[], some (flag, if rest.isEmpty then none else some (String.ofList rest))⟩
      else do
        let more ← ofLetters flag rest
        return ⟨flag :: more.flags, more.last⟩

def Cluster.of (flag : Flag) (long : Bool) : Option String → Except Refusal Cluster
  | none => .ok (single flag none)
  | some value =>
    if flag.takesValue then .ok (single flag (some value))
    else if long || value.isEmpty then .error (.uselessValue flag value)
    else do
      let more ← ofLetters flag value.toList
      return ⟨flag :: more.flags, more.last⟩

-- What has been gathered so far.
structure Gathered where
  rom : Option String
  scale : Option Int
  cpuHz : Option Float
  noAudio : Bool
  verbosity : Nat
  extras : List String

def Gathered.initial : Gathered := ⟨none, some 8, some 500, false, 0, []⟩

-- Reading stops early when help is asked for or the line is refused.
inductive Stop where
  | help
  | refused (cause : Refusal)

def Gathered.flag (g : Gathered) : Flag → Except Stop Gathered
  | .help => .error .help
  | .noAudio => .ok { g with noAudio := true }
  | .verbose => .ok { g with verbosity := g.verbosity + 1 }
  | .scale | .cpuHz => .ok g

-- A separator as a value counts as no value.
def readValue {α : Type} (read : String → Option α) (flag : Flag) (text : String) :
    Except Stop (Option α) :=
  if text = "--" then .ok none
  else match read text with
    | some value => .ok (some value)
    | none => .error (.refused (.badValue flag text))

def Gathered.value (g : Gathered) (flag : Flag) (text : String) : Except Stop Gathered := do
  match flag with
  | .scale => return { g with scale := ← readValue Number.readInt? flag text }
  | .cpuHz => return { g with cpuHz := ← readValue Number.readFloat? flag text }
  | _ => return g

def Gathered.extra (g : Gathered) (text : String) : Gathered :=
  { g with extras := g.extras ++ [text] }

-- The words from left to right. The first plain one is the program, with the separator before or
-- behind it, if there is one there; a value that is not attached is the plain word behind its option.
def Gathered.words (g : Gathered) : List Word → Except Stop Gathered
  | [] => .ok g
  | .plain text :: rest =>
    if g.rom.isSome then (g.extra text).words rest
    else match rest with
      | .separator :: rest => { g with rom := some text }.words rest
      | rest => { g with rom := some text }.words rest
  | .separator :: rest =>
    if g.rom.isSome then (g.extra "--").words rest else g.words rest
  | .unknown text :: rest => (g.extra text).words rest
  | .option flag long attached :: rest => do
    let cluster ← (Cluster.of flag long attached).mapError .refused
    match cluster.last, rest with
    | none, rest => (← cluster.flags.foldlM Gathered.flag g).words rest
    | some (flag, some value), rest =>
      (← (← cluster.flags.foldlM Gathered.flag g).value flag value).words rest
    | some (flag, none), .plain value :: rest =>
      (← (← cluster.flags.foldlM Gathered.flag g).value flag value).words rest
    | some (flag, none), _ => .error (.refused (.missingValue flag))

-- A program must be given, and nothing may be left over.
def Gathered.finish (g : Gathered) : Except Stop Arguments :=
  match g.rom with
  | none => .error (.refused .missingRom)
  | some rom =>
    if g.extras.isEmpty then .ok ⟨rom, g.scale, g.cpuHz, g.noAudio, g.verbosity⟩
    else .error (.refused (.unrecognized g.extras))

def parse (line : List String) : Except Stop Arguments := do
  let words ← (classifyAll line).mapError .refused
  (← Gathered.initial.words words).finish

def usage : String :=
  "usage: schip8 [-h] [--scale SCALE] [--cpu-hz HZ] [--no-audio] [--verbose] rom\n"

def helpText : String :=
  usage ++ "\n".intercalate
    ["",
     "SCHIP8 -- CHIP-8 / SUPER-CHIP interpreter. Load a ROM file and play it in a",
     "pygame window.",
     "",
     "positional arguments:",
     "  rom                   Path to the ROM file",
     "",
     "options:",
     "  -h, --help            show this help message and exit",
     "  --scale SCALE, -s SCALE",
     "                        Display scale factor (1-16). Default: 8.",
     "  --cpu-hz HZ           Instructions per second. Default: 500.",
     "  --no-audio            Disable the beep.",
     "  --verbose, -v         Increase log verbosity (-v for INFO, -vv for DEBUG).",
     ""]

-- What is written when a line is refused.
def refusalText (cause : Refusal) : String := usage ++ s!"schip8: error: {cause.message}\n"

end SuperChip.CommandLine
