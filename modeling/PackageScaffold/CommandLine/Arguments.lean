import PackageScaffold.Text.Ranges

/-!
# Arguments of a command line

The arguments of a command are options, whose names begin with hyphens, and words, which fill the
slots of the command in order.  Long options can be abbreviated as long as that is unambiguous, and
take a value behind `=`; short options can be written together.  Behind two hyphens, all arguments
are words.

## Main definitions

* `Level`: the options and the slots that a command takes;
* `Given`: what a slot or an option is given;
* `Piece.classify`: which arguments are options;
* `Level.read`: what the arguments say.
-/

namespace PackageScaffold.CommandLine

/-- What an option does: it switches something on, it takes a value, or it ends the run with the
help or the version of the program. -/
inductive Effect where
  | switch
  | value
  | help
  | version
  deriving DecidableEq, Repr

/-- An option, under all its names.  Readings mention it by its first name. -/
structure OptionSpec where
  names : List String
  effect : Effect
  deriving DecidableEq, Repr

/-- The name of an option in readings. -/
def OptionSpec.key (option : OptionSpec) : String :=
  option.names.headD ""

/-- A place for words: one word, a word that may be left out, or a command with all its
arguments. -/
inductive Slot where
  | required
  | optional
  | command
  deriving DecidableEq, Repr

/-- The options and the slots that a command takes. -/
structure Level where
  options : List OptionSpec
  slots : List Slot
  deriving Repr

/-- Why a command line is not carried out: it asks for help or for the version, it is not
understood, or it has no command. -/
inductive Halt where
  | help
  | version
  | misused
  | commandless
  deriving DecidableEq, Repr

/-- The status that a run ends with. -/
def Halt.status : Halt → Nat
  | .help | .version => 0
  | .commandless => 1
  | .misused => 2

/-- What a slot or an option is given: a text, or nothing, where two hyphens stand in its place. -/
inductive Given where
  | text (text : String)
  | nothing
  deriving DecidableEq, Repr

/-- What a written word gives.  Two hyphens always count as the end of the options. -/
def Given.ofWord (word : String) : Given :=
  if word == "--" then .nothing else .text word

/-- The text that is given, if any is. -/
def Given.text? : Given → Option String
  | .text word => some word
  | .nothing => none

/-- What the arguments of a command say. -/
structure Readings where
  switches : List String := []
  /-- The values of options, the latest first. -/
  values : List (String × Given) := []
  words : List Given := []
  /-- The name of a command and its arguments. -/
  command : List String := []
  /-- There are arguments that the command does not know. -/
  hasSurplus : Bool := false
  deriving Repr

/-- Whether an option was switched on. -/
def Readings.has (readings : Readings) (key : String) : Bool :=
  readings.switches.contains key

/-- The value of an option.  Of an option that is given twice, the last value counts. -/
def Readings.value? (readings : Readings) (key : String) : Option Given :=
  readings.values.lookup key

/-- The text that an option is given. -/
def Readings.text? (readings : Readings) (key : String) : Option String :=
  (readings.value? key).bind Given.text?

/-! ## Options among the arguments -/

/-- What is attached to an option: nothing, a value behind an equals sign, or more characters. -/
inductive Attachment where
  | nothing
  | assigned (value : List Char)
  | direct (more : List Char)
  deriving Repr

/-- An option as it is written: one that is not known, or one that is, and what is attached to
it. -/
inductive Asked where
  | unknown
  | known (option : OptionSpec) (attached : Attachment)
  deriving Repr

/-- An argument: a word, the two hyphens that end the options, or an option. -/
inductive Piece where
  | word (text : String)
  | dashes
  | option (text : String) (asked : Asked)
  deriving Repr

/-- The argument as it was written. -/
def Piece.text : Piece → String
  | .word text | .option text _ => text
  | .dashes => "--"

/-- The option with the given name. -/
def Level.named? (level : Level) (name : List Char) : Option OptionSpec :=
  level.options.find? (·.names.contains (String.ofList name))

/-- The text in front of the first equals sign, and the text behind it. -/
def splitAssignment (cs : List Char) : List Char × Attachment :=
  match cs.dropWhile (· != '=') with
  | [] => (cs, .nothing)
  | _ :: value => (cs.takeWhile (· != '='), .assigned value)

/-- The options that an argument may stand for: a long one by its beginning, a short one by its
letter. -/
def Level.candidates (level : Level) (cs : List Char) : List Asked :=
  match cs with
  | '-' :: '-' :: _ =>
    let (beginning, attached) := splitAssignment cs
    level.options.flatMap fun option =>
      (option.names.filter fun name => beginning.isPrefixOf name.toList).map fun _ =>
        .known option attached
  | '-' :: letter :: more =>
    (level.named? ['-', letter]).toList.map fun option => .known option (.direct more)
  | _ => []

/-- Whether an argument is a negative number. -/
def isNegativeNumber (cs : List Char) : Bool :=
  let body := if cs.getLast? == some '\n' then cs.dropLast else cs
  match body with
  | '-' :: digits =>
    (!digits.isEmpty && digits.all Text.isDigit) ||
      match digits.dropWhile Text.isDigit with
      | '.' :: fraction => !fraction.isEmpty && fraction.all Text.isDigit
      | _ => false
  | _ => false

/-- The option that an argument stands for; nothing, if it is a word. -/
def Level.asked? (level : Level) (cs : List Char) : Except Halt (Option Asked) :=
  match cs with
  | '-' :: _ :: _ =>
    match level.named? cs with
    | some option => .ok (some (.known option .nothing))
    | none =>
      match splitAssignment cs with
      | (name, .assigned value) =>
        match level.named? name with
        | some option => .ok (some (.known option (.assigned value)))
        | none => guess
      | _ => guess
  | _ => .ok none
where
  /-- The only option that the argument may stand for. -/
  guess : Except Halt (Option Asked) :=
    match level.candidates cs with
    | [asked] => .ok (some asked)
    | _ :: _ => .error .misused
    | [] => .ok (if isNegativeNumber cs || cs.contains ' ' then none else some .unknown)

/-- Which arguments are options, and which are words. -/
def Piece.classify (level : Level) : List String → Except Halt (List Piece)
  | [] => .ok []
  | argument :: rest => do
    if argument == "--" then return .dashes :: rest.map .word
    let piece := match ← level.asked? argument.toList with
      | some asked => Piece.option argument asked
      | none => .word argument
    return piece :: (← classify level rest)

/-! ## Words -/

/-- The pieces without two hyphens in front. -/
def dropDashes : List Piece → List Piece
  | .dashes :: rest => rest
  | pieces => pieces

/-- What the word in front gives, with the two hyphens before or behind it passed.  A word that is
written as two hyphens is taken for them unless they have been passed in front of it. -/
def takeWord? : List Piece → Option (Given × List Piece)
  | .dashes :: .word text :: rest => some (.text text, rest)
  | .word text :: .dashes :: rest => some (.text text, rest)
  | .word text :: rest => some (.ofWord text, rest)
  | _ => none

/-- Fills slots with the words in front, as many as there are words for. -/
def fillSlots : List Slot → List Piece → Readings → List Slot × List Piece × Readings
  | [], pieces, readings => ([], pieces, readings)
  | slot :: slots, pieces, readings =>
    match slot, takeWord? pieces with
    | .command, some _ => (slots, [], { readings with command := pieces.map Piece.text })
    | .optional, none => fillSlots slots (dropDashes pieces) readings
    | _, none => (slot :: slots, pieces, readings)
    | .optional, some (.nothing, rest) => fillSlots slots rest readings
    | _, some (given, rest) =>
      fillSlots slots rest { readings with words := readings.words ++ [given] }

/-! ## Reading -/

/-- The options that one argument stands for, with their values, and the pieces behind them. -/
structure Cluster where
  options : List (OptionSpec × Option Given)
  rest : List Piece

/-- The cluster with one more option in front, which takes no value. -/
def Cluster.after (option : OptionSpec) (cluster : Cluster) : Cluster :=
  { cluster with options := (option, none) :: cluster.options }

/-- An option with nothing attached.  Its value, if it takes one, is the next word. -/
def OptionSpec.alone (option : OptionSpec) (rest : List Piece) : Except Halt Cluster :=
  match option.effect, rest with
  | .value, .word text :: rest => .ok ⟨[(option, some (.ofWord text))], rest⟩
  | .value, _ => .error .misused
  | _, rest => .ok ⟨[(option, none)], rest⟩

/-- An option with a value attached. -/
def OptionSpec.withValue (option : OptionSpec) (value : List Char) (rest : List Piece) :
    Except Halt Cluster :=
  if option.effect == .value then .ok ⟨[(option, some (.ofWord (String.ofList value)))], rest⟩
  else .error .misused

/-- Reads the letters behind a short option that takes no value: each is a short option itself, and
the last one may take what is left as its value. -/
def Level.letters (level : Level) (rest : List Piece) (option : OptionSpec) :
    List Char → Except Halt Cluster
  | [] => .error .misused
  | letter :: more =>
    match level.named? ['-', letter] with
    | none => .error .misused
    | some next =>
      Cluster.after option <$>
        if more.isEmpty then next.alone rest
        else if next.effect == .value then next.withValue more rest
        else level.letters rest next more

/-- Whether an option is written with one hyphen. -/
def isShort : List Char → Bool
  | '-' :: '-' :: _ => false
  | _ => true

/-- The options that one argument stands for: one, or several short ones written together.  Behind
a short option that takes no value, an equals sign changes nothing. -/
def Level.cluster (level : Level) (text : String) (option : OptionSpec) (rest : List Piece) :
    Attachment → Except Halt Cluster
  | .nothing => option.alone rest
  | .assigned value =>
    if isShort text.toList && option.effect != .value then level.letters rest option value
    else option.withValue value rest
  | .direct more =>
    if option.effect == .value then option.withValue more rest
    else level.letters rest option more

/-- Takes note of options in turn.  One that asks for help or for the version ends the run. -/
def Readings.note (readings : Readings) :
    List (OptionSpec × Option Given) → Except Halt Readings
  | [] => .ok readings
  | (option, value?) :: rest =>
    match option.effect, value? with
    | .help, _ => .error .help
    | .version, _ => .error .version
    | .value, some value =>
      { readings with values := (option.key, value) :: readings.values }.note rest
    | _, _ => { readings with switches := option.key :: readings.switches }.note rest

/-- Whether a piece is an option. -/
def Piece.isOption : Piece → Bool
  | .option _ _ => true
  | _ => false

/-- Reads pieces from left to right: words fill slots, and what fits nowhere is surplus. -/
def Level.readPieces (level : Level) :
    Nat → List Slot → List Piece → Readings → Except Halt (List Slot × Readings)
  | 0, slots, _, readings => .ok (slots, readings)
  | fuel + 1, slots, pieces, readings =>
    match pieces with
    | .option _ .unknown :: rest =>
      level.readPieces fuel slots rest { readings with hasSurplus := true }
    | .option text (.known option attached) :: rest => do
      let cluster ← level.cluster text option rest attached
      level.readPieces fuel slots cluster.rest (← readings.note cluster.options)
    | _ =>
      let (slots, left, readings) := fillSlots slots pieces readings
      if !left.any Piece.isOption then
        .ok (slots, { readings with hasSurplus := readings.hasSurplus || !left.isEmpty })
      else if left.length < pieces.length then level.readPieces fuel slots left readings
      else
        level.readPieces fuel slots (left.dropWhile (!·.isOption))
          { readings with hasSurplus := true }

/-- What the arguments of a command say.  All required slots must be filled. -/
def Level.read (level : Level) (arguments : List String) : Except Halt Readings := do
  let pieces ← Piece.classify level arguments
  let (slots, readings) ← level.readPieces (pieces.length + 1) level.slots pieces {}
  if slots.contains .required then throw .misused
  return readings

end PackageScaffold.CommandLine
