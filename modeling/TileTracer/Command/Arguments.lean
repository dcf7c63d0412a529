import TileTracer.Command.Config

namespace TileTracer

inductive Switch where
  | config | output | width | height | passes | depth | help | version
  deriving DecidableEq, Repr

namespace Switch

def all : List Switch := [config, output, width, height, passes, depth, help, version]

def name : Switch → String
  | config => "config"
  | output => "output"
  | width => "width"
  | height => "height"
  | passes => "passes"
  | depth => "depth"
  | help => "help"
  | version => "version"

def letter? : Switch → Option Char
  | config => some 'c'
  | output => some 'o'
  | passes => some 'p'
  | help => some 'h'
  | version => some 'V'
  | width | height | depth => none

def takesValue : Switch → Bool
  | config | output | width | height | passes => true
  | depth | help | version => false

def ofName? (name : String) : Option Switch := all.find? (·.name = name)

def ofLetter? (letter : Char) : Option Switch := all.find? (·.letter? = some letter)

end Switch

/-- Why a command line is refused. -/
inductive UsageError where
  | unknownOption (token : String)
  | unexpectedArgument (token : String)
  | missingValue (switch : Switch)
  | invalidValue (switch : Switch) (value : String)
  /-- A value for a switch that takes none. -/
  | unexpectedValue (switch : Switch) (value : String)
  | repeated (switch : Switch)
  deriving DecidableEq, Repr

def UsageError.message : UsageError → String
  | unknownOption token | unexpectedArgument token => s!"unexpected argument '{token}' found"
  | missingValue switch =>
    s!"a value is required for '--" ++ switch.name ++ "' but none was supplied"
  | invalidValue switch value => s!"invalid value '{value}' for '--" ++ switch.name ++ "'"
  | unexpectedValue switch value =>
    s!"unexpected value '{value}' for '--" ++ switch.name ++ "' found; no more were expected"
  | repeated switch => "the argument '--" ++ switch.name ++ "' cannot be used multiple times"

structure Arguments where
  config : Option String
  output : Option String
  width : Option UInt32
  height : Option UInt32
  passes : Option UInt32
  depth : Bool
  deriving DecidableEq, Repr

inductive Request where
  | render (arguments : Arguments)
  | help
  | version
  deriving DecidableEq, Repr

namespace Arguments

def empty : Arguments := ⟨none, none, none, none, none, false⟩

def has (a : Arguments) : Switch → Bool
  | .config => a.config.isSome
  | .output => a.output.isSome
  | .width => a.width.isSome
  | .height => a.height.isSome
  | .passes => a.passes.isSome
  | .depth => a.depth
  | .help | .version => false

/-- The number below 2 ^ 32 that digits behind an optional sign write. -/
def word? (value : String) : Option UInt32 :=
  match value.toList with
  | '-' :: digits => unsigned? digits 1
  | '+' :: digits => unsigned? digits UInt32.size
  | digits => unsigned? digits UInt32.size
where
  unsigned? (digits : List Char) (bound : Nat) : Option UInt32 :=
    if Text.isDigits digits && Text.ofDigits digits < bound then
      some (Text.ofDigits digits).toUInt32
    else none

def path? (value : String) : Option String := if value.isEmpty then none else some value

def set? (a : Arguments) (switch : Switch) (value : String) : Option Arguments :=
  match switch with
  | .config => (path? value).map fun path => { a with config := some path }
  | .output => (path? value).map fun path => { a with output := some path }
  | .width => (word? value).map fun n => { a with width := some n }
  | .height => (word? value).map fun n => { a with height := some n }
  | .passes => (word? value).map fun n => { a with passes := some n }
  | .depth | .help | .version => none

/-- Takes a switch with its value; no switch is given twice. -/
def accept (a : Arguments) (switch : Switch) (value : String) : Except UsageError Arguments :=
  match a.set? switch value with
  | none => .error (.invalidValue switch value)
  | some next => if a.has switch then .error (.repeated switch) else .ok next

/-- What one token says: a switch, perhaps with a value attached, or why it is refused. The letter
of a switch without a value settles the command line, so that what is attached to it is not looked
at. -/
def switch? (token : String) : Except UsageError (Switch × Option String) :=
  match token.toList with
  | '-' :: '-' :: cs =>
    let (name, value) := Text.cut (· = '=') cs
    match Switch.ofName? (.ofList name) with
    | none => .error (.unknownOption token)
    | some switch => .ok (switch, value.map String.ofList)
  | '-' :: c :: cs =>
    match Switch.ofLetter? c with
    | none => .error (.unknownOption token)
    | some switch =>
      if !switch.takesValue then .ok (switch, none)
      else match cs with
        | [] => .ok (switch, none)
        | '=' :: value => .ok (switch, some (.ofList value))
        | value => .ok (switch, some (.ofList value))
  | _ => .error (.unexpectedArgument token)

/-- A token that starts with a dash and goes on is never a value. -/
def isValue (token : String) : Bool :=
  match token.toList with
  | '-' :: _ :: _ => false
  | _ => true

def flag (a : Arguments) (switch : Switch) : Except UsageError (Arguments ⊕ Request) :=
  match switch with
  | .help => .ok (.inr .help)
  | .version => .ok (.inr .version)
  | _ => if a.depth then .error (.repeated switch) else .ok (.inl { a with depth := true })

def read (a : Arguments) : List String → Except UsageError Request
  | [] => .ok (.render a)
  | "--" :: [] => .ok (.render a)
  | "--" :: token :: _ => .error (.unexpectedArgument token)
  | token :: rest =>
    match switch? token with
    | .error e => .error e
    | .ok (switch, attached) =>
      match switch.takesValue, attached, rest with
      | true, some value, rest => a.accept switch value >>= fun a => read a rest
      | true, none, [] => .error (.missingValue switch)
      | true, none, value :: rest =>
        if isValue value then a.accept switch value >>= fun a => read a rest
        else .error (.missingValue switch)
      | false, some value, _ => .error (.unexpectedValue switch value)
      | false, none, rest =>
        match a.flag switch with
        | .error e => .error e
        | .ok (.inl a) => read a rest
        | .ok (.inr request) => .ok request

/-- What a command line asks for. -/
def parse (tokens : List String) : Except UsageError Request := read empty tokens

/-- The configuration with the options that were given in place of its own settings. -/
def apply (a : Arguments) (c : Config) : Config :=
  let c := { c with
    output := a.output.getD c.output
    width := a.width.getD c.width
    height := a.height.getD c.height
    passes := a.passes.getD c.passes }
  if a.depth then c.enableDepth else c

end Arguments

end TileTracer
