import ScopedTensor.Configuration

/-! The words after the program's name. Options may stand in front of the command or behind it; the
one behind wins, and no option may be repeated on one side. Words are read from the left, and the
first one that asks for help, asks for the version or is wrong decides. A value that is a word of
its own waits for the next option or flag of its side before it is looked at, or for the end of all
words; so help behind the command comes before a wrong value in front of it. -/

namespace ScopedTensor.CommandLine

inductive Command where
  | info
  | ops
  | smoke
  deriving DecidableEq, Repr

def Command.all : List Command := [.info, .ops, .smoke]

def Command.name : Command → String
  | info => "info"
  | ops => "ops"
  | smoke => "smoke"

structure Options where
  config : Option String
  library : Option LibraryKind
  libraryPath : Option String
  json : Bool
  /-- The first letters of the operators to list. -/
  filter : Option String
  deriving DecidableEq

namespace Options

def unset : Options := ⟨none, none, none, false, none⟩

def join (front behind : Options) : Options :=
  ⟨behind.config.or front.config, behind.library.or front.library,
    behind.libraryPath.or front.libraryPath, behind.json || front.json, behind.filter⟩

end Options

inductive Topic where
  /-- The program, in full or in short. -/
  | program (full : Bool)
  | command (c : Command)
  | help
  deriving DecidableEq

inductive Request where
  | run (options : Options) (command : Command)
  | help (topic : Topic)
  | version
  /-- Words that make no sense. -/
  | unusable
  deriving DecidableEq

/-- Options that take a value. -/
inductive Setting where
  | config
  | library
  | libraryPath
  | filter
  deriving DecidableEq

def Setting.ofName? : String → Option Setting
  | "config" => some config
  | "library" => some library
  | "library-path" => some libraryPath
  | "filter" => some filter
  | _ => none

def Setting.set? (s : Setting) (value : String) (o : Options) : Option Options :=
  match s with
  | config => if o.config.isSome ∨ value.isEmpty then none else some { o with config := value }
  | library =>
    if o.library.isSome then none
    else (LibraryKind.read value).toOption.map fun k => { o with library := some k }
  | libraryPath =>
    if o.libraryPath.isSome ∨ value.isEmpty then none else some { o with libraryPath := value }
  | filter => if o.filter.isSome then none else some { o with filter := value }

/-- In front of the command, or behind it. -/
abbrev Side := Option Command

def Setting.isKnown (s : Setting) (side : Side) : Bool :=
  s != filter || side == some .ops

def topicOf : Side → Bool → Topic
  | some c, _ => .command c
  | none, full => .program full

def isFlag (word : String) : Bool :=
  match word.toList with
  | '-' :: _ :: _ => true
  | _ => false

def splitLong (cs : List Char) : String × Option String :=
  let name := cs.takeWhile (· != '=')
  match cs.dropWhile (· != '=') with
  | _ :: value => (String.ofList name, some (String.ofList value))
  | [] => (String.ofList name, none)

def readShort (side : Side) : List Char → Request
  | 'h' :: _ => .help (topicOf side false)
  | 'V' :: _ => if side.isNone then .version else .unusable
  | _ => .unusable

def readHelp : List String → Request
  | [] => .help (.program true)
  | [word] =>
    if word = "help" then .help .help
    else match Command.all.find? fun c => c.name == word with
      | some c => .help (.command c)
      | none => .unusable
  | _ => .unusable

/-- What one side has said so far. -/
structure Draft where
  options : Options
  /-- A value that was not looked at yet. -/
  waiting : Option (Setting × String)

namespace Draft

def blank : Draft := ⟨.unset, none⟩

def settle? (d : Draft) : Option Options :=
  match d.waiting with
  | some (s, value) => s.set? value d.options
  | none => some d.options

end Draft

def finish (front : Option Options) (side : Side) (behind : Option Options) : Request :=
  match side, front, behind with
  | some c, some front, some behind => .run (front.join behind) c
  | _, _, _ => .unusable

def read (front : Option Options) : Side → Draft → List String → Request
  | side, d, [] => finish front side d.settle?
  | side, d, word :: rest =>
    match word.toList, d.settle? with
    | ['-', '-'], o => if rest.isEmpty then finish front side o else .unusable
    | '-' :: _ :: _, none => .unusable
    | '-' :: '-' :: cs, some o =>
      match splitLong cs with
      | ("help", none) => .help (topicOf side true)
      | ("version", none) => if side.isNone then .version else .unusable
      | ("json", none) =>
        if o.json then .unusable else read front side ⟨{ o with json := true }, none⟩ rest
      | (name, value) =>
        match (Setting.ofName? name).filter (·.isKnown side), value, rest with
        | some s, some v, rest =>
          match s.set? v o with
          | some o => read front side ⟨o, none⟩ rest
          | none => .unusable
        | some s, none, v :: rest =>
          if isFlag v then .unusable else read front side ⟨o, some (s, v)⟩ rest
        | _, _, _ => .unusable
    | '-' :: c :: cs, some _ => readShort side (c :: cs)
    | _, o =>
      if side.isSome then .unusable
      else if word = "help" then readHelp rest
      else match Command.all.find? fun c => c.name == word with
        | some c => read o (some c) .blank rest
        | none => .unusable

def Request.ofWords (words : List String) : Request := read (some .unset) none .blank words

end ScopedTensor.CommandLine
