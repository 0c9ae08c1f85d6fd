import FirmScan.Text.Blank

/-!
# Arguments of a command

An argument is an option or a plain word. An option has a long name and perhaps a short one, and is
a flag, takes a value, or ends the reading at once with a request of its own.

**Spelling.** `--name value` or `--name=value`; `-n value`, `-nvalue` or `-n=value`. Short flags may
stand together behind one dash, and the last of such a group may take a value. A value of its own
word does not start with a dash, unless it is a dash alone; an attached one may be anything.

**Faults.** An unknown option, a value where none is taken or none where one is, a value that is not
accepted, and an option given twice. Arguments are read in order, so of two faults, or of a fault
and a request, the first counts.

**Words.** Reading stops at the first plain word, and what it means is for the caller to say. Behind
`--` no option may follow and no word is known.
-/

namespace FirmScan.CommandLine

/-- Why a command is not carried out. -/
inductive Stop where
  | usage
  | version
  | help
  deriving DecidableEq, Repr

inductive Kind where
  | flag
  | value (accepts : String → Bool)
  | request (stop : Stop)

structure Spec where
  name : String
  short : Option Char := none
  kind : Kind

/-- The options that were given, with their values; that of a flag is empty. -/
abbrev Given := List (String × String)

namespace Given

def has (g : Given) (name : String) : Bool := (g.lookup name).isSome

/-- Note an option that was given. -/
def add (g : Given) (o : Spec) (value : String) : Except Stop Given :=
  let accepted := match o.kind with
    | .value accepts => accepts value
    | _ => true
  if g.has o.name || !accepted then .error .usage else .ok (g ++ [(o.name, value)])

end Given

/-- The given options together with one that still waits for its value. -/
abbrev Pending := Given × Option Spec

/-- A long option behind its two dashes. -/
def readLong (specs : List Spec) (g : Given) (body : List Char) : Except Stop Pending :=
  let (name, attached) := match Text.cutAt? (· = '=') body with
    | some (name, value) => (name, some (String.ofList value))
    | none => (body, none)
  match specs.find? (fun o => o.name.toList = name) with
  | none => .error .usage
  | some o =>
    match o.kind, attached with
    | .value _, some v => (g.add o v).map (·, none)
    | .value _, none => .ok (g, some o)
    | _, some _ => .error .usage
    | .flag, none => (g.add o "").map (·, none)
    | .request stop, none => .error stop

/-- A group of short options behind its dash. -/
def readShort (specs : List Spec) (g : Given) : List Char → Except Stop Pending
  | [] => .ok (g, none)
  | c :: rest =>
    match specs.find? (fun o => o.short = some c) with
    | none => .error .usage
    | some o =>
      match o.kind with
      | .request stop => .error stop
      | .flag => (g.add o "").bind fun g => readShort specs g rest
      | .value _ =>
        match rest with
        | [] => .ok (g, some o)
        | '=' :: value => (g.add o (String.ofList value)).map (·, none)
        | value => (g.add o (String.ofList value)).map (·, none)

/-- Whether an argument is an option rather than a word. -/
def isOption : List Char → Bool
  | '-' :: _ :: _ => true
  | _ => false

/-- One argument that is an option. -/
def readOption (specs : List Spec) (g : Given) : List Char → Except Stop Pending
  | '-' :: '-' :: body => readLong specs g body
  | _ :: group => readShort specs g group
  | [] => .error .usage

/-- Read options up to the first plain word: what was given, and the arguments from that word on. -/
def readOptions (specs : List Spec) (g : Given) : List String → Except Stop (Given × List String)
  | [] => .ok (g, [])
  | arg :: rest =>
    if arg = "--" then if rest.isEmpty then .ok (g, []) else .error .usage
    else if !isOption arg.toList then .ok (g, arg :: rest)
    else
      match readOption specs g arg.toList with
      | .error stop => .error stop
      | .ok (g, none) => readOptions specs g rest
      | .ok (g, some o) =>
        match rest with
        | [] => .error .usage
        | value :: rest =>
          if isOption value.toList then .error .usage
          else match g.add o value with
            | .error stop => .error stop
            | .ok g => readOptions specs g rest

end FirmScan.CommandLine
