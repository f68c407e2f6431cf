import MarkupBinding.Text.Quoted

/-!
# Arguments of a command

A command takes one operand and switches, some of which take a value. A switch has a long name, of
which a beginning is enough if it is the only one, and it may have a short one, behind which its
value may follow at once. Two hyphens alone end the switches. `Grammar.read` reads the arguments, or
stops with the help text that was asked for or with what is wrong.
-/

set_option autoImplicit false
set_option relaxedAutoImplicit false

namespace MarkupBinding.Command

/-- A switch of a command. -/
structure Switch where
  /-- The letter of the short name. -/
  short : Option Char
  /-- The long name without its hyphens. -/
  long : String
  /-- What the help calls the value, if the switch takes one. -/
  value : Option String
  /-- What the switch does; empty for nothing to say. -/
  help : String
  deriving DecidableEq, Repr

/-- What a command takes. -/
structure Grammar where
  program : String
  description : String
  /-- The name of the operand and what it is. -/
  operand : String
  operandHelp : String
  /-- The switches besides the one for help. -/
  switches : List Switch
  deriving DecidableEq, Repr

/-- The arguments of a command: the operand, and the switches in order with their values. -/
structure Arguments where
  operand : String
  given : List (String × String)
  deriving DecidableEq, Repr

/-- Why a command does not run. -/
inductive Stop where
  /-- The help text was asked for. -/
  | help (text : String)
  /-- The arguments are wrong; the text says how they should be and what is wrong. -/
  | misuse (text : String)
  deriving DecidableEq, Repr

namespace Switch

/-- The switch for help. -/
def forHelp : Switch :=
  ⟨some 'h', "help", none, "show this help message and exit"⟩

/-- The short name as it is written. -/
def shortName (s : Switch) : List String :=
  s.short.toList.map fun c ↦ "-" ++ c.toString

/-- The names as they are written, the short one first. -/
def names (s : Switch) : List String :=
  s.shortName ++ ["--" ++ s.long]

/-- The names as messages show them. -/
def shown (s : Switch) : String :=
  Text.join "/" s.names

/-- The name with the value behind it. -/
def withValue (s : Switch) (name : String) : String :=
  match s.value with
  | some value => name ++ " " ++ value
  | none => name

/-- The switch in the line of usage. -/
def usage (s : Switch) : String :=
  "[" ++ s.withValue (s.names.headD "") ++ "]"

/-- The switch in the help. -/
def invocation (s : Switch) : String :=
  Text.join ", " (s.names.map s.withValue)

end Switch

namespace Grammar

/-- All switches, the one for help first. -/
def allSwitches (g : Grammar) : List Switch :=
  .forHelp :: g.switches

/-- The line of usage. -/
def usage (g : Grammar) : String :=
  "usage: " ++ Text.join " " (g.program :: g.allSwitches.map Switch.usage ++ [g.operand]) ++ "\n"

/-- The column in which the help begins to say what something does. -/
def helpColumn : Nat := 24

/-- What is said of something, in lines: on the line of its name, or on the next where the name is
too long. -/
def helpLines (name help : String) : String :=
  let start := "  " ++ name
  if help.isEmpty then start ++ "\n"
  else if start.length + 2 ≤ helpColumn then
    start ++ String.ofList (List.replicate (helpColumn - start.length) ' ') ++ help ++ "\n"
  else start ++ "\n" ++ String.ofList (List.replicate helpColumn ' ') ++ help ++ "\n"

/-- The help text. -/
def help (g : Grammar) : String :=
  g.usage ++ "\n" ++ g.description ++ "\n\npositional arguments:\n" ++
    helpLines g.operand g.operandHelp ++ "\noptions:\n" ++
    String.join (g.allSwitches.map fun s ↦ helpLines s.invocation s.help)

/-- The stop for wrong arguments. -/
def misuse (g : Grammar) (reason : String) : Stop :=
  .misuse (g.usage ++ g.program ++ ": error: " ++ reason ++ "\n")

end Grammar

/-- What an argument is taken for. -/
inductive Mark where
  | operand
  /-- The two hyphens that end the switches. -/
  | divider
  /-- A switch, the short name it was given by, if so, and the value written with it. -/
  | switch (s : Switch) (short : Bool) (value : Option String)
  | unknownSwitch
  deriving DecidableEq, Repr

namespace Grammar

/-- Whether the characters write a number with a minus sign. -/
def isNegativeNumber : List Char → Bool
  | '-' :: rest =>
    let whole := rest.takeWhile Char.isDigit
    match rest.dropWhile Char.isDigit with
    | [] => !whole.isEmpty
    | '.' :: places => !places.isEmpty && places.all Char.isDigit
    | _ => false
  | _ => false

/-- The switch of a name exactly as written, and whether the name is short. -/
def named? (g : Grammar) (name : String) : Option (Switch × Bool) :=
  g.allSwitches.findSome? fun s ↦
    if s.shortName.contains name then some (s, true)
    else if "--" ++ s.long == name then some (s, false)
    else none

/-- The name and the value around the first sign of equality. -/
def splitValue (arg : String) : String × Option String :=
  match Text.cutOnce '=' arg.toList with
  | some (name, value) => (String.ofList name, some (String.ofList value))
  | none => (arg, none)

/-- The switches that an argument may mean, with their names, where it is no name as written. -/
def meant (g : Grammar) (arg : String) : List (String × Mark) :=
  match arg.toList with
  | '-' :: '-' :: _ =>
    let (name, value) := splitValue arg
    (g.allSwitches.filter fun s ↦ ("--" ++ s.long).startsWith name).map fun s ↦
      ("--" ++ s.long, .switch s false value)
  | '-' :: c :: rest =>
    (g.allSwitches.filter fun s ↦ s.short == some c).map fun s ↦
      ("-" ++ c.toString, .switch s true (some (String.ofList rest)))
  | _ => []

/-- What an argument in front of the divider is taken for. -/
def markOf (g : Grammar) (arg : String) : Except Stop Mark :=
  match arg.toList with
  | '-' :: _ :: _ =>
    match g.named? arg with
    | some (s, short) => .ok (.switch s short none)
    | none =>
      let (name, value) := splitValue arg
      match value, g.named? name with
      | some value, some (s, short) => .ok (.switch s short (some value))
      | _, _ =>
        match g.meant arg with
        | [(_, mark)] => .ok mark
        | [] =>
          .ok (if isNegativeNumber arg.toList || arg.toList.contains ' ' then .operand
            else .unknownSwitch)
        | several => .error (g.misuse ("ambiguous option: " ++ arg ++ " could match " ++
            Text.join ", " (several.map (·.1))))
  | _ => .ok .operand

/-- What the arguments are taken for. -/
def marks (g : Grammar) : List String → Except Stop (List (String × Mark))
  | [] => .ok []
  | "--" :: rest => .ok (("--", .divider) :: rest.map fun arg ↦ (arg, .operand))
  | arg :: rest =>
    match g.markOf arg with
    | .error stop => .error stop
    | .ok mark => (g.marks rest).map ((arg, mark) :: ·)

/-- The arguments read so far: the operand, the switches and what nothing takes. -/
structure Progress where
  operand : Option String
  given : List (String × String)
  extra : List String

/-- The stop for a switch that lacks its value. -/
def lacksValue (g : Grammar) (s : Switch) : Stop :=
  g.misuse ("argument " ++ s.shown ++ ": expected one argument")

/-- The stop for a value behind a switch that takes none. -/
def ignoredValue (g : Grammar) (s : Switch) (value : String) : Stop :=
  g.misuse ("argument " ++ s.shown ++ ": ignored explicit argument " ++ Text.quoted value)

/-- Reads letters written together behind a short switch without a value: further switches, the last
of which may take the value. Gives the switches and the one that still lacks a value. -/
def together (g : Grammar) (s : Switch) : List Char →
    Except Stop (List (Switch × String) × Option Switch)
  | [] => .ok ([(s, "")], none)
  | c :: rest =>
    match g.allSwitches.find? fun other ↦ other.short == some c with
    | none => .error (g.ignoredValue s (String.ofList (c :: rest)))
    | some other =>
      if other.value.isSome then
        if rest.isEmpty then .ok ([(s, "")], some other)
        else .ok ([(s, ""), (other, String.ofList rest)], none)
      else (g.together other rest).map fun (more, open_) ↦ ((s, "") :: more, open_)

/-- The switches that one argument stands for, and the one that takes its value from the next. -/
def expand (g : Grammar) (s : Switch) (short : Bool) (value : Option String) :
    Except Stop (List (Switch × String) × Option Switch) :=
  match s.value, value with
  | some _, some value => .ok ([(s, value)], none)
  | some _, none => .ok ([], some s)
  | none, none => .ok ([(s, "")], none)
  | none, some value =>
    if short && !value.isEmpty then g.together s value.toList else .error (g.ignoredValue s value)

/-- Takes switches; the one for help stops. -/
def take (g : Grammar) (p : Progress) (switches : List (Switch × String)) : Except Stop Progress :=
  if switches.any (·.1 == .forHelp) then .error (.help g.help)
  else .ok { p with given := p.given ++ switches.map fun (s, value) ↦ (s.long, value) }

/-- Reads marked arguments. -/
def readMarked (g : Grammar) (p : Progress) : List (String × Mark) → Except Stop Progress
  | [] => .ok p
  | (arg, .unknownSwitch) :: rest => g.readMarked { p with extra := p.extra ++ [arg] } rest
  | (arg, .operand) :: rest =>
    match p.operand with
    | none =>
      match rest with
      | (_, .divider) :: rest => g.readMarked { p with operand := some arg } rest
      | rest => g.readMarked { p with operand := some arg } rest
    | some _ => g.readMarked { p with extra := p.extra ++ [arg] } rest
  | (arg, .divider) :: rest =>
    if p.operand.isNone && !rest.isEmpty then g.readMarked p rest
    else g.readMarked { p with extra := p.extra ++ [arg] } rest
  | (_, .switch s short value) :: rest =>
    match g.expand s short value with
    | .error stop => .error stop
    | .ok (switches, none) =>
      match g.take p switches with
      | .error stop => .error stop
      | .ok p => g.readMarked p rest
    | .ok (switches, some last) =>
      match rest with
      | (value, .operand) :: rest =>
        match g.take p (switches ++ [(last, value)]) with
        | .error stop => .error stop
        | .ok p => g.readMarked p rest
      | _ => .error (g.lacksValue last)

/-- Reads the arguments of a command. -/
def read (g : Grammar) (args : List String) : Except Stop Arguments :=
  match g.marks args with
  | .error stop => .error stop
  | .ok marked =>
    match g.readMarked ⟨none, [], []⟩ marked with
    | .error stop => .error stop
    | .ok p =>
      match p.operand with
      | none => .error (g.misuse ("the following arguments are required: " ++ g.operand))
      | some operand =>
        if p.extra.isEmpty then .ok ⟨operand, p.given⟩
        else .error (g.misuse ("unrecognized arguments: " ++ Text.join " " p.extra))

end Grammar

/-- The value of the last switch of a name. -/
def Arguments.value? (a : Arguments) (name : String) : Option String :=
  a.given.reverse.lookup name

/-- Whether a switch of a name is given. -/
def Arguments.has (a : Arguments) (name : String) : Bool :=
  (a.value? name).isSome

end MarkupBinding.Command
