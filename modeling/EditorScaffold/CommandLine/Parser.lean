import EditorScaffold.CommandLine.Usage

/-! # Reading a command line

Arguments are taken one by one. A long option stands with its value after an equals sign or before it as
the next argument; short options can stand together, the last with its value; after two dashes everything
is an operand. A value that is an argument of its own is set when the next option or operand is taken, so
that an unknown option after it is told first. What is set is kept in order: of two options that exclude
each other the earlier is named first. -/

namespace EditorScaffold.CommandLine

/-- What to make an editor of, and what to do with it. -/
structure GenerateOptions where
  script : Text
  skip : List Text := []
  only : List Text := []
  target : Bool := false
  output : Option Text := none
  stdout : Bool := false
  indentSpaces : Option Nat := none
deriving DecidableEq, Repr

/-- What the program is asked to do, with its arguments. -/
inductive Command where
  | types
  | fields (script : Text)
  | generate (options : GenerateOptions)
deriving DecidableEq, Repr

/-- A command, and the manifest that it is carried out on. -/
structure Invocation where
  schema : Text
  command : Command
deriving DecidableEq, Repr

/-! ### Numbers -/

/-- The numbers that are accepted lie below this bound. -/
def numberBound : Nat := Nat.pow 2 64

/-- The number that digits spell after another one. -/
def readDigits (n : Nat) : Text → Except NumberFault Nat
  | [] => .ok n
  | c :: t =>
    if '0' ≤ c ∧ c ≤ '9' then
      let n := 10 * n + (c.toNat - 48)
      if n < numberBound then readDigits n t else .error .tooLarge
    else .error .badDigit

/-- The number that a text spells, with or without a plus sign. -/
def readNumber : Text → Except NumberFault Nat
  | [] => .error .empty
  | ['+'] => .error .badDigit
  | '+' :: t => readDigits 0 t
  | t => readDigits 0 t

/-! ### What has been taken -/

/-- An option whose value is still to come, or has come but is not set yet. -/
inductive Pending where
  | none
  | waiting (o : Opt)
  | given (o : Opt) (value : Text)
deriving DecidableEq, Repr

/-- What has been taken so far. -/
structure Taken where
  /-- The options in the order in which they were set, flags with no value. -/
  settings : List (Opt × Text) := []
  pending : Pending := .none
  script : Option Text := Option.none
  /-- Whether only operands can follow. -/
  trailing : Bool := false
deriving DecidableEq, Repr

namespace Taken

/-- Whether an option has been set. -/
def has (s : Taken) (o : Opt) : Bool := s.settings.any (·.1 = o)

/-- The values of an option. -/
def values (s : Taken) (o : Opt) : List Text := (s.settings.filter (·.1 = o)).map (·.2)

/-- The last value of an option. -/
def value? (s : Taken) (o : Opt) : Option Text := (s.values o).getLast?

/-- What is wrong with the value of an option. -/
def valueFault? (o : Opt) (value : Text) : Option Usage :=
  match o with
  | .schema | .output => if value.isEmpty then some (.missingValue o) else Option.none
  | .indentSpaces =>
    match readNumber value with
    | .ok _ => Option.none
    | .error fault => some (.badNumber o value fault)
  | _ => Option.none

/-- Sets an option. -/
def set (level : Level) (s : Taken) (o : Opt) (value : Text) : Except Refusal Taken :=
  match o with
  | .help => .error (.help (.level level))
  | .version => .error .version
  | o =>
    if s.has o && !o.repeatable then .error (.usage (.repeated o))
    else match valueFault? o value with
      | some u => .error (.usage u)
      | Option.none => .ok { s with settings := s.settings ++ [(o, value)] }

/-- Sets the option that is pending. -/
def settle (level : Level) (s : Taken) : Except Refusal Taken :=
  let cleared := { s with pending := .none }
  match s.pending with
  | .none => .ok cleared
  | .waiting o => .error (.usage (.missingValue o))
  | .given o value => set level cleared o value

/-- Whether the next argument is the value of an option. -/
def awaitsValue (s : Taken) : Bool :=
  match s.pending with
  | .waiting _ => !s.trailing
  | _ => false

/-! ### Taking arguments -/

/-- Takes an option that stands with a value or without one. -/
def takeOption (level : Level) (s : Taken) (o : Opt) (value : Option Text) : Except Refusal Taken :=
  match o.takesValue, value with
  | true, some v => do set level (← s.settle level) o v
  | true, Option.none => do return { ← s.settle level with pending := .waiting o }
  | false, some v => .error (.usage (.unwantedValue o v))
  | false, Option.none => do set level (← s.settle level) o []

/-- Takes a long option, given without its dashes. -/
def takeLong (level : Level) (s : Taken) (body : Text) : Except Refusal Taken :=
  let name := body.takeWhile (· ≠ '=')
  let value := if name.length < body.length then some (body.drop (name.length + 1)) else Option.none
  match level.long? name with
  | some o => s.takeOption level o value
  | Option.none => .error (.usage (.unknownArgument ("--".toList ++ name)))

/-- Takes short options that stand together, given without their dash. -/
def takeShort (level : Level) (s : Taken) : Text → Except Refusal Taken
  | [] => .ok s
  | c :: t =>
    match level.short? c with
    | Option.none => .error (.usage (.unknownArgument ['-', c]))
    | some o =>
      if o.takesValue then
        match t with
        | [] => s.takeOption level o Option.none
        | '=' :: v => s.takeOption level o (some v)
        | v => s.takeOption level o (some v)
      else do takeShort level (← s.takeOption level o Option.none) t

/-- Takes an operand. -/
def takeOperand (level : Level) (s : Taken) (arg : Text) : Except Refusal Taken :=
  if level.takesScript && s.script.isNone then do
    return { ← s.settle level with script := some arg }
  else
    match level with
    | .verb _ => .error (.usage (.unknownArgument arg))
    | .top =>
      if s.trailing && ((Verb.ofText? arg).isSome || arg = helpWord) then
        .error (.usage (.unknownArgument arg))
      else .error (.usage (.unknownVerb arg))

/-- Takes an argument. -/
def take (level : Level) (s : Taken) (arg : Text) : Except Refusal Taken :=
  if s.trailing then s.takeOperand level arg
  else
    match arg with
    | ['-', '-'] => .ok { s with trailing := true }
    | '-' :: '-' :: body => s.takeLong level body
    | '-' :: c :: t => s.takeShort level (c :: t)
    | arg =>
      match s.pending with
      | .waiting o => .ok { s with pending := .given o arg }
      | _ => s.takeOperand level arg

/-! ### The end of the arguments -/

/-- The first two options, in their order, that exclude each other. -/
def rivals? (s : Taken) : Option (Opt × Opt) :=
  s.settings.findSome? fun (o, _) =>
    match o.rival? with
    | some r => if s.has r then some (o, r) else Option.none
    | Option.none => Option.none

/-- The command that has been taken. -/
def command (s : Taken) : Verb → Except Usage Command
  | .types => .ok .types
  | .fields =>
    match s.script with
    | some script => .ok (.fields script)
    | Option.none => .error .missingScript
  | .generate =>
    match s.rivals? with
    | some (first, second) => .error (.rivals first second)
    | Option.none =>
      match s.script with
      | Option.none => .error .missingScript
      | some script =>
        .ok <| .generate {
          script
          skip := s.values .skip
          only := s.values .only
          target := s.has .target
          output := s.value? .output
          stdout := s.has .stdout
          indentSpaces := (s.value? .indentSpaces).bind fun v => (readNumber v).toOption }

end Taken

/-! ### Whole command lines -/

/-- The manifest that is used if none is named. -/
def defaultSchema : Text := "types.json".toList

/-- The topic that words after `help` lead to. -/
def helpOn (t : Topic) : List Text → Refusal
  | [] => .help t
  | word :: words =>
    match t.sub? word with
    | some t => helpOn t words
    | none => .usage (.unknownVerb word)

/-- Takes the arguments up to the verb; tells the verb and the arguments after it. -/
def takeTop (s : Taken) : List Text → Except Refusal (Taken × Option (Verb × List Text))
  | [] => .ok (s, none)
  | arg :: args =>
    if s.trailing || s.awaitsValue then do takeTop (← s.take .top arg) args
    else if arg = helpWord then .error (helpOn (.level .top) args)
    else match Verb.ofText? arg with
      | some v => .ok (s, some (v, args))
      | none => do takeTop (← s.take .top arg) args

/-- The invocation that a command line asks for. -/
def parse (args : List Text) : Except Refusal Invocation := do
  let (top, verb) ← takeTop {} args
  match verb with
  | none =>
    let top ← top.settle .top
    if top.settings.isEmpty then throw .nothingAsked else throw (.usage .missingVerb)
  | some (v, rest) =>
    let s ← rest.foldlM (Taken.take (.verb v)) {}
    let s ← s.settle (.verb v)
    let command ← (s.command v).mapError .usage
    let top ← top.settle .top
    return {
      schema := ((s.value? .schema).or (top.value? .schema)).getD defaultSchema
      command }

end EditorScaffold.CommandLine
