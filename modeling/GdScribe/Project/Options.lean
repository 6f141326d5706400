import GdScribe.Text.CharClass

/-!
# Options of the command line

The arguments of the command line are paths and options. An option has a name with two dashes,
which may be cut short as long as it stays the only one, and some have a letter with one dash.

* `Options`: what the command line says.
* `Options.ofArgs`: reads the arguments. Paths have to stand together.
-/

namespace GdScribe

/-- What can be set on the command line. -/
inductive Setting where
  | help
  | output
  | target
  | verbose
  | useFloats
  | targetVerbose
  | readerVerbose
  | noResolving
  | noSave
  | printTokens
  | logFile
  | extension
  deriving DecidableEq, Repr, Inhabited

/-- How many values a setting takes. -/
inductive Arity where
  | none
  | optional
  | one
  deriving DecidableEq, Repr, Inhabited

/-- Why a command line cannot be used. -/
inductive Usage where
  | wrong
  | help
  deriving DecidableEq, Repr, Inhabited

/-- What the command line says; a setting with an optional value may have none. -/
structure Options where
  inputs : List String := ["./tests"]
  output : Option String := some "./results"
  target : Option String := some "CSharp"
  verbose : Bool := false
  useFloats : Bool := false
  targetVerbose : Bool := false
  readerVerbose : Bool := false
  noResolving : Bool := false
  noSave : Bool := false
  printTokens : Bool := false
  logFile : String := ""
  extension : String := ""
  deriving DecidableEq, Repr, Inhabited

namespace Setting

def arity : Setting → Arity
  | .output | .target => .optional
  | .logFile | .extension => .one
  | _ => .none

def names : List (String × Setting) :=
  [("-h", .help), ("--help", .help), ("-o", .output), ("--output", .output), ("-t", .target),
   ("--transpiler", .target), ("-v", .verbose), ("--verbose", .verbose),
   ("--use_floats", .useFloats), ("--transpiler_verbose", .targetVerbose),
   ("--parser_verbose", .readerVerbose), ("--no_type_resolving", .noResolving),
   ("--no_save", .noSave), ("--print_tokens", .printTokens), ("--log_file", .logFile),
   ("--create_gdextension", .extension)]

def named? (name : String) : Option Setting := names.lookup name

def startingWith (start : String) : List Setting :=
  (names.filter fun e => Text.startsWith e.1 start).map (·.2)

end Setting

inductive Arg where
  | word (text : String)
  | divider
  /-- A setting, with its value or more letters if they are part of the argument. -/
  | setting (s : Setting) (long : Bool) (rest : Option String)
  deriving DecidableEq, Repr, Inhabited

namespace Arg

def splitValue (arg : String) : String × Option String :=
  match Text.splitUpTo arg "=" 1 with
  | [name, value] => (name, some value)
  | _ => (arg, none)

def isNegative (arg : String) : Bool :=
  match arg.toList with
  | '-' :: digits =>
    let whole := digits.takeWhile CharClass.isDecimal
    match digits.drop whole.length with
    | [] => !whole.isEmpty
    | '.' :: fraction => !fraction.isEmpty && fraction.all CharClass.isDecimal
    | _ => false
  | _ => false

def guess (arg : String) : Except Usage Arg :=
  let long := Text.startsWith arg "--"
  let found : List Arg :=
    if long then
      let (name, value) := splitValue arg
      (Setting.startingWith name).map fun s => .setting s true value
    else ((Setting.named? (String.ofList (arg.toList.take 2))).map fun s =>
      .setting s false (some (Text.dropStart arg 2))).toList
  match found with
  | [a] => .ok a
  | [] => if isNegative arg || arg.toList.contains ' ' then .ok (.word arg) else .error .wrong
  | _ => .error .wrong

def ofText (arg : String) : Except Usage Arg :=
  if !Text.startsWith arg "-" || arg = "-" then .ok (.word arg)
  else
    let long := Text.startsWith arg "--"
    let (name, value) := splitValue arg
    match Setting.named? arg, Setting.named? name with
    | some s, _ => .ok (.setting s long none)
    | none, some s => .ok (.setting s long value)
    | none, none => guess arg

def ofTexts : List String → Except Usage (List Arg)
  | [] => .ok []
  | "--" :: rest => .ok (.divider :: rest.map .word)
  | arg :: rest => do return (← ofText arg) :: (← ofTexts rest)

end Arg

namespace Options

def set (o : Options) (s : Setting) (value : Option String) : Except Usage Options :=
  match s with
  | .help => .error .help
  | .output => .ok { o with output := value }
  | .target => .ok { o with target := value }
  | .verbose => .ok { o with verbose := true }
  | .useFloats => .ok { o with useFloats := true }
  | .targetVerbose => .ok { o with targetVerbose := true }
  | .readerVerbose => .ok { o with readerVerbose := true }
  | .noResolving => .ok { o with noResolving := true }
  | .noSave => .ok { o with noSave := true }
  | .printTokens => .ok { o with printTokens := true }
  | .logFile => .ok { o with logFile := value.getD "" }
  | .extension => .ok { o with extension := value.getD "" }

/-- Sets the settings whose letters stand in one argument. The last one is given back with its
value, if the argument has it. -/
def setLetters (o : Options) (s : Setting) (long : Bool) :
    List Char → Except Usage (Options × Setting × Option String)
  | [] => if s.arity = .none then .error .wrong else .ok (o, s, some "")
  | c :: rest => do
    if s.arity ≠ .none then return (o, s, some (String.ofList (c :: rest)))
    if long then throw .wrong
    let some next := Setting.named? (String.ofList ['-', c]) | throw .wrong
    let o ← o.set s none
    if rest.isEmpty then return (o, next, none) else o.setLetters next false rest

/-- The words at the start of arguments, without the first divider among them. -/
def wordsOf : List Arg → List String
  | .word w :: rest => w :: wordsOf rest
  | .divider :: rest => wordsOf rest
  | _ => []

def afterWords : List Arg → List Arg
  | .word _ :: rest => afterWords rest
  | .divider :: rest => afterWords rest
  | rest => rest

theorem length_afterWords_le (args : List Arg) : (afterWords args).length ≤ args.length := by
  fun_induction afterWords args <;> simp_all <;> omega

def readArgs (o : Options) (free : Bool) : List Arg → Except Usage Options
  | [] => .ok o
  | .setting s long rest :: args => do
    let (o, s, value) ← match rest with
      | none => pure (o, s, none)
      | some letters => o.setLetters s long letters.toList
    match s.arity, value, args with
    | .none, _, args => (← o.set s none).readArgs free args
    | _, some v, args => (← o.set s (some v)).readArgs free args
    | _, none, .word w :: args => (← o.set s (some w)).readArgs free args
    | .optional, none, args => (← o.set s none).readArgs free args
    | .one, none, _ => throw .wrong
  | .word w :: args =>
    if free then
      { o with inputs := w :: wordsOf args }.readArgs false (afterWords args)
    else .error .wrong
  | .divider :: args =>
    if free then
      let inputs := wordsOf args
      (if inputs.isEmpty then o else { o with inputs := inputs }).readArgs false (afterWords args)
    else .error .wrong
termination_by args => args.length
decreasing_by
  all_goals
    have := length_afterWords_le args
    simp
    try omega

def ofArgs (args : List String) : Except Usage Options := do
  ({} : Options).readArgs true (← Arg.ofTexts args)

end Options

end GdScribe
