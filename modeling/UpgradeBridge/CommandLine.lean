/-
The command line: an option for the file of the settings, one for the address
to listen at, and one that asks for help.

An option is given once at most. Its value is the next argument, which does not
start with a hyphen, or is joined to it, by an equals sign or to its letter.
-/
namespace UpgradeBridge

/-- What a command line asks for. -/
structure CommandLine where
  /-- The file of the settings. -/
  config : Option String := none
  /-- The address to listen at, whatever the settings say. -/
  bind : Option String := none
  deriving DecidableEq, Repr

namespace CommandLine

/-- An option with a value. -/
inductive Setting
  | config
  | bind
  deriving DecidableEq, Repr

/-- What a command line comes to. -/
inductive Reading
  | run (commandLine : CommandLine)
  | help
  /-- It cannot be understood. -/
  | wrong
  deriving DecidableEq, Repr

/-- How the program is called. -/
def usage : String := "Usage: wss-handshake-tunnel [OPTIONS]"

/-- What is said about arguments that cannot be understood. -/
def usageError : String :=
  "error: the arguments cannot be understood\n\n" ++ usage ++
    "\n\nFor more information, try '--help'.\n"

/-- The help text, by line. -/
def helpLines : List String :=
  ["Bridge WebSocket upgrades onto CONNECT tunnels",
    "",
    usage,
    "",
    "Options:",
    "  -c, --config <CONFIG>  TOML configuration file; defaults apply when omitted",
    "  -b, --bind <BIND>      Override listener.bind_address",
    "  -h, --help             Print help"]

/-- Gives an option its value, unless it has one. The name of a file is not empty. -/
def assign (c : CommandLine) (setting : Setting) (value : String) : Option CommandLine :=
  match setting with
  | .config =>
    if c.config.isSome || value.isEmpty then none else some { c with config := some value }
  | .bind => if c.bind.isSome then none else some { c with bind := some value }

/-- What one argument says. -/
inductive Token
  /-- An option and its value, if it is joined to it. -/
  | setting (setting : Setting) (value : Option String)
  | help
  /-- The end of the options. -/
  | endOfOptions
  | value (text : String)
  | unknown
  deriving DecidableEq, Repr

/-- The token of an option by its name, and of what is joined to it. -/
def longToken (name : List Char) (value : Option String) : Token :=
  if name == "config".toList then .setting .config value
  else if name == "bind".toList then .setting .bind value
  else if name == "help".toList then (if value.isSome then .unknown else .help)
  else .unknown

/-- The value that is joined to a letter. -/
def joined : List Char → Option String
  | [] => none
  | '=' :: rest => some (String.ofList rest)
  | rest => some (String.ofList rest)

/-- Reads an argument. -/
def token (argument : String) : Token :=
  match argument.toList with
  | ['-', '-'] => .endOfOptions
  | '-' :: '-' :: rest =>
    match rest.span (· != '=') with
    | (name, '=' :: value) => longToken name (some (String.ofList value))
    | (name, _) => longToken name none
  | '-' :: 'h' :: _ => .help
  | '-' :: 'c' :: rest => .setting .config (joined rest)
  | '-' :: 'b' :: rest => .setting .bind (joined rest)
  | '-' :: _ :: _ => .unknown
  | _ => .value argument

/-- Reads tokens, of which the first may be the value of an option. -/
def read (c : CommandLine) : (waiting : Option Setting) → List Token → Reading
  | none, [] => .run c
  | none, .setting setting (some value) :: rest =>
    match c.assign setting value with
    | some c => read c none rest
    | none => .wrong
  | none, .setting setting none :: rest => read c (some setting) rest
  | none, .help :: _ => .help
  | none, [.endOfOptions] => .run c
  | some setting, .value text :: rest =>
    match c.assign setting text with
    | some c => read c none rest
    | none => .wrong
  | _, _ => .wrong

/-- Reads the arguments of a command line. -/
def ofArguments (arguments : List String) : Reading :=
  read {} none (arguments.map token)

end CommandLine

end UpgradeBridge
