/-!
# Command-line arguments

`Request.ofArguments` reads the arguments of the command. `check` takes options and then values: the first argument
that is no known option starts the values, and everything behind it is a value too, whatever it looks like. A cluster
of short options counts as options only if every letter of it is one. `signature` takes one file.
-/

namespace CallContract.CommandLine

/-- What `check` is asked for. -/
structure CheckOptions where
  expectations : List String := []
  signature : Option String := none
  report : Bool := false
  legacyIndexing : Bool := false
  docsUrl : Option String := none
  config : Option String := none
  values : List String := []

/-- What the command is asked for. -/
inductive Request where
  | check (options : CheckOptions)
  | signature (file : String)
  | version
  | help

/-- Why reading the arguments stops before the end. -/
inductive Stop where
  /-- The arguments make no request. -/
  | misuse
  /-- Help is asked for. -/
  | help
  /-- The version is asked for. -/
  | version

/-! ## Options of check -/

/-- An option without a value. -/
inductive Switch where
  | report
  | legacyIndexing
  | verbose
  | help

/-- An option with a value. -/
inductive Setting where
  | expect
  | signature
  | docsUrl
  | config

/-- An option of either sort. -/
inductive Opt where
  | switch (s : Switch)
  | setting (s : Setting)

/-- The option with a long name. -/
def Opt.ofLong? : String → Option Opt
  | "expect" => some (.setting .expect)
  | "signature" => some (.setting .signature)
  | "docs-url" => some (.setting .docsUrl)
  | "config" => some (.setting .config)
  | "report" => some (.switch .report)
  | "legacy-indexing" => some (.switch .legacyIndexing)
  | "verbose" => some (.switch .verbose)
  | "help" => some (.switch .help)
  | _ => none

/-- The option with a short name. -/
def Opt.ofShort? : Char → Option Opt
  | 'e' => some (.setting .expect)
  | 's' => some (.setting .signature)
  | 'c' => some (.setting .config)
  | 'r' => some (.switch .report)
  | 'v' => some (.switch .verbose)
  | 'h' => some (.switch .help)
  | _ => none

/-- What an argument says: switches, then perhaps a setting with a value or without one. -/
structure Spoken where
  switches : List Switch := []
  setting : Option (Setting × Option String) := none

/-- How an argument is taken. -/
inductive Word where
  /-- It is an option, or a cluster of some. -/
  | options (spoken : Spoken)
  /-- It gives a value to an option that takes none. -/
  | misuse
  /-- It is a value. -/
  | value

/-- A cluster of short options whose letters are all known: switches up to the first setting, whose value is the
rest, or the next argument if there is no rest. -/
def Spoken.ofCluster : List Char → Spoken
  | [] => {}
  | c :: cs => match Opt.ofShort? c with
    | some (.switch s) =>
      let rest := ofCluster cs
      { rest with switches := s :: rest.switches }
    | some (.setting s) => { setting := some (s, if cs.isEmpty then none else some (String.ofList cs)) }
    | none => {}

/-- How a long option is taken, given its text behind the hyphens. -/
def Word.ofLong (text : List Char) : Word :=
  let name := text.takeWhile (· != '=')
  let value := if name.length < text.length then some (String.ofList (text.drop (name.length + 1))) else none
  match Opt.ofLong? (String.ofList name), value with
  | some (.switch s), none => .options { switches := [s] }
  | some (.switch _), some _ => .misuse
  | some (.setting s), value => .options { setting := some (s, value) }
  | none, _ => .value

/-- How an argument is taken. -/
def Word.ofArgument (argument : String) : Word :=
  match argument.toList with
  | '-' :: '-' :: text => .ofLong text
  | '-' :: c :: cs =>
    if (c :: cs).all fun letter => (Opt.ofShort? letter).isSome then .options (.ofCluster (c :: cs)) else .value
  | _ => .value

namespace CheckOptions

/-- Turns a switch on. Only `verbose` may be repeated. -/
def turnOn (o : CheckOptions) : Switch → Except Stop CheckOptions
  | .report => if o.report then .error .misuse else .ok { o with report := true }
  | .legacyIndexing => if o.legacyIndexing then .error .misuse else .ok { o with legacyIndexing := true }
  | .verbose => .ok o
  | .help => .error .help

/-- Gives a setting its value. Only `expect` may be repeated, and a path is not empty. -/
def set (o : CheckOptions) (value : String) : Setting → Except Stop CheckOptions
  | .expect => .ok { o with expectations := o.expectations ++ [value] }
  | .signature =>
    if o.signature.isSome || value.isEmpty then .error .misuse else .ok { o with signature := some value }
  | .docsUrl => if o.docsUrl.isSome then .error .misuse else .ok { o with docsUrl := some value }
  | .config => if o.config.isSome || value.isEmpty then .error .misuse else .ok { o with config := some value }

/-- The options with their values; a signature and expectations exclude each other. -/
def close (o : CheckOptions) (values : List String) : Except Stop CheckOptions :=
  if o.signature.isSome && !o.expectations.isEmpty then .error .misuse else .ok { o with values }

/-- Reads the arguments of `check`; `pending` is a setting whose value comes next. -/
def read (o : CheckOptions) (pending : Option Setting) : List String → Except Stop CheckOptions
  | [] => if pending.isSome then .error .misuse else o.close []
  | argument :: rest =>
    if argument = "--" then if pending.isSome then .error .misuse else o.close rest
    else match Word.ofArgument argument, pending with
      | .misuse, _ => .error .misuse
      | .options _, some _ => .error .misuse
      | .options spoken, none =>
        match spoken.switches.foldlM turnOn o with
        | .error stop => .error stop
        | .ok o => match spoken.setting with
          | none => read o none rest
          | some (s, none) => read o (some s) rest
          | some (s, some value) => match o.set value s with
            | .error stop => .error stop
            | .ok o => read o none rest
      | .value, some s => match o.set argument s with
        | .error stop => .error stop
        | .ok o => read o none rest
      | .value, none => o.close (argument :: rest)

end CheckOptions

/-! ## Arguments of signature -/

/-- The letters of a cluster are all `v`, or help is asked for by an `h` behind such letters. -/
def readVerbosity : List Char → Except Stop Unit
  | [] => .ok ()
  | 'v' :: cs => readVerbosity cs
  | 'h' :: _ => .error .help
  | _ => .error .misuse

/-- The only file, and no empty path. -/
def takeFile (file : Option String) (argument : String) : Except Stop String :=
  if file.isSome || argument.isEmpty then .error .misuse else .ok argument

/-- The file that was given. -/
def givenFile : Option String → Except Stop String
  | some file => .ok file
  | none => .error .misuse

/-- Reads the arguments of `signature`; `file` is the one that was given. -/
def readSignature (file : Option String) : List String → Except Stop String
  | [] => givenFile file
  | argument :: rest =>
    match argument.toList with
    | ['-', '-'] => match rest with
      | [] => givenFile file
      | [name] => takeFile file name
      | _ => .error .misuse
    | '-' :: '-' :: _ =>
      if argument = "--verbose" then readSignature file rest
      else .error (if argument = "--help" then .help else .misuse)
    | '-' :: c :: cs => match readVerbosity (c :: cs) with
      | .ok () => readSignature file rest
      | .error stop => .error stop
    | _ => match takeFile file argument with
      | .ok name => readSignature (some name) rest
      | .error stop => .error stop

/-! ## Requests -/

/-- The letters of a cluster in front of the subcommand: any number of `v`, and then help or the version. -/
def readGlobalCluster : List Char → Except Stop Unit
  | [] => .ok ()
  | 'v' :: cs => readGlobalCluster cs
  | 'V' :: _ => .error .version
  | 'h' :: _ => .error .help
  | _ => .error .misuse

/-- Reads the arguments of `help`: nothing, or the name of one subcommand. -/
def readHelp : List String → Stop
  | [] | ["check"] | ["signature"] | ["help"] => .help
  | _ => .misuse

/-- Reads the arguments in front of the subcommand, and then its own. -/
def readRequest : List String → Except Stop Request
  | [] => .error .misuse
  | "check" :: rest => (CheckOptions.read {} none rest).map .check
  | "signature" :: rest => (readSignature none rest).map .signature
  | "help" :: rest => .error (readHelp rest)
  | "--verbose" :: rest => readRequest rest
  | "--version" :: _ => .error .version
  | "--help" :: _ => .error .help
  | argument :: rest => match argument.toList with
    | '-' :: c :: cs => match readGlobalCluster (c :: cs) with
      | .ok () => readRequest rest
      | .error stop => .error stop
    | _ => .error .misuse

/-- What the arguments ask for; nothing when they make no request. -/
def Request.ofArguments (arguments : List String) : Option Request :=
  match readRequest arguments with
  | .ok request => some request
  | .error .help => some .help
  | .error .version => some .version
  | .error .misuse => none

end CallContract.CommandLine
