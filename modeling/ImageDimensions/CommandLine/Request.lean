/-!
# CommandLine/Request — what the arguments ask for

Arguments are read from left to right, and the first flag, or the first argument that fits nowhere, ends
the reading.  Without arguments the file is generated.  After a double dash every argument is a plain
word, of which none is expected.  One that follows a command, or names a command, is called unexpected;
any other is taken for the name of a command that does not exist.
-/

namespace ImageDimensions.CommandLine

/-- What the program can do. -/
inductive Command where
  | generate
  | check
deriving DecidableEq, Repr

/-- The help that can be asked for. -/
inductive Page where
  | overview
  | command (c : Command)
  | help
deriving DecidableEq, Repr

/-- What can be wrong with arguments. -/
inductive UsageError where
  | unexpectedArgument (argument : String)
  | unexpectedValue (value flag : String)
  | unrecognizedCommand (name : String)
deriving DecidableEq, Repr

/-- What arguments ask for. -/
inductive Request where
  | run (c : Command)
  | help (p : Page)
  | version
  | misuse (e : UsageError)
deriving DecidableEq, Repr

/-- How an argument is written. -/
inductive Argument where
  /-- A double dash. -/
  | separator
  /-- A double dash and a name, and perhaps a value after an equals sign. -/
  | long (name : String) (value? : Option String)
  /-- A dash and letters, of which only the first one matters. -/
  | short (letter : Char)
  | word (s : String)
deriving DecidableEq, Repr

namespace Argument

/-- The name, and what follows the first equals sign. -/
def splitValue (cs : List Char) : String × Option String :=
  (String.ofList (cs.takeWhile (· ≠ '=')), match cs.dropWhile (· ≠ '=') with
    | [] => none
    | _ :: value => some (String.ofList value))

/-- Reads how an argument is written.  A single dash and the empty argument are words. -/
def ofString (s : String) : Argument :=
  match s.toList with
  | ['-', '-'] => .separator
  | '-' :: '-' :: cs => let (name, value?) := splitValue cs; .long name value?
  | '-' :: c :: _ => .short c
  | _ => .word s

end Argument

/-- The command of a name. -/
def Command.ofName? (name : String) : Option Command :=
  if name = "generate" then some .generate
  else if name = "check" then some .check
  else none

/-- The page of a name that may stand in place of a command. -/
def Page.ofName? (name : String) : Option Page :=
  if name = "help" then some .help else (Command.ofName? name).map .command

namespace Request

/-- What a flag asks for that takes no value. -/
def ofFlag (request : Request) (name : String) : Option String → Request
  | none => request
  | some value => .misuse (.unexpectedValue value ("--" ++ name))

/-- What the arguments after a command ask for. -/
def ofCommand (c : Command) : List String → Request
  | [] => .run c
  | s :: rest => match Argument.ofString s with
    | .separator => match rest with
      | [] => .run c
      | extra :: _ => .misuse (.unexpectedArgument extra)
    | .long "help" value? => ofFlag (.help (.command c)) "help" value?
    | .long name _ => .misuse (.unexpectedArgument ("--" ++ name))
    | .short 'h' => .help (.command c)
    | .short letter => .misuse (.unexpectedArgument (String.ofList ['-', letter]))
    | .word s => .misuse (.unexpectedArgument s)

/-- What the arguments after the word `help` ask for.  They all name commands, and no command has
commands of its own. -/
def ofHelp : List String → Request
  | [] => .help .overview
  | name :: rest => match Page.ofName? name with
    | none => .misuse (.unrecognizedCommand name)
    | some page => match rest with
      | [] => .help page
      | extra :: _ => .misuse (.unrecognizedCommand extra)

/-- What is asked for when a double dash comes first, by the arguments after it. -/
def ofWords : List String → Request
  | [] => .run .generate
  | s :: _ => match Page.ofName? s with
    | some _ => .misuse (.unexpectedArgument s)
    | none => .misuse (.unrecognizedCommand s)

/-- What arguments ask for. -/
def ofArguments : List String → Request
  | [] => .run .generate
  | s :: rest => match Argument.ofString s with
    | .separator => ofWords rest
    | .long "help" value? => ofFlag (.help .overview) "help" value?
    | .long "version" value? => ofFlag .version "version" value?
    | .long name _ => .misuse (.unexpectedArgument ("--" ++ name))
    | .short 'h' => .help .overview
    | .short 'V' => .version
    | .short letter => .misuse (.unexpectedArgument (String.ofList ['-', letter]))
    | .word s =>
      if s = "help" then ofHelp rest
      else match Command.ofName? s with
        | some c => ofCommand c rest
        | none => .misuse (.unrecognizedCommand s)

end Request

end ImageDimensions.CommandLine
