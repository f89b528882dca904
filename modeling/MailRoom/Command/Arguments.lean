import MailRoom.Text.Numeral

/-! The arguments of the command line: two positional ones, and options that may stand anywhere.
A long option may be shortened as far as it stays the only one that starts so. -/
namespace MailRoom.Command

inductive Switch where
  | help
  | source
  | verbose
  | tracebackJson
  | stepLimit
  deriving DecidableEq, Repr

def spellings : List (String × Switch) :=
  [("-h", .help), ("--help", .help), ("-source", .source), ("--source", .source),
   ("-verbose", .verbose), ("--verbose", .verbose), ("--traceback-json", .tracebackJson),
   ("--step-limit", .stepLimit)]

inductive Argument where
  | positional (text : String)
  /-- Two dashes alone: all that follows is positional. -/
  | separator
  | option (option : Switch) (attached : Option String)
  | unknown
  | ambiguous
  deriving DecidableEq

namespace Argument

def splitAttached (text : String) : String × Option String :=
  let chars := text.toList
  let head := chars.takeWhile (· ≠ '=')
  if head.length = chars.length then (text, none)
  else (String.ofList head, some (String.ofList (chars.drop (head.length + 1))))

/-- Options that a shortened spelling may mean, each with the value attached to it. -/
def candidates (text : String) : List (Switch × Option String) :=
  if text.startsWith "--" then
    let (head, attached) := splitAttached text
    (spellings.filter fun (spelling, _) => spelling.startsWith head).map
      fun (_, meaning) => (meaning, attached)
  else
    spellings.filterMap fun (spelling, meaning) =>
      if spelling = String.ofList (text.toList.take 2) then
        some (meaning, some (String.ofList (text.toList.drop 2)))
      else if spelling.startsWith text then some (meaning, none)
      else none

private def isDigitRow (chars : List Char) : Bool :=
  !chars.isEmpty && chars.all fun char => isDecimalDigit char.toNat

/-- A minus sign before digits, at most one point among them; a final line feed does not count. -/
def isNegativeNumber (text : String) : Bool :=
  match text.toList with
  | '-' :: rest =>
    let body := if rest.getLast? = some '\n' then rest.dropLast else rest
    let whole := body.takeWhile fun char => isDecimalDigit char.toNat
    match body.drop whole.length with
    | [] => isDigitRow whole
    | '.' :: part => isDigitRow part
    | _ => false
  | _ => false

/-- An option with a value attached to it. What is attached to a single dash are more options of
one letter, of which there is `h` alone. -/
def ofAttached (text : String) (found : Switch) (attached : Option String) : Argument :=
  match attached with
  | none => option found none
  | some letters =>
    if !text.startsWith "--" && !letters.isEmpty && letters.toList.all (· = 'h') then
      option .help none
    else option found (some letters)

def classify (text : String) : Argument :=
  if !text.startsWith "-" then positional text
  else match spellings.lookup text with
    | some found => option found none
    | none =>
      if text = "-" then positional text
      else
        let (head, attached) := splitAttached text
        match attached, spellings.lookup head with
        | some _, some found => ofAttached text found attached
        | _, _ =>
          match candidates text with
          | [(found, attached)] => ofAttached text found attached
          | _ :: _ :: _ => ambiguous
          | [] =>
            if isNegativeNumber text || text.toList.contains ' ' then positional text else unknown

def classifyAll : List String → List Argument
  | [] => []
  | "--" :: rest => separator :: rest.map positional
  | text :: rest => classify text :: classifyAll rest

end Argument

inductive LimitArgument where
  | absent
  /-- Two dashes attached to the option leave it without a number. -/
  | empty
  | steps (limit : Int)
  deriving DecidableEq

inductive ArgumentError where
  | usage
  | help
  deriving DecidableEq

/-- Reads the number of steps; two dashes alone are dropped. -/
def LimitArgument.read (text : String) : Except ArgumentError LimitArgument :=
  if text = "--" then .ok .empty
  else match Numeral.read (Text.ofString text) with
    | .ok limit => .ok (.steps limit)
    | .error _ => .error .usage

structure Arguments where
  level : String
  /-- The program's text or path. A second pair of dashes in its place leaves it empty. -/
  program : Option String
  literal : Bool
  verbose : Bool
  tracebackJson : Bool
  limit : LimitArgument
  deriving DecidableEq

namespace Arguments

structure Gathered where
  positionals : List (Option String)
  literal : Bool
  verbose : Bool
  tracebackJson : Bool
  limit : LimitArgument

def Gathered.none : Gathered := ⟨[], false, false, false, .absent⟩

/-- A positional argument together with the separators next to it, of which the first pair of
dashes is dropped. -/
def positionalText (texts : List String) : Option String := (texts.erase "--").head?

def Gathered.add (gathered : Gathered) (texts : List String) : Gathered :=
  { gathered with positionals := gathered.positionals ++ [positionalText texts] }

def step (gathered : Gathered) (option : Switch) (attached next : Option String) :
    Except ArgumentError Gathered :=
  match option, attached with
  | .stepLimit, _ =>
    match attached <|> next with
    | some text => (LimitArgument.read text).map fun limit => { gathered with limit }
    | none => .error .usage
  | _, some _ => .error .usage
  | .help, none => .error .help
  | .source, none => .ok { gathered with literal := true }
  | .verbose, none => .ok { gathered with verbose := true }
  | .tracebackJson, none => .ok { gathered with tracebackJson := true }

/-- Gathers the arguments from left to right. An unknown option is refused only at the end, so
that help may still be asked for behind it. -/
def gather (gathered : Gathered) : List Argument → Except ArgumentError Gathered
  | [] => .ok gathered
  | .separator :: .positional text :: rest => gather (gathered.add ["--", text]) rest
  | .separator :: _ => .error .usage
  | .positional text :: .separator :: rest => gather (gathered.add [text, "--"]) rest
  | .positional text :: rest => gather (gathered.add [text]) rest
  | .option .stepLimit none :: .positional text :: rest => do
    gather (← step gathered .stepLimit none (some text)) rest
  | .option option attached :: rest => do
    gather (← step gathered option attached none) rest
  | .unknown :: rest => do
    let _ ← gather gathered rest
    throw .usage
  | .ambiguous :: _ => .error .usage

def read (texts : List String) : Except ArgumentError Arguments :=
  let arguments := Argument.classifyAll texts
  if arguments.contains .ambiguous then .error .usage
  else do
    let gathered ← gather .none arguments
    match gathered.positionals with
    | [some level, program] => return {
        level, program
        literal := gathered.literal
        verbose := gathered.verbose
        tracebackJson := gathered.tracebackJson
        limit := gathered.limit }
    | _ => throw .usage

end Arguments

end MailRoom.Command
