/-
# The words of a command line

A command has options and one operand. An option is written out, shortened as
long as only one option starts that way, or followed by an equals sign and its
value. A word that starts with a hyphen is an option unless it is the hyphen
alone, a negative number, or holds a space. Two hyphens end the options: all
words behind them are operands. Every command also has the option for help.

It is up to the host whether two hyphens behind an equals sign are a value; if
not, the option is given, but without what it takes. It is also up to the host
what may stand behind the short option for help.

Words are sorted before any of them is acted on, so a shortened option that
could be two is an error even behind the option for help.

Key definitions: `OptionRule`, `Word`, `Word.sortShortHelp`, `Word.sort`,
`Word.sortAll`, `Gathered`, `Word.valueBehind`, `Word.gather`.
-/
import ChronoId.Host
import ChronoId.Text.Digit

namespace ChronoId

/-- An option: its name, and for an option with a value what the value may
be. -/
structure OptionRule where
  name : String
  accepts? : Option (String → Bool)

/-- What a word of the command line is. -/
inductive Word where
  | operand (text : String)
  | terminator
  | help
  /-- The option for help, with a value that it does not take. -/
  | helpMisused
  | option (rule : OptionRule) (value? : Option String)
  | unknown

namespace Word

/-- The long option for help. -/
def longHelp : String := "--help"

/-- What stands in front of the first equals sign, and what stands behind it. -/
def splitEquals (w : List Char) : List Char × Option (List Char) :=
  let name := w.takeWhile (· ≠ '=')
  match w.drop name.length with
  | [] => (name, none)
  | _ :: value => (name, some value)

/-- Whether `c` is a digit of any script. -/
def isDigit (c : Char) : Bool := (Text.digitValue? c).isSome

/-- Whether a word is a negative number: digits behind the hyphen, perhaps
with a point in front of the last of them, and perhaps a line feed behind. -/
def isNegativeNumber (w : List Char) : Bool :=
  match w with
  | '-' :: body =>
    let body := if body.getLast? = some '\n' then body.dropLast else body
    let whole := body.takeWhile isDigit
    match body.drop whole.length with
    | [] => !whole.isEmpty
    | '.' :: fraction => !fraction.isEmpty && fraction.all isDigit
    | _ => false
  | _ => false

/-- A word that starts with a hyphen and names no option. -/
def sortOther (w : List Char) : Word :=
  if isNegativeNumber w || w.contains ' ' then .operand (String.ofList w) else .unknown

/-- The word `-h` with `rest` behind it, where the option may have a tail: more
of the same letter asks for help again, and what follows does not matter unless
it starts with a hyphen or an equals sign. -/
def sortTail (rest : List Char) : Word :=
  match rest.dropWhile (· = 'h') with
  | '-' :: _ => .helpMisused
  | '=' :: _ => .helpMisused
  | _ => .help

/-- The word `-h` with `rest` behind it, where the option may have no tail: more
of the same letter, also behind an equals sign, asks for help again, and
anything else is too much. -/
def sortRepeated : (rest : List Char) → Word
  | [] => .help
  | '=' :: value => if !value.isEmpty && value.all (· = 'h') then .help else .helpMisused
  | rest => if rest.all (· = 'h') then .help else .helpMisused

/-- The word `-h` with `rest` behind it. -/
def sortShortHelp [Host] (rest : List Char) : Word :=
  if Host.takesTails then sortTail rest else sortRepeated rest

/-- A word for help with the value behind its equals sign. -/
def ofHelp (value? : Option String) : Word := if value?.isSome then .helpMisused else .help

/-- A word that starts with two hyphens: `none` if it could be two options. -/
def sortLong (rules : List OptionRule) (w : List Char) : Option Word :=
  let (name, value) := splitEquals w
  let value? := value.map String.ofList
  match rules.find? (·.name.toList = name) with
  | some rule => some (.option rule value?)
  | none =>
    if name = longHelp.toList then some (ofHelp value?)
    else
      let matching := rules.filter fun rule => name.isPrefixOf rule.name.toList
      match matching, name.isPrefixOf longHelp.toList with
      | [], false => some (sortOther w)
      | [], true => some (ofHelp value?)
      | [rule], false => some (.option rule value?)
      | _, _ => none

/-- What a word in front of the two hyphens is: `none` if it could be two
options. -/
def sort [Host] (rules : List OptionRule) (word : String) : Option Word :=
  match word.toList with
  | '-' :: '-' :: rest => sortLong rules ('-' :: '-' :: rest)
  | '-' :: 'h' :: rest => some (sortShortHelp rest)
  | '-' :: c :: rest => some (sortOther ('-' :: c :: rest))
  | _ => some (.operand word)

/-- All words with what they are, or `none` if one could be two options. -/
def sortAll [Host] (rules : List OptionRule) : List String → Option (List (String × Word))
  | [] => some []
  | word :: words =>
    if word = "--" then some ((word, .terminator) :: words.map fun w => (w, .operand w))
    else do
      let first ← sort rules word
      let rest ← sortAll rules words
      some ((word, first) :: rest)

end Word

/-- What a command's words come to. -/
structure Gathered where
  operand? : Option String := none
  /-- The options with their values, the latest first; an option that takes no
  value has the empty one. -/
  options : List (String × Option String) := []
  /-- Whether there was a word too much. -/
  stray : Bool := false

namespace Gathered

/-- The value of an option that was given, if it has one. -/
def value? (g : Gathered) (name : String) : Option (Option String) := g.options.lookup name

/-- With one more option. -/
def give (g : Gathered) (rule : OptionRule) (value : Option String) : Gathered :=
  { g with options := (rule.name, value) :: g.options }

end Gathered

/-- The result of reading words. -/
inductive Reading (α : Type) where
  | help
  | misused
  | read (a : α)

namespace Word

/-- The value of an option that has `value` behind its equals sign. -/
def valueBehind [Host] (value : String) : Option String :=
  if value = "--" ∧ ¬ Host.takesHyphens then none else some value

/-- Reads the words of a command, whose operand `accepts` tests. The operand
takes the two hyphens next to it with it; anywhere else they are too much. -/
def gather [Host] (accepts : String → Bool) : List Word → Gathered → Reading Gathered
  | [], g => .read g
  | .operand text :: words, g =>
    if g.operand?.isSome then gather accepts words { g with stray := true }
    else if accepts text then
      match words with
      | .terminator :: words => gather accepts words { g with operand? := some text }
      | words => gather accepts words { g with operand? := some text }
    else .misused
  | .terminator :: words, g =>
    gather accepts words { g with stray := g.stray || g.operand?.isSome || words.isEmpty }
  | .help :: _, _ => .help
  | .helpMisused :: _, _ => .misused
  | .unknown :: words, g => gather accepts words { g with stray := true }
  | .option rule value? :: words, g =>
    match rule.accepts?, value? with
    | none, none => gather accepts words (g.give rule (some ""))
    | none, some _ => .misused
    | some test, some value =>
      match valueBehind value with
      | none => gather accepts words (g.give rule none)
      | some value =>
        if test value then gather accepts words (g.give rule (some value)) else .misused
    | some test, none =>
      match words with
      | .operand value :: words =>
        if test value then gather accepts words (g.give rule (some value)) else .misused
      | _ => .misused

end Word
end ChronoId
