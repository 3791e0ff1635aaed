/-
# The syntax of scripts

Scripts for the shell of the machine: lists of pipelines of simple commands, with
quotes, variables and redirections.
-/
import Errand.Machine.Program

namespace Errand.Machine.Script

/-- A piece of a word of a script. -/
inductive Piece where
  /-- Characters without quotes around them. -/
  | plain (text : Text)
  | quoted (text : Text)
  /-- The value of a variable or of a special parameter. -/
  | value (name : Text) (isQuoted : Bool)
  deriving DecidableEq, Repr

/-- A word of a script. -/
abbrev Word := List Piece

/-- A lexical unit of a script. -/
inductive Lexeme where
  | word (word : Word)
  | operator (text : Text)
  /-- The start of a redirection of a descriptor. -/
  | redirect (descriptor : Nat) (operator : Text)
  deriving DecidableEq, Repr

/-- A character of a variable's name. -/
def isNameChar (c : Char) : Bool := c = '_' || c.isAlphanum

/-- The name behind a dollar sign, with what follows it. -/
def reference? : Text → Option (Text × Text)
  | '\x7b' :: rest =>
    let name := rest.takeWhile (· ≠ '\x7d')
    if name.isEmpty then none else some (name, rest.drop (name.length + 1))
  | c :: rest =>
    if c = '_' || c.isAlpha then some (c :: rest.takeWhile isNameChar, rest.dropWhile isNameChar)
    else if c.isDigit || ['?', '$', '#', '!', '*', '@'].contains c then some ([c], rest)
    else none
  | [] => none

/-- The pieces of a text between double quotes, with what follows the closing quote,
unless it is missing. At most `fuel` characters are read. -/
def doubleQuoted : (fuel : Nat) → Word → Text → Option (Word × Text)
  | 0, _, _ => none
  | _, _, [] => none
  | _ + 1, word, '"' :: rest => some (word, rest)
  | fuel + 1, word, '\\' :: c :: rest =>
    if ['$', '`', '"', '\\'].contains c then doubleQuoted fuel (word ++ [.quoted [c]]) rest
    else if c = '\n' then doubleQuoted fuel word rest
    else doubleQuoted fuel (word ++ [.quoted ['\\', c]]) rest
  | fuel + 1, word, '$' :: rest =>
    match reference? rest with
    | some (name, behind) => doubleQuoted fuel (word ++ [.value name true]) behind
    | none => doubleQuoted fuel (word ++ [.quoted ['$']]) rest
  | fuel + 1, word, c :: rest => doubleQuoted fuel (word ++ [.quoted [c]]) rest

/-- The word that has begun, as a lexeme. -/
def close : Option Word → List Lexeme
  | none => []
  | some word => [.word word]

/-- The descriptor that a word in front of a redirection names, with the lexemes to
keep. -/
def descriptor (default : Nat) : Option Word → List Lexeme × Nat
  | some [.plain [c]] => if c.isDigit then ([], c.toNat - '0'.toNat) else ([.word [.plain [c]]], default)
  | word => (close word, default)

/-- The lexemes of a script, or nothing if a quote is left open. At most `fuel`
characters are read. -/
def lex : (fuel : Nat) → Option Word → Text → Option (List Lexeme)
  | 0, word, _ => some (close word)
  | _, word, [] => some (close word)
  | fuel + 1, word, c :: rest =>
    let add (piece : Piece) : Option Word := some (word.getD [] ++ [piece])
    let operator (text behind : Text) : Option (List Lexeme) :=
      (lex fuel none behind).map (close word ++ .operator text :: ·)
    let redirect (default : Nat) (text behind : Text) : Option (List Lexeme) :=
      let (kept, number) := descriptor default word
      (lex fuel none behind).map (kept ++ .redirect number text :: ·)
    if c = '\'' then
      let text := rest.takeWhile (· ≠ '\'')
      match rest.drop text.length with
      | [] => none
      | _ :: behind => lex fuel (add (.quoted text)) behind
    else if c = '"' then do
      let (pieces, behind) ← doubleQuoted (rest.length + 1) [.quoted []] rest
      lex fuel (some (word.getD [] ++ pieces)) behind
    else if c = '\\' then
      match rest with
      | [] => lex fuel (add (.quoted ['\\'])) []
      | next :: behind => if next = '\n' then lex fuel word behind
        else lex fuel (add (.quoted [next])) behind
    else if c = '$' then
      match reference? rest with
      | some (name, behind) => lex fuel (add (.value name false)) behind
      | none => lex fuel (add (.plain ['$'])) rest
    else if c = ' ' || c = '\t' then (lex fuel none rest).map (close word ++ ·)
    else if c = '#' && word.isNone then lex fuel none (rest.dropWhile (· ≠ '\n'))
    else match c, rest with
      | '\n', _ => operator [';'] rest
      | ';', _ => operator [';'] rest
      | '&', '&' :: behind => operator ['&', '&'] behind
      | '&', _ => operator ['&'] rest
      | '|', '|' :: behind => operator ['|', '|'] behind
      | '|', _ => operator ['|'] rest
      | '>', '&' :: behind => redirect 1 ['>', '&'] behind
      | '>', '>' :: behind => redirect 1 ['>'] behind
      | '>', _ => redirect 1 ['>'] rest
      | '<', _ => redirect 0 ['<'] rest
      | _, _ => match word with
        | some [.plain text] => lex fuel (some [.plain (text ++ [c])]) rest
        | _ => lex fuel (add (.plain [c])) rest

/-- A redirection of a descriptor. -/
structure Redirection where
  descriptor : Nat
  operator : Text
  target : Word
  deriving DecidableEq, Repr

/-- A command: words in order, and redirections. -/
structure Simple where
  words : List Word
  redirections : List Redirection
  deriving DecidableEq, Repr

/-- When a pipeline of a list is run. -/
inductive Condition where
  | always
  | onSuccess
  | onFailure
  deriving DecidableEq, Repr

/-- Pipelines with their conditions. -/
abbrev Block := List (Condition × List Simple)

/-- The pipeline that ends with a command, unless it is empty. -/
def closePipeline (condition : Condition) (pipeline : List Simple) (command : Simple) : Block :=
  if pipeline.isEmpty && command.words.isEmpty && command.redirections.isEmpty then []
  else [(condition, pipeline ++ [command])]

/-- The commands of a list of lexemes. `command` holds what has been read of the current
command, `pipeline` the commands before it, and `condition` is that of the pipeline. -/
def blockFrom (condition : Condition) (pipeline : List Simple) (command : Simple) :
    List Lexeme → Block
  | [] => closePipeline condition pipeline command
  | .word word :: lexemes =>
    blockFrom condition pipeline { command with words := command.words ++ [word] } lexemes
  | .redirect number operator :: .word target :: lexemes =>
    blockFrom condition pipeline
      { command with redirections := command.redirections ++ [⟨number, operator, target⟩] } lexemes
  | .redirect _ _ :: lexemes => blockFrom condition pipeline command lexemes
  | .operator operator :: lexemes =>
    match operator with
    | ['|'] => blockFrom condition (pipeline ++ [command]) ⟨[], []⟩ lexemes
    | ['&', '&'] =>
      closePipeline condition pipeline command ++ blockFrom .onSuccess [] ⟨[], []⟩ lexemes
    | ['|', '|'] =>
      closePipeline condition pipeline command ++ blockFrom .onFailure [] ⟨[], []⟩ lexemes
    | _ => closePipeline condition pipeline command ++ blockFrom .always [] ⟨[], []⟩ lexemes

/-- The pipelines of a script, or nothing if a quote is left open. -/
def parse (script : Text) : Option Block :=
  (lex script.length none script).map (blockFrom .always [] ⟨[], []⟩)

end Errand.Machine.Script
