/-!
# Options

Reading the options of a command from its arguments.  An option has a long name and perhaps a
letter; it may take a value, which stands behind an equals sign, behind the letter, or as the
next argument.  Two dashes alone end the options.
-/

namespace ContentSchema
namespace Command

inductive UsageError
  | noSuchOption (text : String)
  | missingValue (option : String)
  | unexpectedValue (option : String)
  | missingCommand
  | noSuchCommand (name : String)
  | missingArgument (name : String)
  | extraArguments (arguments : List String)
  | notAFolder (location : String)
deriving DecidableEq

def UsageError.message : UsageError → String
  | noSuchOption text => "No such option: " ++ text
  | missingValue option => "Option '" ++ option ++ "' requires an argument."
  | unexpectedValue option => "Option '" ++ option ++ "' does not take a value."
  | missingCommand => "Missing command."
  | noSuchCommand name => "No such command '" ++ name ++ "'."
  | missingArgument name => "Missing argument '" ++ name ++ "'."
  | extraArguments arguments =>
      "Got unexpected extra arguments (" ++ " ".intercalate arguments ++ ")"
  | notAFolder location => "Directory '" ++ location ++ "' is a file."

structure OptionForm where
  name : String
  letter : Option Char
  takesValue : Bool
deriving DecidableEq

structure Given where
  name : String
  value : String
deriving DecidableEq

structure Parsed where
  options : List Given
  arguments : List String
deriving DecidableEq

namespace Parsed

def last? (p : Parsed) (name : String) : Option String :=
  ((p.options.filter (fun g => g.name == name)).getLast?).map Given.value

def all (p : Parsed) (name : String) : List String :=
  (p.options.filter (fun g => g.name == name)).map Given.value

def has (p : Parsed) (name : String) : Bool :=
  p.options.any (fun g => g.name == name)

end Parsed

def takeValue (option : String) (rest : List String) : Except UsageError (String × List String) :=
  match rest with
  | value :: rest => .ok (value, rest)
  | [] => .error (.missingValue option)

def takeLetters (forms : List OptionForm) (rest : List String) :
    List Char → Except UsageError (List Given × List String)
  | [] => .ok ([], rest)
  | letter :: behind =>
      match forms.find? (fun f => f.letter = some letter) with
      | none => .error (.noSuchOption (String.ofList ['-', letter]))
      | some form =>
          if form.takesValue then
            if behind.isEmpty then do
              let (value, rest) ← takeValue (String.ofList ['-', letter]) rest
              return ([⟨form.name, value⟩], rest)
            else .ok ([⟨form.name, String.ofList behind⟩], rest)
          else do
            let (later, rest) ← takeLetters forms rest behind
            return (⟨form.name, ""⟩ :: later, rest)

def takeLong (form : OptionForm) (value : Option String) (rest : List String) :
    Except UsageError (List Given × List String) :=
  match form.takesValue, value with
  | true, some value => .ok ([⟨form.name, value⟩], rest)
  | true, none => do
      let (value, rest) ← takeValue ("--" ++ form.name) rest
      return ([⟨form.name, value⟩], rest)
  | false, some _ => .error (.unexpectedValue ("--" ++ form.name))
  | false, none => .ok ([⟨form.name, ""⟩], rest)

def takeOption (forms : List OptionForm) (argument : List Char) (rest : List String) :
    Except UsageError (List Given × List String) :=
  let name := argument.takeWhile (· ≠ '=')
  let value : Option String :=
    match argument.drop name.length with
    | _ :: value => some (String.ofList value)
    | [] => none
  match forms.find? (fun f => "--" ++ f.name == String.ofList name) with
  | some form => takeLong form value rest
  | none =>
      if argument.take 2 = ['-', '-'] then .error (.noSuchOption (String.ofList name))
      else takeLetters forms rest (argument.drop 1)

/-- Separates options from other arguments.  If the first other argument is a command, all
that follows is left to it. -/
def parse (forms : List OptionForm) (hasCommand : Bool) :
    Nat → List String → Except UsageError Parsed
  | 0, arguments => .ok ⟨[], arguments⟩
  | _ + 1, [] => .ok ⟨[], []⟩
  | fuel + 1, argument :: rest =>
      let cs := argument.toList
      if cs = ['-', '-'] then .ok ⟨[], rest⟩
      else if cs.head? = some '-' && 1 < cs.length then do
        let (given, rest) ← takeOption forms cs rest
        let later ← parse forms hasCommand fuel rest
        return { later with options := given ++ later.options }
      else if hasCommand then .ok ⟨[], argument :: rest⟩
      else do
        let later ← parse forms hasCommand fuel rest
        return { later with arguments := argument :: later.arguments }

end Command
end ContentSchema
