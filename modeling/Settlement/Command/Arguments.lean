
namespace Settlement.Command

structure Arguments where
  options : List (String × String) := []
  operands : List String := []
  deriving DecidableEq

namespace Arguments

def withOption (a : Arguments) (name value : String) : Arguments :=
  { a with options := (name, value) :: a.options }

def withOperand (a : Arguments) (word : String) : Arguments :=
  { a with operands := word :: a.operands }

def isOption (word : String) : Bool :=
  match word.toList with
  | '-' :: _ :: _ => true
  | _ => false

def splitOption (word : String) : String × Option String :=
  let cs := word.toList
  match cs.dropWhile (· != '=') with
  | _ :: value => (String.ofList (cs.takeWhile (· != '=')), some (String.ofList value))
  | [] => (word, none)

/-- The arguments, if all options are known and have a value. Whatever follows the name of an option
is its value. -/
def parse? (known : List String) : List String → Option Arguments
  | [] => some {}
  | word :: rest =>
    if word = "--" then some { operands := rest }
    else if ¬ isOption word then (parse? known rest).map (·.withOperand word)
    else
      match splitOption word with
      | (name, some value) =>
        if known.contains name then (parse? known rest).map (·.withOption name value) else none
      | (name, none) =>
        match rest with
        | value :: rest =>
          if known.contains name then (parse? known rest).map (·.withOption name value) else none
        | [] => none

def values (a : Arguments) (name : String) : List String :=
  (a.options.filter (·.1 == name)).map (·.2)

def value? (a : Arguments) (name : String) : Option String :=
  (a.values name).getLast?

end Arguments

end Settlement.Command
