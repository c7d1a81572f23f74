import SqlMapping.Data.Keyed
import SqlMapping.Error
import SqlMapping.Text.Ascii
import SqlMapping.Text.Numeral

/-!
# Function forms

How a registered function writes its arguments. In a template, `?` followed by digits is a place for
the argument of that number, counted from 1; a `?` without digits stands for itself.
-/

namespace SqlMapping

inductive FunctionForm where
  | standard (name : String)
  | noArguments (name : String) (parens : Bool)
  | template (text : String)
  | variadic (before separator after : String)
  deriving DecidableEq

inductive TemplatePart where
  | char (c : Char)
  | slot (digits : List Char)
  deriving DecidableEq

def greatestIndex : Nat := UInt64.size - 1

namespace TemplatePart

def ofMark (digits : List Char) : TemplatePart := if digits.isEmpty then .char '?' else .slot digits

/-- Splits the rest of a template; `open?` holds the digits read since an unfinished `?`. -/
def split : Option (List Char) → List Char → List TemplatePart
  | none, [] => []
  | some ds, [] => [ofMark ds]
  | none, c :: cs => if c = '?' then split (some []) cs else .char c :: split none cs
  | some ds, c :: cs =>
    if c.isDigit then split (some (ds ++ [c])) cs
    else if c = '?' then ofMark ds :: split (some []) cs
    else ofMark ds :: .char c :: split none cs

def fill (template : String) (args : List String) : TemplatePart → Except Error String
  | .char c => .ok c.toString
  | .slot digits =>
    let index := natOfDigits digits
    if greatestIndex < index then .error (.invalidArgument (.placeholderTooLarge (String.ofList digits)))
    else if index = 0 then .error (.invalidArgument (.missingArgument template index args.length))
    else match args[index - 1]? with
      | some arg => .ok arg
      | none => .error (.invalidArgument (.missingArgument template index args.length))

def fillAll (template : String) (args : List String) : List TemplatePart → Except Error String
  | [] => .ok ""
  | p :: ps =>
    match fill template args p with
    | .error e => .error e
    | .ok text =>
      match fillAll template args ps with
      | .error e => .error e
      | .ok rest => .ok (text ++ rest)

end TemplatePart

namespace FunctionForm

def apply (form : FunctionForm) (args : List String) : Except Error String :=
  match form with
  | .standard name => .ok (name ++ "(" ++ ", ".intercalate args ++ ")")
  | .noArguments name parens =>
    if args.isEmpty then .ok (if parens then name ++ "()" else name)
    else .error (.invalidArgument (.takesNoArguments name args.length))
  | .template text => TemplatePart.fillAll text args (TemplatePart.split none text.toList)
  | .variadic before separator after => .ok (before ++ separator.intercalate args ++ after)

end FunctionForm

abbrev Functions := Keyed String FunctionForm

namespace Functions

def register (fs : Functions) (name : String) (form : FunctionForm) : Functions :=
  fs.insert (foldCase name) form

def function? (fs : Functions) (name : String) : Option FunctionForm := fs.find? (foldCase name)

end Functions

end SqlMapping
