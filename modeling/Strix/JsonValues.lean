import Strix.RustText

/-!
# JSON values

Trees as `serde_json` hands them to the program, with the accessors
`as_object`, `as_str`, `as_bool` and `as_f64`, and `str::parse::<f64>`, which
conditions apply to texts.  Floating-point numbers are `Float`.
-/

namespace Strix

/-- `serde_json::Number`. -/
inductive Number
  | posInt (n : Nat)
  | negInt (n : Int)
  | float (f : Float)

/-- `serde_json::Value`. -/
inductive Value
  | null
  | bool (b : Bool)
  | number (n : Number)
  | string (s : String)
  | array (items : List Value)
  | object (entries : List (String × Value))

namespace Value

def asObject : Value → Option (List (String × Value))
  | object entries => some entries
  | _ => none

def asStr : Value → Option String
  | string s => some s
  | _ => none

def asBool : Value → Option Bool
  | bool b => some b
  | _ => none

def asF64 : Value → Option Float
  | number (.posInt n) => some (Float.ofNat n)
  | number (.negInt n) => some (Float.ofInt n)
  | number (.float f) => some f
  | _ => none

end Value

/-- The decimal exponent that a text consists of, zero if it is empty. -/
def parseExponent : List Char → Option Int
  | [] => some 0
  | c :: cs =>
    if c = 'e' ∨ c = 'E' then
      let (negative, cs) :=
        match cs with
        | '-' :: rest => (true, rest)
        | '+' :: rest => (false, rest)
        | cs => (false, cs)
      match readDigits 10 cs with
      | ([], _) => none
      | (digits, []) => some (if negative then -ofDigits 10 digits else ofDigits 10 digits)
      | _ => none
    else none

/-- An unsigned decimal number with optional fraction and exponent. -/
def parseDecimal (cs : List Char) : Option Float :=
  let (whole, rest) := readDigits 10 cs
  let (fraction, rest) :=
    match rest with
    | '.' :: rest => readDigits 10 rest
    | rest => ([], rest)
  if whole.isEmpty && fraction.isEmpty then none
  else
    (parseExponent rest).map fun (exponent : Int) =>
      let scale : Int := exponent - fraction.length
      Float.ofScientific (ofDigits 10 (whole ++ fraction)) (scale < 0) scale.natAbs

/-- `str::parse::<f64>`. -/
def parseF64 (text : String) : Option Float :=
  let (negative, cs) :=
    match text.toList with
    | '-' :: rest => (true, rest)
    | '+' :: rest => (false, rest)
    | cs => (false, cs)
  let magnitude :=
    match String.ofList (cs.map Char.toLower) with
    | "inf" => some (1.0 / 0.0)
    | "infinity" => some (1.0 / 0.0)
    | "nan" => some (0.0 / 0.0)
    | _ => parseDecimal cs
  magnitude.map fun value => if negative then -value else value

end Strix
