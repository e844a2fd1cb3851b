/-
JSON values and their text.

`Value` is `serde_json::Value`.  The workspace builds serde_json without
`preserve_order`, so an object is a `BTreeMap`: its entries come in the order of their
keys.  `Value.json` is the compact form `serde_json::to_string` writes.  The digits of
floating point numbers come from the `ryu` crate and are a parameter, with what its
documentation says of them as fields.
-/
import LlmGateway.Rust

namespace LlmGateway

/-- `serde_json::Number`; a `NegInt` is always less than zero. -/
inductive Number
  | posInt (n : UInt64)
  | negInt (n : Int64) (neg : n < 0)
  | float (bits : UInt64)
  deriving DecidableEq, Repr

/-- `serde_json::Value`. -/
inductive Value
  | null
  | bool (b : Bool)
  | number (n : Number)
  | string (s : String)
  | array (elems : List Value)
  | object (entries : List (String × Value))
  deriving Repr

/-- `Number::as_u64`. -/
def Number.asU64 : Number → Option Nat
  | .posInt n => some n.toNat
  | _ => none

/-- `==` of two numbers: of the same kind, and as integers or as `f64`. -/
def Number.beq : Number → Number → Bool
  | .posInt n, .posInt n' => n == n'
  | .negInt n _, .negInt n' _ => n == n'
  | .float bits, .float bits' => f64Beq bits bits'
  | _, _ => false

namespace Value

/-- `Value::get` with a string index. -/
def get (v : Value) (key : String) : Option Value :=
  match v with
  | .object entries => (entries.find? fun e => e.1 = key).map (·.2)
  | _ => none

/-- `Value::as_u64`. -/
def asU64 : Value → Option Nat
  | .number n => n.asU64
  | _ => none

/-- `Value::as_array`. -/
def asArray : Value → Option (List Value)
  | .array l => some l
  | _ => none

/-- `Value::as_str`. -/
def asStr : Value → Option String
  | .string s => some s
  | _ => none

mutual
/-- `==` of two values. -/
def beq : Value → Value → Bool
  | .null, .null => true
  | .bool b, .bool b' => b == b'
  | .number n, .number n' => n.beq n'
  | .string s, .string s' => s == s'
  | .array elems, .array elems' => beqs elems elems'
  | .object entries, .object entries' => entryBeqs entries entries'
  | _, _ => false

/-- `==` of two arrays. -/
def beqs : List Value → List Value → Bool
  | [], [] => true
  | v :: vs, v' :: vs' => beq v v' && beqs vs vs'
  | _, _ => false

/-- `==` of two objects, entry by entry in the order of their keys. -/
def entryBeqs : List (String × Value) → List (String × Value) → Bool
  | [], [] => true
  | (k, v) :: es, (k', v') :: es' => k == k' && beq v v' && entryBeqs es es'
  | _, _ => false
end

end Value

/-! ### Text -/

/-- The `ryu` printer: the shortest decimal that reads back, as ASCII digits with a sign,
a point and an exponent.  Zero is printed with its sign. -/
structure Ryu where
  f32 : F32 → List Char
  f64 : UInt64 → List Char
  f32_chars : ∀ x, ∀ c ∈ f32 x, c ∈ "0123456789.-+e".toList
  f64_chars : ∀ x, ∀ c ∈ f64 x, c ∈ "0123456789.-+e".toList
  f32_zero : f32 ⟨0⟩ = "0.0".toList
  f32_negZero : f32 ⟨0x80000000⟩ = "-0.0".toList
  f64_zero : f64 0 = "0.0".toList
  f64_negZero : f64 0x8000000000000000 = "-0.0".toList

/-- How one character of a string is written between the quotes. -/
def escapeChar (c : Char) : List Char :=
  if c = '"' then ['\\', '"']
  else if c = '\\' then ['\\', '\\']
  else if c = '\x08' then ['\\', 'b']
  else if c = '\x0c' then ['\\', 'f']
  else if c = '\n' then ['\\', 'n']
  else if c = '\r' then ['\\', 'r']
  else if c = '\t' then ['\\', 't']
  else if c.toNat < 0x20 then
    ['\\', 'u', '0', '0', Nat.digitChar (c.toNat / 16), Nat.digitChar (c.toNat % 16)]
  else [c]

/-- A string in quotes, escaped. -/
def quote (s : String) : List Char := '"' :: (s.toList.flatMap escapeChar ++ ['"'])

/-- A decimal integer. -/
def intText (n : Int) : List Char :=
  if n < 0 then '-' :: Nat.toDigits 10 n.natAbs else Nat.toDigits 10 n.natAbs

/-- `true` or `false`. -/
def boolText (b : Bool) : List Char := if b then "true".toList else "false".toList

/-- Texts separated by commas. -/
def commaSep : List (List Char) → List Char
  | [] => []
  | t :: ts => t ++ ts.flatMap fun u => ',' :: u

/-- An array of texts. -/
def arrayText (elems : List (List Char)) : List Char := '[' :: (commaSep elems ++ [']'])

/-- One member of an object. -/
def memberText (key : String) (value : List Char) : List Char := quote key ++ ':' :: value

/-- An object of members. -/
def objectText (members : List (String × List Char)) : List Char :=
  '{' :: (commaSep (members.map fun m => memberText m.1 m.2) ++ ['}'])

/-- `serde_json::to_string` of a number. -/
def Number.json (ryu : Ryu) : Number → List Char
  | .posInt n => Nat.toDigits 10 n.toNat
  | .negInt n _ => intText n.toInt
  | .float bits => ryu.f64 bits

namespace Value

mutual
/-- `serde_json::to_string` of a value. -/
def json (ryu : Ryu) : Value → List Char
  | .null => "null".toList
  | .bool b => boolText b
  | .number n => n.json ryu
  | .string s => quote s
  | .array elems => arrayText (jsons ryu elems)
  | .object entries => objectText (entryJsons ryu entries)

/-- The texts of the elements of an array. -/
def jsons (ryu : Ryu) : List Value → List (List Char)
  | [] => []
  | v :: vs => json ryu v :: jsons ryu vs

/-- The members of an object. -/
def entryJsons (ryu : Ryu) : List (String × Value) → List (String × List Char)
  | [] => []
  | (k, v) :: es => (k, json ryu v) :: entryJsons ryu es
end

end Value

end LlmGateway
