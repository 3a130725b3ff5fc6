import Conduit.Foundation.Json
import Mathlib.Data.List.Sort

namespace Decimal

def zeros (n : ℕ) : String := String.ofList (List.replicate n '0')

def signed (n : ℤ) : String := if n < 0 then "-" ++ toString n.natAbs else "+" ++ toString n.natAbs

def scientific (digits : String) (exponent : ℤ) : String :=
  let fraction := digits.toList.drop 1
  String.ofList (digits.toList.take 1) ++
    (if fraction = [] then "" else "." ++ String.ofList fraction) ++ "e" ++ signed exponent

-- Number::toString in radix 10
def toText (d : Decimal) : String :=
  let digits := toString d.mantissa.natAbs
  let k : ℤ := digits.length
  let n := k + d.exponent
  let magnitude :=
    if k ≤ n ∧ n ≤ 21 then digits ++ zeros (n - k).toNat
    else if 0 < n ∧ n ≤ 21 then
      String.ofList (digits.toList.take n.toNat) ++ "." ++ String.ofList (digits.toList.drop n.toNat)
    else if -6 < n ∧ n ≤ 0 then "0." ++ zeros (-n).toNat ++ digits
    else scientific digits (n - 1)
  if d.mantissa < 0 then "-" ++ magnitude else magnitude

end Decimal

namespace Json

def hexDigit (n : ℕ) : Char := if n < 10 then Char.ofNat (48 + n) else Char.ofNat (87 + n)

def escapeChar (c : Char) : List Char :=
  if c = '"' then ['\\', '"']
  else if c = '\\' then ['\\', '\\']
  else if c.toNat = 8 then ['\\', 'b']
  else if c.toNat = 9 then ['\\', 't']
  else if c.toNat = 10 then ['\\', 'n']
  else if c.toNat = 12 then ['\\', 'f']
  else if c.toNat = 13 then ['\\', 'r']
  else if c.toNat < 32 then ['\\', 'u', '0', '0', hexDigit (c.toNat / 16), hexDigit (c.toNat % 16)]
  else [c]

def quote (s : String) : String := "\"" ++ String.ofList (s.toList.flatMap escapeChar) ++ "\""

mutual

def stringify : Json → String
  | .null => "null"
  | .bool b => if b then "true" else "false"
  | .num (.finite d) => d.toText
  | .num .posInfinity => "null"
  | .num .negInfinity => "null"
  | .str s => quote s
  | .arr items => "[" ++ ",".intercalate (stringifyItems items) ++ "]"
  | .obj fields => "\x7b" ++ ",".intercalate (stringifyFields fields) ++ "\x7d"

def stringifyItems : List Json → List String
  | [] => []
  | v :: rest => stringify v :: stringifyItems rest

def stringifyFields : List (String × Json) → List String
  | [] => []
  | (k, v) :: rest => (quote k ++ ":" ++ stringify v) :: stringifyFields rest

end

-- a line break and two blanks for each level
def lineBreak (level : ℕ) : String := String.ofList ('\n' :: List.replicate (2 * level) ' ')

mutual

-- JSON.stringify(value, null, 2)
def indent (level : ℕ) : Json → String
  | .arr [] => "[]"
  | .arr items =>
      "[" ++ lineBreak (level + 1) ++
        (("," ++ lineBreak (level + 1)).intercalate (indentItems (level + 1) items)) ++
          lineBreak level ++ "]"
  | .obj [] => "\x7b\x7d"
  | .obj fields =>
      "\x7b" ++ lineBreak (level + 1) ++
        (("," ++ lineBreak (level + 1)).intercalate (indentFields (level + 1) fields)) ++
          lineBreak level ++ "\x7d"
  | value => stringify value

def indentItems (level : ℕ) : List Json → List String
  | [] => []
  | v :: rest => indent level v :: indentItems level rest

def indentFields (level : ℕ) : List (String × Json) → List String
  | [] => []
  | (k, v) :: rest => (quote k ++ ": " ++ indent level v) :: indentFields level rest

end

def fromEntries (entries : List (String × Json)) : Json :=
  .obj (entries.foldl (fun fields e => setField fields e.1 e.2) [])

mutual

-- String(value)
def toJsString : Json → String
  | .null => "null"
  | .bool b => if b then "true" else "false"
  | .num (.finite d) => d.toText
  | .num .posInfinity => "Infinity"
  | .num .negInfinity => "-Infinity"
  | .str s => s
  | .arr items => ",".intercalate (toJsStrings items)
  | .obj _ => "[object Object]"

def toJsStrings : List Json → List String
  | [] => []
  | .null :: rest => "" :: toJsStrings rest
  | v :: rest => toJsString v :: toJsStrings rest

end

def utf16 (c : Char) : List ℕ :=
  if c.toNat < 0x10000 then [c.toNat]
  else [0xd800 + (c.toNat - 0x10000) / 0x400, 0xdc00 + (c.toNat - 0x10000) % 0x400]

def codeUnits (s : String) : List ℕ := s.toList.flatMap utf16

def unitsLe : List ℕ → List ℕ → Bool
  | [], _ => true
  | _ :: _, [] => false
  | a :: as, b :: bs => if a = b then unitsLe as bs else a < b

def decimal? : List Char → Option ℕ
  | [] => none
  | c :: rest =>
      rest.foldl (fun acc c => acc.bind fun n => (digit? c).map fun d => 10 * n + d) (digit? c)
where
  digit? (c : Char) : Option ℕ := if c.isDigit then some (c.toNat - 48) else none

def arrayIndex? (key : String) : Option ℕ :=
  (decimal? key.toList).filter fun n => toString n = key ∧ n < 4294967295

section Order

variable {ν : Type*}

-- Object.keys(..).sort() compares code units
def sortByKey (fields : List (String × ν)) : List (String × ν) :=
  fields.insertionSort fun a b => unitsLe (codeUnits a.1) (codeUnits b.1) = true

-- own properties are enumerated with the array indices first, in ascending order
def propertyOrder (fields : List (String × ν)) : List (String × ν) :=
  (fields.filter fun e => (arrayIndex? e.1).isSome).insertionSort
      (fun a b => (arrayIndex? a.1).getD 0 ≤ (arrayIndex? b.1).getD 0) ++
    fields.filter fun e => (arrayIndex? e.1).isNone

end Order

end Json
