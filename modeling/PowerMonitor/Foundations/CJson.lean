import Mathlib.Data.Rat.Floor
import PowerMonitor.Foundations.CMemory

/-!
# Parsed JSON

The values `cJSON_Parse` returns, with the lookups and checks the firmware makes on them. Strings
are the bytes of their C string, numbers are the rational a double stands for, and an object keeps
its members in order: `item` finds the first member of a name, as
`cJSON_GetObjectItemCaseSensitive` does. The parser and the printer are given
functions (`Parser`, `Printer`).
-/

namespace PowerMonitor.CJson

open CMemory

/-- A parsed JSON value. -/
inductive Json
  | null
  | bool (value : Bool)
  | number (value : ℚ)
  | string (text : List UInt8)
  | array (items : List Json)
  | object (members : List (List UInt8 × Json))

/-- `cJSON_ParseWithLength`: the value of a text, if it is JSON. -/
class Parser where
  parse : List UInt8 → Option Json

/-- `cJSON_PrintUnformatted`: the text of a value, unless memory runs out. -/
class Printer where
  printUnformatted : Json → Option (List UInt8)

export Printer (printUnformatted)

/-- The double nearest to an unsigned 64-bit integer, ties going to the even one. -/
def doubleOfU64 (n : ℕ) : ℚ :=
  if n < 2 ^ 53 then n
  else
    let unit := 2 ^ (Nat.log2 n - 52)
    let down := n / unit
    let up := if unit < 2 * (n % unit) ∨ unit = 2 * (n % unit) ∧ down % 2 = 1 then down + 1 else down
    (up * unit : ℕ)

theorem doubleOfU64_of_lt {n : ℕ} (h : n < 2 ^ 53) : doubleOfU64 n = n := if_pos h

/-- The bytes of an ASCII text. -/
def ascii (text : String) : List UInt8 := text.toUTF8.toList

namespace Json

/-- `cJSON_GetObjectItemCaseSensitive`. -/
def item (j : Json) (name : String) : Option Json :=
  match j with
  | object members => (members.find? fun m => m.1 = ascii name).map Prod.snd
  | _ => none

/-- `cJSON_IsString`, with the text. -/
def text? : Json → Option (List UInt8)
  | string t => some t
  | _ => none

/-- `cJSON_IsNumber`, with the value. -/
def number? : Json → Option ℚ
  | number v => some v
  | _ => none

/-- The items of an array. -/
def items? : Json → Option (List Json)
  | array items => some items
  | _ => none

/-- `cJSON_IsObject`. -/
def isObject : Json → Bool
  | object _ => true
  | _ => false

/-- The string member of a name, if there is one. -/
def textItem (j : Json) (name : String) : Option (List UInt8) := (j.item name).bind text?

/-- `copy_json_string`: the buffer after the copy, or `none` when the member is missing though
required, not a string, or too long. -/
def copyString {n : ℕ} (j : Json) (name : String) (destination : Bytes (n + 1)) (required : Bool) :
    Option (Bytes (n + 1)) :=
  match j.item name with
  | none => if required then none else some destination
  | some (string t) => if n < t.length then none else some (destination.print t)
  | some _ => none

/-- `get_u32`: the truncated number, or `none` when the member is missing though required, not a
number, or out of range. -/
def getU32 (j : Json) (name : String) (destination : ℕ) (required : Bool) : Option ℕ :=
  match j.item name with
  | none => if required then none else some destination
  | some (number v) => if v < 0 ∨ 4294967295 < v then none else some ⌊v⌋.toNat
  | some _ => none

end Json

end PowerMonitor.CJson
