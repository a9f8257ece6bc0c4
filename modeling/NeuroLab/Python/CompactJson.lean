import Mathlib.Data.List.Sort
import NeuroLab.Python.Reordered

/-!
# Compact JSON with sorted keys

`json.dumps(value, ensure_ascii=False, sort_keys=True, separators=(",", ":"))`: the members
of every object in the order of their keys, and no space behind a separator.
-/

namespace NeuroLab.Python

/-- Code point order, in which Python compares texts. -/
def lexLe : Str → Str → Bool
  | [], _ => true
  | _ :: _, [] => false
  | c :: s, d :: t => decide (c < d) || (decide (c = d) && lexLe s t)

/-- Members in the order of their keys. -/
def sortMembers (fields : List (Str × Json)) : List (Str × Json) :=
  fields.insertionSort fun f g => lexLe f.1 g.1 = true

mutual

/-- A value with the members of its objects sorted. -/
def sortKeys : Json → Json
  | .arr vs => .arr (sortKeysItems vs)
  | .obj fs => .obj (sortMembers (sortKeysFields fs))
  | v => v

/-- Item by item. -/
def sortKeysItems : List Json → List Json
  | [] => []
  | v :: vs => sortKeys v :: sortKeysItems vs

/-- Member by member. -/
def sortKeysFields : List (Str × Json) → List (Str × Json)
  | [] => []
  | (k, v) :: fs => (k, sortKeys v) :: sortKeysFields fs

end

mutual

/-- A value without spaces behind its separators. -/
def compact (floatRepr : PyFloat → Str) : Json → Str
  | .null => lit "null"
  | .bool true => lit "true"
  | .bool false => lit "false"
  | .int n => decimalInt n
  | .float x => floatRepr x
  | .str s => dumpsStr s
  | .arr [] => [0x5B, 0x5D]
  | .arr (v :: vs) => 0x5B :: compact floatRepr v ++ compactItems floatRepr vs
  | .obj [] => [0x7B, 0x7D]
  | .obj ((k, v) :: fs) => 0x7B :: dumpsStr k ++ 0x3A :: compact floatRepr v ++ compactFields floatRepr fs

/-- The items after the first one, and the closing bracket. -/
def compactItems (floatRepr : PyFloat → Str) : List Json → Str
  | [] => [0x5D]
  | v :: vs => 0x2C :: compact floatRepr v ++ compactItems floatRepr vs

/-- The members after the first one, and the closing brace. -/
def compactFields (floatRepr : PyFloat → Str) : List (Str × Json) → Str
  | [] => [0x7D]
  | (k, v) :: fs => 0x2C :: dumpsStr k ++ 0x3A :: compact floatRepr v ++ compactFields floatRepr fs

end

/-- `json.dumps(value, ensure_ascii=False, sort_keys=True, separators=(",", ":"))`. -/
def dumpsSorted (floatRepr : PyFloat → Str) (v : Json) : Str := compact floatRepr (sortKeys v)

example : dumpsSorted (fun _ => []) (.obj [(lit "b", .arr [.int 1, .null]), (lit "a", .str (lit "x"))]) =
    lit "\x7b\"a\":\"x\",\"b\":[1,null]\x7d" := by
  decide +kernel

end NeuroLab.Python
