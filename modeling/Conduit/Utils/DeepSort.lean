import Conduit.Foundation.JsonText

namespace Conduit.Utils

-- assigning to this key sets the prototype and creates no own property
def protoKey : String := "__proto__"

def assignable (fields : List (String × Json)) : List (String × Json) :=
  fields.filter fun e => e.1 ≠ protoKey

mutual

def deepSort : Json → Json
  | .arr items => .arr (deepSortItems items)
  | .obj fields => .obj (Json.propertyOrder (assignable (Json.sortByKey (deepSortFields fields))))
  | v => v

def deepSortItems : List Json → List Json
  | [] => []
  | v :: rest => deepSort v :: deepSortItems rest

def deepSortFields : List (String × Json) → List (String × Json)
  | [] => []
  | (k, v) :: rest => (k, deepSort v) :: deepSortFields rest

end

def deterministicStringify (value : Json) : String := (deepSort value).stringify

end Conduit.Utils
