import Mathlib.Data.List.Basic

namespace Conduit.Utils

def matchesPattern (pattern value : String) : Bool :=
  if pattern = "*" then true
  else if pattern.toList.getLast? = some '*' then
    pattern.toList.dropLast.isPrefixOf value.toList
  else pattern = value

def matchesAnyPattern (patterns : List String) (value : String) : Bool :=
  patterns.any fun pattern => matchesPattern pattern value

end Conduit.Utils
