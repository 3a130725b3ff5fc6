import Conduit.Auth.Authenticator
import Conduit.Foundation.Text

namespace Conduit.Observability

def traceHeader : String := "X-Conduit-Trace-Id"

def isLowerHex (c : Char) : Bool := c.isDigit || ('a' ≤ c && c ≤ 'f')

def slice (chars : List Char) (start stop : ℕ) : List Char := (chars.take stop).drop start

structure TraceparentInfo where
  version : List Char
  traceId : List Char
  parentId : List Char
  flags : List Char

namespace TraceparentInfo

variable (info : TraceparentInfo)

def fields : List (List Char) := [info.version, info.traceId, info.parentId, info.flags]

end TraceparentInfo

def parseTraceparent (header : String) : Option TraceparentInfo :=
  let chars := (Text.trim header).toList
  let info : TraceparentInfo :=
    ⟨slice chars 0 2, slice chars 3 35, slice chars 36 52, slice chars 53 55⟩
  if chars.length = 55 ∧ [2, 35, 52].all (fun i => chars[i]? = some '-') ∧
      info.fields.all (·.all isLowerHex) then
    some info
  else none

def uuidLike (traceId : List Char) : String :=
  "-".intercalate
    ([slice traceId 0 8, slice traceId 8 12, slice traceId 12 16, slice traceId 16 20,
      traceId.drop 20].map String.ofList)

def customTraceId (headers : Auth.Headers) : Option String :=
  ((headers.get? "x-conduit-trace-id").map Text.trim).filter (· ≠ "")

def resolveTraceId (headers : Auth.Headers) (generated : String) : String :=
  match (headers.get? "traceparent").bind parseTraceparent with
  | some info => uuidLike info.traceId
  | none => (customTraceId headers).getD generated

end Conduit.Observability
