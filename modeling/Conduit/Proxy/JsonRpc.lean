import Conduit.Foundation.Json

namespace Conduit.Proxy

def parseError : ℤ := -32700

def invalidRequest : ℤ := -32600

def methodNotFound : ℤ := -32601

def internalError : ℤ := -32603

def maxBatchSize : ℕ := 100

def ofInt (n : ℤ) : Json :=
  match n with
  | .ofNat k => .ofNat k
  | .negSucc k => .num (.finite (-(Decimal.ofNat (k + 1))))

inductive RpcId where
  | str (s : String)
  | num (n : JsNumber)
deriving DecidableEq

def rpcId? : Json → Option RpcId
  | .str s => some (.str s)
  | .num n => some (.num n)
  | _ => none

def RpcId.toJson : RpcId → Json
  | .str s => .str s
  | .num n => .num n

def isObject : Json → Bool
  | .obj _ => true
  | .arr _ => true
  | _ => false

def isValidJsonRpc (value : Json) : Bool :=
  isObject value && value.get? "jsonrpc" == some (.str "2.0") &&
    (((value.get? "method").bind Json.asString?).isSome || value.has "result" || value.has "error")

def isJsonRpcNotification (body : Json) : Bool :=
  body.get? "jsonrpc" == some (.str "2.0") && ((body.get? "method").bind Json.asString?).isSome &&
    !body.has "id" && !body.has "result" && !body.has "error"

def messageId (message : Json) : Json := (message.get? "id").getD .null

def method? (message : Json) : Option String := (message.get? "method").bind Json.asString?

def buildJsonRpcResult (id : Json) (result : Json) : Json :=
  .obj [("jsonrpc", .str "2.0"), ("id", id), ("result", result)]

def buildJsonRpcError (id : Json) (code : ℤ) (message : String) (data : Option Json) : Json :=
  .obj [("jsonrpc", .str "2.0"), ("id", id),
    ("error", .obj ([("code", ofInt code), ("message", .str message)] ++
      (data.map fun d => ("data", d)).toList))]

-- the params object of a message, when it is truthy
def params? (message : Json) : Option Json := (message.get? "params").filter Json.truthy

def extractToolName (message : Json) : Option String :=
  (params? message).bind fun params => (params.get? "name").bind Json.asString?

def plainObject? : Json → Option (List (String × Json))
  | .obj fields => some fields
  | _ => none

def extractToolArgs (message : Json) : List (String × Json) :=
  match params? message with
  | none => []
  | some params => ((params.get? "arguments").bind plainObject?).getD []

end Conduit.Proxy
