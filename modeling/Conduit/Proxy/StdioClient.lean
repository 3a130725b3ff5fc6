import Conduit.Foundation.OrderedMap
import Conduit.Proxy.JsonRpc

namespace Conduit.Proxy

def defaultRequestTimeoutMs : ℕ := 30000

def startsWith (text lead : String) : Bool := lead.toList.isPrefixOf text.toList

def isMcpNotification (body : Json) : Bool :=
  isJsonRpcNotification body &&
    (match method? body with
      | some method => startsWith method "notifications/"
      | none => false)

-- a number that JSON cannot write is sent as null
def wireId : RpcId → Json
  | .str s => .str s
  | .num (.finite d) => .num (.finite d)
  | .num .posInfinity => .null
  | .num .negInfinity => .null

theorem wireId_inj {i j : RpcId} (h : wireId i = wireId j) (hnull : wireId i ≠ .null) : i = j := by
  cases i with
  | str s =>
      cases j with
      | str t => simpa [wireId] using h
      | num n => cases n <;> simp [wireId] at h
  | num n =>
      cases j with
      | str t => cases n <;> simp [wireId] at h
      | num m => cases n <;> cases m <;> simp_all [wireId]

theorem rpcId?_wireId {i : RpcId} (hnull : wireId i ≠ .null) : rpcId? (wireId i) = some i := by
  cases i with
  | str s => rfl
  | num n => cases n <;> simp_all [wireId, rpcId?]

theorem wireId_of_rpcId? {id : Json} {i : RpcId} (h : rpcId? id = some i) (hwire : ∃ j, wireId j = id) :
    wireId i = id := by
  obtain ⟨j, rfl⟩ := hwire
  rcases eq_or_ne (wireId j) .null with hnull | hnull
  · simp [hnull, rpcId?] at h
  · rw [rpcId?_wireId hnull] at h
    rw [Option.some.inj h]

-- the entries of `pending` hold the resolve, reject and timer of a call
structure StdioMcpClient where
  pending : OrderedMap RpcId ℕ
  nextId : ℕ

namespace StdioMcpClient

def init : StdioMcpClient where
  pending := .empty
  nextId := 1

variable (C : StdioMcpClient)

def requestId (message : Json) : RpcId × ℕ :=
  match rpcId? (messageId message) with
  | some id => (id, C.nextId)
  | none => (.num (.finite (.ofNat C.nextId)), C.nextId + 1)

def outgoing (message : Json) (id : RpcId) : Json :=
  .obj (Json.setField message.spread "id" (wireId id))

def register (message : Json) (call : ℕ) : StdioMcpClient :=
  { pending := C.pending.set (C.requestId message).1 call
    nextId := (C.requestId message).2 }

def remove (id : RpcId) : StdioMcpClient := { C with pending := C.pending.delete id }

-- the pending entry a parsed stdout line resolves
def correlate (parsed : Json) : Option (RpcId × ℕ) :=
  match parsed.get? "id" with
  | none => none
  | some id => (rpcId? id).bind fun key => (C.pending.get? key).map fun call => (key, call)

theorem correlate_eq_some {parsed : Json} {key : RpcId} {call : ℕ} :
    C.correlate parsed = some (key, call) ↔
      (∃ id, parsed.get? "id" = some id ∧ rpcId? id = some key) ∧
        C.pending.get? key = some call := by
  unfold correlate
  cases parsed.get? "id" with
  | none => simp
  | some id =>
      cases hkey : rpcId? id with
      | none => simp [hkey]
      | some key' =>
          simp only [hkey, Option.bind_some, Option.map_eq_some_iff, Prod.mk.injEq,
            Option.some.injEq, exists_eq_left', exists_eq_right_right]
          constructor
          · rintro ⟨hcall, rfl⟩
            exact ⟨rfl, hcall⟩
          · rintro ⟨rfl, hcall⟩
            exact ⟨hcall, rfl⟩

end StdioMcpClient

end Conduit.Proxy
