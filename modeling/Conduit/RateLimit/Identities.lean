import Conduit.Foundation.Delimited
import Conduit.RateLimit.Occupancy
import Conduit.RateLimit.RedisLimiter

namespace Conduit.RateLimit

open Delimited

structure Caller where
  clientId : String
  serverId : String
  toolName : String
deriving DecidableEq, Repr

inductive Level where
  | global
  | client
  | server
  | tool
  | clientServerTool
deriving DecidableEq, Repr

variable {t t' : Caller} {l l' : Level} {check : RateLimitCheck}

namespace Level

def all : List Level := [.global, .client, .server, .tool, .clientServerTool]

def key : Level → Caller → String
  | .global, _ => "global"
  | .client, t => clientKey t.clientId
  | .server, t => serverKey t.serverId
  | .tool, t => toolKey t.serverId t.toolName
  | .clientServerTool, t => clientSpecificKey t.clientId t.serverId t.toolName

def label : Level → String
  | .global => "global"
  | .client => "client"
  | .server => "server"
  | .tool => "tool"
  | .clientServerTool => "client-server-tool"

-- the scope of a level that two callers have in common
def Common : Level → Caller → Caller → Prop
  | .global, _, _ => True
  | .client, t, t' => t.clientId = t'.clientId
  | .server, t, t' => t.serverId = t'.serverId
  | .tool, t, t' => t.serverId = t'.serverId ∧ t.toolName = t'.toolName
  | .clientServerTool, t, t' => t = t'

-- an id that holds a separator reads as the ids of another scope
def Confused : Level → Caller → Level → Caller → Prop
  | .client, t, .clientServerTool, t' =>
      t.clientId = joined "server" t'.clientId (joined "tool" t'.serverId t'.toolName)
  | .clientServerTool, t, .client, t' =>
      t'.clientId = joined "server" t.clientId (joined "tool" t.serverId t.toolName)
  | .server, t, .tool, t' => t.serverId = joined "tool" t'.serverId t'.toolName
  | .tool, t, .server, t' => t'.serverId = joined "tool" t.serverId t.toolName
  | .tool, t, .tool, t' => Shifted "tool" t.serverId t.toolName t'.serverId t'.toolName
  | .clientServerTool, t, .clientServerTool, t' =>
      t.clientId = t'.clientId ∧ Shifted "tool" t.serverId t.toolName t'.serverId t'.toolName ∨
        Shifted "server" t.clientId (joined "tool" t.serverId t.toolName)
          t'.clientId (joined "tool" t'.serverId t'.toolName)
  | _, _, _, _ => False

theorem joined_tool_inj {a b a' b' : String} :
    joined "tool" a b = joined "tool" a' b' ↔ a = a' ∧ b = b' ∨ Shifted "tool" a b a' b' :=
  joined_inj_iff (by decide)

theorem joined_server_inj {a b a' b' : String} :
    joined "server" a b = joined "server" a' b' ↔ a = a' ∧ b = b' ∨ Shifted "server" a b a' b' :=
  joined_inj_iff (by decide)

theorem toolKey_eq_joined (serverId toolName : String) :
    toolKey serverId toolName = "server:" ++ joined "tool" serverId toolName := by
  simp only [toolKey, serverKey, joined, String.append_assoc]
  rfl

theorem clientSpecificKey_eq_joined (clientId serverId toolName : String) :
    clientSpecificKey clientId serverId toolName =
      "client:" ++ joined "server" clientId (joined "tool" serverId toolName) := by
  simp only [clientSpecificKey, clientKey, joined, String.append_assoc]
  rfl

def initial : Level → Char
  | .global => 'g'
  | .client | .clientServerTool => 'c'
  | .server | .tool => 's'

theorem head_key (l : Level) (t : Caller) : (l.key t).toList.head? = some l.initial := by
  cases l <;> simp [key, initial, clientKey, serverKey, toolKey, clientSpecificKey]

theorem key_eq_iff : l.key t = l'.key t' ↔ l = l' ∧ l.Common t t' ∨ Confused l t l' t' := by
  by_cases hinitial : l.initial = l'.initial
  · cases l <;> cases l' <;> first | (cases hinitial; done) | skip
    · simp [key, Common]
    · simp [key, Common, Confused, clientKey]
    · simp [key, Confused, clientSpecificKey_eq_joined, clientKey]
    · simp [key, Common, Confused, serverKey]
    · simp [key, Confused, toolKey_eq_joined, serverKey]
    · simp [key, Confused, toolKey_eq_joined, serverKey, eq_comm]
    · simp [key, Common, Confused, toolKey_eq_joined, joined_tool_inj]
    · simp [key, Confused, clientSpecificKey_eq_joined, clientKey, eq_comm]
    · obtain ⟨clientId, serverId, toolName⟩ := t
      obtain ⟨clientId', serverId', toolName'⟩ := t'
      simp only [key, clientSpecificKey_eq_joined, String.append_right_inj, joined_server_inj,
        joined_tool_inj, Common, Confused, Caller.mk.injEq, true_and]
      rw [and_or_left, or_assoc]
  · constructor
    · intro h
      have hhead := head_key l t
      rw [h, head_key] at hhead
      exact absurd (Option.some.inj hhead).symm hinitial
    · rintro (⟨rfl, -⟩ | h)
      · exact absurd rfl hinitial
      · cases l <;> cases l' <;> first | exact absurd rfl hinitial | exact h.elim

theorem not_common_of_confused (h : Confused l t l' t') : ¬ (l = l' ∧ l.Common t t') := by
  rintro ⟨rfl, hcommon⟩
  cases l with
  | global | client | server => exact h
  | tool => exact h.ne hcommon.1
  | clientServerTool =>
      obtain rfl : t = t' := hcommon
      rcases h with ⟨-, h⟩ | h
      · exact h.ne rfl
      · exact h.ne rfl

end Level

def ToolRateLimitConfig.windows (limits : ToolRateLimitConfig) : List ℕ :=
  (limits.requestsPerMinute.map fun _ => msPerMinute).toList ++
    (limits.requestsPerHour.map fun _ => msPerHour).toList ++
    (limits.requestsPerDay.map fun _ => msPerDay).toList

theorem windows_eq (key label : String) (limits : ToolRateLimitConfig) :
    limits.windows = (buildChecks key limits label).map RateLimitCheck.windowMs := by
  cases hminute : limits.requestsPerMinute <;> cases hhour : limits.requestsPerHour <;>
    cases hday : limits.requestsPerDay <;>
    simp [ToolRateLimitConfig.windows, buildChecks, hminute, hhour, hday]

namespace RateLimiter

variable {R : RateLimiter}

def levelLimits (R : RateLimiter) : Level → Caller → Option ToolRateLimitConfig
  | .global, _ => R.config.global
  | .client, _ => R.config.perClient
  | .server, t => (R.override? t.serverId).map ServerRateLimitOverride.toToolRateLimitConfig
  | .tool, t =>
      if t.toolName = "" then none
      else (R.override? t.serverId).bind fun o => toolConfig? o t.toolName
  | .clientServerTool, t =>
      if t.toolName = "" then none
      else (R.override? t.serverId).map ServerRateLimitOverride.toToolRateLimitConfig

def levelChecks (R : RateLimiter) (l : Level) (t : Caller) : List RateLimitCheck :=
  buildOptionalChecks (l.key t) (R.levelLimits l t) l.label

theorem getChecks_eq (R : RateLimiter) (t : Caller) :
    R.getChecks t.clientId t.serverId t.toolName = Level.all.flatMap fun l => R.levelChecks l t := by
  simp only [Level.all, List.flatMap_cons, List.flatMap_nil, List.append_nil, getChecks,
    getClientChecks, List.append_assoc]
  simp only [levelChecks, Level.key, Level.label, levelLimits, getServerChecks]
  cases R.override? t.serverId with
  | none => simp [buildOptionalChecks]
  | some o =>
      by_cases htool : t.toolName = ""
      · simp [buildOptionalChecks, toolChecks, htool]
      · simp [buildOptionalChecks, toolChecks, htool]

-- the level is limited over the window for the caller
def Limits (R : RateLimiter) (l : Level) (t : Caller) (windowMs : ℕ) : Prop :=
  ∃ limits ∈ R.levelLimits l t, windowMs ∈ limits.windows

theorem key_of_mem_levelChecks (h : check ∈ R.levelChecks l t) : check.key = l.key t :=
  key_of_mem_buildOptionalChecks h

theorem limits_iff {windowMs : ℕ} :
    R.Limits l t windowMs ↔ ∃ check ∈ R.levelChecks l t, check.windowMs = windowMs := by
  rw [Limits, levelChecks]
  cases R.levelLimits l t with
  | none => simp [buildOptionalChecks]
  | some limits => simp [buildOptionalChecks, windows_eq (l.key t) l.label]

def Separated {B : Type} (bucket : RateLimitCheck → B) (R : RateLimiter) (t t' : Caller) : Prop :=
  ∀ l l', ∀ check ∈ R.levelChecks l t, ∀ check' ∈ R.levelChecks l' t',
    bucket check = bucket check' → l = l' ∧ l.Common t t'

-- where a check counts in memory, and in Redis
def memoryBucket (check : RateLimitCheck) : String :=
  SlidingWindowLimiter.storageKey check.key check.windowMs

def redisBucket (keyPrefix : String) (check : RateLimitCheck) : String := keyPrefix ++ check.key

theorem separated_memory_iff (R : RateLimiter) (t t' : Caller) :
    R.Separated memoryBucket t t' ↔
      ∀ l l' windowMs, R.Limits l t windowMs → R.Limits l' t' windowMs →
        ¬ Level.Confused l t l' t' := by
  constructor
  · intro h l l' windowMs hl hl' hconfused
    obtain ⟨check, hcheck, rfl⟩ := limits_iff.1 hl
    obtain ⟨check', hcheck', hwindow⟩ := limits_iff.1 hl'
    refine Level.not_common_of_confused hconfused (h l l' check hcheck check' hcheck' ?_)
    rw [memoryBucket, memoryBucket, SlidingWindowLimiter.storageKey_inj,
      key_of_mem_levelChecks hcheck, key_of_mem_levelChecks hcheck', Level.key_eq_iff]
    exact ⟨.inr hconfused, hwindow.symm⟩
  · intro h l l' check hcheck check' hcheck' hbucket
    rw [memoryBucket, memoryBucket, SlidingWindowLimiter.storageKey_inj,
      key_of_mem_levelChecks hcheck, key_of_mem_levelChecks hcheck', Level.key_eq_iff] at hbucket
    refine hbucket.1.resolve_right (h l l' check.windowMs ?_ ?_)
    · exact limits_iff.2 ⟨check, hcheck, rfl⟩
    · exact limits_iff.2 ⟨check', hcheck', hbucket.2.symm⟩

theorem separated_redis_iff (R : RateLimiter) (keyPrefix : String) (t t' : Caller) :
    R.Separated (redisBucket keyPrefix) t t' ↔
      ∀ l l' windowMs windowMs', R.Limits l t windowMs → R.Limits l' t' windowMs' →
        ¬ Level.Confused l t l' t' := by
  constructor
  · intro h l l' windowMs windowMs' hl hl' hconfused
    obtain ⟨check, hcheck, -⟩ := limits_iff.1 hl
    obtain ⟨check', hcheck', -⟩ := limits_iff.1 hl'
    refine Level.not_common_of_confused hconfused (h l l' check hcheck check' hcheck' ?_)
    rw [redisBucket, redisBucket, String.append_right_inj, key_of_mem_levelChecks hcheck,
      key_of_mem_levelChecks hcheck', Level.key_eq_iff]
    exact .inr hconfused
  · intro h l l' check hcheck check' hcheck' hbucket
    rw [redisBucket, redisBucket, String.append_right_inj, key_of_mem_levelChecks hcheck,
      key_of_mem_levelChecks hcheck', Level.key_eq_iff] at hbucket
    refine hbucket.resolve_right (h l l' check.windowMs check'.windowMs ?_ ?_)
    · exact limits_iff.2 ⟨check, hcheck, rfl⟩
    · exact limits_iff.2 ⟨check', hcheck', rfl⟩

end RateLimiter

end Conduit.RateLimit
