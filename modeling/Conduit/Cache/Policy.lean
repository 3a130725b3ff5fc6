import Conduit.Config.Types

namespace Conduit.Cache

structure CachePolicyDecision where
  shouldCache : Bool
  ttl : Option ℤ := none
  isDestructive : Bool
  invalidates : List String
  ignoreArgs : List String
deriving DecidableEq, Repr

def readOnlyTtl : ℤ := 300

def idempotentTtl : ℤ := 120

def openWorldTtl : ℤ := 30

def applyConfigOverride (override : ToolOverrideConfig) (serverDefaultTtl : ℤ) :
    CachePolicyDecision :=
  let ttl := override.ttl.getD serverDefaultTtl
  let invalidates := override.invalidates.getD []
  let ignoreArgs := override.ignoreArgs.getD []
  if 0 < ttl then
    { shouldCache := true
      ttl := some ttl
      isDestructive := false
      invalidates := invalidates
      ignoreArgs := ignoreArgs }
  else
    { shouldCache := false
      isDestructive := invalidates ≠ []
      invalidates := invalidates
      ignoreArgs := ignoreArgs }

def cachedFor (ttl : ℤ) : CachePolicyDecision where
  shouldCache := true
  ttl := some ttl
  isDestructive := false
  invalidates := []
  ignoreArgs := []

def notCached (destructive : Bool) : CachePolicyDecision where
  shouldCache := false
  isDestructive := destructive
  invalidates := []
  ignoreArgs := []

-- the properties every object inherits, which a lookup by name also finds
def inheritedKeys : List String :=
  ["constructor", "toString", "toLocaleString", "valueOf", "hasOwnProperty", "isPrototypeOf",
    "propertyIsEnumerable", "__proto__", "__defineGetter__", "__defineSetter__",
    "__lookupGetter__", "__lookupSetter__"]

def toolOverride (config : ServerCacheConfig) (toolName : String) : Option ToolOverrideConfig :=
  match config.overrides with
  | none => none
  | some overrides =>
      match overrides.get? toolName with
      | some override => some override
      | none => if toolName ∈ inheritedKeys then some {} else none

def decideCachePolicy (toolName : String) (annotations : ToolAnnotations)
    (serverCacheConfig : ServerCacheConfig) : CachePolicyDecision :=
  let defaultTtl := serverCacheConfig.defaultTtl
  match toolOverride serverCacheConfig toolName with
  | some override => applyConfigOverride override defaultTtl
  | none =>
      if annotations.destructiveHint = some true then notCached true
      else if annotations.readOnlyHint = some true then
        cachedFor (if 0 < defaultTtl then defaultTtl else readOnlyTtl)
      else if annotations.idempotentHint = some true then
        cachedFor (min (if 0 < defaultTtl then defaultTtl else idempotentTtl) idempotentTtl)
      else if annotations.openWorldHint = some true then cachedFor openWorldTtl
      else notCached false

end Conduit.Cache
