import Conduit.Config.Types

namespace Conduit.Router

structure ToolTarget where
  serverId : String
  toolName : String
deriving DecidableEq, Repr

def namespaceSeparator : Char := '.'

def applyNamespace (serverId toolName : String) : String := serverId ++ "." ++ toolName

def splitSeparator : List Char → Option (List Char × List Char)
  | [] => none
  | c :: rest =>
      if c = namespaceSeparator then some ([], rest)
      else (splitSeparator rest).map fun (before, after) => (c :: before, after)

def resolveNamespacedTool (namespacedName : String) : Option ToolTarget :=
  match splitSeparator namespacedName.toList with
  | none => none
  | some (before, after) =>
      if before = [] ∨ after = [] then none
      else some ⟨String.ofList before, String.ofList after⟩

abbrev NamespaceMap := OrderedMap String ToolTarget

abbrev ToolsByServer := List (String × List String)

def detectConflicts (toolsByServer : ToolsByServer) : List String :=
  let names := toolsByServer.flatMap Prod.snd
  names.eraseDups.filter fun name => 1 < names.count name

def addTools (name : String → String → String) (map : NamespaceMap) (serverId : String)
    (tools : List String) : NamespaceMap :=
  tools.foldl (fun m toolName => m.set (name serverId toolName) ⟨serverId, toolName⟩) map

-- `none` when the source throws on conflicting names
def buildNamespaceMap (toolsByServer : ToolsByServer) (strategy : NamespaceStrategy) :
    Option NamespaceMap :=
  match strategy with
  | .none =>
      if detectConflicts toolsByServer = [] then
        some (toolsByServer.foldl (fun m e => addTools (fun _ toolName => toolName) m e.1 e.2) .empty)
      else none
  | .prefixed => some (toolsByServer.foldl (fun m e => addTools applyNamespace m e.1 e.2) .empty)

def resolveTool (toolName : String) (namespaceMap : NamespaceMap) (strategy : NamespaceStrategy) :
    Option ToolTarget :=
  match namespaceMap.get? toolName with
  | some direct => some direct
  | none =>
      match strategy with
      | .prefixed => resolveNamespacedTool toolName
      | .none => none

-- a name stands for a tool that has it, alone or after its server's id
def Spelled (map : NamespaceMap) : Prop :=
  ∀ name target, map.get? name = some target →
    name = target.toolName ∨ name = applyNamespace target.serverId target.toolName

theorem spelled_empty : Spelled .empty := by
  intro name target h
  cases h

theorem Spelled.addTools {name : String → String → String} {map : NamespaceMap} (h : Spelled map)
    (hname : ∀ serverId toolName,
      name serverId toolName = toolName ∨
        name serverId toolName = applyNamespace serverId toolName)
    (serverId : String) (tools : List String) : Spelled (addTools name map serverId tools) := by
  unfold Router.addTools
  induction tools generalizing map with
  | nil => exact h
  | cons toolName tools ih =>
      refine ih fun key target hkey => ?_
      rw [OrderedMap.get?_set] at hkey
      split at hkey
      next heq =>
        obtain rfl := Option.some.inj hkey
        exact heq ▸ hname serverId toolName
      next => exact h key target hkey

theorem Spelled.addServers {name : String → String → String} {map : NamespaceMap} (h : Spelled map)
    (hname : ∀ serverId toolName,
      name serverId toolName = toolName ∨
        name serverId toolName = applyNamespace serverId toolName)
    (toolsByServer : ToolsByServer) :
    Spelled (toolsByServer.foldl (fun m e => Router.addTools name m e.1 e.2) map) := by
  induction toolsByServer generalizing map with
  | nil => exact h
  | cons e rest ih => exact ih (h.addTools hname e.1 e.2)

theorem spelled_buildNamespaceMap {toolsByServer : ToolsByServer} {strategy : NamespaceStrategy}
    {map : NamespaceMap} (h : buildNamespaceMap toolsByServer strategy = some map) :
    Spelled map := by
  unfold buildNamespaceMap at h
  split at h
  · split at h
    · obtain rfl := Option.some.inj h
      exact spelled_empty.addServers (fun _ _ => .inl rfl) toolsByServer
    · cases h
  · obtain rfl := Option.some.inj h
    exact spelled_empty.addServers (fun _ _ => .inr rfl) toolsByServer

-- the empty name resolves to nothing but a tool that has it
theorem toolName_of_resolveTool_empty {map : NamespaceMap} (h : Spelled map)
    {strategy : NamespaceStrategy} {target : ToolTarget}
    (htarget : resolveTool "" map strategy = some target) : target.toolName = "" := by
  unfold resolveTool at htarget
  split at htarget
  next direct hdirect =>
    obtain rfl := Option.some.inj htarget
    rcases h "" direct hdirect with hsame | happlied
    · exact hsame.symm
    · have hlength := congrArg String.length happlied
      simp only [applyNamespace, String.length_append] at hlength
      have hdot : (".").length = 1 := rfl
      have hempty : ("").length = 0 := rfl
      omega
  next =>
    split at htarget
    · cases htarget
    · cases htarget

end Conduit.Router
