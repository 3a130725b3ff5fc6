import Conduit.RateLimit.RateLimiter

namespace Conduit.RateLimit

-- the bucket that a check counts in: its key and its window
def RateLimitCheck.bucket (check : RateLimitCheck) : String × ℕ := (check.key, check.windowMs)

def Distinct (checks : List RateLimitCheck) : Prop := (checks.map RateLimitCheck.bucket).Nodup

variable {checks : List RateLimitCheck} {key clientId serverId toolName : String}
  {config : ToolRateLimitConfig}

theorem Distinct.append {others : List RateLimitCheck} (h : Distinct checks) (h' : Distinct others)
    (hkeys : ∀ c ∈ checks, ∀ d ∈ others, c.key ≠ d.key) : Distinct (checks ++ others) := by
  unfold Distinct at h h' ⊢
  rw [List.map_append]
  refine h.append h' fun b hb hb' => ?_
  obtain ⟨c, hc, rfl⟩ := List.mem_map.mp hb
  obtain ⟨d, hd, heq⟩ := List.mem_map.mp hb'
  exact hkeys c hc d hd (congrArg Prod.fst heq).symm

theorem key_of_mem_buildChecks {labelPrefix : String} {check : RateLimitCheck}
    (h : check ∈ buildChecks key config labelPrefix) : check.key = key := by
  simp only [buildChecks, List.mem_append, Option.mem_toList, Option.map_eq_some_iff,
    or_assoc] at h
  rcases h with ⟨_, -, rfl⟩ | ⟨_, -, rfl⟩ | ⟨_, -, rfl⟩ <;> rfl

theorem distinct_buildChecks (labelPrefix : String) :
    Distinct (buildChecks key config labelPrefix) := by
  unfold Distinct buildChecks
  cases config.requestsPerMinute <;> cases config.requestsPerHour <;>
    cases config.requestsPerDay <;>
    simp [RateLimitCheck.bucket, msPerMinute, msPerHour, msPerDay]

theorem length_buildChecks_le (labelPrefix : String) :
    (buildChecks key config labelPrefix).length ≤ 3 := by
  unfold buildChecks
  cases config.requestsPerMinute <;> cases config.requestsPerHour <;>
    cases config.requestsPerDay <;> simp

theorem key_of_mem_buildOptionalChecks {config : Option ToolRateLimitConfig} {labelPrefix : String}
    {check : RateLimitCheck} (h : check ∈ buildOptionalChecks key config labelPrefix) :
    check.key = key := by
  cases config with
  | none => cases h
  | some limits => exact key_of_mem_buildChecks h

theorem distinct_buildOptionalChecks (config : Option ToolRateLimitConfig) (labelPrefix : String) :
    Distinct (buildOptionalChecks key config labelPrefix) := by
  cases config with
  | none => exact List.nodup_nil
  | some limits => exact distinct_buildChecks labelPrefix

theorem length_buildOptionalChecks_le (config : Option ToolRateLimitConfig) (labelPrefix : String) :
    (buildOptionalChecks key config labelPrefix).length ≤ 3 := by
  cases config with
  | none => exact Nat.zero_le 3
  | some limits => exact length_buildChecks_le labelPrefix

section Keys

theorem head_client (clientId rest : String) : (clientKey clientId ++ rest).toList.head? = some 'c' := by
  simp [clientKey]

theorem head_server (serverId rest : String) : (serverKey serverId ++ rest).toList.head? = some 's' := by
  simp [serverKey]

theorem global_ne_clientKey : "global" ≠ clientKey clientId := by
  intro h
  have hhead := head_client clientId ""
  rw [String.append_empty, ← h] at hhead
  cases hhead

theorem global_ne_server (rest : String) : "global" ≠ serverKey serverId ++ rest := by
  intro h
  have hhead := head_server serverId rest
  rw [← h] at hhead
  cases hhead

theorem client_ne_server (rest rest' : String) :
    clientKey clientId ++ rest ≠ serverKey serverId ++ rest' := by
  intro h
  have hhead := head_client clientId rest
  rw [h, head_server] at hhead
  cases hhead

theorem ne_append {text next rest : String} (h : 0 < next.length) :
    text ≠ text ++ (next ++ rest) := by
  intro heq
  have hlength := congrArg String.length heq
  rw [String.length_append, String.length_append] at hlength
  omega

theorem toolKey_eq : toolKey serverId toolName = serverKey serverId ++ (":tool:" ++ toolName) :=
  String.append_assoc

theorem clientSpecificKey_eq : clientSpecificKey clientId serverId toolName =
    clientKey clientId ++ (":server:" ++ (serverId ++ (":tool:" ++ toolName))) := by
  simp only [clientSpecificKey, String.append_assoc]

theorem client_ne_serverKey (rest : String) : clientKey clientId ++ rest ≠ serverKey serverId := by
  rw [← String.append_empty (s := serverKey serverId)]
  exact client_ne_server _ _

theorem clientKey_ne_server (rest : String) : clientKey clientId ≠ serverKey serverId ++ rest := by
  rw [← String.append_empty (s := clientKey clientId)]
  exact client_ne_server _ _

theorem global_ne_clientSpecificKey : "global" ≠ clientSpecificKey clientId serverId toolName := by
  intro h
  have hhead := head_client clientId
    (":server:" ++ (serverId ++ (":tool:" ++ toolName)))
  rw [← clientSpecificKey_eq, ← h] at hhead
  cases hhead

theorem global_ne_serverKey : "global" ≠ serverKey serverId := by
  rw [← String.append_empty (s := serverKey serverId)]
  exact global_ne_server ""

end Keys

namespace RateLimiter

variable {R : RateLimiter} {check : RateLimitCheck}

theorem key_of_mem_getClientChecks (h : check ∈ R.getClientChecks clientId) :
    check.key = "global" ∨ check.key = clientKey clientId := by
  rcases List.mem_append.mp h with hglobal | hclient
  · exact .inl (key_of_mem_buildOptionalChecks hglobal)
  · exact .inr (key_of_mem_buildOptionalChecks hclient)

theorem distinct_getClientChecks : Distinct (R.getClientChecks clientId) := by
  refine (distinct_buildOptionalChecks ..).append (distinct_buildOptionalChecks ..) ?_
  intro c hc d hd
  rw [key_of_mem_buildOptionalChecks hc, key_of_mem_buildOptionalChecks hd]
  exact global_ne_clientKey

theorem key_of_mem_toolChecks {o : ServerRateLimitOverride}
    (h : check ∈ toolChecks o clientId serverId toolName) :
    check.key = toolKey serverId toolName ∨
      check.key = clientSpecificKey clientId serverId toolName := by
  unfold toolChecks at h
  split at h
  · cases h
  · rcases List.mem_append.mp h with htool | hclient
    · exact .inl (key_of_mem_buildOptionalChecks htool)
    · exact .inr (key_of_mem_buildChecks hclient)

theorem distinct_toolChecks (o : ServerRateLimitOverride) :
    Distinct (toolChecks o clientId serverId toolName) := by
  unfold toolChecks
  split
  · exact List.nodup_nil
  · refine (distinct_buildOptionalChecks ..).append (distinct_buildChecks _) fun c hc d hd => ?_
    rw [key_of_mem_buildOptionalChecks hc, key_of_mem_buildChecks hd, toolKey_eq,
      clientSpecificKey_eq]
    exact Ne.symm (client_ne_server _ _)

theorem key_of_mem_getServerChecks (h : check ∈ R.getServerChecks clientId serverId toolName) :
    check.key = serverKey serverId ∨ check.key = toolKey serverId toolName ∨
      check.key = clientSpecificKey clientId serverId toolName := by
  unfold getServerChecks at h
  split at h
  · cases h
  · rcases List.mem_append.mp h with hserver | htool
    · exact .inl (key_of_mem_buildChecks hserver)
    · exact .inr (key_of_mem_toolChecks htool)

theorem distinct_getServerChecks : Distinct (R.getServerChecks clientId serverId toolName) := by
  unfold getServerChecks
  split
  · exact List.nodup_nil
  next o _ =>
    refine (distinct_buildChecks _).append (distinct_toolChecks o) fun c hc d hd => ?_
    rw [key_of_mem_buildChecks hc]
    rcases key_of_mem_toolChecks hd with htool | hclient
    · rw [htool, toolKey_eq]
      exact ne_append (by decide)
    · rw [hclient, clientSpecificKey_eq]
      exact Ne.symm (client_ne_serverKey _)

theorem distinct_getChecks : Distinct (R.getChecks clientId serverId toolName) := by
  refine distinct_getClientChecks.append distinct_getServerChecks fun c hc d hd => ?_
  have hserver := key_of_mem_getServerChecks hd
  rcases key_of_mem_getClientChecks hc with hc | hc
  · rw [hc]
    rcases hserver with hd | hd | hd
    · rw [hd]
      exact global_ne_serverKey
    · rw [hd, toolKey_eq]
      exact global_ne_server _
    · rw [hd]
      exact global_ne_clientSpecificKey
  · rw [hc]
    rcases hserver with hd | hd | hd
    · rw [hd, ← String.append_empty (s := serverKey serverId)]
      exact clientKey_ne_server _
    · rw [hd, toolKey_eq]
      exact clientKey_ne_server _
    · rw [hd, clientSpecificKey_eq]
      exact ne_append (by decide)

theorem length_getClientChecks_le : (R.getClientChecks clientId).length ≤ 6 := by
  rw [getClientChecks, List.length_append]
  exact Nat.add_le_add (length_buildOptionalChecks_le ..) (length_buildOptionalChecks_le ..)

theorem length_toolChecks_le (o : ServerRateLimitOverride) :
    (toolChecks o clientId serverId toolName).length ≤ 6 := by
  unfold toolChecks
  split
  · exact Nat.zero_le 6
  · rw [List.length_append]
    exact Nat.add_le_add (length_buildOptionalChecks_le ..) (length_buildChecks_le _)

theorem length_getServerChecks_le : (R.getServerChecks clientId serverId toolName).length ≤ 9 := by
  unfold getServerChecks
  split
  · exact Nat.zero_le 9
  · rw [List.length_append]
    exact Nat.add_le_add (length_buildChecks_le _) (length_toolChecks_le _)

theorem length_getChecks_le : (R.getChecks clientId serverId toolName).length ≤ 15 := by
  rw [getChecks, List.length_append]
  exact Nat.add_le_add length_getClientChecks_le length_getServerChecks_le

end RateLimiter

end Conduit.RateLimit
