import Conduit.Connect.Descriptor
import Conduit.Utils.UrlValidator

namespace Conduit.Connect

open Utils

def defaultDescriptorTimeoutMs : ℕ := 5000

def maxDescriptorRedirects : ℕ := 5

def maxDescriptorBodyBytes : ℕ := 1024 * 1024

-- `declaredLength` is the content-length as parseInt reads it, `body` what JSON.parse gives
inductive Reply where
  | aborted
  | failed (error : String)
  | response (status : ℕ) (location : Option String) (declaredLength : Option ℤ) (chunks : List ℕ)
      (body : Except String Json)

-- one round of the loop: the validator's lookup, the address that fetch finds for itself, and
-- the peer's answer
structure Hop where
  lookup : DnsAnswer
  refetch : Option String
  reply : Reply

inductive HopOutcome where
  | stop (result : Except String NormalizedDescriptorImport)
  | redirect (next : Url)

structure DescriptorRun where
  connections : List String
  result : Except String NormalizedDescriptorImport

section Fetch

variable (api : UrlApi) (allowPrivateNetworks : Bool) (timeoutMs : ℕ)

def exceedsCap (declaredLength : Option ℤ) (chunks : List ℕ) : Bool :=
  declaredLength.any (fun length => (maxDescriptorBodyBytes : ℤ) < length) ||
    maxDescriptorBodyBytes < chunks.sum

def readReply (url : Url) : Reply → HopOutcome
  | .aborted =>
      .stop (.error ("Descriptor fetch timed out after " ++ toString timeoutMs ++ "ms"))
  | .failed error => .stop (.error error)
  | .response status location declaredLength chunks body =>
      if 300 ≤ status ∧ status < 400 then
        match location.filter (· ≠ "") with
        | none =>
            .stop (.error ("Descriptor redirect failed: HTTP " ++ toString status ++
              " without Location header"))
        | some location =>
            match api.parseRelative location url with
            | none => .stop (.error "Invalid URL")
            | some next => .redirect next
      else if ¬ (200 ≤ status ∧ status < 300) then
        .stop (.error ("Unable to fetch descriptor: HTTP " ++ toString status))
      else if exceedsCap declaredLength chunks then
        .stop (.error ("Descriptor body exceeds maximum size (" ++ toString maxDescriptorBodyBytes ++
          " bytes)"))
      else
        match body with
        | .error error => .stop (.error ("Descriptor body is not valid JSON: " ++ error))
        | .ok descriptor => .stop (normalizeDescriptor descriptor)

def hostOf (url : Url) : String := Text.toLowerCase url.hostname

def isLiteralHost (url : Url) : Bool := isIpLiteral (normalizeHost (hostOf url))

def pinnedAddress (check : UrlValidationResult) : Option LookupAddress :=
  if allowPrivateNetworks then none else (check.resolvedIps.getD []).head?

-- the address a fetch connects to: the pinned one, or what plain fetch makes of the host; other
-- schemes than http and https open no connection
def connectedAddress (hop : Hop) (url : Url) (pinned : Option LookupAddress) : Option String :=
  if !isHttpProtocol url.protocol then none
  else
    match pinned with
    | some record => some record.address
    | none => if isLiteralHost url then some (hostOf url) else hop.refetch

-- one round: the connection it opens, if any, and how it goes on
def visit (hop : Hop) (url : Url) : Option String × HopOutcome :=
  let check := validateServerUrlWithDns api url.href allowPrivateNetworks hop.lookup
  if !check.valid then
    (none, .stop (.error ("Descriptor URL blocked: " ++ check.error.getD "undefined")))
  else
    match connectedAddress hop url (pinnedAddress allowPrivateNetworks check) with
    | none => (none, .stop (.error "fetch failed"))
    | some address => (some address, readReply api timeoutMs url hop.reply)

-- the first argument counts the rounds that are left, the second those that are done
def follow (hops : ℕ → Hop) : ℕ → ℕ → Url → DescriptorRun
  | 0, _, _ =>
      ⟨[], .error ("Descriptor URL exceeded redirect limit (" ++ toString maxDescriptorRedirects ++
        ")")⟩
  | left + 1, done, url =>
      match visit api allowPrivateNetworks timeoutMs (hops done) url with
      | (connection, .stop result) => ⟨connection.toList, result⟩
      | (connection, .redirect next) =>
          let rest := follow hops left (done + 1) next
          { rest with connections := connection.toList ++ rest.connections }

def loadDescriptorFromUrl (hops : ℕ → Hop) (url : String) : DescriptorRun :=
  match api.parse url with
  | none => ⟨[], .error "Descriptor URL must be a valid absolute URL"⟩
  | some parsed =>
      if !isHttpProtocol parsed.protocol then
        ⟨[], .error "Descriptor URL must use http or https"⟩
      else follow api allowPrivateNetworks timeoutMs hops (maxDescriptorRedirects + 1) 0 parsed

end Fetch

section Trail

variable (api : UrlApi) (timeoutMs : ℕ) (hops : ℕ → Hop)

-- the rounds that a chain of redirects comes to, with their URLs
def trail : ℕ → ℕ → Url → List (ℕ × Url)
  | 0, _, _ => []
  | left + 1, done, url =>
      (done, url) ::
        match (visit api false timeoutMs (hops done) url).2 with
        | .stop _ => []
        | .redirect next => trail left (done + 1) next

def trailOf (url : String) : List (ℕ × Url) :=
  match (api.parse url).filter fun parsed => isHttpProtocol parsed.protocol with
  | none => []
  | some parsed => trail api timeoutMs hops (maxDescriptorRedirects + 1) 0 parsed

def connectionAt (e : ℕ × Url) : Option String :=
  (visit api false timeoutMs (hops e.1) e.2).1

theorem connections_follow (left done : ℕ) (url : Url) :
    (follow api false timeoutMs hops left done url).connections =
      (trail api timeoutMs hops left done url).filterMap (connectionAt api timeoutMs hops) := by
  induction left generalizing done url with
  | zero => rfl
  | succ left ih =>
      unfold follow trail
      rw [List.filterMap_cons, connectionAt]
      cases hvisit : visit api false timeoutMs (hops done) url with
      | mk connection outcome =>
          cases outcome with
          | stop result => cases connection <;> rfl
          | redirect next => cases connection <;> simp [ih]

theorem connections_loadDescriptorFromUrl (url : String) :
    (loadDescriptorFromUrl api false timeoutMs hops url).connections =
      (trailOf api timeoutMs hops url).filterMap (connectionAt api timeoutMs hops) := by
  unfold loadDescriptorFromUrl trailOf
  cases api.parse url with
  | none => rfl
  | some parsed =>
      cases hhttp : isHttpProtocol parsed.protocol with
      | false => simp [hhttp, Option.filter]
      | true => simp [hhttp, Option.filter, connections_follow]

theorem length_trail_le (left done : ℕ) (url : Url) :
    (trail api timeoutMs hops left done url).length ≤ left := by
  induction left generalizing done url with
  | zero => rfl
  | succ left ih =>
      unfold trail
      rw [List.length_cons]
      cases (visit api false timeoutMs (hops done) url).2 with
      | stop result => simp
      | redirect next => exact Nat.succ_le_succ (ih (done + 1) next)

theorem length_trailOf_le (url : String) :
    (trailOf api timeoutMs hops url).length ≤ maxDescriptorRedirects + 1 := by
  unfold trailOf
  split
  · exact Nat.zero_le _
  · exact length_trail_le api timeoutMs hops _ _ _

theorem readReply_redirect {url next : Url} {reply : Reply}
    (h : readReply api timeoutMs url reply = .redirect next) :
    ∃ location, api.parseRelative location url = some next := by
  cases reply with
  | aborted | failed error => cases h
  | response status location declaredLength chunks body =>
      dsimp only [readReply] at h
      split at h
      · split at h
        next => cases h
        next location _ =>
          cases hnext : api.parseRelative location url with
          | none =>
              rw [hnext] at h
              cases h
          | some parsed =>
              rw [hnext] at h
              cases h
              exact ⟨location, hnext⟩
      · split at h
        · cases h
        · split at h
          · cases h
          · cases body <;> cases h

theorem visit_redirect {hop : Hop} {url next : Url}
    (h : (visit api false timeoutMs hop url).2 = .redirect next) :
    ∃ location, api.parseRelative location url = some next := by
  unfold visit at h
  dsimp only at h
  split at h
  · cases h
  · split at h
    next => cases h
    next => exact readReply_redirect api timeoutMs h

-- every URL of the trail comes from the parser, so the validator reads it back as it is
theorem parse_href_of_mem_trail {left done : ℕ} {url : Url} (hurl : api.parse url.href = some url)
    {e : ℕ × Url} (he : e ∈ trail api timeoutMs hops left done url) :
    api.parse e.2.href = some e.2 := by
  induction left generalizing done url with
  | zero => cases he
  | succ left ih =>
      unfold trail at he
      rcases List.mem_cons.mp he with rfl | he
      · exact hurl
      · cases hvisit : (visit api false timeoutMs (hops done) url).2 with
        | stop result =>
            rw [hvisit] at he
            cases he
        | redirect next =>
            rw [hvisit] at he
            obtain ⟨location, hnext⟩ := visit_redirect api timeoutMs hvisit
            exact ih (api.parseRelative_href hnext) he

theorem parse_href_of_mem_trailOf {url : String} {e : ℕ × Url}
    (he : e ∈ trailOf api timeoutMs hops url) : api.parse e.2.href = some e.2 := by
  unfold trailOf at he
  split at he
  next => cases he
  next parsed hparsed =>
    exact parse_href_of_mem_trail api timeoutMs hops
      (api.parse_href (Option.filter_eq_some_iff.mp hparsed).1) he

end Trail

section Denylist

variable {api : UrlApi} {timeoutMs : ℕ} {hops : ℕ → Hop} {hop : Hop} {url : Url}

-- the denylist as the validator applies it to an address
def Denied (address : String) : Prop := (getBlockedIpReason (normalizeHost address)).isSome = true

instance (address : String) : Decidable (Denied address) := inferInstanceAs (Decidable (_ = _))

-- the validator lets the URL pass although its host is a name and the lookup of it fails or lists
-- no IPv4 or IPv6 address, so that fetch resolves the name again
structure Refetched (api : UrlApi) (hop : Hop) (url : Url) : Prop where
  valid : (validateServerUrlWithDns api url.href false hop.lookup).valid = true
  http : isHttpProtocol url.protocol = true
  name : isLiteralHost url = false
  unresolved : ∀ records, hop.lookup = some records →
    ∀ record ∈ records, record.family ≠ 4 ∧ record.family ≠ 6

theorem usable_nil_iff {records : List LookupAddress} :
    records.filter (fun record => record.family = 4 || record.family = 6) = [] ↔
      ∀ record ∈ records, record.family ≠ 4 ∧ record.family ≠ 6 := by
  simp [List.filter_eq_nil_iff]

theorem validateServerUrl_literal (hparse : api.parse url.href = some url)
    (hhttp : isHttpProtocol url.protocol = true)
    (hvalid : (validateServerUrl api url.href false).valid = true)
    (hliteral : isLiteralHost url = true) : ¬ Denied (hostOf url) := by
  intro hdenied
  have hblocked : getBlockedIpReason (normalizeHost (hostOf url)) ≠ none :=
    Option.isSome_iff_ne_none.mp hdenied
  simp only [validateServerUrl, hparse, hhttp, Bool.not_true, Bool.false_eq_true, if_false] at hvalid
  split at hvalid
  · cases hvalid
  · split at hvalid
    · cases hvalid
    · change isIpLiteral (normalizeHost (Text.toLowerCase url.hostname)) = true at hliteral
      rw [if_pos hliteral] at hvalid
      cases hreason : getBlockedIpReason (normalizeHost (Text.toLowerCase url.hostname)) with
      | none => exact hblocked hreason
      | some reason =>
          rw [hreason] at hvalid
          cases hvalid

theorem resolvedIps_validateServerUrl (text : String) (allowPrivate : Bool) :
    (validateServerUrl api text allowPrivate).resolvedIps = none := by
  unfold validateServerUrl
  split
  · rfl
  · split
    · split <;> rfl
    · split
      · rfl
      · split
        · rfl
        · dsimp only
          split
          · rfl
          · split <;> rfl

-- what a URL that passes says: its literal is not denied, or the lookup of its name failed or
-- listed no denied address
theorem validateServerUrlWithDns_valid (hparse : api.parse url.href = some url)
    (hhttp : isHttpProtocol url.protocol = true)
    (hvalid : (validateServerUrlWithDns api url.href false hop.lookup).valid = true) :
    (isLiteralHost url = true ∧ ¬ Denied (hostOf url) ∧
        (validateServerUrlWithDns api url.href false hop.lookup).resolvedIps.getD [] = []) ∨
      (isLiteralHost url = false ∧
        (∀ records, hop.lookup = some records → ∀ record ∈ records, ¬ Denied record.address) ∧
        (validateServerUrlWithDns api url.href false hop.lookup).resolvedIps.getD [] =
          (hop.lookup.getD []).filter fun record => record.family = 4 || record.family = 6) := by
  unfold validateServerUrlWithDns at hvalid ⊢
  cases hbase : (validateServerUrl api url.href false).valid with
  | false => simp [hbase] at hvalid
  | true =>
      simp only [hbase, hparse, Bool.not_true, Bool.or_self, Bool.false_eq_true, if_false] at hvalid ⊢
      by_cases hliteral : isLiteralHost url = true
      · have hliteral' : isIpLiteral (normalizeHost (Text.toLowerCase url.hostname)) = true := hliteral
        rw [if_pos hliteral']
        refine .inl ⟨hliteral, validateServerUrl_literal hparse hhttp hbase hliteral, ?_⟩
        rw [resolvedIps_validateServerUrl]
        rfl
      · have hliteral' : ¬ isIpLiteral (normalizeHost (Text.toLowerCase url.hostname)) = true := hliteral
        rw [if_neg hliteral'] at hvalid ⊢
        refine .inr ⟨Bool.eq_false_iff.mpr hliteral, ?_⟩
        cases hlookup : hop.lookup with
        | none => exact ⟨fun records h => (by cases h), rfl⟩
        | some records =>
            rw [hlookup] at hvalid
            cases hblocked : records.find? fun record =>
                (getBlockedIpReason (normalizeHost record.address)).isSome with
            | some record =>
                simp only [hblocked] at hvalid
                cases hvalid
            | none =>
                simp only [hblocked]
                refine ⟨?_, ?_⟩
                · rintro _ hrecords record hrecord
                  cases hrecords
                  exact List.find?_eq_none.mp hblocked record hrecord
                · split
                  next hempty => exact hempty.symm
                  next => rfl

theorem connectedAddress_denied_iff (hparse : api.parse url.href = some url)
    (hvalid : (validateServerUrlWithDns api url.href false hop.lookup).valid = true) :
    (∀ address, connectedAddress hop url (pinnedAddress false
        (validateServerUrlWithDns api url.href false hop.lookup)) = some address →
      ¬ Denied address) ↔
      (Refetched api hop url → ∀ address, hop.refetch = some address → ¬ Denied address) := by
  by_cases hhttp : isHttpProtocol url.protocol = true
  · simp only [connectedAddress, pinnedAddress, hhttp, Bool.not_true, Bool.false_eq_true, if_false]
    rcases validateServerUrlWithDns_valid hparse hhttp hvalid with
      ⟨hliteral, hallowed, hips⟩ | ⟨hname, hallowed, hips⟩
    · rw [hips, List.head?_nil]
      dsimp only
      rw [if_pos hliteral]
      refine iff_of_true ?_ fun hrefetched => absurd (hliteral.symm.trans hrefetched.name) (by decide)
      intro address haddress
      cases haddress
      exact hallowed
    · rw [hips]
      cases hpinned : ((hop.lookup.getD []).filter fun record =>
          record.family = 4 || record.family = 6).head? with
      | some record =>
          have hmem := List.mem_filter.mp (List.mem_of_head? hpinned)
          cases hlookup : hop.lookup with
          | none =>
              rw [hlookup] at hmem
              cases hmem.1
          | some records =>
              rw [hlookup] at hmem
              refine iff_of_true ?_ fun hrefetched => ?_
              · intro address haddress
                cases haddress
                exact hallowed records hlookup record hmem.1
              · have hfamily := hrefetched.unresolved records hlookup record hmem.1
                simp [hfamily] at hmem
      | none =>
          have hempty := List.head?_eq_none_iff.mp hpinned
          have hrefetched : Refetched api hop url := by
            refine ⟨hvalid, hhttp, hname, fun records hlookup => ?_⟩
            rw [hlookup] at hempty
            exact usable_nil_iff.1 hempty
          dsimp only
          rw [hname, if_neg Bool.false_ne_true]
          exact ⟨fun h _ => h, fun h => h hrefetched⟩
  · refine iff_of_true (fun address haddress => ?_) fun hrefetched => absurd hrefetched.http hhttp
    simp [connectedAddress, hhttp] at haddress

theorem connectionAt_denied_iff {e : ℕ × Url} (hparse : api.parse e.2.href = some e.2) :
    (∀ address, connectionAt api timeoutMs hops e = some address → ¬ Denied address) ↔
      (Refetched api (hops e.1) e.2 →
        ∀ address, (hops e.1).refetch = some address → ¬ Denied address) := by
  unfold connectionAt visit
  dsimp only
  cases hvalid : (validateServerUrlWithDns api e.2.href false (hops e.1).lookup).valid with
  | false =>
      refine iff_of_true (fun address haddress => (by cases haddress)) fun hrefetched => ?_
      exact absurd (hvalid.symm.trans hrefetched.valid) (by decide)
  | true =>
      rw [← connectedAddress_denied_iff hparse hvalid]
      refine forall_congr' fun address => ?_
      cases connectedAddress (hops e.1) e.2 (pinnedAddress false
        (validateServerUrlWithDns api e.2.href false (hops e.1).lookup)) <;> rfl

-- the claim of the guard: nothing denied is connected to, and six connections at most are opened
def Guarded (run : DescriptorRun) : Prop :=
  (∀ address ∈ run.connections, ¬ Denied address) ∧ run.connections.length ≤ 6

end Denylist

section Example

def rebindUrl : Url where
  href := "http://rebind.example/descriptor.json"
  protocol := "http:"
  hostname := "rebind.example"
  pathname := "/descriptor.json"

def exampleApi : UrlApi where
  parse text := if text = rebindUrl.href then some rebindUrl else none
  parseRelative _ _ := none
  parse_href h := by
    obtain ⟨-, h⟩ := Option.ite_none_right_eq_some.mp h
    cases h
    exact if_pos rfl
  parseRelative_href h := by cases h

-- the name cannot be resolved when it is validated, and a moment later it is the loopback address
def rebindHops (_ : ℕ) : Hop where
  lookup := none
  refetch := some "127.0.0.1"
  reply := .response 200 none none [2] (.ok (.obj []))

end Example

end Conduit.Connect
