import Conduit.Foundation.Text

namespace Conduit.Utils

-- what new URL(..) gives; `href` is its toString()
structure Url where
  href : String
  protocol : String
  username : String := ""
  password : String := ""
  hostname : String
  port : String := ""
  pathname : String := ""
  search : String := ""
deriving DecidableEq, Repr

-- the URL constructor of the runtime, `none` where it throws; a URL's text is read back as itself
structure UrlApi where
  parse : String → Option Url
  parseRelative : String → Url → Option Url
  parse_href : ∀ {text url}, parse text = some url → parse url.href = some url
  parseRelative_href : ∀ {text base url}, parseRelative text base = some url →
    parse url.href = some url

structure LookupAddress where
  address : String
  family : ℕ
deriving DecidableEq, Repr

-- what one call of dns.lookup gives, `none` where it fails
abbrev DnsAnswer := Option (List LookupAddress)

structure UrlValidationResult where
  valid : Bool
  error : Option String := none
  resolvedIps : Option (List LookupAddress) := none
deriving DecidableEq

def refusedUrl (error : String) : UrlValidationResult where
  valid := false
  error := some error

section Addresses

def isHexDigit (c : Char) : Bool :=
  c.isDigit || ('a' ≤ c && c ≤ 'f') || ('A' ≤ c && c ≤ 'F')

def hexDigitValue (c : Char) : ℕ :=
  if c.isDigit then c.toNat - 48 else if 'a' ≤ c then c.toNat - 87 else c.toNat - 55

def hexValue (digits : List Char) : ℕ := digits.foldl (fun n c => 16 * n + hexDigitValue c) 0

def isHexGroup (group : List Char) : Bool :=
  1 ≤ group.length && group.length ≤ 4 && group.all isHexDigit

def isOctet (part : List Char) : Bool :=
  part ≠ [] && part.all Char.isDigit && Text.decimalValue part ≤ 255 &&
    (part.length = 1 || part.head? ≠ some '0')

def isIPv4 (chars : List Char) : Bool :=
  let parts := Text.splitChars '.' chars
  parts.length = 4 && parts.all isOctet

-- how many 16-bit groups the text stands for, an IPv4 address at its end for two
def countGroups : List (List Char) → Option ℕ
  | [] => some 0
  | [last] => if isHexGroup last then some 1 else if isIPv4 last then some 2 else none
  | group :: rest => if isHexGroup group then (countGroups rest).map (· + 1) else none

def groupsOf (chars : List Char) : Option ℕ :=
  if chars = [] then some 0 else countGroups (Text.splitChars ':' chars)

def hexGroupsOf (chars : List Char) : Option ℕ :=
  if chars = [] then some 0
  else
    let parts := Text.splitChars ':' chars
    if parts.all isHexGroup then some parts.length else none

def splitDoubleColon : List Char → Option (List Char × List Char)
  | [] => none
  | c :: rest =>
      if c = ':' ∧ rest.head? = some ':' then some ([], rest.drop 1)
      else (splitDoubleColon rest).map fun e => (c :: e.1, e.2)

def isZone (zone : List Char) : Bool :=
  zone = [] || (2 ≤ zone.length &&
    (zone.drop 1).all fun c => c.isAlphanum || c = '-' || c = '.' || c = ':')

def isIPv6 (chars : List Char) : Bool :=
  let address := chars.takeWhile (· ≠ '%')
  isZone (chars.dropWhile (· ≠ '%')) &&
    match splitDoubleColon address with
    | some (front, back) =>
        match hexGroupsOf front, groupsOf back with
        | some m, some n => m + n ≤ 7
        | _, _ => false
    | none => groupsOf address = some 8

-- node:net isIP
def isIP (value : String) : ℕ :=
  if isIPv4 value.toList then 4 else if isIPv6 value.toList then 6 else 0

end Addresses

section Denylist

def normalizeHost (hostname : String) : String :=
  let chars := hostname.toList
  let chars := if chars.head? = some '[' then chars.drop 1 else chars
  let chars := if chars.getLast? = some ']' then chars.dropLast else chars
  Text.toLowerCase (Text.trim (String.ofList chars))

def isIpLiteral (hostname : String) : Bool := isIP (normalizeHost hostname) ≠ 0

def blockedIpv4Range (a b : ℕ) : Option String :=
  if a = 0 then some "Blocked private IP (current network): "
  else if a = 10 then some "Blocked private IP (RFC 1918 class A): "
  else if a = 127 then some "Blocked loopback IP: "
  else if a = 169 ∧ b = 254 then some "Blocked link-local / metadata IP: "
  else if a = 172 ∧ 16 ≤ b ∧ b ≤ 31 then some "Blocked private IP (RFC 1918 class B): "
  else if a = 192 ∧ b = 168 then some "Blocked private IP (RFC 1918 class C): "
  else if a = 100 ∧ 64 ≤ b ∧ b ≤ 127 then some "Blocked private IP (RFC 6598 carrier-grade NAT): "
  else if 224 ≤ a ∧ a ≤ 239 then some "Blocked multicast IP: "
  else if 240 ≤ a ∧ a ≤ 255 then some "Blocked reserved IP: "
  else none

def octetValue? (part : List Char) : Option ℕ :=
  if part ≠ [] ∧ part.all Char.isDigit ∧ Text.decimalValue part ≤ 255 then
    some (Text.decimalValue part)
  else none

def getBlockedIpv4Reason (ip : String) : Option String :=
  match (Text.splitChars '.' ip.toList).map octetValue? with
  | [some a, some b, some _, some _] => (blockedIpv4Range a b).map (· ++ ip)
  | _ => some "Invalid IPv4 address"

def quad (high low : ℕ) : String :=
  toString (high / 256 % 256) ++ "." ++ toString (high % 256) ++ "." ++
    toString (low / 256 % 256) ++ "." ++ toString (low % 256)

def dotted? (chars : List Char) : Option String :=
  let parts := Text.splitChars '.' chars
  if parts.length = 4 ∧ parts.all fun part =>
      1 ≤ part.length && part.length ≤ 3 && part.all Char.isDigit then
    some (String.ofList chars)
  else none

def hexPair? (chars : List Char) : Option String :=
  match Text.splitChars ':' chars with
  | [high, low] =>
      if isHexGroup high ∧ isHexGroup low then some (quad (hexValue high) (hexValue low)) else none
  | _ => none

def extractMappedIpv4 (lower : String) : Option String :=
  let tails := (["::ffff:", "::"].map String.toList).filterMap fun lead =>
    Text.afterPrefix lead lower.toList
  (tails.findSome? dotted?).or (tails.findSome? hexPair?)

def extractSixToFourIpv4 (lower : String) : Option String :=
  (Text.afterPrefix "2002:".toList lower.toList).bind fun rest =>
    match Text.splitChars ':' rest with
    | high :: low :: _ =>
        if isHexGroup high ∧ isHexGroup low then some (quad (hexValue high) (hexValue low)) else none
    | _ => none

def blockedIpv6Range (lower : List Char) : Option String :=
  match lower with
  | 'f' :: c :: _ =>
      if c = 'c' ∨ c = 'd' then some "Blocked IPv6 unique local address: "
      else if c = 'f' then some "Blocked IPv6 multicast address: "
      else if c = 'e' then
        match lower[2]? with
        | some d =>
            if ['8', '9', 'a', 'b'].contains d then some "Blocked IPv6 link-local address: "
            else if ['c', 'd', 'e', 'f'].contains d then
              some "Blocked IPv6 site-local (deprecated) address: "
            else none
        | none => none
      else none
  | _ => none

def getBlockedIpv6Reason (ip : String) : Option String :=
  let lower := Text.toLowerCase ip
  if lower = "::" ∨ lower = "0:0:0:0:0:0:0:0" then
    some ("Blocked IPv6 unspecified address: " ++ ip)
  else if lower = "::1" ∨ lower = "0:0:0:0:0:0:0:1" then
    some ("Blocked IPv6 loopback address: " ++ ip)
  else
    ((extractMappedIpv4 lower).bind fun mapped =>
        (getBlockedIpv4Reason mapped).map fun reason =>
          "Blocked IPv4-mapped IPv6 address (" ++ ip ++ " → " ++ mapped ++ "): " ++ reason).or
      (((extractSixToFourIpv4 lower).bind fun wrapped =>
          (getBlockedIpv4Reason wrapped).map fun reason =>
            "Blocked 6to4 wrapping a private IPv4 (" ++ ip ++ " → " ++ wrapped ++ "): " ++ reason).or
        ((blockedIpv6Range lower.toList).map (· ++ ip)))

def getBlockedIpReason (ip : String) : Option String :=
  let normalized := normalizeHost ip
  match isIP normalized with
  | 4 => getBlockedIpv4Reason normalized
  | 6 => getBlockedIpv6Reason normalized
  | _ => none

end Denylist

section Validation

def blockedHostnames : List String :=
  ["localhost", "metadata.google.internal", "metadata.google", "instance-data"]

variable (api : UrlApi)

def isHttpProtocol (protocol : String) : Bool := protocol = "http:" || protocol = "https:"

def validateServerUrl (url : String) (allowPrivate : Bool) : UrlValidationResult :=
  match api.parse url with
  | none => refusedUrl ("Invalid URL format: " ++ url)
  | some parsed =>
      if !isHttpProtocol parsed.protocol then
        if parsed.protocol = "stdio:" then { valid := true }
        else
          refusedUrl ("Blocked scheme \"" ++ parsed.protocol ++ "\" — only http: and https: allowed")
      else if parsed.username ≠ "" ∨ parsed.password ≠ "" then
        refusedUrl "URLs must not contain embedded credentials"
      else if allowPrivate then { valid := true }
      else
        let normalizedHost := normalizeHost (Text.toLowerCase parsed.hostname)
        if blockedHostnames.contains normalizedHost ∨
            ".localhost".toList.isSuffixOf normalizedHost.toList then
          refusedUrl ("Blocked loopback hostname: " ++ normalizedHost)
        else
          match if isIpLiteral normalizedHost then getBlockedIpReason normalizedHost else none with
          | some blocked => refusedUrl blocked
          | none => { valid := true }

-- `answer` is what the lookup gives, if the code comes to it
def validateServerUrlWithDns (url : String) (allowPrivate : Bool) (answer : DnsAnswer) :
    UrlValidationResult :=
  let baseValidation := validateServerUrl api url allowPrivate
  if !baseValidation.valid || allowPrivate then baseValidation
  else
    match api.parse url with
    | none => refusedUrl ("Invalid URL format: " ++ url)
    | some parsed =>
        let hostname := normalizeHost (Text.toLowerCase parsed.hostname)
        if isIpLiteral hostname then baseValidation
        else
          match answer with
          | none => { valid := true }
          | some addresses =>
              match addresses.find? fun record =>
                  (getBlockedIpReason (normalizeHost record.address)).isSome with
              | some record =>
                  refusedUrl ("Hostname \"" ++ hostname ++ "\" resolves to a blocked address: " ++
                    normalizeHost record.address)
              | none =>
                  let resolvedIps := addresses.filter fun record =>
                    record.family = 4 || record.family = 6
                  if resolvedIps = [] then { valid := true }
                  else { valid := true, resolvedIps := some resolvedIps }

end Validation

end Conduit.Utils
