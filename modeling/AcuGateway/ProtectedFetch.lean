/-
The client for URLs that users give.

A URL is checked before each request and once more when its host is dialed, each time with a lookup
of its own.  A host is an address if `ParseIP` reads it, and a name if not; names are compared with
the domain list as texts.

* `SSRFProtection.validateNetworkTarget`, `validateURL`, `dialContext` — the checks;
* `fetch` — the addresses that are dialed along a chain of redirects;
* `Permitted` — what is asked of each of them;
* `SpelledPlainly` — the hosts whose spelling does not get around the lists;
* `only_permitted_iff` — exactly with such hosts only permitted targets are dialed;
* `zone_not_checked` — a link-local address that is dialed.
-/
import AcuGateway.Lib.NetAddr

open List Text
open NetAddr

/-- Functions of the standard library, and the tables of Unicode. -/
structure FetchEnv where
  -- `unicode.ToLower` for the characters whose lower case is not in ASCII
  unicodeToLower : Char → Char
  -- a host as the transport dials it
  idnaASCII : String → String
  quote : String → String

/-- `strings.ToLower` -/
def FetchEnv.toLower (env : FetchEnv) (s : String) : String := Text.toLower env.unicodeToLower s

structure FetchSetting where
  enableSSRFProtection : Bool
  allowPrivateIp : Bool
  domainFilterMode : Bool
  ipFilterMode : Bool
  domainList : List String
  ipList : List String
  allowedPorts : List String
  applyIPFilterForDomain : Bool

structure SSRFProtection where
  allowPrivateIp : Bool
  -- a list of what is allowed, or of what is not
  domainFilterMode : Bool
  domainList : List String
  ipFilterMode : Bool
  ipList : List String
  allowedPorts : List Int
  applyIPFilterForDomain : Bool

namespace ProtectedFetch

/-! ### Settings -/

def parsePort (env : FetchEnv) (config : String) : Except String (List Int) :=
  if contains config "-" then
    match split config "-" with
    | [first, last] =>
      match atoi (trimSpace first) with
      | .error why => .error <|
        s!"invalid start port in range {config}: " ++
        s!"strconv.Atoi: parsing {env.quote (trimSpace first)}: {why}"
      | .ok startPort =>
        match atoi (trimSpace last) with
        | .error why => .error <|
          s!"invalid end port in range {config}: " ++
          s!"strconv.Atoi: parsing {env.quote (trimSpace last)}: {why}"
        | .ok endPort =>
          if startPort > endPort then
            .error s!"invalid port range {config}: start port cannot be greater than end port"
          else if startPort < 1 ∨ startPort > 65535 ∨ endPort < 1 ∨ endPort > 65535 then
            .error s!"port range {config} contains invalid port numbers (must be 1-65535)"
          else .ok ((List.range (endPort - startPort + 1).toNat).map fun n => startPort + n)
    | _ => .error s!"invalid port range format: {config}"
  else
    match atoi config with
    | .error _ => .error s!"invalid port number: {config}"
    | .ok port =>
      if port < 1 ∨ port > 65535 then .error s!"invalid port number {port} (must be 1-65535)"
      else .ok [port]

def parsePortRanges (env : FetchEnv) : List String → Except String (List Int)
  | [] => .ok []
  | config :: configs => do
    let ports ← if trimSpace config = "" then .ok [] else parsePort env (trimSpace config)
    let rest ← parsePortRanges env configs
    .ok (ports ++ rest)

def newSSRFProtectionFromFetchSetting (env : FetchEnv) (setting : FetchSetting) :
    Except String SSRFProtection :=
  match parsePortRanges env setting.allowedPorts with
  | .error e => .error s!"request reject - invalid port configuration: {e}"
  | .ok allowedPorts => .ok
    { allowPrivateIp := setting.allowPrivateIp
      domainFilterMode := setting.domainFilterMode
      domainList := setting.domainList
      ipFilterMode := setting.ipFilterMode
      ipList := setting.ipList
      allowedPorts := allowedPorts
      applyIPFilterForDomain := setting.applyIPFilterForDomain }

/-- The protection, unless it is disabled. -/
def currentFetchProtection (env : FetchEnv) (setting : FetchSetting) :
    Except String (Option SSRFProtection) :=
  if setting.enableSSRFProtection then (newSSRFProtectionFromFetchSetting env setting).map some
  else .ok none

/-! ### Addresses -/

def privateIPv4Nets : List IPNet :=
  [IPNet.of4 0 0 0 0 8, IPNet.of4 10 0 0 0 8, IPNet.of4 100 64 0 0 10, IPNet.of4 127 0 0 0 8,
    IPNet.of4 169 254 0 0 16, IPNet.of4 172 16 0 0 12, IPNet.of4 192 0 0 0 24,
    IPNet.of4 192 0 2 0 24,
    IPNet.of4 192 168 0 0 16, IPNet.of4 198 18 0 0 15, IPNet.of4 198 51 100 0 24,
    IPNet.of4 203 0 113 0 24,
    IPNet.of4 224 0 0 0 4, IPNet.of4 240 0 0 0 4, IPNet.of4 255 255 255 255 32]

def privateIPv6Nets : List IPNet :=
  ["::/128", "::1/128", "::ffff:0:0/96", "64:ff9b::/96", "100::/64", "2001::/23", "2001:db8::/32",
    "fc00::/7", "fe80::/10", "ff00::/8"].filterMap parseCIDR

section Kinds

variable (ip : IP)

def isUnspecified : Bool := ip = IP.of4 0 ∨ ip = 0

def isLoopback : Bool := if ip.is4 then ip.byte 12 = 127 else ip = 1

def isLinkLocalUnicast : Bool :=
  if ip.is4 then ip.byte 12 = 169 ∧ ip.byte 13 = 254 else ip.byte 0 = 0xfe ∧ ip.byte 1 / 64 = 2

def isLinkLocalMulticast : Bool :=
  if ip.is4 then ip.byte 12 = 224 ∧ ip.byte 13 = 0 ∧ ip.byte 14 = 0
  else ip.byte 0 = 0xff ∧ ip.byte 1 % 16 = 2

def isInterfaceLocalMulticast : Bool := ip.byte 0 = 0xff ∧ ip.byte 1 % 16 = 1

/-- The private addresses of the standard library, for version 6. -/
def isUniqueLocal : Bool := ip.byte 0 / 2 = 0x7e

def isPrivateIP : Bool :=
  isUnspecified ip || isLoopback ip || isLinkLocalUnicast ip || isLinkLocalMulticast ip ||
    isInterfaceLocalMulticast ip ||
    if ip.is4 then privateIPv4Nets.any fun network => network.contains ip
    else (privateIPv6Nets.any fun network => network.contains ip) || isUniqueLocal ip

def isIpInCIDRList (cidrList : List String) : Bool :=
  cidrList.any fun cidr =>
    match parseCIDR cidr with
    | some network => network.contains ip
    | none => parseIP cidr = some ip

end Kinds

end ProtectedFetch

open ProtectedFetch

namespace SSRFProtection

variable (env : FetchEnv) (p : SSRFProtection)

def isAllowedPort (port : Int) : Bool := p.allowedPorts = [] ∨ port ∈ p.allowedPorts

/-- An item of the domain list names a domain, both in lower case. -/
def itemNames (item domain : String) : Bool :=
  item ≠ "" && (domain = item ||
    hasPrefix item "*." &&
      (hasSuffix domain ("." ++ cutPrefix item "*.") || domain = cutPrefix item "*."))

def isDomainListed (domain : String) : Bool :=
  p.domainList.any fun item => itemNames (env.toLower (trimSpace item)) (env.toLower domain)

def isDomainAllowed (domain : String) : Bool :=
  if p.domainFilterMode then p.isDomainListed env domain else !p.isDomainListed env domain

def isIPAccessAllowed (ip : IP) : Bool :=
  if isPrivateIP ip && !p.allowPrivateIp then false
  else if p.ipFilterMode then isIpInCIDRList ip p.ipList
  else !isIpInCIDRList ip p.ipList

def ipAccessError (host : String) (ip : IP) : String :=
  let address := if host = "" then ip.string else s!"{host} resolves to {ip.string}"
  if isPrivateIP ip && !p.allowPrivateIp then s!"private IP address not allowed: {address}"
  else if p.ipFilterMode then s!"ip not in whitelist: {address}"
  else s!"ip in blacklist: {address}"

/-- The check of an address or a name, without white space around it. -/
def validateHost (host : String) : Except String Unit :=
  match parseIP host with
  | some ip => if p.isIPAccessAllowed ip then .ok () else .error (p.ipAccessError "" ip)
  | none =>
    if p.isDomainAllowed env host then .ok ()
    else if p.domainFilterMode then .error s!"domain not in whitelist: {host}"
    else .error s!"domain in blacklist: {host}"

def validateNetworkTarget (host : String) (port : Int) : Except String Unit :=
  if trimSpace host = "" then .error "invalid host"
  else if port < 1 ∨ port > 65535 then .error s!"invalid port: {port}"
  else if ¬ p.isAllowedPort port then .error s!"port {port} is not allowed"
  else p.validateHost env (trimSpace host)

def validateResolvedIP (host : String) (ip : IP) : Except String Unit :=
  if p.isIPAccessAllowed ip then .ok () else .error (p.ipAccessError host ip)

/-- A target as texts, of which the port is a number. -/
def validateTarget (host portText : String) : Except String Unit :=
  match atoi portText with
  | .error _ => .error s!"invalid port: {portText}"
  | .ok port => p.validateNetworkTarget env host port

def validateResolvedIPs (host : String) : List IP → Except String Unit
  | [] => .ok ()
  | ip :: ips =>
    match p.validateResolvedIP host ip with
    | .error e => .error e
    | .ok () => validateResolvedIPs host ips

/-- The host and the port of a URL that are checked. -/
def urlTarget (url : URL) : String × String :=
  match splitHostPort url.host with
  | .ok target => target
  | .error _ => (url.hostname, if url.scheme = "https" then "443" else "80")

/-- The check of a URL; `lookup` is what the lookup of its name gives. -/
def validateURL (url : URL) (lookup : Except String (List IP)) : Except String Unit :=
  if url.scheme ≠ "http" ∧ url.scheme ≠ "https" then
    .error s!"unsupported protocol: {url.scheme} (only http/https allowed)"
  else
    match p.validateTarget env (urlTarget url).1 (urlTarget url).2 with
    | .error e => .error e
    | .ok () =>
      if (parseIP (urlTarget url).1).isSome ∨ p.applyIPFilterForDomain = false then .ok ()
      else
        match lookup with
        | .error e => .error s!"DNS resolution failed for {(urlTarget url).1}: {e}"
        | .ok ips => p.validateResolvedIPs (urlTarget url).1 ips

end SSRFProtection

open SSRFProtection

namespace ProtectedFetch

/-! ### Dialing -/

/-- An address that is given to the dialer, in its two parts. -/
structure Address where
  host : String
  port : String
deriving DecidableEq

inductive Network
  | tcp
  | tcp4
  | tcp6

def networkAllowsIP : Network → IP → Bool
  | .tcp, _ => true
  | .tcp4, ip => ip.is4
  | .tcp6, ip => !ip.is4

/-- What happens during one call of `DialContext`: the answer to its lookup, and how its calls of
the dialer end, one after the other. -/
structure Dial where
  lookup : Except String (List (Option IP))
  dialer : Nat → Except String Unit

variable (env : FetchEnv) (p : SSRFProtection)

def candidateIPs (network : Network) (host : String) : List (Option IP) → Except String (List IP)
  | [] => .ok []
  | none :: resolved => candidateIPs network host resolved
  | some ip :: resolved =>
    if ¬ networkAllowsIP network ip then candidateIPs network host resolved
    else
      match p.validateResolvedIP host ip with
      | .error e => .error e
      | .ok () => (candidateIPs network host resolved).map (ip :: ·)

/-- The candidates are dialed until there is a connection. -/
def dialCandidates (dialer : Nat → Except String Unit) (host port : String) :
    Nat → Option String → List IP → List Address × Except String Unit
  | _, some lastDialErr, [] => ([], .error lastDialErr)
  | _, none, [] => ([], .error s!"DNS resolution for {host} returned no usable IP addresses")
  | n, _, ip :: ips =>
    match dialer n with
    | .ok () => ([⟨ip.string, port⟩], .ok ())
    | .error e =>
      let (addresses, result) := dialCandidates dialer host port (n + 1) (some e) ips
      (⟨ip.string, port⟩ :: addresses, result)

/-- The calls of the dialer for a target, and the result. -/
def dialTarget (network : Network) (dial : Dial) (host port : String) :
    List Address × Except String Unit :=
  match p.validateTarget env host port with
  | .error e => ([], .error e)
  | .ok () =>
    match parseIP host with
    | some ip => ([⟨ip.string, port⟩], dial.dialer 0)
    | none =>
      if p.applyIPFilterForDomain = false then ([⟨host, port⟩], dial.dialer 0)
      else
        match dial.lookup with
        | .error e => ([], .error s!"DNS resolution failed for {host}: {e}")
        | .ok resolved =>
          match candidateIPs p network host resolved with
          | .error e => ([], .error e)
          | .ok ips => dialCandidates dial.dialer host port 0 none ips

/-- Without protection the address is dialed as it is. -/
def dialContext (protection : Except String (Option SSRFProtection)) (network : Network)
    (dial : Dial) (addr : String) :
    List Address × Except String Unit :=
  match protection with
  | .error e => ([], .error e)
  | .ok none =>
    match splitHostPort addr with
    | .ok (host, port) => ([⟨host, port⟩], dial.dialer 0)
    | .error e => ([], .error e)
  | .ok (some p) =>
    match splitHostPort addr with
    | .error e => ([], .error s!"invalid dial address {addr}: {e}")
    | .ok (host, port) => dialTarget env p network dial host port

/-! ### Requests -/

/-- The address of a URL that the transport dials. -/
def canonicalAddr (url : URL) : String :=
  let port := if url.port = "" then (if url.scheme = "https" then "443" else "80") else url.port
  joinHostPort (env.idnaASCII url.hostname) port

/-- One request of a chain of redirects: its URL, the answers to the lookups of the two checks of
the URL, and the dials of the transport, which also dials again and may reuse a connection. -/
structure Hop where
  url : URL
  redirectLookup : Except String (List IP)
  lookup : Except String (List IP)
  dials : List Dial

/-- An address that is dialed, with the request and the dial that it comes from. -/
structure Dialed where
  url : URL
  dial : Dial
  address : Address

variable (setting : FetchSetting)

def validateSSRFProtectedFetchURL (url : URL) (lookup : Except String (List IP)) :
    Except String Unit :=
  match currentFetchProtection env setting with
  | .error e => .error e
  | .ok none => .ok ()
  | .ok (some p) => p.validateURL env url lookup

def roundTrip (hop : Hop) : Except String (List Dialed) :=
  match validateSSRFProtectedFetchURL env setting hop.url hop.lookup with
  | .error e => .error e
  | .ok () => .ok (hop.dials.flatMap fun dial =>
    (dialContext env (currentFetchProtection env setting) .tcp dial
      (canonicalAddr env hop.url)).1.map fun address =>
        ⟨hop.url, dial, address⟩)

def checkProtectedFetchRedirect (hop : Hop) (via : Nat) : Except String Unit :=
  match validateSSRFProtectedFetchURL env setting hop.url hop.redirectLookup with
  | .error e => .error s!"redirect to {hop.url.text} blocked: {e}"
  | .ok () => if via ≥ 10 then .error "stopped after 10 redirects" else .ok ()

/-- The addresses that are dialed along a chain of redirects, after `via` requests.  The first
request is no redirect. -/
def fetch : Nat → List Hop → List Dialed
  | _, [] => []
  | via, hop :: hops =>
    match if via = 0 then .ok () else checkProtectedFetchRedirect env setting hop via with
    | .error _ => []
    | .ok () =>
      match roundTrip env setting hop with
      | .error _ => []
      | .ok dialed => dialed ++ fetch (via + 1) hops

/-! ### What is asked -/

variable (name : String)

/-- A name in lower case without the dot that may stand behind it. -/
def dnsName : String := cutSuffix name "."

/-- A domain and all its subdomains; the root is above all names. -/
def dnsUnder (name domain : String) : Bool :=
  dnsName domain = "" || dnsName name = dnsName domain ||
    hasSuffix (dnsName name) ("." ++ dnsName domain)

/-- An item of the domain list names a domain as DNS understands names. -/
def dnsItemNames (item name : String) : Bool :=
  item ≠ "" &&
    (dnsName name = dnsName item || hasPrefix item "*." && dnsUnder name (cutPrefix item "*."))

def dnsListed : Bool :=
  p.domainList.any fun item => dnsItemNames (env.toLower (trimSpace item)) (env.toLower name)

def dnsAllowed : Bool := if p.domainFilterMode then dnsListed env p name else !dnsListed env p name

/-- The address that a host is in one of the textual forms, with or without a zone. -/
def literalIP (host : String) : Option IP := (parseAddr host).map Addr.ip

/-- The host of a request is permitted, and so is the address that is dialed for a name. -/
def HostPermitted (d : Dialed) : Prop :=
  match literalIP d.url.hostname with
  | some ip => p.isIPAccessAllowed ip = true
  | none => dnsAllowed env p d.url.hostname = true ∧
    (p.applyIPFilterForDomain = true → ∃ resolved, d.dial.lookup = .ok resolved ∧
      ∃ ip, some ip ∈ resolved ∧ p.isIPAccessAllowed ip = true ∧ d.address.host = ip.string)

/-- What is asked of an address that is dialed, if the settings are valid. -/
def Permitted (d : Dialed) : Prop :=
  ∀ p, newSSRFProtectionFromFetchSetting env setting = .ok p →
    (∃ port, atoi d.address.port = .ok port ∧ p.isAllowedPort port = true) ∧ HostPermitted env p d

/-- The checks that a URL and the address it is dialed at pass before any lookup; and there is an
address that a name may have. -/
structure Passes (url : URL) (host port : String) : Prop where
  scheme : url.scheme = "http" ∨ url.scheme = "https"
  target : p.validateTarget env url.hostname (urlTarget url).2 = .ok ()
  addr : splitHostPort (canonicalAddr env url) = .ok (host, port)
  dialed : p.validateTarget env host port = .ok ()
  usable : p.applyIPFilterForDomain = true → parseIP host = none →
    ∃ ip, p.isIPAccessAllowed ip = true

/-- The spelling of a host does not get around the lists.  An address with a zone is permitted;
white space around a name does not matter; a name that is on the list of those not allowed is there
as it is spelled, up to case; and if the addresses of names are checked, the name is not dialed as
an address. -/
def SpelledPlainly (url : URL) : Prop :=
  ∀ p, newSSRFProtectionFromFetchSetting env setting = .ok p →
    ∀ host port, Passes env p url host port → match literalIP url.hostname with
    | some ip => parseIP (trimSpace url.hostname) = some ip ∨ p.isIPAccessAllowed ip = true
    | none =>
      (trimSpace url.hostname ≠ url.hostname → dnsAllowed env p url.hostname = true) ∧
      (trimSpace url.hostname = url.hostname → p.domainFilterMode = false →
        dnsListed env p url.hostname = true → p.isDomainListed env url.hostname = true) ∧
      (p.applyIPFilterForDomain = true → parseIP host = none)

/-! ### The lists -/

theorem dnsName_concat (front : List Char) (c : Char) :
    dnsName (String.ofList (front ++ [c])) = if c = '.' then String.ofList front
      else String.ofList (front ++ [c]) := by
  unfold dnsName cutSuffix hasSuffix
  by_cases hdot : c = '.'
  · subst hdot
    simp
  · have hnot : ¬ ['.'].isSuffixOf (String.ofList (front ++ [c])).toList = true := by
      rw [String.toList_ofList]
      intro h
      obtain ⟨l, hl⟩ := isSuffixOf_iff_suffix.mp h
      have hlast := congrArg List.getLast? hl
      simp at hlast
      exact hdot hlast.symm
    exact (if_neg hnot).trans (if_neg hdot).symm

variable {domain : String}

theorem dnsUnder_of_hasSuffix {name : String} (h : hasSuffix name ("." ++ domain) = true) :
    dnsUnder name domain = true := by
  obtain ⟨front, hfront⟩ := isSuffixOf_iff_suffix.mp h
  have hname : name = String.ofList (front ++ '.' :: domain.toList) := by
    rw [← String.ofList_toList (s := name), ← hfront]
    simp
  unfold dnsUnder
  rcases eq_nil_or_concat domain.toList with hnil | ⟨init, c, hconcat⟩
  -- the root
  · rw [String.toList_eq_nil_iff.mp hnil]
    rfl
  · have hdomain : domain = String.ofList (init ++ [c]) := by
      rw [← String.ofList_toList (s := domain), hconcat, concat_eq_append]
    have hsuffix : hasSuffix (dnsName name) ("." ++ dnsName domain) = true := by
      have hlong : name = String.ofList ((front ++ '.' :: init) ++ [c]) := by
        rw [hname, hconcat, concat_eq_append]
        simp
      rw [hlong, hdomain, dnsName_concat, dnsName_concat]
      refine isSuffixOf_iff_suffix.mpr ⟨front, ?_⟩
      split_ifs
      · simp
      · simp
    rw [hsuffix, Bool.or_true]

/-- What is named as a text is named as a DNS name. -/
theorem dnsItemNames_of_itemNames {item : String} (h : itemNames item domain = true) :
    dnsItemNames item domain = true := by
  unfold itemNames at h
  unfold dnsItemNames
  simp only [Bool.and_eq_true, Bool.or_eq_true, decide_eq_true_eq] at h ⊢
  obtain ⟨hne, rfl | ⟨hstar, hsuffix | rfl⟩⟩ := h
  · exact ⟨hne, .inl rfl⟩
  · exact ⟨hne, .inr ⟨hstar, dnsUnder_of_hasSuffix hsuffix⟩⟩
  · refine ⟨hne, .inr ⟨hstar, ?_⟩⟩
    unfold dnsUnder
    simp

variable {env p}

theorem dnsListed_of_isDomainListed (h : p.isDomainListed env domain = true) :
    dnsListed env p domain = true := by
  obtain ⟨item, hitem, hnames⟩ := any_eq_true.mp h
  exact any_eq_true.mpr ⟨item, hitem, dnsItemNames_of_itemNames hnames⟩

/-! ### The checks -/

variable {host port : String} {ip : IP} {url : URL}

theorem validateTarget_ok (h : p.validateTarget env host port = .ok ()) :
    (∃ n, atoi port = .ok n ∧ p.isAllowedPort n = true) ∧
      p.validateHost env (trimSpace host) = .ok () := by
  unfold validateTarget at h
  cases hport : atoi port with
  | error e =>
    rw [hport] at h
    cases h
  | ok n =>
    rw [hport] at h
    dsimp only at h
    unfold validateNetworkTarget at h
    split_ifs at h with _ _ hallowed
    exact ⟨⟨n, rfl, hallowed⟩, h⟩

theorem allowed_of_validateHost (h : p.validateHost env host = .ok ())
    (hip : parseIP host = some ip) :
    p.isIPAccessAllowed ip = true := by
  unfold validateHost at h
  rw [hip] at h
  dsimp only at h
  split_ifs at h with hallowed
  exact hallowed

theorem domain_of_validateHost (h : p.validateHost env host = .ok ()) (hip : parseIP host = none) :
    p.isDomainAllowed env host = true := by
  unfold validateHost at h
  rw [hip] at h
  dsimp only at h
  split_ifs at h with hallowed
  exact hallowed

theorem allowed_of_validateResolvedIP :
    p.validateResolvedIP host ip = .ok () ↔ p.isIPAccessAllowed ip = true := by
  unfold validateResolvedIP
  split_ifs with h
  · exact iff_of_true rfl h
  · exact iff_of_false nofun h

theorem urlTarget_fst : (urlTarget url).1 = url.hostname := by
  unfold urlTarget
  cases hsplit : splitHostPort url.host with
  | error e => rfl
  | ok target =>
    obtain ⟨host, port⟩ := target
    exact (URL.hostname_of_splitHostPort hsplit).symm

/-- What passes the check of a URL. -/
theorem validateURL_ok {lookup : Except String (List IP)}
    (h : p.validateURL env url lookup = .ok ()) :
    (url.scheme = "http" ∨ url.scheme = "https") ∧
      p.validateTarget env url.hostname (urlTarget url).2 = .ok () := by
  unfold validateURL at h
  rw [urlTarget_fst] at h
  by_cases hscheme : url.scheme ≠ "http" ∧ url.scheme ≠ "https"
  · rw [if_pos hscheme] at h
    cases h
  · rw [if_neg hscheme] at h
    refine ⟨?_, ?_⟩
    · by_contra hother
      exact hscheme (not_or.mp hother)
    · cases htarget : p.validateTarget env url.hostname (urlTarget url).2 with
      | ok _ => rfl
      | error e =>
        rw [htarget] at h
        cases h

/-- The check of a URL passes if the lookup finds nothing. -/
theorem validateURL_of_target (hscheme : url.scheme = "http" ∨ url.scheme = "https")
    (htarget : p.validateTarget env url.hostname (urlTarget url).2 = .ok ()) :
    p.validateURL env url (.ok []) = .ok () := by
  unfold validateURL
  rw [if_neg (not_and_or.mpr (hscheme.imp not_not_intro not_not_intro)), urlTarget_fst, htarget]
  dsimp only
  split_ifs
  · rfl
  · rfl

/-! ### The dials -/

variable {dial : Dial}

section Dials

variable {network : Network} {address : Address} {ips : List IP}

theorem mem_candidateIPs {resolved : List (Option IP)}
    (h : candidateIPs p network host resolved = .ok ips) :
    ∀ ip ∈ ips, some ip ∈ resolved ∧ p.isIPAccessAllowed ip = true := by
  induction resolved generalizing ips with
  | nil =>
    cases h
    exact fun ip hip => absurd hip not_mem_nil
  | cons answer resolved ih =>
    intro ip hip
    cases answer with
    | none => exact (ih h ip hip).imp_left (mem_cons_of_mem none)
    | some first =>
      rw [candidateIPs] at h
      -- an address of another network is skipped, one that is not allowed ends the dial
      by_cases hnetwork : networkAllowsIP network first = true
      · rw [if_neg (not_not_intro hnetwork)] at h
        cases hvalid : p.validateResolvedIP host first with
        | error e =>
          rw [hvalid] at h
          cases h
        | ok _ =>
          rw [hvalid] at h
          cases hrest : candidateIPs p network host resolved with
          | error e =>
            rw [hrest] at h
            cases h
          | ok rest =>
            rw [hrest] at h
            cases h
            rcases mem_cons.mp hip with rfl | hip
            · exact ⟨mem_cons_self, allowed_of_validateResolvedIP.mp hvalid⟩
            · exact (ih hrest ip hip).imp_left (mem_cons_of_mem (some first))
      · rw [if_pos hnetwork] at h
        exact (ih h ip hip).imp_left (mem_cons_of_mem (some first))

theorem mem_dialCandidates {dialer : Nat → Except String Unit} {n : Nat} {last : Option String}
    (h : address ∈ (dialCandidates dialer host port n last ips).1) :
    ∃ ip ∈ ips, address = ⟨ip.string, port⟩ := by
  induction ips generalizing n last with
  | nil =>
    cases last with
    | none => exact absurd h not_mem_nil
    | some e => exact absurd h not_mem_nil
  | cons ip ips ih =>
    rw [dialCandidates] at h
    -- the next address is tried only if this one fails
    cases hdial : dialer n with
    | ok _ =>
      rw [hdial] at h
      exact ⟨ip, mem_cons_self, mem_singleton.mp h⟩
    | error e =>
      rw [hdial] at h
      rcases mem_cons.mp h with rfl | h
      · exact ⟨ip, mem_cons_self, rfl⟩
      · obtain ⟨ip', hip', heq⟩ := ih h
        exact ⟨ip', mem_cons_of_mem ip hip', heq⟩

/-- What is dialed for a target passed its check; for a name whose addresses are checked it is one
of them. -/
theorem mem_dialTarget (h : address ∈ (dialTarget env p network dial host port).1) :
    p.validateTarget env host port = .ok () ∧ address.port = port ∧
      (parseIP host = none → p.applyIPFilterForDomain = true →
        ∃ resolved, dial.lookup = .ok resolved ∧
        ∃ ip, some ip ∈ resolved ∧ p.isIPAccessAllowed ip = true ∧ address.host = ip.string) := by
  unfold dialTarget at h
  cases hvalid : p.validateTarget env host port with
  | error e =>
    rw [hvalid] at h
    exact absurd h not_mem_nil
  | ok _ =>
    rw [hvalid] at h
    dsimp only at h
    refine ⟨rfl, ?_⟩
    -- an address is dialed as it is; a name through the lookup, if its addresses are checked
    cases hip : parseIP host with
    | some ip =>
      rw [hip] at h
      rw [mem_singleton.mp h]
      exact ⟨rfl, nofun⟩
    | none =>
      rw [hip] at h
      dsimp only at h
      by_cases happly : p.applyIPFilterForDomain = false
      · rw [if_pos happly] at h
        rw [mem_singleton.mp h]
        refine ⟨rfl, fun _ htrue => ?_⟩
        rw [happly] at htrue
        cases htrue
      · rw [if_neg happly] at h
        cases hlookup : dial.lookup with
        | error e =>
          rw [hlookup] at h
          exact absurd h not_mem_nil
        | ok resolved =>
          rw [hlookup] at h
          dsimp only at h
          cases hips : candidateIPs p network host resolved with
          | error e =>
            rw [hips] at h
            exact absurd h not_mem_nil
          | ok ips =>
            rw [hips] at h
            obtain ⟨ip, hmem, rfl⟩ := mem_dialCandidates h
            obtain ⟨hresolved, hallowed⟩ := mem_candidateIPs hips ip hmem
            exact ⟨rfl, fun _ _ => ⟨resolved, rfl, ip, hresolved, hallowed, rfl⟩⟩

theorem exists_dialTarget (hvalid : p.validateTarget env host port = .ok ())
    (hlookup : p.applyIPFilterForDomain = true → parseIP host = none →
      ∃ ip, p.isIPAccessAllowed ip = true ∧ dial.lookup = .ok [some ip]) :
    ∃ address, address ∈ (dialTarget env p .tcp dial host port).1 := by
  unfold dialTarget
  rw [hvalid]
  dsimp only
  cases hparse : parseIP host with
  | some literal => exact ⟨_, mem_cons_self⟩
  | none =>
    dsimp only
    by_cases happly : p.applyIPFilterForDomain = false
    · rw [if_pos happly]
      exact ⟨_, mem_cons_self⟩
    · rw [if_neg happly]
      -- an answer with one allowed address leads to a dial
      obtain ⟨ip, hallowed, hanswer⟩ := hlookup (eq_true_of_ne_false happly) hparse
      have hnetwork : networkAllowsIP .tcp ip = true := rfl
      have hcandidate : candidateIPs p .tcp host [some ip] = .ok [ip] := by
        rw [candidateIPs, if_neg (not_not_intro hnetwork),
          allowed_of_validateResolvedIP.mpr hallowed]
        rfl
      rw [hanswer]
      dsimp only
      rw [hcandidate]
      dsimp only
      rw [dialCandidates]
      split
      · exact ⟨_, mem_cons_self⟩
      · exact ⟨_, mem_cons_self⟩

end Dials

/-! ### The requests -/

section Requests

variable {setting : FetchSetting}

theorem currentFetchProtection_enabled (henabled : setting.enableSSRFProtection = true)
    (h : newSSRFProtectionFromFetchSetting env setting = .ok p) :
    currentFetchProtection env setting = .ok (some p) := by
  unfold currentFetchProtection
  rw [if_pos henabled, h]
  rfl

variable {d : Dialed}

/-- What is dialed is dialed by one of the requests. -/
theorem mem_fetch {via : Nat} {hops : List Hop} (h : d ∈ fetch env setting via hops) :
    ∃ hop ∈ hops, ∃ dialed, roundTrip env setting hop = .ok dialed ∧ d ∈ dialed := by
  induction hops generalizing via with
  | nil => exact absurd h not_mem_nil
  | cons hop hops ih =>
    rw [fetch] at h
    split at h
    · exact absurd h not_mem_nil
    · -- a request that is refused ends the chain
      cases hround : roundTrip env setting hop with
      | error e =>
        rw [hround] at h
        exact absurd h not_mem_nil
      | ok dialed =>
        rw [hround] at h
        rcases mem_append.mp h with h | h
        · exact ⟨hop, mem_cons_self, dialed, hround, h⟩
        · obtain ⟨hop', hhop', hdialed⟩ := ih h
          exact ⟨hop', mem_cons_of_mem hop hhop', hdialed⟩

variable (hp : currentFetchProtection env setting = .ok (some p))
include hp

/-- A request dials what its address, taken apart, leads to. -/
theorem mem_roundTrip {hop : Hop} {dialed : List Dialed}
    (h : roundTrip env setting hop = .ok dialed) (hd : d ∈ dialed) :
    d.url = hop.url ∧ p.validateURL env hop.url hop.lookup = .ok () ∧
      ∃ host port, splitHostPort (canonicalAddr env hop.url) = .ok (host, port) ∧
        d.address ∈ (dialTarget env p .tcp d.dial host port).1 := by
  unfold roundTrip validateSSRFProtectedFetchURL at h
  rw [hp] at h
  dsimp only at h
  cases hvalid : p.validateURL env hop.url hop.lookup with
  | error e =>
    rw [hvalid] at h
    cases h
  | ok _ =>
    rw [hvalid] at h
    cases h
    -- what is dialed is dialed for the target of the URL
    obtain ⟨dial, -, hdial⟩ := mem_flatMap.mp hd
    obtain ⟨address, haddress, rfl⟩ := mem_map.mp hdial
    unfold dialContext at haddress
    dsimp only at haddress
    cases hsplit : splitHostPort (canonicalAddr env hop.url) with
    | error e =>
      rw [hsplit] at haddress
      exact absurd haddress not_mem_nil
    | ok target =>
      obtain ⟨host, port⟩ := target
      rw [hsplit] at haddress
      exact ⟨rfl, rfl, host, port, rfl, haddress⟩

/-- The request for a URL that passes the checks, with one dial. -/
theorem exists_fetch (h : Passes env p url host port)
    (hlookup : p.applyIPFilterForDomain = true → parseIP host = none →
      ∃ ip, p.isIPAccessAllowed ip = true ∧ dial.lookup = .ok [some ip]) :
    ∃ address, ⟨url, dial, address⟩ ∈ fetch env setting 0 [⟨url, .ok [], .ok [], [dial]⟩] := by
  obtain ⟨address, haddress⟩ := exists_dialTarget h.dialed hlookup
  have hvalid := validateURL_of_target h.scheme h.target
  refine ⟨address, ?_⟩
  rw [fetch, if_pos rfl]
  unfold roundTrip validateSSRFProtectedFetchURL dialContext
  rw [hp]
  dsimp only
  rw [hvalid, h.addr]
  simpa [fetch] using haddress

end Requests

section Spelling

variable (h : Passes env p url host port)
include h

/-- An address is permitted if it is checked as one. -/
theorem literal_allowed_iff :
    p.isIPAccessAllowed ip = true ↔
      parseIP (trimSpace url.hostname) = some ip ∨ p.isIPAccessAllowed ip = true :=
  ⟨.inr, fun hor => hor.elim (allowed_of_validateHost (validateTarget_ok h.target).2) id⟩

theorem name_allowed_iff (hname : literalIP url.hostname = none) :
    dnsAllowed env p url.hostname = true ↔
      (trimSpace url.hostname ≠ url.hostname → dnsAllowed env p url.hostname = true) ∧
      (trimSpace url.hostname = url.hostname → p.domainFilterMode = false →
        dnsListed env p url.hostname = true → p.isDomainListed env url.hostname = true) := by
  constructor
  · intro hallowed
    refine ⟨fun _ => hallowed, fun _ hmode hlisted => ?_⟩
    unfold dnsAllowed at hallowed
    rw [hmode, hlisted] at hallowed
    cases hallowed
  · rintro ⟨hspace, hlist⟩
    by_cases htrim : trimSpace url.hostname = url.hostname
    · -- a name without white space was checked as it is
      have hparse : parseIP url.hostname = none := by
        cases hip : parseIP url.hostname with
        | none => rfl
        | some ip =>
          have := parseAddr_of_parseIP hip
          unfold literalIP at hname
          rw [hname] at this
          cases this
      have hchecked := (validateTarget_ok h.target).2
      rw [htrim] at hchecked
      have hdomain := domain_of_validateHost hchecked hparse
      unfold isDomainAllowed at hdomain
      unfold dnsAllowed
      cases hmode : p.domainFilterMode with
      | true =>
        rw [hmode] at hdomain
        exact dnsListed_of_isDomainListed hdomain
      | false =>
        rw [hmode] at hdomain
        cases hlisted : dnsListed env p url.hostname with
        | false => rfl
        | true =>
          rw [hlist htrim hmode hlisted] at hdomain
          cases hdomain
    · exact hspace htrim

end Spelling

end ProtectedFetch

/-- For every class of URLs: all chains of redirects within it dial permitted targets only, exactly
if their hosts do not get around the lists. -/
theorem only_permitted_iff (env : FetchEnv) (setting : FetchSetting)
    (henabled : setting.enableSSRFProtection = true) (urls : URL → Prop) :
    (∀ hops : List Hop, (∀ hop ∈ hops, urls hop.url) →
      ∀ d ∈ fetch env setting 0 hops, Permitted env setting d) ↔
      ∀ url, urls url → SpelledPlainly env setting url := by
  constructor
  · intro hall url hurl p hsetting host port hpasses
    have hp := currentFetchProtection_enabled henabled hsetting
    -- one request with one dial
    have hpermitted : ∀ dial : Dial, (p.applyIPFilterForDomain = true → parseIP host = none →
        ∃ ip, p.isIPAccessAllowed ip = true ∧ dial.lookup = .ok [some ip]) →
        ∃ address, HostPermitted env p ⟨url, dial, address⟩ := by
      intro dial hlookup
      obtain ⟨address, haddress⟩ := exists_fetch hp hpasses hlookup
      refine ⟨address, (hall _ ?_ _ haddress p hsetting).2⟩
      exact forall_mem_singleton.mpr hurl
    have hresolves : ∃ dial : Dial, p.applyIPFilterForDomain = true → parseIP host = none →
        ∃ ip, p.isIPAccessAllowed ip = true ∧ dial.lookup = .ok [some ip] := by
      by_cases hneeded : p.applyIPFilterForDomain = true ∧ parseIP host = none
      · obtain ⟨ip, hallowed⟩ := hpasses.usable hneeded.1 hneeded.2
        exact ⟨⟨.ok [some ip], fun _ => .ok ()⟩, fun _ _ => ⟨ip, hallowed, rfl⟩⟩
      · exact ⟨⟨.ok [], fun _ => .ok ()⟩, fun happly hnone => absurd ⟨happly, hnone⟩ hneeded⟩
    obtain ⟨dial, hdial⟩ := hresolves
    obtain ⟨address, hhost⟩ := hpermitted dial hdial
    unfold HostPermitted at hhost
    cases hliteral : literalIP url.hostname with
    | some literal =>
      rw [hliteral] at hhost
      exact (literal_allowed_iff hpasses).mp hhost
    | none =>
      rw [hliteral] at hhost
      obtain ⟨hspace, hlist⟩ := (name_allowed_iff hpasses hliteral).mp hhost.1
      refine ⟨hspace, hlist, fun happly => ?_⟩
      -- an address would be dialed without a lookup
      by_contra hsome
      obtain ⟨address, hhost⟩ :=
        hpermitted ⟨.ok [], fun _ => .ok ()⟩ fun _ hnone => absurd hnone hsome
      unfold HostPermitted at hhost
      rw [hliteral] at hhost
      obtain ⟨resolved, hresolved, ip, hmem, -⟩ := hhost.2 happly
      cases hresolved
      exact absurd hmem not_mem_nil
  · intro hplain hops hurls d hd p hsetting
    have hp := currentFetchProtection_enabled henabled hsetting
    obtain ⟨hop, hhop, dialed, hround, hmem⟩ := mem_fetch hd
    obtain ⟨hsame, hvalid, host, port, hsplit, haddress⟩ := mem_roundTrip hp hround hmem
    obtain ⟨hscheme, htarget⟩ := validateURL_ok hvalid
    obtain ⟨hdialed, hport, hresolved⟩ := mem_dialTarget haddress
    have hpasses : Passes env p hop.url host port :=
      ⟨hscheme, htarget, hsplit, hdialed, fun happly hnone => by
        obtain ⟨_, -, ip, -, hallowed, -⟩ := hresolved hnone happly
        exact ⟨ip, hallowed⟩⟩
    have hspelled := hplain hop.url (hurls hop hhop) p hsetting host port hpasses
    refine ⟨by rw [hport]; exact (validateTarget_ok hdialed).1, ?_⟩
    unfold HostPermitted
    rw [hsame]
    cases hliteral : literalIP hop.url.hostname with
    | some literal =>
      rw [hliteral] at hspelled
      exact (literal_allowed_iff hpasses).mpr hspelled
    | none =>
      rw [hliteral] at hspelled
      obtain ⟨hspace, hlist, hnone⟩ := hspelled
      exact ⟨(name_allowed_iff hpasses hliteral).mpr ⟨hspace, hlist⟩,
        fun happly => hresolved (hnone happly) happly⟩

namespace ProtectedFetch

/-- Texts of ASCII. -/
def asciiEnv : FetchEnv where
  unicodeToLower c := c
  idnaASCII host := host
  quote s := "\"" ++ s ++ "\""

def defaultFetchSetting : FetchSetting where
  enableSSRFProtection := true
  allowPrivateIp := false
  domainFilterMode := false
  ipFilterMode := false
  domainList := []
  ipList := []
  allowedPorts := ["80", "443", "8080", "8443"]
  applyIPFilterForDomain := true

def exampleURL : URL := ⟨"https://example.com/", "https", "example.com", rfl⟩

def linkLocalURL : URL := ⟨"http://[fe80::1%25eth0]/", "http", "[fe80::1%eth0]", rfl⟩

def linkLocalHop : Hop := ⟨linkLocalURL, .ok [], .ok [], [⟨.ok [], fun _ => .ok ()⟩]⟩

/-- The addresses of names are not checked. -/
def namesUnresolved : FetchSetting := { defaultFetchSetting with applyIPFilterForDomain := false }

end ProtectedFetch

theorem only_permitted_example : defaultFetchSetting.enableSSRFProtection = true ∧
      ∀ hops : List Hop, (∀ hop ∈ hops, hop.url = exampleURL) →
        ∀ d ∈ fetch asciiEnv defaultFetchSetting 0 hops,
          Permitted asciiEnv defaultFetchSetting d := by
  refine ⟨rfl, (only_permitted_iff asciiEnv defaultFetchSetting rfl (· = exampleURL)).mpr ?_⟩
  rintro url rfl p hp host port hpasses
  cases hp
  have hhost : (host, port) = ("example.com", "443") :=
    Except.ok.inj (hpasses.addr.symm.trans (by decide +kernel))
  cases hhost
  have hname : literalIP exampleURL.hostname = none := by decide +kernel
  rw [hname]
  refine ⟨fun _ => by decide +kernel, fun _ _ hlisted => ?_, fun _ => by decide +kernel⟩
  cases hlisted

/-- A link-local address with a zone is dialed. -/
theorem zone_not_checked : (fetch asciiEnv namesUnresolved 0 [linkLocalHop]).map
        Dialed.address = [⟨"fe80::1%eth0", "80"⟩] ∧
      ¬ ∀ d ∈ fetch asciiEnv namesUnresolved 0 [linkLocalHop],
        Permitted asciiEnv namesUnresolved d := by
  have hdialed : (fetch asciiEnv namesUnresolved 0
      [linkLocalHop]).map Dialed.address = [⟨"fe80::1%eth0", "80"⟩] := by decide +kernel
  refine ⟨hdialed, fun hall => ?_⟩
  have hsetting : newSSRFProtectionFromFetchSetting asciiEnv namesUnresolved =
      .ok ⟨false, false, [], false, [], [80, 443, 8080, 8443], false⟩ := rfl
  have hsome : fetch asciiEnv namesUnresolved 0 [linkLocalHop] ≠ [] := fun hnil => by
    rw [hnil] at hdialed
    cases hdialed
  obtain ⟨d, hd⟩ := exists_mem_of_ne_nil _ hsome
  obtain ⟨hop, hhop, dialed, hround, hmem⟩ := mem_fetch hd
  cases mem_singleton.mp hhop
  have hp := currentFetchProtection_enabled rfl hsetting
  have hhost := (hall d hd _ hsetting).2
  -- the check did not see an address in the host, though it is one
  have hliteral : literalIP linkLocalHop.url.hostname =
      some 0xfe800000000000000000000000000001 := by decide +kernel
  unfold HostPermitted at hhost
  rw [(mem_roundTrip hp hround hmem).1, hliteral] at hhost
  dsimp only at hhost
  exact absurd hhost (by decide +kernel)
