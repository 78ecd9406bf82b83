import Qapi.Core.Address
import Qapi.Core.Result

/-!
# What the server may fetch

A `SSRFProtection` says which targets a request on behalf of a user may have: which ports,
which domains, which addresses. `validateNetworkTarget` checks a host and a port before
anything is resolved, `validateResolvedIP` an address that a name resolves to. Both decide
by `isIPAccessAllowed`, which does not see the form of an address (`isIPAccessAllowed_to16`).
-/

namespace Qapi.Fetch

open Qapi.Core

structure SSRFProtection where
  allowPrivateIp : Bool
  /-- A list of the domains that are allowed; otherwise of those that are not. -/
  domainFilterMode : Bool
  domainList : List String
  /-- A list of the addresses that are allowed; otherwise of those that are not. -/
  ipFilterMode : Bool
  ipList : List String
  allowedPorts : List Int
  applyIPFilterForDomain : Bool

/-! ### Private addresses -/

/-- `IP.IsUnspecified`. -/
def isUnspecified (ip : IP) : Bool :=
  ip.equal (.ipv4 0 0 0 0) || ip.equal ⟨List.replicate 16 0, Or.inr rfl⟩

/-- `IP.IsLoopback`. -/
def isLoopback (ip : IP) : Bool :=
  ip.byForm (fun v4 => v4.take 1 == [127]) (fun v6 => v6 == List.replicate 15 0 ++ [1])

/-- `IP.IsLinkLocalUnicast`. -/
def isLinkLocalUnicast (ip : IP) : Bool :=
  ip.byForm (fun v4 => v4.take 2 == [169, 254])
    (fun v6 => v6.take 1 == [0xfe] && v6.getD 1 0 &&& 0xc0 == 0x80)

/-- `IP.IsLinkLocalMulticast`. -/
def isLinkLocalMulticast (ip : IP) : Bool :=
  ip.byForm (fun v4 => v4.take 3 == [224, 0, 0])
    (fun v6 => v6.take 1 == [0xff] && v6.getD 1 0 &&& 0x0f == 0x02)

/-- `IP.IsInterfaceLocalMulticast`. -/
def isInterfaceLocalMulticast (ip : IP) : Bool :=
  ip.byForm (fun _ => false) (fun v6 => v6.take 1 == [0xff] && v6.getD 1 0 &&& 0x0f == 0x01)

/-- `IP.IsPrivate`. -/
def isPrivate (ip : IP) : Bool :=
  ip.byForm
    (fun v4 => v4.take 1 == [10] || (v4.take 1 == [172] && v4.getD 1 0 &&& 0xf0 == 16) ||
      v4.take 2 == [192, 168])
    (fun v6 => v6.getD 0 0 &&& 0xfe == 0xfc)

def privateIPv4Nets : List IPNet :=
  [⟨.ipv4 0 0 0 0, cidrMask 8 32⟩, ⟨.ipv4 10 0 0 0, cidrMask 8 32⟩,
    ⟨.ipv4 100 64 0 0, cidrMask 10 32⟩, ⟨.ipv4 127 0 0 0, cidrMask 8 32⟩,
    ⟨.ipv4 169 254 0 0, cidrMask 16 32⟩, ⟨.ipv4 172 16 0 0, cidrMask 12 32⟩,
    ⟨.ipv4 192 0 0 0, cidrMask 24 32⟩, ⟨.ipv4 192 0 2 0, cidrMask 24 32⟩,
    ⟨.ipv4 192 168 0 0, cidrMask 16 32⟩, ⟨.ipv4 198 18 0 0, cidrMask 15 32⟩,
    ⟨.ipv4 198 51 100 0, cidrMask 24 32⟩, ⟨.ipv4 203 0 113 0, cidrMask 24 32⟩,
    ⟨.ipv4 224 0 0 0, cidrMask 4 32⟩, ⟨.ipv4 240 0 0 0, cidrMask 4 32⟩,
    ⟨.ipv4 255 255 255 255, cidrMask 32 32⟩]

def privateIPv6Nets : List IPNet :=
  ["::/128", "::1/128", "::ffff:0:0/96", "64:ff9b::/96", "100::/64", "2001::/23",
    "2001:db8::/32", "fc00::/7", "fe80::/10", "ff00::/8"].filterMap parseCIDR

def isPrivateIP (ip : IP) : Bool :=
  isUnspecified ip || isLoopback ip || isLinkLocalUnicast ip || isLinkLocalMulticast ip ||
    isInterfaceLocalMulticast ip ||
    ip.byForm (fun _ => privateIPv4Nets.any fun net => net.contains ip)
      (fun _ => privateIPv6Nets.any (fun net => net.contains ip) || isPrivate ip)

theorem isPrivateIP_to16 (ip : IP) : isPrivateIP ip.to16 = isPrivateIP ip := by
  simp only [isPrivateIP, isUnspecified, isLoopback, isLinkLocalUnicast, isLinkLocalMulticast,
    isInterfaceLocalMulticast, isPrivate, IP.equal_to16, IP.byForm_to16, IPNet.contains_to16]

example : isPrivateIP (.ipv4 192 168 1 1) = true := by decide

example : (parseIP "fd00::1").map isPrivateIP = some true := by decide

/-! ### The lists -/

/-- `IsIpInCIDRList`. -/
def isIpInCIDRList (ip : IP) (cidrList : List String) : Bool :=
  cidrList.any fun cidr =>
    match parseCIDR cidr with
    | some network => network.contains ip
    | none =>
      match parseIP cidr with
      | some whitelistIP => ip.equal whitelistIP
      | none => false

theorem isIpInCIDRList_to16 (ip : IP) (cidrList : List String) :
    isIpInCIDRList ip.to16 cidrList = isIpInCIDRList ip cidrList := by
  simp only [isIpInCIDRList, IP.equal_to16, IPNet.contains_to16]

def isIPListed (ip : IP) (list : List String) : Bool :=
  if list.isEmpty then false else isIpInCIDRList ip list

def isDomainListed (domain : String) (list : List String) : Bool :=
  let domain := toLower domain
  list.any fun item =>
    let item := toLower (trimSpace item)
    if item = "" then false
    else if domain = item then true
    else if startsWith item "*." then
      let ending := trimStart item "*."
      endsWith domain ("." ++ ending) || domain == ending
    else false

namespace SSRFProtection

variable (p : SSRFProtection)

def isAllowedPort (port : Int) : Bool := p.allowedPorts.isEmpty || p.allowedPorts.contains port

def isDomainAllowed (domain : String) : Bool :=
  let listed := isDomainListed domain p.domainList
  if p.domainFilterMode then listed else !listed

def isIPAccessAllowed (ip : IP) : Bool :=
  if isPrivateIP ip && !p.allowPrivateIp then false
  else
    let listed := isIPListed ip p.ipList
    if p.ipFilterMode then listed else !listed

def ipAccessError (host : String) (ip : IP) : String :=
  let target := if host ≠ "" then host ++ " resolves to " ++ ip.text else ip.text
  if isPrivateIP ip && !p.allowPrivateIp then "private IP address not allowed: " ++ target
  else if p.ipFilterMode then "ip not in whitelist: " ++ target
  else "ip in blacklist: " ++ target

def validateNetworkTarget (host : String) (port : Int) : Except String Unit :=
  let host := trimSpace host
  if host = "" then .error "invalid host"
  else if port < 1 ∨ 65535 < port then .error ("invalid port: " ++ toString port)
  else if !p.isAllowedPort port then .error ("port " ++ toString port ++ " is not allowed")
  else match parseIP host with
    | some ip => if !p.isIPAccessAllowed ip then .error (p.ipAccessError "" ip) else .ok ()
    | none =>
      if !p.isDomainAllowed host then
        .error ((if p.domainFilterMode then "domain not in whitelist: " else "domain in blacklist: ")
          ++ host)
      else .ok ()

def validateResolvedIP (host : String) (ip : IP) : Except String Unit :=
  if !p.isIPAccessAllowed ip then .error (p.ipAccessError host ip) else .ok ()

variable {p}

theorem isIPAccessAllowed_to16 (ip : IP) :
    p.isIPAccessAllowed ip.to16 = p.isIPAccessAllowed ip := by
  simp only [isIPAccessAllowed, isIPListed, isPrivateIP_to16, isIpInCIDRList_to16]

theorem isPrivateIP_of_allowed {ip : IP} (hPrivate : p.allowPrivateIp = false)
    (h : p.isIPAccessAllowed ip = true) : isPrivateIP ip = false := by
  unfold isIPAccessAllowed at h
  rw [hPrivate, Bool.not_false, Bool.and_true] at h
  cases hIp : isPrivateIP ip with
  | false => rfl
  | true =>
    rw [hIp] at h
    cases h

def PortAllowed (p : SSRFProtection) (port : Int) : Prop :=
  1 ≤ port ∧ port ≤ 65535 ∧ p.isAllowedPort port = true

theorem validateResolvedIP_eq_ok {host : String} {ip : IP} :
    p.validateResolvedIP host ip = .ok () ↔ p.isIPAccessAllowed ip = true := by
  unfold validateResolvedIP
  cases p.isIPAccessAllowed ip <;> simp

theorem of_validateNetworkTarget {host : String} {port : Int}
    (h : p.validateNetworkTarget host port = .ok ()) :
    p.PortAllowed port ∧
      (∀ ip, parseIP (trimSpace host) = some ip → p.isIPAccessAllowed ip = true) ∧
      (parseIP (trimSpace host) = none → p.isDomainAllowed (trimSpace host) = true) := by
  unfold validateNetworkTarget at h
  unfold PortAllowed
  generalize trimSpace host = host at *
  by_cases hHost : host = ""
  · simp [hHost] at h
  · by_cases hPort : port < 1 ∨ 65535 < port
    · simp [hHost, hPort] at h
    · have hIn : 1 ≤ port ∧ port ≤ 65535 := by omega
      simp only [hHost, hPort, if_false] at h
      revert h
      cases p.isAllowedPort port <;> cases parseIP host <;> simp [hIn]

end SSRFProtection

end Qapi.Fetch
