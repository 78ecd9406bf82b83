import Qapi.Core.HostPort
import Qapi.Fetch.Protection
import Mathlib.Algebra.Group.Int.Defs

/-!
# Dialling a target

`dialContext` is the dial function of the protected fetch client. It checks the host and
the port of an address, looks up a name once, checks every answer that can be used and then
dials the answers as literals, so that nothing is resolved again.

What the network does is up to an `Outside`: it answers each lookup and each dial in the
knowledge of everything that happened before, so the answers for one name may change from
one lookup to the next. A call returns, next to its result, the events it caused.

`validateNetworkTarget` trims the host while the rest of `dialContext` does not. A literal
between blanks is checked as an address and then looked up as a name, and such a name never
meets the domain filter (`BlankLiteral`).
-/

namespace Qapi.Fetch

open Qapi.Core List

/-- An address that a lookup answers, or an entry without one. -/
abbrev Answer := Except String (List (Option IP))

inductive Event where
  | lookup (host : String) (answer : Answer)
  | dial (network address : String)
deriving DecidableEq

def Event.isLookup : Event → Bool
  | .lookup _ _ => true
  | .dial _ _ => false

/-- The resolver and the inner dial function, given everything that happened so far. -/
structure Outside (Conn : Type*) where
  lookupIPAddr : List Event → String → Answer
  dialContext : List Event → String → String → Except String Conn

def networkAllowsIP (network : String) (ip : IP) : Bool :=
  match network with
  | "tcp4" => ip.to4.isSome
  | "tcp6" => ip.to4.isNone
  | _ => true

/-- `strconv.Atoi` on a 64-bit machine. -/
def atoi64 (s : String) : Option Int :=
  (atoi s).filter fun n => -2 ^ 63 ≤ n ∧ n < 2 ^ 63

/-- The answers that are dialled; an answer that can be used and is forbidden is an error. -/
def candidateIPs (p : SSRFProtection) (network host : String) :
    List (Option IP) → Except String (List IP)
  | [] => .ok []
  | none :: resolved => candidateIPs p network host resolved
  | some ip :: resolved =>
    if networkAllowsIP network ip then
      match p.validateResolvedIP host ip with
      | .error e => .error e
      | .ok () => (candidateIPs p network host resolved).map (ip :: ·)
    else candidateIPs p network host resolved

section

variable {Conn : Type*} (o : Outside Conn)

def dialOnce (network address : String) (h : List Event) : Except String Conn × List Event :=
  (o.dialContext h network address, [.dial network address])

def dialEach (network host portText : String) :
    List IP → Option String → List Event → Except String Conn × List Event
  | [], some lastDialErr, _ => (.error lastDialErr, [])
  | [], none, _ =>
    (.error ("DNS resolution for " ++ host ++ " returned no usable IP addresses"), [])
  | ip :: ips, _, h =>
    let address := joinHostPort ip.text portText
    match o.dialContext h network address with
    | .ok conn => (.ok conn, [.dial network address])
    | .error e =>
      let (result, events) := dialEach network host portText ips (some e)
        (h ++ [.dial network address])
      (result, .dial network address :: events)

/-- The answer to the lookup of `host`, checked and dialled. -/
def dialResolved (p : SSRFProtection) (network host portText : String) (h : List Event) :
    Answer → Except String Conn × List Event
  | .error e => (.error ("DNS resolution failed for " ++ host ++ ": " ++ e), [])
  | .ok resolved =>
    match candidateIPs p network host resolved with
    | .error e => (.error e, [])
    | .ok ips => dialEach o network host portText ips none h

/-- The part of `DialContext` after the checks of the target. -/
def dialTarget (p : SSRFProtection) (network addr host portText : String) (h : List Event) :
    Except String Conn × List Event :=
  match parseIP host with
  | some ip => dialOnce o network (joinHostPort ip.text portText) h
  | none =>
    if !p.applyIPFilterForDomain then dialOnce o network addr h
    else
      let answer := o.lookupIPAddr h host
      let (result, events) := dialResolved o p network host portText (h ++ [.lookup host answer])
        answer
      (result, .lookup host answer :: events)

/-- `protectedFetchDialer.DialContext`. -/
def dialContext (getProtection : Except String (Option SSRFProtection)) (network addr : String)
    (h : List Event) : Except String Conn × List Event :=
  match getProtection with
  | .error e => (.error e, [])
  | .ok none => dialOnce o network addr h
  | .ok (some p) =>
    match splitHostPort addr with
    | .error e => (.error ("invalid dial address " ++ addr ++ ": " ++ e), [])
    | .ok (host, portText) =>
      match atoi64 portText with
      | none => (.error ("invalid port: " ++ portText), [])
      | some port =>
        match p.validateNetworkTarget host port with
        | .error e => (.error e, [])
        | .ok () => dialTarget o p network addr host portText h

end

/-! ### What may be dialled -/

def usable (network : String) (resolved : List (Option IP)) : List IP :=
  (resolved.filterMap id).filter (networkAllowsIP network)

/-- An address that is the literal `ip` with the port. -/
def IsLiteral (address portText : String) (ip : IP) : Prop :=
  ∃ literal, splitHostPort address = .ok (literal, portText) ∧ parseIP literal = some ip

/-- The literal that was asked for, or an answer of the lookup among the events. -/
def Requested (host : String) (events : List Event) (ip : IP) : Prop :=
  parseIP host = some ip ∨
    parseIP host = none ∧ ∃ resolved answer, Event.lookup host (.ok resolved) ∈ events ∧
      some answer ∈ resolved ∧ answer.to16 = ip

/-- The events of a call that dials no forbidden address. -/
structure Safe (p : SSRFProtection) (network addr : String) (events : List Event) : Prop where
  /-- Every address that is dialled is a literal that is allowed, with the port that was asked
  for, and it is the literal that was asked for or an answer. -/
  dialled : ∀ n address, Event.dial n address ∈ events → n = network ∧
    ∃ host portText port ip, splitHostPort addr = .ok (host, portText) ∧
      atoi64 portText = some port ∧ p.PortAllowed port ∧ IsLiteral address portText ip ∧
      p.isIPAccessAllowed ip = true ∧ isPrivateIP ip = false ∧ Requested host events ip ∧
      (parseIP host = none → p.isDomainAllowed (trimSpace host) = true)
  /-- There is one lookup at most. -/
  lookups : events.countP Event.isLookup ≤ 1
  /-- Nothing is dialled if an answer that can be used is forbidden. -/
  forbidden : ∀ host resolved, Event.lookup host (.ok resolved) ∈ events →
    (∃ ip ∈ usable network resolved, p.isIPAccessAllowed ip = false) →
    ∀ n address, Event.dial n address ∉ events

/-- A target that the check of the target takes for an address and the lookup for a name. -/
def BlankLiteral (host : String) : Prop :=
  parseIP host = none ∧ (parseIP (trimSpace host)).isSome = true

/-- An answer after which something is dialled: some address can be used, and none that can be
used is forbidden. -/
def Dialable (p : SSRFProtection) (network : String) (answer : Answer) : Prop :=
  ∃ resolved, answer = .ok resolved ∧ usable network resolved ≠ [] ∧
    ∀ ip ∈ usable network resolved, p.isIPAccessAllowed ip = true

/-! ### The steps of a call -/

variable {p : SSRFProtection} {network addr host portText : String}

theorem candidateIPs_eq_ok {resolved : List (Option IP)} {ips : List IP} :
    candidateIPs p network host resolved = .ok ips ↔
      ips = usable network resolved ∧ ∀ ip ∈ ips, p.isIPAccessAllowed ip = true := by
  induction resolved generalizing ips with
  | nil =>
    constructor
    · intro h
      cases h
      exact ⟨rfl, fun ip hip => absurd hip not_mem_nil⟩
    · rintro ⟨rfl, -⟩
      rfl
  | cons answer resolved ih =>
    cases answer with
    | none => exact ih
    | some ip =>
      rw [candidateIPs]
      by_cases hNetwork : networkAllowsIP network ip = true
      · have hUsable : usable network (some ip :: resolved) = ip :: usable network resolved := by
          simp [usable, hNetwork]
        rw [if_pos hNetwork, hUsable]
        by_cases hAllowed : p.isIPAccessAllowed ip = true
        · rw [SSRFProtection.validateResolvedIP_eq_ok.mpr hAllowed]
          simp only
          cases hRest : candidateIPs p network host resolved with
          | error e =>
            constructor
            · intro h
              cases h
            · rintro ⟨rfl, hAll⟩
              rw [forall_mem_cons] at hAll
              have hOk := ih.mpr ⟨rfl, hAll.2⟩
              rw [hRest] at hOk
              cases hOk
          | ok rest =>
            obtain ⟨rfl, hAll⟩ := ih.mp hRest
            constructor
            · intro h
              cases h
              exact ⟨rfl, forall_mem_cons.mpr ⟨hAllowed, hAll⟩⟩
            · rintro ⟨rfl, -⟩
              rfl
        · cases hCheck : p.validateResolvedIP host ip with
          | ok u => exact absurd (SSRFProtection.validateResolvedIP_eq_ok.mp hCheck) hAllowed
          | error e =>
            constructor
            · intro h
              cases h
            · rintro ⟨rfl, hAll⟩
              exact absurd (hAll ip mem_cons_self) hAllowed
      · have hUsable : usable network (some ip :: resolved) = usable network resolved := by
          simp [usable, hNetwork]
        rw [if_neg hNetwork, hUsable]
        exact ih

section

variable {Conn : Type*} {o : Outside Conn} {h : List Event}

theorem mem_dialEach {ips : List IP} {last : Option String} {event : Event}
    (hEvent : event ∈ (dialEach o network host portText ips last h).2) :
    ∃ ip ∈ ips, event = .dial network (joinHostPort ip.text portText) := by
  induction ips generalizing last h with
  | nil => cases last <;> exact absurd hEvent not_mem_nil
  | cons ip ips ih =>
    rw [dialEach] at hEvent
    simp only at hEvent
    split at hEvent
    · rw [mem_singleton] at hEvent
      exact ⟨ip, mem_cons_self, hEvent⟩
    · rw [mem_cons] at hEvent
      rcases hEvent with rfl | hEvent
      · exact ⟨ip, mem_cons_self, rfl⟩
      · obtain ⟨other, hOther, hEq⟩ := ih hEvent
        exact ⟨other, mem_cons_of_mem ip hOther, hEq⟩

theorem first_mem_dialEach {ip : IP} {ips : List IP} {last : Option String} :
    Event.dial network (joinHostPort ip.text portText) ∈
      (dialEach o network host portText (ip :: ips) last h).2 := by
  rw [dialEach]
  simp only
  split
  · exact mem_cons_self
  · exact mem_cons_self

theorem mem_dialResolved {answer : Answer} {event : Event}
    (hEvent : event ∈ (dialResolved o p network host portText h answer).2) :
    ∃ resolved, answer = .ok resolved ∧
      (∀ ip ∈ usable network resolved, p.isIPAccessAllowed ip = true) ∧
      ∃ ip ∈ usable network resolved, event = .dial network (joinHostPort ip.text portText) := by
  cases answer with
  | error e => exact absurd hEvent not_mem_nil
  | ok resolved =>
    rw [dialResolved] at hEvent
    split at hEvent
    · exact absurd hEvent not_mem_nil
    · next ips hIps =>
      obtain ⟨rfl, hAll⟩ := candidateIPs_eq_ok.mp hIps
      exact ⟨resolved, rfl, hAll, mem_dialEach hEvent⟩

theorem exists_mem_dialResolved {answer : Answer} (hAnswer : Dialable p network answer) :
    ∃ address, Event.dial network address ∈
      (dialResolved o p network host portText h answer).2 := by
  obtain ⟨resolved, rfl, hne, hAll⟩ := hAnswer
  obtain ⟨ip, ips, hUsable⟩ := exists_cons_of_ne_nil hne
  rw [dialResolved, candidateIPs_eq_ok.mpr ⟨rfl, hAll⟩, hUsable]
  exact ⟨_, first_mem_dialEach⟩

end

/-! ### Literals -/

theorem mem_of_atoi64 {n : Int} (h : atoi64 portText = some n) {c : Char}
    (hc : c ∈ portText.toList) : c.isDigit = true ∨ c = '+' ∨ c = '-' := by
  have hAtoi := (Option.filter_eq_some_iff.mp h).1
  unfold atoi at hAtoi
  split at hAtoi
  rename_i sign digits hSign
  have hDigits : ∀ c ∈ digits, c.isDigit = true := by
    by_cases hAll : digits ≠ [] ∧ digits.all Char.isDigit
    · exact all_eq_true.mp hAll.2
    · rw [if_neg hAll] at hAtoi
      cases hAtoi
  split at hSign
  · next l hList =>
    cases hSign
    rw [hList, mem_cons] at hc
    rcases hc with rfl | hc
    · exact Or.inr (Or.inr rfl)
    · exact Or.inl (hDigits c hc)
  · next l hList =>
    cases hSign
    rw [hList, mem_cons] at hc
    rcases hc with rfl | hc
    · exact Or.inr (Or.inl rfl)
    · exact Or.inl (hDigits c hc)
  · cases hSign
    exact Or.inl (hDigits c hc)

/-- What is dialled for an address is a literal of that address. -/
theorem isLiteral_joinHostPort {n : Int} (h : atoi64 portText = some n) (ip : IP) :
    IsLiteral (joinHostPort ip.text portText) portText ip.to16 := by
  have hPort : ∀ c, c.isDigit = false → c ≠ '+' → c ≠ '-' → c ∉ portText.toList := by
    intro c hDigit hPlus hMinus hc
    rcases mem_of_atoi64 h hc with hIs | hEq | hEq
    · rw [hDigit] at hIs
      cases hIs
    · exact hPlus hEq
    · exact hMinus hEq
  have hText : ∀ c, isHex c = false → c ≠ ':' → c ≠ '.' → c ∉ ip.text.toList := by
    intro c hHex hColon hDot hc
    rcases mem_of_parseIP (parseIP_text ip) c hc with hIs | hEq | hEq
    · rw [hHex] at hIs
      cases hIs
    · exact hColon hEq
    · exact hDot hEq
  refine ⟨ip.text, ?_, parseIP_text ip⟩
  apply splitHostPort_joinHostPort
  · exact hText '[' rfl (by decide) (by decide)
  · exact hText ']' rfl (by decide) (by decide)
  · exact hPort ':' rfl (by decide) (by decide)
  · exact hPort '[' rfl (by decide) (by decide)
  · exact hPort ']' rfl (by decide) (by decide)

/-! ### Whole calls -/

theorem safe_nil : Safe p network addr [] where
  dialled := fun _ _ hDial => absurd hDial not_mem_nil
  lookups := Nat.zero_le 1
  forbidden := fun _ _ hLookup => absurd hLookup not_mem_nil

section

variable {Conn : Type*} {o : Outside Conn} {h : List Event} {port : Int}

theorem safe_literal (hPrivate : p.allowPrivateIp = false)
    (hSplit : splitHostPort addr = .ok (host, portText)) (hAtoi : atoi64 portText = some port)
    (hPort : p.PortAllowed port) {ip : IP} (hHost : parseIP host = some ip)
    (hAllowed : p.isIPAccessAllowed ip = true) :
    Safe p network addr (dialOnce o network (joinHostPort ip.text portText) h).2 where
  dialled := by
    intro n address hDial
    simp only [dialOnce, mem_singleton, Event.dial.injEq] at hDial
    obtain ⟨rfl, rfl⟩ := hDial
    have hForm : ip.to16 = ip := by
      obtain ⟨short, -, rfl⟩ := Option.map_eq_some_iff.mp hHost
      exact IP.to16_to16 short
    have hLiteral := isLiteral_joinHostPort hAtoi ip
    rw [hForm] at hLiteral
    refine ⟨rfl, host, portText, port, ip, hSplit, hAtoi, hPort, hLiteral, hAllowed,
      SSRFProtection.isPrivateIP_of_allowed hPrivate hAllowed, Or.inl hHost, ?_⟩
    intro hNone
    rw [hHost] at hNone
    cases hNone
  lookups := Nat.zero_le 1
  forbidden := by
    intro host resolved hLookup
    simp only [dialOnce, mem_singleton] at hLookup
    cases hLookup

/-- A name that passes the domain filter wherever something is dialled for it. -/
theorem safe_name (hPrivate : p.allowPrivateIp = false)
    (hSplit : splitHostPort addr = .ok (host, portText)) (hAtoi : atoi64 portText = some port)
    (hPort : p.PortAllowed port) (hHost : parseIP host = none) {answer : Answer}
    (hName : Dialable p network answer → p.isDomainAllowed (trimSpace host) = true) :
    Safe p network addr (.lookup host answer ::
      (dialResolved o p network host portText h answer).2) where
  dialled := by
    intro n address hDial
    rw [mem_cons] at hDial
    rcases hDial with hDial | hDial
    · cases hDial
    · obtain ⟨resolved, rfl, hAll, ip, hIp, hEq⟩ := mem_dialResolved hDial
      cases hEq
      have hAnswer : some ip ∈ resolved := by
        simpa using (mem_filter.mp hIp).1
      have hAllowed : p.isIPAccessAllowed ip.to16 = true := by
        rw [SSRFProtection.isIPAccessAllowed_to16]
        exact hAll ip hIp
      exact ⟨rfl, host, portText, port, ip.to16, hSplit, hAtoi, hPort,
        isLiteral_joinHostPort hAtoi ip, hAllowed,
        SSRFProtection.isPrivateIP_of_allowed hPrivate hAllowed,
        Or.inr ⟨hHost, resolved, ip, mem_cons_self, hAnswer, rfl⟩,
        fun _ => hName ⟨resolved, rfl, ne_nil_of_mem hIp, hAll⟩⟩
  lookups := by
    rw [countP_cons_of_pos rfl, countP_eq_zero.mpr]
    intro event hEvent
    obtain ⟨-, -, -, ip, -, rfl⟩ := mem_dialResolved hEvent
    exact Bool.false_ne_true
  forbidden := by
    rintro host' resolved' hLookup ⟨ip, hIp, hForbidden⟩ n address hDial
    rw [mem_cons] at hDial hLookup
    rcases hDial with hDial | hDial
    · cases hDial
    · obtain ⟨resolved, rfl, hAll, -⟩ := mem_dialResolved hDial
      rcases hLookup with hLookup | hLookup
      · cases hLookup
        rw [hAll ip hIp] at hForbidden
        cases hForbidden
      · obtain ⟨-, -, -, other, -, hEq⟩ := mem_dialResolved hLookup
        cases hEq

theorem dialTarget_safe_iff (hPrivate : p.allowPrivateIp = false)
    (hFilter : p.applyIPFilterForDomain = true)
    (hSplit : splitHostPort addr = .ok (host, portText)) (hAtoi : atoi64 portText = some port)
    (hValid : p.validateNetworkTarget host port = .ok ()) :
    Safe p network addr (dialTarget o p network addr host portText h).2 ↔
      (BlankLiteral host → Dialable p network (o.lookupIPAddr h host) →
        p.isDomainAllowed (trimSpace host) = true) := by
  obtain ⟨hPort, hAddress, hDomain⟩ := SSRFProtection.of_validateNetworkTarget hValid
  unfold dialTarget
  rcases hHost : parseIP host with _ | ip
  · simp only [hFilter, Bool.not_true, Bool.false_eq_true, if_false]
    constructor
    · intro hSafe hBlank hAnswer
      obtain ⟨address, hDial⟩ : ∃ address, Event.dial network address ∈
          (dialResolved o p network host portText (h ++ [.lookup host (o.lookupIPAddr h host)])
            (o.lookupIPAddr h host)).2 := exists_mem_dialResolved hAnswer
      obtain ⟨-, host', portText', -, -, hSplit', -, -, -, -, -, -, hName⟩ :=
        hSafe.dialled network address (mem_cons_of_mem _ hDial)
      rw [hSplit] at hSplit'
      cases hSplit'
      exact hName hHost
    · intro hBlank
      apply safe_name hPrivate hSplit hAtoi hPort hHost
      intro hAnswer
      rcases hTrimmed : parseIP (trimSpace host) with _ | ip
      · exact hDomain hTrimmed
      · exact hBlank ⟨hHost, by rw [hTrimmed]; rfl⟩ hAnswer
  · have hTrimmed : parseIP (trimSpace host) = some ip := by
      rw [trimSpace_of_parseIP hHost, hHost]
    constructor
    · rintro - ⟨hNone, -⟩
      rw [hHost] at hNone
      cases hNone
    · intro _
      exact safe_literal hPrivate hSplit hAtoi hPort hHost (hAddress ip hTrimmed)

/-- A call dials no forbidden address if and only if a literal between blanks that is dialled as
a name passes the domain filter. -/
theorem dialContext_safe_iff (o : Outside Conn) (p : SSRFProtection)
    (hPrivate : p.allowPrivateIp = false) (hFilter : p.applyIPFilterForDomain = true)
    (network addr : String) (h : List Event) :
    Safe p network addr (dialContext o (.ok (some p)) network addr h).2 ↔
      ∀ host portText port, splitHostPort addr = .ok (host, portText) →
        atoi64 portText = some port → p.validateNetworkTarget host port = .ok () →
        BlankLiteral host → Dialable p network (o.lookupIPAddr h host) →
        p.isDomainAllowed (trimSpace host) = true := by
  unfold dialContext
  simp only
  rcases hSplit : splitHostPort addr with e | ⟨host, portText⟩
  · simp only [safe_nil, true_iff]
    intro host portText port hOk
    cases hOk
  · rcases hAtoi : atoi64 portText with _ | port
    · simp only [hAtoi, safe_nil, true_iff]
      intro host portText port hOk hPort
      cases hOk
      rw [hAtoi] at hPort
      cases hPort
    · rcases hValid : p.validateNetworkTarget host port with e | u
      · simp only [hAtoi, hValid, safe_nil, true_iff]
        intro host portText port hOk hPort hTarget
        cases hOk
        rw [hAtoi] at hPort
        cases hPort
        rw [hValid] at hTarget
        cases hTarget
      · simp only [hAtoi, hValid]
        rw [dialTarget_safe_iff hPrivate hFilter hSplit hAtoi hValid]
        constructor
        · intro hBlank host' portText' port' hOk _ _
          cases hOk
          exact hBlank
        · intro hAll
          exact hAll host portText port rfl hAtoi hValid

def onlyExample : SSRFProtection where
  allowPrivateIp := false
  domainFilterMode := true
  domainList := ["example.com"]
  ipFilterMode := false
  ipList := []
  allowedPorts := []
  applyIPFilterForDomain := true

def oneHost : Outside Unit where
  lookupIPAddr _ _ := .ok [some (.ipv4 93 184 216 34)]
  dialContext _ _ _ := .ok ()

theorem listed_name_dialled :
    Event.dial "tcp" "93.184.216.34:443" ∈
        (dialContext oneHost (.ok (some onlyExample)) "tcp" "example.com:443" []).2 ∧
      Safe onlyExample "tcp" "example.com:443"
        (dialContext oneHost (.ok (some onlyExample)) "tcp" "example.com:443" []).2 := by
  refine ⟨by decide, (dialContext_safe_iff oneHost onlyExample rfl rfl _ _ []).mpr ?_⟩
  have hHost : splitHostPort "example.com:443" = .ok ("example.com", "443") := by decide
  intro host portText port hSplit
  rw [hHost] at hSplit
  cases hSplit
  exact fun _ _ _ _ => by decide

/-- A literal between blanks is dialled as a name that is not on the list. -/
theorem blank_literal_not_filtered :
    Event.dial "tcp" "93.184.216.34:80" ∈
        (dialContext oneHost (.ok (some onlyExample)) "tcp" " 8.8.8.8:80" []).2 ∧
      onlyExample.isDomainAllowed " 8.8.8.8" = false ∧
      onlyExample.isDomainAllowed "8.8.8.8" = false ∧
      ¬ Safe onlyExample "tcp" " 8.8.8.8:80"
        (dialContext oneHost (.ok (some onlyExample)) "tcp" " 8.8.8.8:80" []).2 := by
  have hDial : Event.dial "tcp" "93.184.216.34:80" ∈
      (dialContext oneHost (.ok (some onlyExample)) "tcp" " 8.8.8.8:80" []).2 := by decide
  have hTrimmed : onlyExample.isDomainAllowed (trimSpace " 8.8.8.8") = false := by decide
  refine ⟨hDial, by decide, by decide, ?_⟩
  intro hSafe
  have hHost : splitHostPort " 8.8.8.8:80" = .ok (" 8.8.8.8", "80") := by decide
  obtain ⟨-, host, portText, -, -, hSplit, -, -, -, -, -, -, hName⟩ := hSafe.dialled _ _ hDial
  rw [hHost] at hSplit
  cases hSplit
  have hAllowed := hName (by decide)
  rw [hTrimmed] at hAllowed
  cases hAllowed

end

end Qapi.Fetch
