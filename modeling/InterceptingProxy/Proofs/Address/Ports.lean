import Mathlib.Tactic.Common
import InterceptingProxy.Proofs.Address.Hosts

set_option autoImplicit false

/-! # Ports of authorities

An authority is a name or an IPv6 literal in brackets, each with or without a port, or an IPv6
literal alone (`AuthorityForm`). `hostOf`, `hasPort` and `withDefaultPort` cut its text by rules of
their own. They agree on its host and its port unless the authority ends in a colon that no port
follows, and then they never do: `default_port_keeps_host_iff` is the main statement.

Adding a port leads to a name with a port or to a host between brackets with a port. What the three
functions make of these two is in `DefaultsPort.of_name` and `DefaultsPort.of_brackets`. -/

namespace InterceptingProxy

/-! ## Which addresses carry a port -/

theorem hasPort_of_head?_ne {address : Text} (h : address.head? ≠ some '[') :
    hasPort address =
      match splitLast ':' address with
      | some (host, port) => ':' ∉ host && !port.isEmpty
      | none => false := by
  unfold hasPort
  split
  · simp at h
  · rfl

theorem hasPort_append_port {host port : Text} (hhost : ':' ∉ host) (hport : ':' ∉ port)
    (hopen : host.head? ≠ some '[') : hasPort (host ++ ':' :: port) = !port.isEmpty := by
  have hhead : (host ++ ':' :: port).head? ≠ some '[' := by
    cases host with
    | nil => simp
    | cons c host => simpa using hopen
  simp [hasPort_of_head?_ne hhead, splitLast_append_cons hport, hhost]

/-- Behind brackets any colon counts as a port, even one that nothing follows. -/
theorem hasPort_brackets (host port : Text) :
    hasPort ('[' :: (host ++ ']' :: ':' :: port)) = true := by
  rw [hasPort, containsRun_iff]
  exact ⟨host, port, by simp⟩

theorem hasPort_brackets_alone {host : Text} (h : ']' ∉ host) :
    hasPort ('[' :: (host ++ [']'])) = false := by
  rw [hasPort]
  induction host with
  | nil => rfl
  | cons c host ih =>
      obtain ⟨hc, hrest⟩ := not_or.1 (mt List.mem_cons.2 h)
      rw [List.cons_append, containsRun, Bool.or_eq_false_iff]
      exact ⟨by simp [List.isPrefixOf, hc], ih hrest⟩

/-! ## What a default port is added to -/

theorem withDefaultPort_of_hasPort {authority : Text} (h : hasPort authority = true) (tls : Bool) :
    withDefaultPort authority tls = authority := if_pos h

section Defaulting

variable {authority : Text} (hnone : hasPort authority = false)
include hnone

theorem withDefaultPort_of_unambiguous (h : ':' ∉ authority ∨ authority.head? = some '[')
    (tls : Bool) :
    withDefaultPort authority tls = authority ++ ':' :: Text.ofNat (defaultPort tls) := by
  have hplain : ¬ (':' ∈ authority ∧ authority.head? ≠ some '[') := by
    rintro ⟨hcolon, hopen⟩
    exact h.elim (absurd hcolon) hopen
  rw [withDefaultPort, if_neg (Bool.eq_false_iff.1 hnone), if_neg hplain]

theorem withDefaultPort_of_colon (hcolon : ':' ∈ authority) (hopen : authority.head? ≠ some '[')
    (tls : Bool) :
    withDefaultPort authority tls =
      '[' :: (authority ++ ']' :: ':' :: Text.ofNat (defaultPort tls)) := by
  rw [withDefaultPort, if_neg (Bool.eq_false_iff.1 hnone), if_pos ⟨hcolon, hopen⟩]
  simp

end Defaulting

/-! ## Authorities -/

/-- The name of a host. -/
structure HostName where
  text : Text
  ne_nil : text ≠ []
  colon : ':' ∉ text
  opening : '[' ∉ text
  closing : ']' ∉ text

/-- An IPv6 literal, as far as it can be told from the other parts of an authority. -/
structure Ipv6Literal where
  text : Text
  colons : 2 ≤ text.count ':'
  opening : '[' ∉ text
  closing : ']' ∉ text

/-- The digits of a port. There may be none of them. -/
structure PortDigits where
  digits : Text
  isDigit : ∀ c ∈ digits, c.isDigit = true

/-- How an authority is written. -/
inductive AuthorityForm where
  | named (name : HostName) (port : Option PortDigits)
  | bracketed (literal : Ipv6Literal) (port : Option PortDigits)
  | bare (literal : Ipv6Literal)

theorem HostName.head?_ne (name : HostName) : name.text.head? ≠ some '[' :=
  fun h => name.opening (List.mem_of_mem_head? h)

theorem Ipv6Literal.head?_ne (literal : Ipv6Literal) : literal.text.head? ≠ some '[' :=
  fun h => literal.opening (List.mem_of_mem_head? h)

theorem Ipv6Literal.colon_mem (literal : Ipv6Literal) : ':' ∈ literal.text :=
  List.count_pos_iff.1 (Nat.lt_of_lt_of_le Nat.zero_lt_two literal.colons)

/-- What stands before the last colon of an IPv6 literal has a colon too. -/
theorem Ipv6Literal.splitLast_text (literal : Ipv6Literal) :
    ∃ host port, splitLast ':' literal.text = some (host, port) ∧ ':' ∈ host := by
  obtain ⟨host, port, hcut, htext, hport⟩ := exists_splitLast_of_mem literal.colon_mem
  have hcount := literal.colons
  rw [htext, List.count_append, List.count_cons_self, List.count_eq_zero.2 hport] at hcount
  exact ⟨host, port, hcut, List.count_pos_iff.1 (by omega)⟩

theorem PortDigits.colon (port : PortDigits) : ':' ∉ port.digits :=
  fun h => absurd (port.isDigit ':' h) (by decide)

namespace AuthorityForm

/-- A port with the colon in front of it. -/
def portPart : Option PortDigits → Text
  | none => []
  | some port => ':' :: port.digits

def text : AuthorityForm → Text
  | .named name port => name.text ++ portPart port
  | .bracketed literal port => '[' :: (literal.text ++ ']' :: portPart port)
  | .bare literal => literal.text

def host : AuthorityForm → Text
  | .named name _ => name.text
  | .bracketed literal _ => literal.text
  | .bare literal => literal.text

/-- The port that is given. -/
def port? : AuthorityForm → Option Text
  | .named _ port => port.map PortDigits.digits
  | .bracketed _ port => port.map PortDigits.digits
  | .bare _ => none

/-- The port that is given, or the one of the scheme if there is none or an empty one. -/
def portFor (tls : Bool) (a : AuthorityForm) : Text :=
  (a.port?.filter (!·.isEmpty)).getD (Text.ofNat (defaultPort tls))

theorem portFor_of_port?_eq {a : AuthorityForm} {port : Text} (h : a.port? = some port)
    (hne : port ≠ []) (tls : Bool) : a.portFor tls = port := by
  simp [portFor, h, Option.filter, hne]

theorem portFor_of_port?_nil {a : AuthorityForm} (h : a.port? = some []) (tls : Bool) :
    a.portFor tls = Text.ofNat (defaultPort tls) := by
  rw [portFor, h]
  rfl

theorem hostOf_text (a : AuthorityForm) : hostOf a.text = a.host := by
  cases a with
  | named name port =>
      cases port with
      | none =>
          rw [text, portPart, List.append_nil, hostOf_of_head?_ne name.head?_ne,
            splitLast_of_not_mem name.colon]
          rfl
      | some port => exact hostOf_append_port name.colon port.colon name.head?_ne
  | bracketed literal port => exact hostOf_brackets literal.closing _
  | bare literal =>
      obtain ⟨host, port, hcut, hcolon⟩ := literal.splitLast_text
      rw [text, hostOf_of_head?_ne literal.head?_ne, hcut]
      exact if_pos hcolon

end AuthorityForm

theorem ofNat_defaultPort_ne_nil (tls : Bool) : Text.ofNat (defaultPort tls) ≠ [] := by
  cases tls <;> decide

theorem colon_not_mem_ofNat_defaultPort (tls : Bool) : ':' ∉ Text.ofNat (defaultPort tls) := by
  cases tls <;> decide

/-! ## Adding the default port -/

/-- `result` is what an authority should become by a default port: the same host, with the port
    that the authority gives or else the default one, and nothing more is to be added. -/
structure DefaultsPort (a : AuthorityForm) (tls : Bool) (result : Text) : Prop where
  host : hostOf result = hostOf a.text
  port : ':' :: a.portFor tls <:+ result
  hasPort : hasPort result = true
  settled : ∀ tls', withDefaultPort result tls' = result

namespace DefaultsPort

variable {a : AuthorityForm} {tls : Bool} {port : Text}

theorem of_name {name : HostName} (hhost : a.host = name.text) (hport : a.portFor tls = port)
    (hne : port ≠ []) (hcolon : ':' ∉ port) : DefaultsPort a tls (name.text ++ ':' :: port) := by
  subst hport
  have hhas : InterceptingProxy.hasPort (name.text ++ ':' :: a.portFor tls) = true := by
    rw [hasPort_append_port name.colon hcolon name.head?_ne]
    simpa using hne
  refine ⟨?_, List.suffix_append _ _, hhas, withDefaultPort_of_hasPort hhas⟩
  rw [hostOf_append_port name.colon hcolon name.head?_ne, a.hostOf_text, hhost]

theorem of_brackets {literal : Ipv6Literal} (hhost : a.host = literal.text)
    (hport : a.portFor tls = port) :
    DefaultsPort a tls ('[' :: (literal.text ++ ']' :: ':' :: port)) where
  host := by rw [hostOf_brackets literal.closing, a.hostOf_text, hhost]
  port := by
    rw [hport]
    exact ⟨'[' :: (literal.text ++ [']']), by simp⟩
  hasPort := hasPort_brackets _ _
  settled := withDefaultPort_of_hasPort (hasPort_brackets _ _)

end DefaultsPort

namespace AuthorityForm

variable {a : AuthorityForm}

theorem defaultsPort_of_port?_ne (h : a.port? ≠ some []) (tls : Bool) :
    DefaultsPort a tls (withDefaultPort a.text tls) := by
  cases a with
  | named name port =>
      cases port with
      | none =>
          have hnone : hasPort name.text = false := by
            rw [hasPort_of_head?_ne name.head?_ne, splitLast_of_not_mem name.colon]
          have hadded := withDefaultPort_of_unambiguous hnone (.inl name.colon) tls
          rw [text, portPart, List.append_nil, hadded]
          exact .of_name rfl rfl (ofNat_defaultPort_ne_nil tls)
            (colon_not_mem_ofNat_defaultPort tls)
      | some port =>
          have hne : port.digits ≠ [] := fun hnil => h (congrArg some hnil)
          have hkept : DefaultsPort (.named name (some port)) tls
              (name.text ++ ':' :: port.digits) :=
            .of_name rfl (portFor_of_port?_eq rfl hne tls) hne port.colon
          rwa [text, portPart, withDefaultPort_of_hasPort hkept.hasPort]
  | bracketed literal port =>
      cases port with
      | none =>
          have hnone := hasPort_brackets_alone literal.closing
          have hadded := withDefaultPort_of_unambiguous hnone (.inr rfl) tls
          rw [text, portPart, hadded, List.cons_append, List.append_assoc]
          exact .of_brackets rfl rfl
      | some port =>
          have hne : port.digits ≠ [] := fun hnil => h (congrArg some hnil)
          have hkept : DefaultsPort (.bracketed literal (some port)) tls
              ('[' :: (literal.text ++ ']' :: ':' :: port.digits)) :=
            .of_brackets rfl (portFor_of_port?_eq rfl hne tls)
          rwa [text, portPart, withDefaultPort_of_hasPort hkept.hasPort]
  | bare literal =>
      obtain ⟨host, port, hcut, hcolon⟩ := literal.splitLast_text
      have hnone : hasPort literal.text = false := by
        simp [hasPort_of_head?_ne literal.head?_ne, hcut, hcolon]
      rw [text, withDefaultPort_of_colon hnone literal.colon_mem literal.head?_ne]
      exact .of_brackets rfl rfl

/-! ## Colons that no port follows -/

/-- A name with such a colon is taken for an IPv6 literal. -/
theorem hostOf_withDefaultPort_dangling (name : HostName) (tls : Bool) :
    hostOf (withDefaultPort (name.text ++ [':']) tls) = name.text ++ [':'] := by
  have hopen : (name.text ++ [':']).head? ≠ some '[' := by
    rw [List.head?_append_of_ne_nil _ name.ne_nil]
    exact name.head?_ne
  have hnone : hasPort (name.text ++ [':']) = false :=
    hasPort_append_port name.colon List.not_mem_nil name.head?_ne
  have hclosing : ']' ∉ name.text ++ [':'] := by simp [name.closing]
  rw [withDefaultPort_of_colon hnone (by simp) hopen, hostOf_brackets hclosing]

/-- A text that ends in a colon does not end in the default port. -/
theorem not_suffix_append_colon (text : Text) (tls : Bool) :
    ¬ ':' :: Text.ofNat (defaultPort tls) <:+ text ++ [':'] := by
  rintro ⟨front, hfront⟩
  obtain ⟨digits, last, hdigits⟩ :=
    (List.eq_nil_or_concat (Text.ofNat (defaultPort tls))).resolve_left
      (ofNat_defaultPort_ne_nil tls)
  rw [hdigits, List.concat_eq_append, ← List.cons_append, ← List.append_assoc] at hfront
  have hlast : last = ':' := by simpa using (List.append_inj' hfront rfl).2
  refine colon_not_mem_ofNat_defaultPort tls ?_
  rw [hdigits, hlast]
  simp

theorem not_defaultsPort_of_port?_eq (h : a.port? = some []) (tls : Bool) :
    ¬ DefaultsPort a tls (withDefaultPort a.text tls) := by
  intro hdefaults
  match a, h with
  | .named name (some ⟨[], hdigits⟩), _ =>
      have hhost := hdefaults.host
      rw [hostOf_text] at hhost
      have hwrong := hostOf_withDefaultPort_dangling name tls
      rw [text, portPart, hwrong] at hhost
      exact absurd (congrArg List.length hhost) (by simp [host])
  | .bracketed literal (some ⟨[], hdigits⟩), _ =>
      -- nothing is added, so the text still ends in the colon
      have hkept := withDefaultPort_of_hasPort (hasPort_brackets literal.text []) tls
      have hport := hdefaults.port
      rw [text, portPart, hkept, portFor_of_port?_nil rfl] at hport
      refine not_suffix_append_colon ('[' :: (literal.text ++ [']'])) tls ?_
      simpa using hport

end AuthorityForm

/-- **Adding the default port keeps the host, and adds what is missing,** unless the authority ends
    in a colon that no port follows. Such a name gets another host, and such a literal no port. -/
theorem default_port_keeps_host_iff (a : AuthorityForm) (tls : Bool) :
    DefaultsPort a tls (withDefaultPort a.text tls) ↔ a.port? ≠ some [] :=
  ⟨fun h hnil => AuthorityForm.not_defaultsPort_of_port?_eq hnil tls h,
    fun h => AuthorityForm.defaultsPort_of_port?_ne h tls⟩

/-- The two ways to end in a colon: the name `svc` becomes the host `svc:`, and `::1` keeps its
    colon without a port. -/
theorem colon_without_port_goes_astray :
    let noDigits : PortDigits := ⟨[], fun _ h => absurd h List.not_mem_nil⟩
    let svc : AuthorityForm :=
      .named ⟨"svc".toList, by decide, by decide, by decide, by decide⟩ (some noDigits)
    let loopback : AuthorityForm :=
      .bracketed ⟨"::1".toList, by decide, by decide, by decide⟩ (some noDigits)
    (svc.text = "svc:".toList ∧ hostOf svc.text = "svc".toList ∧
      withDefaultPort svc.text false = "[svc:]:80".toList ∧
      hostOf (withDefaultPort svc.text false) = "svc:".toList ∧
      ¬ DefaultsPort svc false (withDefaultPort svc.text false)) ∧
    loopback.text = "[::1]:".toList ∧
      withDefaultPort loopback.text true = "[::1]:".toList ∧
      ¬ DefaultsPort loopback true (withDefaultPort loopback.text true) := by
  intro noDigits svc loopback
  have hname := AuthorityForm.not_defaultsPort_of_port?_eq (a := svc) rfl false
  have hliteral := AuthorityForm.not_defaultsPort_of_port?_eq (a := loopback) rfl true
  exact ⟨⟨by decide, by decide, by decide, by decide, hname⟩, by decide, by decide, hliteral⟩

end InterceptingProxy
