import Mathlib.Data.Bool.AllAny
import Mathlib.Data.List.Basic
import InterceptingProxy.Dialing.HttpProxy
import InterceptingProxy.Proofs.Address.Hosts
import InterceptingProxy.Proofs.Encoding.RoundTrips
import InterceptingProxy.Proofs.Text.Visible

set_option autoImplicit false

/-! # Credentials for the outbound proxy

The userinfo of a proxy's URL is cut off at the last `@` of the authority, and what is left names
the same proxy as a URL without userinfo (`HttpProxy.ofAuthority?_userinfo`): a port is looked for
behind the last colon, but what stands there is none when the colon belongs to the userinfo. The
whole authority reaches that cut, whatever the case of the scheme, the blanks around the URL and the
slash at its end (`ProxyUrl.ofAuthority?_of_parse`). -/

namespace InterceptingProxy

/-! ## Where an authority ends -/

/-- A character that ends an authority. -/
def EndsAuthority (c : Char) : Prop := c = '/' ∨ c = '?' ∨ c = '#'

instance : DecidablePred EndsAuthority := fun c =>
  inferInstanceAs (Decidable (c = '/' ∨ c = '?' ∨ c = '#'))

theorem scanAuthority_append {front back authority after : Text} {s : AuthorityScan}
    (hfront : ∀ c ∈ front, ¬ EndsAuthority c) (hback : ∀ c ∈ back.head?, EndsAuthority c)
    (h : scanAuthority s (front ++ back) = some (authority, after)) :
    authority = front ∧ after = back := by
  induction front generalizing s authority with
  | nil =>
      cases back with
      | nil =>
          simp only [List.append_nil, scanAuthority, Option.ite_none_right_eq_some,
            Option.some.injEq, Prod.mk.injEq] at h
          exact ⟨h.2.1.symm, h.2.2.symm⟩
      | cons c rest =>
          have hc : c = '/' ∨ c = '?' ∨ c = '#' := hback c rfl
          simp only [List.nil_append, scanAuthority, if_pos hc, Option.ite_none_right_eq_some,
            Option.some.injEq, Prod.mk.injEq] at h
          exact ⟨h.2.1.symm, h.2.2.symm⟩
  | cons c front ih =>
      obtain ⟨hc, hmore⟩ := List.forall_mem_cons.1 hfront
      have hstop : ¬ (c = '/' ∨ c = '?' ∨ c = '#') := hc
      rw [List.cons_append, scanAuthority, if_neg hstop] at h
      obtain ⟨next, -, h⟩ := Option.bind_eq_some_iff.1 h
      obtain ⟨⟨scanned, left⟩, hscan, h⟩ := Option.bind_eq_some_iff.1 h
      cases h
      obtain ⟨rfl, rfl⟩ := ih hmore hscan
      exact ⟨rfl, rfl⟩

/-! ## Schemes -/

theorem isSchemeChar_of_lowerChar {c : Char} (h : lowerChar c ∈ "http".toList) :
    Uri.isSchemeChar c = true := by
  have hletters : ∀ d ∈ "http".toList,
      Uri.isSchemeChar d = true ∧ Uri.isSchemeChar (Char.ofNat (d.toNat - 0x20)) = true :=
    List.all_iff_forall_prop.1 (by decide)
  obtain ⟨hsmall, hcapital⟩ := hletters _ h
  rcases eq_or_eq_of_lowerChar (c := c) rfl with hc | hc
  · rwa [← hc] at hsmall
  · rwa [← hc] at hcapital

/-- Schemes are read in any case. -/
theorem scheme?_http {name : Text} (hname : name.lower = "http".toList) (rest : Text) :
    Uri.scheme? (name ++ ("://".toList ++ rest)) = some (some "http".toList, rest) := by
  have hchars : ∀ c ∈ name, Uri.isSchemeChar c = true := by
    intro c hc
    refine isSchemeChar_of_lowerChar ?_
    rw [← hname]
    exact List.mem_map_of_mem hc
  have hwritten : (name ++ ("://".toList ++ rest)).takeWhile Uri.isSchemeChar = name := by
    rw [List.takeWhile_append_of_pos hchars]
    exact List.append_nil name
  have hstrip : stripPrefix "://".toList ("://".toList ++ rest) = some rest :=
    stripPrefix_eq_some_iff.2 rfl
  simp only [Uri.scheme?, hwritten, List.drop_left, hstrip, hname, true_or, if_true]

theorem authority_of_parse {name rest : Text} {uri : Uri} (hname : name.lower = "http".toList)
    (h : Uri.parse? (name ++ ("://".toList ++ rest)) = some uri) :
    ∃ authority after, scanAuthority {} rest = some (authority, after) ∧
      uri.authority = some authority := by
  have hscheme := scheme?_http hname rest
  -- the text is long enough and does not begin as a path does, so it is read by its scheme
  have hlength : 2 ≤ (name ++ ("://".toList ++ rest)).length := by
    have hseparator : "://".toList.length = 3 := rfl
    rw [List.length_append, List.length_append]
    omega
  have hslash : (name ++ ("://".toList ++ rest)).head? ≠ some '/' := by
    cases name with
    | nil => cases hname
    | cons c name =>
        intro hhead
        obtain rfl : c = '/' := Option.some.inj hhead
        cases hname
  generalize name ++ ("://".toList ++ rest) = t at h hscheme hlength hslash
  unfold Uri.parse? at h
  split at h
  · cases h
  · split at h
    · cases h
    · simp at hlength
    · simp at hslash
    · simp at hlength
    · rw [hscheme] at h
      simp only [bind, Option.bind_some] at h
      obtain ⟨⟨authority, after⟩, hscan, h⟩ := Option.bind_eq_some_iff.1 h
      split at h
      · cases h
      · obtain ⟨target, -, h⟩ := Option.bind_eq_some_iff.1 h
        cases h
        exact ⟨authority, after, hscan, rfl⟩

/-! ## Authorities with userinfo -/

theorem Authority.hostPort_userinfo {hostPort : Text} (h : '@' ∉ hostPort) (userinfo : Text) :
    Authority.hostPort (userinfo ++ '@' :: hostPort) = hostPort := by
  rw [Authority.hostPort, splitLast_append_cons h]

theorem Authority.hostPort_eq_self {hostPort : Text} (h : '@' ∉ hostPort) :
    Authority.hostPort hostPort = hostPort := by
  rw [Authority.hostPort, splitLast_of_not_mem h]

theorem Authority.host_userinfo {hostPort : Text} (h : '@' ∉ hostPort) (userinfo : Text) :
    Authority.host (userinfo ++ '@' :: hostPort) = Authority.host hostPort := by
  rw [Authority.host, Authority.hostPort_userinfo h, Authority.host, Authority.hostPort_eq_self h]

/-- An `@` stands in no port. -/
theorem Authority.parsePort?_of_mem {digits : Text} (h : '@' ∈ digits) :
    Authority.parsePort? digits = none := by
  have hnone : ∀ written : Text, '@' ∈ written →
      (written.isEmpty || !written.all Char.isDigit) = true := by
    intro written hmem
    rw [Bool.or_eq_true, Bool.not_eq_true', List.all_eq_false]
    exact .inr ⟨'@', hmem, by decide⟩
  unfold Authority.parsePort?
  split
  · next rest =>
      rw [if_pos (hnone rest (List.mem_of_ne_of_mem (by decide) h))]
  · rw [if_pos (hnone digits h)]

theorem Authority.port?_userinfo {hostPort : Text} (h : '@' ∉ hostPort) (userinfo : Text) :
    Authority.port? (userinfo ++ '@' :: hostPort) = Authority.port? hostPort := by
  unfold Authority.port?
  -- the last colon is one of the host and port, or one of the userinfo, or there is none
  by_cases hport : ':' ∈ hostPort
  · obtain ⟨before, after, hcut, rfl, hafter⟩ := exists_splitLast_of_mem hport
    have hwhole : userinfo ++ '@' :: (before ++ ':' :: after) =
        (userinfo ++ '@' :: before) ++ ':' :: after := by simp
    rw [hcut, hwhole, splitLast_append_cons hafter]
    rfl
  · rw [splitLast_of_not_mem hport]
    by_cases huser : ':' ∈ userinfo
    · obtain ⟨before, after, -, rfl, hafter⟩ := exists_splitLast_of_mem huser
      have hlast : ':' ∉ after ++ '@' :: hostPort := by simp [hafter, hport]
      rw [List.append_assoc, List.cons_append, splitLast_append_cons hlast]
      exact Authority.parsePort?_of_mem (by simp)
    · rw [splitLast_of_not_mem (by simp [huser, hport])]

namespace HttpProxy

/-- Userinfo makes credentials and changes nothing else. -/
theorem ofAuthority?_userinfo {hostPort : Text} (h : '@' ∉ hostPort) (userinfo : Text) :
    ofAuthority? (userinfo ++ '@' :: hostPort) =
      (ofAuthority? hostPort).map fun p =>
        { p with authorization := some (basicAuthorization userinfo) } := by
  have huserinfo : Authority.userinfo? (userinfo ++ '@' :: hostPort) = some userinfo := by
    rw [Authority.userinfo?, splitLast_append_cons h, Option.map_some]
  unfold ofAuthority?
  rw [Authority.host_userinfo h, Authority.port?_userinfo h, huserinfo]
  dsimp only
  split <;> rfl

theorem authorization_of_no_userinfo {hostPort : Text} {p : HttpProxy} (h : '@' ∉ hostPort)
    (hp : ofAuthority? hostPort = some p) : p.authorization = none := by
  unfold ofAuthority? at hp
  dsimp only at hp
  split at hp
  · cases hp
  · cases hp
    rw [Authority.userinfo?, splitLast_of_not_mem h]
    rfl

end HttpProxy

/-! ## URLs of proxies -/

/-- Userinfo that a URL can hold: visible characters that do not end the authority. -/
def IsUserinfo (u : Text) : Prop :=
  ∀ c ∈ u, 0x21 ≤ c.toNat ∧ c.toNat ≤ 0x7E ∧ ¬ EndsAuthority c

/-- The URL of a proxy around the place for userinfo. -/
structure ProxyUrl where
  before : Text := []
  /-- The scheme with its `://`, in any case, or nothing. -/
  scheme : Text := []
  /-- The host, with a port or without. -/
  hostPort : Text
  /-- A slash or nothing. -/
  ending : Text := []
  after : Text := []
  blank_before : ∀ c ∈ before, isBlank c = true
  http : scheme = [] ∨ scheme.lower = "http://".toList
  plain : ∀ c ∈ hostPort, isBlank c = false ∧ c ≠ '@' ∧ ¬ EndsAuthority c
  slash : ending = [] ∨ ending = ['/']
  blank_after : ∀ c ∈ after, isBlank c = true

namespace ProxyUrl

variable (w : ProxyUrl)

/-- The authority with or without userinfo. -/
def authority : Option Text → Text
  | some u => u ++ '@' :: w.hostPort
  | none => w.hostPort

/-- The URL as it is written. -/
def text (userinfo : Option Text) : Text :=
  w.before ++ (w.scheme ++ (w.authority userinfo ++ w.ending)) ++ w.after

variable {w} {userinfo : Option Text}

theorem at_not_mem_hostPort : '@' ∉ w.hostPort := fun h => (w.plain '@' h).2.1 rfl

theorem authority_plain (hu : ∀ u ∈ userinfo, IsUserinfo u) :
    ∀ c ∈ w.authority userinfo, isBlank c = false ∧ ¬ EndsAuthority c := by
  intro c hc
  cases userinfo with
  | none => exact ⟨(w.plain c hc).1, (w.plain c hc).2.2⟩
  | some u =>
      rcases List.mem_append.1 hc with hc | hc
      · obtain ⟨hlow, hhigh, hinside⟩ := hu u rfl c hc
        refine ⟨?_, hinside⟩
        simp [isBlank]
        omega
      · rcases List.mem_cons.1 hc with rfl | hc
        · decide
        · exact ⟨(w.plain c hc).1, (w.plain c hc).2.2⟩

/-- A scheme is a name and its separator. -/
theorem exists_name (h : w.scheme.lower = "http://".toList) :
    ∃ name, name.lower = "http".toList ∧ w.scheme = name ++ "://".toList := by
  obtain ⟨name, separator, hscheme, hname, hseparator⟩ :
      ∃ name separator, w.scheme = name ++ separator ∧ Text.lower name = "http".toList ∧
        separator.map lowerChar = "://".toList :=
    List.map_eq_append_iff.1 (h : w.scheme.map lowerChar = "http".toList ++ "://".toList)
  have hsame : separator.map lowerChar = separator := by
    refine (List.map_congr_left fun c hc => ?_).trans (List.map_id separator)
    have hsigns : ∀ d ∈ "://".toList, d.toNat < 0x41 := List.all_iff_forall_prop.1 (by decide)
    have hc' : lowerChar c ∈ "://".toList := hseparator ▸ List.mem_map_of_mem hc
    exact ((lowerChar_eq_iff (.inl (hsigns _ hc'))).1 rfl).symm
  exact ⟨name, hname, by rw [hscheme, ← hseparator, hsame]⟩

theorem scheme_plain : ∀ c ∈ w.scheme, isBlank c = false := by
  intro c hc
  rcases w.http with h | h
  · simp [h] at hc
  · have hletters : ∀ d ∈ "http://".toList, isBlank d = false :=
      List.all_iff_forall_prop.1 (by decide)
    rw [← isBlank_lowerChar]
    exact hletters _ (h ▸ List.mem_map_of_mem hc)

theorem inner_plain (hu : ∀ u ∈ userinfo, IsUserinfo u) :
    ∀ c ∈ w.scheme ++ (w.authority userinfo ++ w.ending), isBlank c = false := by
  intro c hc
  rcases List.mem_append.1 hc with hc | hc
  · exact scheme_plain c hc
  · rcases List.mem_append.1 hc with hc | hc
    · exact (authority_plain hu c hc).1
    · rcases w.slash with h | h
      · simp [h] at hc
      · rw [h] at hc
        obtain rfl := List.mem_singleton.1 hc
        decide

theorem trim_text (hu : ∀ u ∈ userinfo, IsUserinfo u) :
    (w.text userinfo).trim = w.scheme ++ (w.authority userinfo ++ w.ending) := by
  have hinner := inner_plain hu (w := w)
  rw [text, Text.trim_append _ w.blank_before w.blank_after]
  exact Text.trim_eq_self (fun c hc => hinner c (List.mem_of_mem_head? hc))
    (fun c hc => hinner c (List.mem_of_mem_getLast? hc))

/-- One slash at most stands behind the scheme. -/
theorem containsRun_inner (hu : ∀ u ∈ userinfo, IsUserinfo u) :
    containsRun "://".toList (w.authority userinfo ++ w.ending) = false := by
  rw [Bool.eq_false_iff, Ne, containsRun_iff]
  intro hrun
  have hslash : '/' ∉ w.authority userinfo :=
    fun h => (authority_plain hu '/' h).2 (.inl rfl)
  have hcount := hrun.sublist.count_le '/'
  rw [List.count_append, List.count_eq_zero.2 hslash] at hcount
  rcases w.slash with h | h <;> rw [h] at hcount <;> simp at hcount

/-- Without a scheme, the one that is read is `http`. -/
theorem exists_read (hu : ∀ u ∈ userinfo, IsUserinfo u) :
    ∃ name, Text.lower name = "http".toList ∧
      (if containsRun "://".toList (w.text userinfo).trim then (w.text userinfo).trim
        else "http://".toList ++ (w.text userinfo).trim) =
        name ++ ("://".toList ++ (w.authority userinfo ++ w.ending)) := by
  rw [trim_text hu]
  rcases w.http with h | h
  · refine ⟨"http".toList, by decide, ?_⟩
    rw [h, List.nil_append, containsRun_inner hu]
    rfl
  · obtain ⟨name, hname, hscheme⟩ := exists_name h
    have hrun : containsRun "://".toList (w.scheme ++ (w.authority userinfo ++ w.ending)) = true :=
      containsRun_iff.2 ⟨name, w.authority userinfo ++ w.ending, by rw [hscheme]⟩
    exact ⟨name, hname, by rw [if_pos hrun, hscheme, List.append_assoc]⟩

/-- A URL that is accepted names its proxy by its whole authority. -/
theorem ofAuthority?_of_parse {p : HttpProxy} (hu : ∀ u ∈ userinfo, IsUserinfo u)
    (h : HttpProxy.parse? (w.text userinfo) = some p) :
    HttpProxy.ofAuthority? (w.authority userinfo) = some p := by
  obtain ⟨name, hname, hread⟩ := exists_read hu (w := w)
  rw [HttpProxy.parse?, hread] at h
  obtain ⟨uri, huri, h⟩ := Option.bind_eq_some_iff.1 h
  split at h
  · obtain ⟨authority, hauthority, h⟩ := Option.bind_eq_some_iff.1 h
    obtain ⟨scanned, after, hscan, hscanned⟩ := authority_of_parse hname huri
    have hends : ∀ c ∈ w.ending.head?, EndsAuthority c := by
      intro c hc
      rcases w.slash with hslash | hslash
      · simp [hslash] at hc
      · rw [hslash] at hc
        exact .inl (Option.some.inj hc).symm
    obtain ⟨rfl, -⟩ :=
      scanAuthority_append (fun c hc => (authority_plain hu c hc).2) hends hscan
    rw [hscanned] at hauthority
    cases hauthority
    exact h
  · cases h

/-- The same URL with userinfo and without it names the same proxy. -/
theorem eq_of_parse {u : Text} {p q : HttpProxy} (hu : IsUserinfo u)
    (hp : HttpProxy.parse? (w.text (some u)) = some p)
    (hq : HttpProxy.parse? (w.text none) = some q) :
    p = { q with authorization := some (HttpProxy.basicAuthorization u) } ∧
      q.authorization = none := by
  have hwith := ofAuthority?_of_parse (by simpa using hu) hp
  have hwithout := ofAuthority?_of_parse (by simp) hq
  rw [authority, HttpProxy.ofAuthority?_userinfo at_not_mem_hostPort] at hwith
  rw [authority] at hwithout
  rw [hwithout, Option.map_some, Option.some.injEq] at hwith
  exact ⟨hwith.symm, HttpProxy.authorization_of_no_userinfo at_not_mem_hostPort hwithout⟩

end ProxyUrl

/-! ## Requests -/

/-- The end of a line. -/
def lineEnd : Text := "\r\n".toList

/-- A request head by its lines: none of them is empty, and an empty line follows them. -/
structure IsHead (request : Text) (lines : List Text) : Prop where
  written : request = lines.flatMap (· ++ lineEnd) ++ lineEnd
  filled : ∀ line ∈ lines, line ≠ [] ∧ '\r' ∉ line ∧ '\n' ∉ line

/-- A line that gives credentials for a proxy. -/
def isAuthorization (line : Text) : Bool :=
  "proxy-authorization:".toList.isPrefixOf line.lower

/-- The credentials that a Basic value shows. -/
theorem decode_basic (u : Text) :
    ∃ value, HttpProxy.basicAuthorization u = "Basic ".toList ++ value ∧
      '\r' ∉ value ∧ '\n' ∉ value ∧ Base64.decode true value.utf8 = .ok u.utf8 := by
  have hrange : ∀ c ∈ Bytes.toLatin (Base64.encode true u.utf8),
      0x2B ≤ c.toNat ∧ c.toNat ≤ 0x7A := by
    intro c hc
    obtain ⟨b, hb, rfl⟩ := List.mem_map.1 hc
    rw [toNat_ofNat_toNat]
    exact (Base64.isWritten_of_mem_encode b hb).range
  refine ⟨Bytes.toLatin (Base64.encode true u.utf8), rfl, ?_, ?_, ?_⟩
  · intro hc
    exact absurd (hrange _ hc).1 (by decide)
  · intro hc
    exact absurd (hrange _ hc).1 (by decide)
  · have hvisible : Text.Visible (Bytes.toLatin (Base64.encode true u.utf8)) := fun c hc => by
      have hc' := hrange c hc
      omega
    rw [hvisible.utf8, Bytes.ofLatin_toLatin, Base64.decode_encode]

namespace HttpProxy

/-- The lines of a request for a tunnel. -/
def requestLines (p : HttpProxy) (target : Text) : List Text :=
  ["CONNECT ".toList ++ target ++ " HTTP/1.1".toList, "Host: ".toList ++ target]
    ++ (p.authorization.map ("Proxy-Authorization: ".toList ++ ·)).toList

variable {p : HttpProxy} {target : Text}

theorem connectRequest_eq (p : HttpProxy) (target : Text) :
    p.connectRequest target = (p.requestLines target).flatMap (· ++ lineEnd) ++ lineEnd := by
  unfold connectRequest requestLines lineEnd
  cases p.authorization <;> simp

theorem isHead_connectRequest (hreturn : '\r' ∉ target) (hfeed : '\n' ∉ target)
    (hvalue : ∀ value ∈ p.authorization, '\r' ∉ value ∧ '\n' ∉ value) :
    IsHead (p.connectRequest target) (p.requestLines target) := by
  refine ⟨connectRequest_eq p target, fun line hline => ?_⟩
  rcases List.mem_append.1 hline with hline | hline
  · rcases List.mem_pair.1 hline with rfl | rfl <;> simp [hreturn, hfeed]
  · obtain ⟨value, hmem, rfl⟩ := Option.map_eq_some_iff.1 (Option.mem_toList.1 hline)
    simp [hvalue value hmem]

theorem filter_requestLines (p : HttpProxy) (target : Text) :
    (p.requestLines target).filter isAuthorization =
      (p.authorization.map ("Proxy-Authorization: ".toList ++ ·)).toList := by
  have hothers : ["CONNECT ".toList ++ target ++ " HTTP/1.1".toList,
      "Host: ".toList ++ target].filter isAuthorization = [] := rfl
  have hvalue : ∀ value, isAuthorization ("Proxy-Authorization: ".toList ++ value) = true := by
    intro value
    rw [isAuthorization, Text.lower, List.map_append, List.isPrefixOf_iff_prefix]
    exact ⟨" ".toList ++ value.map lowerChar, rfl⟩
  rw [requestLines, List.filter_append, hothers, List.nil_append]
  cases p.authorization with
  | none => rfl
  | some value => exact List.filter_cons_of_pos (hvalue value)

/-- Credentials are one more line. -/
theorem requestLines_authorization (p : HttpProxy) (value target : Text) :
    ({ p with authorization := some value } : HttpProxy).requestLines target =
      ({ p with authorization := none } : HttpProxy).requestLines target
        ++ ["Proxy-Authorization: ".toList ++ value] := rfl

/-- A proxy is shown alike with credentials and without, but for the flag that says which. -/
theorem describe_flag (p : HttpProxy) :
    ∃ front back, "authenticated: ".toList <:+ front ∧
      ∀ authorization, describe { p with authorization } =
        front ++ (if authorization.isSome then "true" else "false").toList ++ back :=
  ⟨"UpstreamProxy \x7b addr: \"".toList ++ p.address ++ "\", authenticated: ".toList,
    " \x7d".toList,
    List.IsSuffix.trans ⟨"\", ".toList, rfl⟩ (List.suffix_append _ _), fun _ => rfl⟩

end HttpProxy

/-- The credentials of a URL go into one line of the request for a tunnel, from which they can be
    read, and are seen in nothing else that there is of the proxy. -/
theorem credentials_reach_the_proxy (w : ProxyUrl) {u : Text} {p q : HttpProxy}
    (hu : IsUserinfo u) (hp : HttpProxy.parse? (w.text (some u)) = some p)
    (hq : HttpProxy.parse? (w.text none) = some q) :
    p.address = q.address ∧
      (∃ front back, "authenticated: ".toList <:+ front ∧
        p.describe = front ++ "true".toList ++ back ∧
        q.describe = front ++ "false".toList ++ back) ∧
      (∀ u' p', IsUserinfo u' → HttpProxy.parse? (w.text (some u')) = some p' →
        p'.describe = p.describe) ∧
      ∀ target, '\r' ∉ target → '\n' ∉ target →
        IsHead (p.connectRequest target) (p.requestLines target) ∧
        (∃ value : Text,
          p.requestLines target =
            q.requestLines target ++ ["Proxy-Authorization: Basic ".toList ++ value] ∧
          (p.requestLines target).filter isAuthorization =
            ["Proxy-Authorization: Basic ".toList ++ value] ∧
          Base64.decode true value.utf8 = .ok u.utf8) ∧
        IsHead (q.connectRequest target) (q.requestLines target) ∧
        (q.requestLines target).filter isAuthorization = [] := by
  obtain ⟨rfl, hnone⟩ := ProxyUrl.eq_of_parse hu hp hq
  have hq' : q = { q with authorization := none } := by rw [← hnone]
  obtain ⟨front, back, hfront, hflag⟩ := HttpProxy.describe_flag q
  obtain ⟨value, hvalue, hreturn', hfeed', hdecode⟩ := decode_basic u
  have hfield : "Proxy-Authorization: ".toList ++ HttpProxy.basicAuthorization u =
      "Proxy-Authorization: Basic ".toList ++ value := by
    have hbasic : "Proxy-Authorization: Basic ".toList =
        "Proxy-Authorization: ".toList ++ "Basic ".toList := by decide
    rw [hvalue, hbasic, List.append_assoc]
  refine ⟨rfl, ?_, fun u' p' hu' hp' => ?_, fun target hreturn hfeed =>
    ⟨?_, ⟨value, ?_, ?_, hdecode⟩, ?_, ?_⟩⟩
  · exact ⟨front, back, hfront, hflag _, (congrArg HttpProxy.describe hq').trans (hflag none)⟩
  · obtain ⟨rfl, -⟩ := ProxyUrl.eq_of_parse hu' hp' hq
    exact (hflag _).trans (hflag _).symm
  · refine HttpProxy.isHead_connectRequest hreturn hfeed ?_
    rintro _ ⟨⟩
    rw [hvalue]
    simp [hreturn', hfeed']
  · rw [HttpProxy.requestLines_authorization, ← hq', hfield]
  · rw [HttpProxy.filter_requestLines, Option.map_some, Option.toList_some, hfield]
  · exact HttpProxy.isHead_connectRequest hreturn hfeed (by simp [hnone])
  · rw [HttpProxy.filter_requestLines, hnone]
    rfl

/-- An IPv6 literal without a port: the last colons are its own. -/
def spacedUrl : ProxyUrl where
  before := " ".toList
  scheme := "HtTp://".toList
  hostPort := "[::1]".toList
  ending := "/".toList
  after := "\t".toList
  blank_before := List.all_iff_forall_prop.1 (by decide)
  http := by decide
  plain := List.all_iff_forall_prop.1 (by decide)
  slash := by decide
  blank_after := List.all_iff_forall_prop.1 (by decide)

theorem credentials_reach_the_proxy_past_other_signs :
    let target : Text := "example.com:443".toList
    spacedUrl.text (some "me@home:8080".toList) = " HtTp://me@home:8080@[::1]/\t".toList ∧
      ∃ p q, HttpProxy.parse? (spacedUrl.text (some "me@home:8080".toList)) = some p ∧
        HttpProxy.parse? (spacedUrl.text none) = some q ∧
        p.address = q.address ∧ q.address = "[::1]:80".toList ∧
        IsHead (p.connectRequest target) (p.requestLines target) ∧
        (∃ value : Text,
          p.requestLines target =
            q.requestLines target ++ ["Proxy-Authorization: Basic ".toList ++ value] ∧
          (p.requestLines target).filter isAuthorization =
            ["Proxy-Authorization: Basic ".toList ++ value] ∧
          Base64.decode true value.utf8 = .ok (Text.utf8 "me@home:8080".toList)) ∧
        IsHead (q.connectRequest target) (q.requestLines target) ∧
        (q.requestLines target).filter isAuthorization = [] := by
  intro target
  have hu : IsUserinfo "me@home:8080".toList := List.all_iff_forall_prop.1 (by decide)
  have hp : HttpProxy.parse? (spacedUrl.text (some "me@home:8080".toList)) =
      some ⟨"[::1]:80".toList, some "Basic bWVAaG9tZTo4MDgw".toList⟩ := by decide
  have hq : HttpProxy.parse? (spacedUrl.text none) = some ⟨"[::1]:80".toList, none⟩ := by decide
  obtain ⟨haddress, -, -, hrequest⟩ := credentials_reach_the_proxy spacedUrl hu hp hq
  exact ⟨rfl, _, _, hp, hq, haddress, rfl, hrequest target (by decide) (by decide)⟩

end InterceptingProxy
