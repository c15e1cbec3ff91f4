import InterceptingProxy.Certificate.Coverage
import InterceptingProxy.Proofs.Address.Hosts

set_option autoImplicit false

/-! # Hosts that TLS is terminated for

`Coverage.nameMatches` compares texts at their ends; what it decides is a matter of labels
(`NameCovers`): a wildcard covers its base and what has one label more, never a part of a label or
two labels more. With it `HostCovered` says for which hosts a list of names has TLS terminated
(`Coverage.covers_ofNames_iff`), and so what becomes of a destination. An empty destination is no
destination at all, and so unlike others that name an empty host. -/

namespace InterceptingProxy

/-! ## Hosts as they are looked up -/

/-- A host in lower case and without dots at its end. -/
def lookupForm (host : Text) : Text := Text.lower (dropEndWhile (· == '.') host)

/-- The hosts are the same but for the case of letters and for dots at their ends. -/
def SameHost (host host' : Text) : Prop :=
  ∃ dots dots', Text.lower host ++ List.replicate dots '.' =
    Text.lower host' ++ List.replicate dots' '.'

theorem lookupForm_eq_dropEndWhile (host : Text) (dots : Nat) :
    lookupForm host =
      dropEndWhile (· == '.') (Text.lower host ++ List.replicate dots '.') := by
  have hdots : ∀ c ∈ List.replicate dots '.', (c == '.') = true := by
    intro c hc
    rw [List.eq_of_mem_replicate hc]
    rfl
  rw [dropEndWhile_append_of_pos hdots, lookupForm, Text.lower, Text.lower,
    dropEndWhile_map (lowerChar_beq (by decide))]

theorem SameHost.lookupForm_eq {host host' : Text} (h : SameHost host host') :
    lookupForm host = lookupForm host' := by
  obtain ⟨dots, dots', heq⟩ := h
  rw [lookupForm_eq_dropEndWhile host dots, heq, ← lookupForm_eq_dropEndWhile host' dots']

/-! ## Names that cover a host -/

/-- How a wildcard starts. -/
def wildcardStart : Text := "*.".toList

/-- A name covers a host: it is the host, or a wildcard over its base and over what has one label
    more. -/
def NameCovers (name host : Text) : Prop :=
  (¬ wildcardStart <+: name ∧ name = host) ∨
    ∃ base, name = wildcardStart ++ base ∧
      (labels host = labels base ∨ ∃ label, label ≠ [] ∧ labels host = label :: labels base)

/-- A list of names has TLS terminated for a host: an address is one of them, any other host is
    covered by one that is no address. -/
def HostCovered (names : List Text) (host : Text) : Prop :=
  (∃ ip, IpAddr.parse? host = some ip ∧ ∃ name ∈ names, IpAddr.parse? name = some ip) ∨
    IpAddr.parse? host = none ∧ lookupForm host ≠ [] ∧
      ∃ name ∈ names, IpAddr.parse? name = none ∧ NameCovers name.lower (lookupForm host)

theorem nameCovers_wildcard_iff {base host : Text} :
    NameCovers (wildcardStart ++ base) host ↔
      labels host = labels base ∨ ∃ label, label ≠ [] ∧ labels host = label :: labels base := by
  constructor
  · rintro (⟨hplain, -⟩ | ⟨base', heq, hlabels⟩)
    · exact absurd (List.prefix_append _ _) hplain
    · rw [List.append_cancel_left heq]
      exact hlabels
  · intro hlabels
    exact .inr ⟨base, rfl, hlabels⟩

/-- A wildcard adds one label at most, and no part of one. -/
theorem NameCovers.suffix {base host : Text} (h : NameCovers (wildcardStart ++ base) host) :
    labels base <:+ labels host ∧ (labels host).length ≤ (labels base).length + 1 := by
  rcases nameCovers_wildcard_iff.1 h with hlabels | ⟨label, -, hlabels⟩
  · rw [hlabels]
    exact ⟨List.suffix_rfl, Nat.le_succ _⟩
  · rw [hlabels]
    exact ⟨List.suffix_cons _ _, Nat.le_refl _⟩

namespace Coverage

theorem nameMatches_iff {host name : Text} :
    nameMatches host name = true ↔ NameCovers name host := by
  unfold nameMatches
  cases hname : stripPrefix "*.".toList name with
  | none =>
      have hplain : ¬ wildcardStart <+: name := stripPrefix_eq_none_iff.1 hname
      have hnot : ∀ base, name ≠ wildcardStart ++ base := fun base heq => hplain ⟨base, heq.symm⟩
      rw [beq_iff_eq]
      constructor
      · rintro rfl
        exact .inl ⟨hplain, rfl⟩
      · rintro (⟨-, rfl⟩ | ⟨base, heq, -⟩)
        · rfl
        · exact absurd heq (hnot base)
  | some base =>
      obtain rfl : name = wildcardStart ++ base := stripPrefix_eq_some_iff.1 hname
      have hone : ∀ label, (stripSuffix base host).bind (stripSuffix ['.']) = some label ↔
          host = label ++ '.' :: base := by
        intro label
        simp [Option.bind_eq_some_iff, stripSuffix_eq_some_iff]
      rw [nameCovers_wildcard_iff, Bool.or_eq_true, beq_iff_eq]
      refine or_congr ⟨congrArg labels, labels_injective⟩ ?_
      simp only [labels_eq_cons_iff]
      cases hlabel : (stripSuffix base host).bind (stripSuffix ['.']) with
      | none =>
          refine ⟨nofun, ?_⟩
          rintro ⟨label, -, -, heq⟩
          rw [(hone label).2 heq] at hlabel
          cases hlabel
      | some label =>
          have hhost := (hone label).1 hlabel
          constructor
          · intro hgood
            simp at hgood
            exact ⟨label, hgood.1, hgood.2, hhost⟩
          · rintro ⟨label', hne, hdot, heq⟩
            rw [hhost] at heq
            obtain rfl := List.append_cancel_right heq
            simp [hne, hdot]

/-! ## Certificates -/

/-- The names are parted into addresses and, in lower case, all others. -/
theorem foldl_addName (names : List Text) (c : Coverage) :
    names.foldl addName c =
      { dnsNames := c.dnsNames ++ (names.filter (IpAddr.parse? · = none)).map Text.lower
        ipAddrs := c.ipAddrs ++ names.filterMap IpAddr.parse? } := by
  induction names generalizing c with
  | nil => simp
  | cons name names ih =>
      rw [List.foldl_cons, ih, addName]
      cases hip : IpAddr.parse? name <;> simp [hip]

theorem mem_dnsNames_ofNames {names : List Text} {name : Text} :
    name ∈ (ofNames names).dnsNames ↔ ∃ n ∈ names, IpAddr.parse? n = none ∧ n.lower = name := by
  simp [ofNames, foldl_addName, and_assoc]

theorem mem_ipAddrs_ofNames {names : List Text} {ip : IpAddr} :
    ip ∈ (ofNames names).ipAddrs ↔ ∃ n ∈ names, IpAddr.parse? n = some ip := by
  simp [ofNames, foldl_addName]

theorem covers_of_name {c : Coverage} {host : Text} (h : IpAddr.parse? host = none) :
    c.covers host = true ↔
      lookupForm host ≠ [] ∧ ∃ name ∈ c.dnsNames, NameCovers name (lookupForm host) := by
  have hcovers : c.covers host =
      (!(lookupForm host).isEmpty && c.dnsNames.any (nameMatches (lookupForm host))) := by
    rw [covers, h]
    rfl
  simp only [hcovers, Bool.and_eq_true, List.any_eq_true, nameMatches_iff, Bool.not_eq_true',
    List.isEmpty_eq_false_iff]

theorem covers_ofNames_iff {names : List Text} {host : Text} :
    (ofNames names).covers host = true ↔ HostCovered names host := by
  unfold HostCovered
  cases hip : IpAddr.parse? host with
  | some ip => simp [covers, hip, mem_ipAddrs_ofNames]
  | none =>
      rw [covers_of_name hip]
      constructor
      · rintro ⟨hhost, name, hname, hcovers⟩
        obtain ⟨n, hn, hplain, rfl⟩ := mem_dnsNames_ofNames.1 hname
        exact .inr ⟨rfl, hhost, n, hn, hplain, hcovers⟩
      · rintro (⟨ip, hsome, -⟩ | ⟨-, hhost, n, hn, hplain, hcovers⟩)
        · cases hsome
        · exact ⟨hhost, n.lower, mem_dnsNames_ofNames.2 ⟨n, hn, hplain, rfl⟩, hcovers⟩

/-- A certificate does not tell hosts apart that are the same but for case and dots. -/
theorem covers_congr {c : Coverage} {host host' : Text} (hname : IpAddr.parse? host = none)
    (hname' : IpAddr.parse? host' = none) (h : SameHost host host') :
    c.covers host = c.covers host' := by
  rw [Bool.eq_iff_iff, covers_of_name hname, covers_of_name hname', h.lookupForm_eq]

end Coverage

/-! ## Destinations -/

theorem routeTls_empty (cert : Option Coverage) : routeTls (some []) cert = .intercept := rfl

theorem routeTls_of_ne_nil {d : Text} (hd : d ≠ []) (cert : Option Coverage) :
    routeTls (some d) cert =
      if cert.any (·.covers (hostOf d)) then .intercept else .passThrough d := by
  have hsome : (some d).filter (!·.isEmpty) = some d := by simp [hd]
  unfold routeTls
  rw [hsome]
  cases cert <;> rfl

theorem routeTls_intercept_iff {d : Text} {cert : Option Coverage} :
    routeTls (some d) cert = .intercept ↔ d = [] ∨ cert.any (·.covers (hostOf d)) = true := by
  by_cases hd : d = []
  · simp [hd, routeTls_empty]
  · simp [routeTls_of_ne_nil hd, hd]

/-- **TLS is terminated for the hosts that the certificate names.** A destination is relayed to
    untouched unless it is empty or the certificate covers its host: the host is an address that is
    one of the names, or else, in lower case and without dots at its end, a name or what a wildcard
    stands for. So the decision depends on the host of a destination that is not empty, and unless
    this is an address only up to case and dots at its end; a wildcard takes in no part of a label
    and no two more labels. -/
theorem terminated_iff_covered :
    (∀ names d, routeTls (some d) (some (Coverage.ofNames names)) = .intercept ↔
      d = [] ∨ HostCovered names (hostOf d)) ∧
    (∀ d cert, routeTls (some d) cert = .intercept ∨ routeTls (some d) cert = .passThrough d) ∧
    (∀ d, d ≠ [] → routeTls (some d) none = .passThrough d) ∧
    (∀ cert, routeTls none cert = .intercept) ∧
    (∀ cert d d', d ≠ [] → d' ≠ [] →
      hostOf d = hostOf d' ∨ IpAddr.parse? (hostOf d) = none ∧ IpAddr.parse? (hostOf d') = none ∧
        SameHost (hostOf d) (hostOf d') →
      (routeTls (some d) cert = .intercept ↔ routeTls (some d') cert = .intercept)) ∧
    ∀ base host, (Coverage.ofNames [wildcardStart ++ base]).covers host = true →
      labels base.lower <:+ labels (lookupForm host) ∧
        (labels (lookupForm host)).length ≤ (labels base.lower).length + 1 := by
  refine ⟨?_, ?_, ?_, fun _ => rfl, ?_, ?_⟩
  · intro names d
    rw [routeTls_intercept_iff, Option.any_some, Coverage.covers_ofNames_iff]
  · intro d cert
    by_cases hd : d = []
    · exact .inl (hd ▸ routeTls_empty cert)
    · rw [routeTls_of_ne_nil hd]
      exact ite_eq_or_eq _ _ _
  · intro d hd
    exact routeTls_of_ne_nil hd none
  · intro cert d d' hd hd' hsame
    have hcovers : ∀ c : Coverage, c.covers (hostOf d) = c.covers (hostOf d') := by
      intro c
      rcases hsame with heq | ⟨hname, hname', hsame⟩
      · rw [heq]
      · exact Coverage.covers_congr hname hname' hsame
    simp only [routeTls_intercept_iff, hd, hd', hcovers]
  · intro base host hcovers
    rcases Coverage.covers_ofNames_iff.1 hcovers with
      ⟨ip, -, name, hname, hip⟩ | ⟨-, -, name, hname, -, hname'⟩
    · obtain rfl := List.mem_singleton.1 hname
      -- no address starts with a star
      cases hip
    · obtain rfl := List.mem_singleton.1 hname
      exact NameCovers.suffix hname'

/-- Two spellings of one host with different ports, and a wildcard over it. -/
theorem terminated_iff_covered_in_other_case :
    let d := "GRPC-Tools.GitHub.io.:443".toList
    let d' := "grpc-tools.github.IO:8443".toList
    let names := [wildcardStart ++ "GitHub.io".toList, "127.0.0.1".toList]
    (d ≠ [] ∧ d' ≠ [] ∧ SameHost (hostOf d) (hostOf d')) ∧
      routeTls (some d) none = .passThrough d ∧
      (routeTls (some d) (some (.ofNames names)) = .intercept ↔
        routeTls (some d') (some (.ofNames names)) = .intercept) ∧
      labels "github.io".toList <:+ labels (lookupForm (hostOf d)) := by
  intro d d' names
  have hd : d ≠ [] := by decide
  have hd' : d' ≠ [] := by decide
  have hsame : SameHost (hostOf d) (hostOf d') := ⟨0, 1, by decide⟩
  have hcovers :
      (Coverage.ofNames [wildcardStart ++ "GitHub.io".toList]).covers (hostOf d) = true := by
    decide
  obtain ⟨-, -, hnone, -, hcongr, hwildcard⟩ := terminated_iff_covered
  exact ⟨⟨hd, hd', hsame⟩, hnone d hd,
    hcongr (some (.ofNames names)) d d' hd hd' (.inr ⟨by decide, by decide, hsame⟩),
    (hwildcard _ (hostOf d) hcovers).1⟩

/-- Without a certificate TLS is terminated for the empty destination all the same, and with one the
    empty destination is told apart from another one whose host is empty. -/
theorem empty_destination_is_none :
    routeTls (some []) none ≠ .passThrough [] ∧
    let cert := some (Coverage.ofNames ["a".toList])
    hostOf [] = hostOf ":443".toList ∧ routeTls (some []) cert = .intercept ∧
      routeTls (some ":443".toList) cert = .passThrough ":443".toList := by
  decide

end InterceptingProxy
