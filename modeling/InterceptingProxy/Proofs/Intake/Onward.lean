import InterceptingProxy.Proofs.Intake.Nesting

set_option autoImplicit false

/-! # What becomes of a dial

Once the second look has dialed a destination, the client is to be relayed to it. On the TLS branch
that can only fail where the destination is no TLS server: its host is no server name, or the
handshake towards it fails. The plaintext branch has nothing to put TLS on a connection with, and
it meets connections that need it: plain streams out of a tunnel that was opened inside TLS are as
secured as the tunnel. For each of them the destination is dialed and the client dropped
(`dial_inside_tls_is_wasted`). `relay_started_iff` says for all connections when a dial is used. -/

namespace InterceptingProxy

variable {connector : Option Connector} {client : Connection} {o : Outbound} {d : Text}
  {t : Termination} {branch : Branch}

theorem encrypt_eq_ok_iff {handshake : Connector} :
    encrypt (some handshake) d = .ok () ↔
      ∃ name, ServerName.parse? (hostOf d) = some name ∧ handshake name = .ok () := by
  cases hname : ServerName.parse? (hostOf d) <;> simp [encrypt, hname]

theorem relayOnward_relayed_iff (hdial : o.result o.dialed.length = .ok ()) :
    (∃ relayed, (relayOnward connector d client o).1 = .relayed relayed) ↔
      (client.isTls = true → encrypt connector d = .ok ()) := by
  constructor
  · rintro ⟨relayed, hrelayed⟩ htls
    cases he : encrypt connector d with
    | ok _ => rfl
    | error e =>
        rw [relayOnward_unsecured hdial htls he] at hrelayed
        cases hrelayed
  · intro hsecured
    obtain ⟨relayed, hrelayed, _⟩ := relayOnward_relayed connector d hdial hsecured
    exact ⟨relayed, hrelayed⟩

/-! ## The branches -/

theorem serve_plain_dialed
    (h : (Branch.plain.serve (some t) client o).2.dialed ≠ o.dialed) :
    ∃ d held, client.destination = some d ∧ held.isTls = client.isTls ∧
      Branch.plain.serve (some t) client o = relayOnward none d held o := by
  obtain ⟨d, held, hd, hintact, hb⟩ := bounce_dialed h
  exact ⟨d, held, hd, hintact.isTls, hb⟩

theorem serve_tls_dialed (h : (Branch.tls.serve (some t) client o).2.dialed ≠ o.dialed) :
    ∃ d held, client.destination = some d ∧ held.isTls = true ∧
      Branch.tls.serve (some t) client o = relayOnward (some t.connector) d held o := by
  cases haccept : t.accept client with
  | error e =>
      simp only [Branch.serve, haccept] at h
      exact absurd rfl h
  | ok stream =>
      simp only [Branch.serve, haccept] at h ⊢
      obtain ⟨d, held, hd, hintact, hb⟩ := bounce_dialed h
      exact ⟨d, held, (Option.filter_eq_some_iff.1 hd).1, hintact.isTls, hb⟩

/-- **When a dial is used.** If serving a connection dials, it dials the destination that the client
    meant, and if that succeeds, then the client is relayed to it if and only if

    * on the plaintext branch, the connection is not marked as secured;
    * on the TLS branch, the destination's host is a server name and the handshake succeeds.

    A dial for a secured connection on the plaintext branch always ends in a drop. Such connections
    are those that came out of tunnels inside TLS. -/
theorem relay_started_iff (hdial : (branch.serve (some t) client o).2.dialed ≠ o.dialed)
    (hok : o.result o.dialed.length = .ok ()) :
    (∃ d, client.destination = some d ∧
      (branch.serve (some t) client o).2.dialed = o.dialed ++ [d] ∧
      ((∃ relayed, (branch.serve (some t) client o).1 = .relayed relayed) ↔
        (branch = .plain ∧ client.isTls = false) ∨
        (branch = .tls ∧
          ∃ name, ServerName.parse? (hostOf d) = some name ∧ t.connector name = .ok ()))) ∧
    (branch = .plain → client.isTls = true →
      (branch.serve (some t) client o).1 = .dropped noConnector) ∧
    (∀ layers accepted, Arrival (some t) layers accepted →
      classify (some t.coverage) accepted = .serve branch client →
      (client.isTls = true ↔ .tls ∈ layers)) := by
  refine ⟨?_, ?_, fun layers accepted ha hc => ?_⟩
  · cases branch with
    | plain =>
        obtain ⟨d, held, hd, htls, hserve⟩ := serve_plain_dialed hdial
        refine ⟨d, hd, by rw [hserve]; exact (relayOnward_dialed _ d held o).1, ?_⟩
        rw [hserve, relayOnward_relayed_iff hok, htls]
        -- there is nothing to encrypt with
        simp [encrypt]
    | tls =>
        obtain ⟨d, held, hd, htls, hserve⟩ := serve_tls_dialed hdial
        refine ⟨d, hd, by rw [hserve]; exact (relayOnward_dialed _ d held o).1, ?_⟩
        rw [hserve, relayOnward_relayed_iff hok, ← encrypt_eq_ok_iff]
        simp [htls]
  · rintro rfl htls
    obtain ⟨d, held, _, hheld, hserve⟩ := serve_plain_dialed hdial
    rw [hserve, relayOnward_unsecured hok (hheld.trans htls) rfl]
  · rw [(classify_serve_intact hc).isTls]
    exact ha.tagged.isTls

/-- A stream under the TLS of a client that no router serves is relayed, secured again. -/
theorem relay_started_iff_under_tls :
    let t := finding (ascii "SSH-2.0-x")
    let o : Outbound := { result := fun _ => .ok (), reply := id }
    let client : Connection := (Connection.raw (.of [0x16, 0x03, 0x01])).tunnelled ['a'] false
    (Branch.tls.serve (some t) client o).2.dialed = [['a']] ∧
      ∃ relayed, (Branch.tls.serve (some t) client o).1 = .relayed relayed := by
  intro t o client
  have hdialed : (Branch.tls.serve (some t) client o).2.dialed = [['a']] := by decide +kernel
  have hdial : (Branch.tls.serve (some t) client o).2.dialed ≠ o.dialed := by
    rw [hdialed]
    exact List.cons_ne_nil _ _
  obtain ⟨⟨d, hd, _, hiff⟩, _⟩ := relay_started_iff hdial rfl
  obtain rfl : ['a'] = d := Option.some.inj hd
  exact ⟨hdialed, hiff.2 (.inr ⟨rfl, .dns ['a'], by decide +kernel, rfl⟩)⟩

/-! ## A plain stream inside TLS -/

/-- A client opens a tunnel inside the TLS of the proxy itself and sends a plain stream through it:
    the destination is dialed, would take TLS, and the client is dropped. -/
theorem dial_inside_tls_is_wasted :
    let t := finding (ascii "CONNECT localhost")
    let o : Outbound := { result := fun _ => .ok (), reply := id }
    let accepted : Connection :=
      (Connection.raw (.of (ascii "SSH-2.0-x"))).tunnelled "localhost".toList true
    Arrival (some t) [.tls, .tunnel "localhost".toList] accepted ∧
    ∃ client,
      classify (some t.coverage) accepted = .serve .plain client ∧
      (Branch.plain.serve (some t) client o).2.dialed = ["localhost".toList] ∧
      (∃ name, ServerName.parse? (hostOf "localhost".toList) = some name ∧
        t.connector name = .ok ()) ∧
      ¬ ∃ relayed, (Branch.plain.serve (some t) client o).1 = .relayed relayed := by
  intro t o accepted
  -- the tunnel in the TLS of the proxy
  let direct := Connection.direct (.raw (.of [0x16, 0x03, 0x01]))
  have hdirect : Arrival (some t) [] direct := .direct _
  have hwelcome : Welcome
      ((Connection.raw (.of (ascii "CONNECT localhost"))).tag direct.destination true) := .inl rfl
  obtain ⟨routed, hpassage, _⟩ := hwelcome.passage_tls (t := t) ⟨1, by decide, [], rfl⟩ rfl
    (fun _ => rfl) o
  have hnamed : (connectTo "localhost".toList).authority? = some "localhost".toList := by
    decide +kernel
  have hgranted : Router.connect (RoutedConnection.of routed) (connectTo "localhost".toList) =
      .tunnel "localhost".toList true :=
    (hdirect.tagged.passage hpassage).connect rfl hnamed (by decide)
  have haccepted : Arrival (some t) [.tls, .tunnel "localhost".toList] accepted :=
    hdirect.tunnel hpassage hgranted
  -- the plain stream in the tunnel
  have hplain : ¬ OpensTls accepted.arriving := by
    rw [← isTlsHandshake_take_iff]
    decide +kernel
  obtain ⟨client, hc, hintact⟩ := classify_plain (some t.coverage) (fun _ => rfl) hplain
  have hd : client.destination = some "localhost".toList := by
    rw [hintact.destination]
    decide +kernel
  obtain ⟨kept, hkept, hserve⟩ := bounce_other none o hd
    (by rw [hintact.arriving]; decide +kernel)
    (by rw [hintact.arriving, ← isProxiedHttp_take_iff]; decide +kernel)
  have hbranch : Branch.plain.serve (some t) client o =
      relayOnward none "localhost".toList kept o := hserve
  refine ⟨haccepted, client, hc, ?_, ⟨.dns "localhost".toList, by decide +kernel, rfl⟩, ?_⟩
  · rw [hbranch]
    exact (relayOnward_dialed none _ kept o).1
  · rw [hbranch, relayOnward_relayed_iff rfl, hkept.isTls, hintact.isTls]
    intro hsecured
    cases hsecured rfl

end InterceptingProxy
