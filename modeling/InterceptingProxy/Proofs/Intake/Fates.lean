import InterceptingProxy.Proofs.Intake.Looks

set_option autoImplicit false

/-! # The fate of a connection

Both looks at a connection decide by the first bytes that arrive on it and by where the client
meant to go (`Alike.fate_eq`, `Alike.bounce_eq`), and whoever gets the connection gets it from its
first byte: a branch or the router as the connection that it was (`Connection.Intact`), a
destination as the bytes that arrive (`Outbound.Delivered`). The main statement is
`every_connection_has_one_fate`. -/

namespace InterceptingProxy

variable {certificate : Option Coverage} {connector : Option Connector} {client : Connection}
  {o : Outbound} {d : Text}

/-! ## What a decision depends on -/

/-- A look at `n` bytes cannot tell two connections apart. -/
structure Alike (n : Nat) (c c' : Connection) : Prop where
  destination : c.destination = c'.destination
  start : c.arriving.take n = c'.arriving.take n
  ending : c.arriving.length < n → c.failure? = c'.failure?

theorem Alike.length_lt_iff {n : Nat} {c c' : Connection} (h : Alike n c c') :
    c.arriving.length < n ↔ c'.arriving.length < n := by
  have hlength := congrArg List.length h.start
  rw [List.length_take, List.length_take] at hlength
  omega

theorem Alike.opensTls_iff {c c' : Connection} (h : Alike tlsPeekSize c c') :
    OpensTls c.arriving ↔ OpensTls c'.arriving := by
  rw [← isTlsHandshake_take_iff, ← isTlsHandshake_take_iff, h.start]

theorem Alike.opensHttp_iff {c c' : Connection} (h : Alike httpPeekSize c c') :
    OpensHttp c.arriving ↔ OpensHttp c'.arriving := by
  rw [← isProxiedHttp_take_iff, ← isProxiedHttp_take_iff, h.start]

/-- The same fate for another connection. -/
def Fate.of (client : Connection) : Fate → Fate
  | .serve branch _ => .serve branch client
  | .passThrough destination _ => .passThrough destination client
  | .drop e => .drop e

theorem Alike.fate_eq {c c' : Connection} (h : Alike tlsPeekSize c c') :
    (classify certificate c).of c' = (classify certificate c').of c' := by
  by_cases htls : OpensTls c.arriving
  · obtain ⟨held, _, hc⟩ := classify_tls certificate htls
    obtain ⟨held', _, hc'⟩ := classify_tls certificate (h.opensTls_iff.1 htls)
    rw [hc, hc', h.destination]
    cases routeTls c'.destination certificate <;> rfl
  · have htls' : ¬ OpensTls c'.arriving := fun hopens => htls (h.opensTls_iff.2 hopens)
    by_cases hend : c.arriving.length < tlsPeekSize → c.failure? = none
    · obtain ⟨held, hc, _⟩ := classify_plain certificate hend htls
      have hend' : c'.arriving.length < tlsPeekSize → c'.failure? = none := fun hshort => by
        rw [← h.ending (h.length_lt_iff.2 hshort)]
        exact hend (h.length_lt_iff.2 hshort)
      obtain ⟨held', hc', _⟩ := classify_plain certificate hend' htls'
      rw [hc, hc']
      rfl
    · obtain ⟨hshort, hsome⟩ := Classical.not_imp.1 hend
      obtain ⟨e, he⟩ := Option.ne_none_iff_exists'.1 hsome
      rw [classify_failed hshort he,
        classify_failed (h.length_lt_iff.1 hshort) ((h.ending hshort).symm.trans he)]

theorem Alike.bounce_eq {c c' : Connection} (h : Alike httpPeekSize c c') :
    ((∃ held, (bounce connector c o).1 = .served held) ↔
      ∃ held, (bounce connector c' o).1 = .served held) ∧
    (bounce connector c o).2.dialed = (bounce connector c' o).2.dialed := by
  obtain ⟨hd, hb⟩ | ⟨d, hd, hcases⟩ := bounce_cases connector c o
  · rw [hb, bounce_direct connector o (h.destination.symm.trans hd)]
    simp
  · have hd' : c'.destination = some d := h.destination.symm.trans hd
    have hlong_iff := not_congr h.length_lt_iff
    rw [Nat.not_lt, Nat.not_lt] at hlong_iff
    obtain ⟨hshort, e, hb⟩ | ⟨hlong, hhttp, held, hb, _⟩ | ⟨hlong, hhttp, held, _, hb⟩ := hcases
    · obtain ⟨e', hb'⟩ := bounce_short connector o hd' (h.length_lt_iff.1 hshort)
      rw [hb, hb']
      simp
    · obtain ⟨held', hb', _⟩ :=
        bounce_http connector o hd' (hlong_iff.1 hlong) (h.opensHttp_iff.1 hhttp)
      rw [hb, hb']
      simp
    · obtain ⟨held', _, hb'⟩ :=
        bounce_other connector o hd' (hlong_iff.1 hlong) (mt h.opensHttp_iff.2 hhttp)
      obtain ⟨hdialed, hnobody⟩ := relayOnward_dialed connector d held o
      obtain ⟨hdialed', hnobody'⟩ := relayOnward_dialed connector d held' o
      rw [hb, hb', hdialed, hdialed']
      exact ⟨⟨fun ⟨k, hk⟩ => absurd hk (hnobody k), fun ⟨k, hk⟩ => absurd hk (hnobody' k)⟩, rfl⟩

/-! ## The ways to a destination -/

/-- TLS that cannot be terminated here is dialed for once, and relayed if the dial succeeds. -/
theorem carryOut_classify_passThrough (htls : OpensTls client.arriving)
    (hroute : routeTls client.destination certificate = .passThrough d) :
    let first := (classify certificate client).carryOut o
    first.2.dialed = o.dialed ++ [d] ∧
      (∀ branch held, first.1 ≠ .served branch held) ∧
      (∀ e, o.result o.dialed.length = .error e →
        first.1 = .dropped e ∧ first.2.received = o.received) ∧
      (o.result o.dialed.length = .ok () →
        ∃ relayed, first.1 = .relayed relayed ∧
          Outbound.Delivered client false o first.2 relayed) := by
  intro first
  obtain ⟨held, hintact, hc⟩ := classify_tls certificate htls
  rw [hroute] at hc
  have hfirst : first = (Fate.passThrough d held).carryOut o := congrArg (Fate.carryOut · o) hc
  obtain ⟨hdialed, hnobody⟩ := carryOut_passThrough_dialed d held o
  rw [hfirst]
  refine ⟨hdialed, hnobody, fun e he => ?_, fun hdial => ?_⟩
  · rw [carryOut_passThrough_refused he]
    exact ⟨rfl, rfl⟩
  · obtain ⟨relayed, hrelayed, hdelivered⟩ := carryOut_passThrough_relayed d held hdial
    exact ⟨relayed, hrelayed, hdelivered.of_intact hintact⟩

/-- What the router does not serve is dialed for once, and what is relayed arrives whole. -/
theorem bounce_onward (hd : client.destination = some d)
    (hlong : httpPeekSize ≤ client.arriving.length) (hhttp : ¬ OpensHttp client.arriving) :
    let second := bounce connector client o
    second.2.dialed = o.dialed ++ [d] ∧ (∀ held, second.1 ≠ .served held) ∧
      (∀ relayed, second.1 = .relayed relayed →
        Outbound.Delivered client client.isTls o second.2 relayed) ∧
      (o.result o.dialed.length = .ok () →
        (client.isTls = true → encrypt connector d = .ok ()) →
        ∃ relayed, second.1 = .relayed relayed) := by
  intro second
  obtain ⟨held, hintact, hb⟩ := bounce_other connector o hd hlong hhttp
  have hsecond : second = relayOnward connector d held o := hb
  obtain ⟨hdialed, hnobody⟩ := relayOnward_dialed connector d held o
  rw [hsecond, ← hintact.isTls]
  refine ⟨hdialed, hnobody, fun relayed hrelayed => ?_, fun hdial hsecured => ?_⟩
  · exact (relayOnward_delivered hrelayed).of_intact hintact
  · obtain ⟨relayed, hrelayed, _⟩ := relayOnward_relayed connector d hdial hsecured
    exact ⟨relayed, hrelayed⟩

/-! ## Every fate -/

/-- **Every connection has exactly one fate and keeps its whole stream.** With the bytes that arrive
    before the end or the first failure, the first look

    * drops a connection that fails before three bytes have arrived, by that failure;
    * serves one on the plaintext branch if too few bytes arrive or they open no TLS handshake;
    * serves any other on the TLS branch if TLS can be terminated for it, and else dials the
      destination that the client meant, once and as the client wrote it, and relays to it.

    The second look leaves a connection without a destination alone. If eight bytes arrive, it gives
    one that opens like a request of the router's to the router without dialing, and for any other
    it dials the destination once and gives the connection to nobody. In every case the party that
    gets the connection has all of it still to come, and connections that open in the same way share
    their fate. -/
theorem every_connection_has_one_fate (certificate : Option Coverage)
    (connector : Option Connector) (client : Connection) (o : Outbound) :
    let first := (classify certificate client).carryOut o
    let second := bounce connector client o
    (∀ e, client.arriving.length < tlsPeekSize → client.failure? = some e →
      first = (.dropped e, o)) ∧
    ((client.arriving.length < tlsPeekSize → client.failure? = none) →
      ¬ OpensTls client.arriving →
      ∃ held, first = (.served .plain held, o) ∧ held.Intact client) ∧
    (OpensTls client.arriving → routeTls client.destination certificate = .intercept →
      ∃ held, first = (.served .tls held, o) ∧ held.Intact client) ∧
    (∀ d, OpensTls client.arriving → routeTls client.destination certificate = .passThrough d →
      client.destination = some d ∧ first.2.dialed = o.dialed ++ [d] ∧
      (∀ branch held, first.1 ≠ .served branch held) ∧
      (∀ e, o.result o.dialed.length = .error e →
        first.1 = .dropped e ∧ first.2.received = o.received) ∧
      (o.result o.dialed.length = .ok () →
        ∃ relayed, first.1 = .relayed relayed ∧
          Outbound.Delivered client false o first.2 relayed)) ∧
    (client.destination = none → second = (.served client, o)) ∧
    (∀ d, client.destination = some d → httpPeekSize ≤ client.arriving.length →
      (OpensHttp client.arriving → ∃ held, second = (.served held, o) ∧ held.Intact client) ∧
      (¬ OpensHttp client.arriving →
        second.2.dialed = o.dialed ++ [d] ∧ (∀ held, second.1 ≠ .served held) ∧
        (∀ relayed, second.1 = .relayed relayed →
          Outbound.Delivered client client.isTls o second.2 relayed) ∧
        (o.result o.dialed.length = .ok () →
          (client.isTls = true → encrypt connector d = .ok ()) →
          ∃ relayed, second.1 = .relayed relayed))) ∧
    (∀ other, Alike tlsPeekSize client other →
      (classify certificate client).of other = (classify certificate other).of other) ∧
    (∀ other, Alike httpPeekSize client other →
      ((∃ held, second.1 = .served held) ↔
        ∃ held, (bounce connector other o).1 = .served held) ∧
      second.2.dialed = (bounce connector other o).2.dialed) := by
  intro first second
  refine ⟨fun e hshort he => ?_, fun hend htls => ?_, fun htls hroute => ?_,
    fun d htls hroute => ⟨routeTls_passThrough hroute, carryOut_classify_passThrough htls hroute⟩,
    bounce_direct connector o,
    fun d hd hlong => ⟨bounce_http connector o hd hlong, bounce_onward hd hlong⟩,
    fun other halike => halike.fate_eq, fun other halike => halike.bounce_eq⟩
  · simp only [first, classify_failed hshort he, Fate.carryOut]
  · obtain ⟨held, hc, hintact⟩ := classify_plain certificate hend htls
    exact ⟨held, by simp only [first, hc, Fate.carryOut], hintact⟩
  · obtain ⟨held, hintact, hc⟩ := classify_tls certificate htls
    rw [hroute] at hc
    exact ⟨held, by simp only [first, hc, Fate.carryOut], hintact⟩

/-- A handshake in two pieces is relayed to a destination that no certificate covers, and a stream
    that is no request of the router's goes to its destination from the second look. -/
theorem every_connection_has_one_fate_in_pieces :
    let o : Outbound := { result := fun _ => .ok (), reply := id }
    let hello : Connection := (Connection.raw
      { source := { chunks := [.data [0x16], .data [0x03, 0x01, 7]] } }).tunnelled ['h'] false
    let banner : Connection := (Connection.raw
      { source := { chunks := [.data (ascii "SSH-"), .data (ascii "2.0-x")] } }).tunnelled
        ['h'] false
    (∃ relayed, ((classify none hello).carryOut o).1 = .relayed relayed ∧
      ((classify none hello).carryOut o).2.received = [⟨false, [0x16, 0x03, 0x01, 7]⟩]) ∧
    (∃ relayed, (bounce none banner o).1 = .relayed relayed ∧
      (bounce none banner o).2.received = [⟨false, ascii "SSH-2.0-x"⟩]) := by
  intro o hello banner
  obtain ⟨_, _, _, hpass, _⟩ := every_connection_has_one_fate none none hello o
  obtain ⟨_, _, _, _, _, hsecond, _⟩ := every_connection_has_one_fate none none banner o
  constructor
  · obtain ⟨_, _, _, _, hrelay⟩ := hpass ['h'] ⟨1, by decide, [7], rfl⟩ rfl
    obtain ⟨relayed, hrelayed, hdelivered⟩ := hrelay rfl
    exact ⟨relayed, hrelayed, hdelivered.received⟩
  · obtain ⟨_, hother⟩ := hsecond ['h'] rfl (by decide +kernel)
    have hhttp : ¬ OpensHttp banner.arriving := by
      rw [← isProxiedHttp_take_iff]
      decide +kernel
    obtain ⟨_, _, hdelivered, hrelay⟩ := hother hhttp
    obtain ⟨relayed, hrelayed⟩ := hrelay rfl fun htls => Bool.noConfusion htls
    exact ⟨relayed, hrelayed, (hdelivered relayed hrelayed).received⟩

end InterceptingProxy
