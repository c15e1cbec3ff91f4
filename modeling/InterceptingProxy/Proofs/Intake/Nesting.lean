import InterceptingProxy.Proofs.Header.Removal
import InterceptingProxy.Proofs.Intake.Looks

set_option autoImplicit false

/-! # Tags through tunnels and layers of TLS

A client may put tunnels and layers of TLS into each other to any depth. However many times its
connection has come in again, it is tagged with the authority of the innermost tunnel and as secured
once a layer of TLS has been taken off it (`Tagged`). The listener starts with such tags, a branch
keeps or extends them (`Tagged.serve`), and so does a tunnel that the router opens
(`Tagged.tunnelled`); what holds of every arrival follows by induction on its history
(`Arrival.tagged`). -/

namespace InterceptingProxy

/-! ## What the router grants -/

theorem Request.authority?_ne_nil {r : Request} : r.authority? ≠ some [] := by
  intro h
  have hkept := (Option.filter_eq_some_iff.1 h).2
  cases hkept

namespace Router

variable {conn : RoutedConnection} {r : Request} {authority : Text} {tls : Bool}

theorem connect_eq_tunnel_iff :
    connect conn r = .tunnel authority tls ↔
      (r.version ≠ .http2 ∧ r.version ≠ .http3) ∧ r.authority? = some authority ∧
        tls = conn.tls := by
  unfold connect
  by_cases hversion : r.version = .http2 ∨ r.version = .http3
  · rw [if_pos hversion]
    constructor
    · intro h
      cases h
    · rintro ⟨⟨h2, h3⟩, -⟩
      exact absurd hversion (not_or.2 ⟨h2, h3⟩)
  · rw [if_neg hversion]
    cases ha : r.authority? with
    | none => simp
    | some a => simp [not_or.1 hversion, eq_comm]

/-- The HTTPS marker is no part of the authority. -/
theorem authority?_marked : (marked conn r).authority? = r.authority? := by
  have hhost := r.headers.values_append_of_ne (Bytes.ofLatin httpsMarker)
    (show forwardedName ≠ "host".toList by decide +kernel)
  unfold marked
  split
  · simp only [Request.authority?, Headers.text?, Headers.get?, Headers.addHttpsMarker, hhost]
  · rfl

theorem route_eq_tunnel {router : Router} {body : RequestBody} {s : Surroundings}
    (h : (router.route conn r body s).1 = .tunnel authority tls) :
    connect conn (marked conn r) = .tunnel authority tls := by
  cases hroute : (marked conn r).route with
  | connect =>
      simp only [route, routeTo, hroute] at h
      exact h
  | grpc =>
      simp only [route, routeTo, hroute] at h
      cases h
  | reverseProxy =>
      simp only [route, routeTo, hroute] at h
      cases h

end Router

/-! ## Tags and layers -/

/-- The authority of a tunnel. -/
def Layer.authority? : Layer → Option Text
  | .tls => none
  | .tunnel authority => some authority

/-- The authority of the innermost tunnel, if there is one. -/
def innermost? (layers : List Layer) : Option Text :=
  (layers.filterMap Layer.authority?).getLast?

theorem innermost?_append_tunnel (layers : List Layer) (authority : Text) :
    innermost? (layers ++ [.tunnel authority]) = some authority := by
  simp [innermost?, Layer.authority?]

theorem innermost?_append_layers (layers : List Layer) (branch : Branch) :
    innermost? (layers ++ branch.layers) = innermost? layers := by
  cases branch <;> simp [innermost?, Branch.layers, Layer.authority?]

/-- The tags of a connection tell what has been taken off it. -/
structure Tagged (layers : List Layer) (c : Connection) : Prop where
  destination : c.destination = innermost? layers
  /-- An empty destination would be lost with the next tag. -/
  named : c.destination ≠ some []
  isTls : c.isTls = true ↔ .tls ∈ layers

theorem Connection.destination_tag {destination : Option Text} (h : destination ≠ some [])
    (inner : Connection) (tls : Bool) : (inner.tag destination tls).destination = destination := by
  cases destination with
  | none => rfl
  | some d =>
      have hd : d ≠ [] := fun hnil => h (congrArg some hnil)
      simp [Connection.tag, Connection.destination, hd]

/-! ## What one step keeps -/

variable {termination : Option Termination} {layers : List Layer} {branch : Branch}
  {accepted client held routed : Connection} {o : Outbound}

theorem Tagged.direct (stream : ByteStream) : Tagged [] (Connection.direct (.raw stream)) where
  destination := rfl
  named h := by cases h
  isTls := by simp [Connection.direct, Connection.tag, Connection.isTls]

theorem Tagged.of_intact (h : Tagged layers client) (hi : held.Intact client) :
    Tagged layers held where
  destination := hi.destination.trans h.destination
  named := by rw [hi.destination]; exact h.named
  isTls := by rw [hi.isTls]; exact h.isTls

/-- Under the TLS of a client is a stream with the same destination. -/
theorem Tagged.underTls (h : Tagged layers client) (stream : ByteStream) :
    Tagged (layers ++ [.tls]) ((Connection.raw stream).tag client.destination true) where
  destination := by
    rw [Connection.destination_tag h.named, h.destination]
    exact (innermost?_append_layers layers .tls).symm
  named := by rw [Connection.destination_tag h.named]; exact h.named
  isTls := by simp [Connection.tag, Connection.isTls]

/-- A branch keeps the tags of a connection and marks the TLS that it takes off. -/
theorem Tagged.serve (h : Tagged layers client)
    (hserved : (branch.serve termination client o).1 = .served routed) :
    Tagged (layers ++ branch.layers) routed := by
  cases branch with
  | plain =>
      simp only [Branch.serve] at hserved
      rw [Branch.layers, List.append_nil]
      exact h.of_intact (bounce_served_intact hserved)
  | tls =>
      cases termination with
      | none => cases hserved
      | some t =>
          cases haccept : t.accept client with
          | error e =>
              simp only [Branch.serve, haccept] at hserved
              cases hserved
          | ok stream =>
              simp only [Branch.serve, haccept] at hserved
              exact (h.underTls stream).of_intact (bounce_served_intact hserved)

/-- A tunnel is tagged with the authority that was asked for, and is as secured as the connection
    that asked. -/
theorem Tagged.tunnelled {request : Request} {authority : Text} {tls : Bool}
    (h : Tagged layers routed)
    (htunnel : Router.connect (RoutedConnection.of routed) request = .tunnel authority tls)
    (rest : Connection) :
    Tagged (layers ++ [.tunnel authority]) (rest.tunnelled authority tls) := by
  obtain ⟨_, hauthority, rfl⟩ := Router.connect_eq_tunnel_iff.1 htunnel
  have hnamed : some authority ≠ some [] := hauthority ▸ Request.authority?_ne_nil
  have hd : (rest.tunnelled authority (RoutedConnection.of routed).tls).destination =
      some authority := Connection.destination_tag hnamed rest _
  refine ⟨?_, ?_, ?_⟩
  · rw [hd, innermost?_append_tunnel]
  · rwa [hd]
  · show routed.isTls = true ↔ _
    simpa using h.isTls

theorem Tagged.passage (h : Tagged layers accepted)
    (hp : Passage termination accepted branch routed) :
    Tagged (layers ++ branch.layers) routed := by
  obtain ⟨client, hclassified, o, hserved⟩ := hp.classified
  exact (h.of_intact (classify_serve_intact hclassified)).serve hserved

/-! ## What every history keeps -/

theorem Arrival.tagged (h : Arrival termination layers accepted) : Tagged layers accepted := by
  induction h with
  | direct stream => exact .direct stream
  | tunnel _ hpassage htunnel ih => exact (ih.passage hpassage).tunnelled htunnel _

/-- **Tags survive any nesting of tunnels and layers of TLS.** Whatever was taken off a connection
    on its way, the router gets it tagged with the authority of the innermost tunnel, if there was
    one, and as secured if and only if TLS was taken off at least once. So it was tagged when it
    was accepted and after the first look, as far as its layers were off by then; and the tunnel
    that the router opens for it in turn carries the authority that the request names. -/
theorem tags_survive_nesting (ha : Arrival termination layers accepted)
    (hp : Passage termination accepted branch routed) :
    (routed.destination = innermost? (layers ++ branch.layers) ∧
      (routed.isTls = true ↔ .tls ∈ layers ++ branch.layers)) ∧
    (accepted.destination = innermost? layers ∧ (accepted.isTls = true ↔ .tls ∈ layers)) ∧
    (∀ onto held, classify (termination.map (·.coverage)) accepted = .serve onto held →
      held.destination = accepted.destination ∧ held.isTls = accepted.isTls) ∧
    (∀ (router : Router) request body s authority tls,
      (router.route (RoutedConnection.of routed) request body s).1 = .tunnel authority tls →
      request.authority? = some authority ∧
        ∀ rest : Connection,
          Arrival termination (layers ++ branch.layers ++ [.tunnel authority])
            (rest.tunnelled authority tls) ∧
          (rest.tunnelled authority tls).destination = some authority ∧
          (rest.tunnelled authority tls).isTls = routed.isTls) := by
  have hrouted := ha.tagged.passage hp
  refine ⟨⟨hrouted.destination, hrouted.isTls⟩, ⟨ha.tagged.destination, ha.tagged.isTls⟩,
    fun onto held hc => ?_, fun router request body s authority tls h => ?_⟩
  · have hintact := classify_serve_intact hc
    exact ⟨hintact.destination, hintact.isTls⟩
  · have htunnel := Router.route_eq_tunnel h
    obtain ⟨_, hauthority, htls⟩ := Router.connect_eq_tunnel_iff.1 htunnel
    rw [Router.authority?_marked] at hauthority
    refine ⟨hauthority, fun rest => ⟨ha.tunnel hp htunnel, ?_, htls⟩⟩
    rw [(hrouted.tunnelled htunnel rest).destination, innermost?_append_tunnel]

/-! ## Ways to the router -/

/-- The second look gives a connection to the router. -/
def Welcome (c : Connection) : Prop :=
  c.destination = none ∨ (httpPeekSize ≤ c.arriving.length ∧ OpensHttp c.arriving)

theorem Welcome.served (h : Welcome client) (connector : Option Connector) (o : Outbound) :
    ∃ routed, bounce connector client o = (.served routed, o) ∧ routed.Intact client := by
  cases hd : client.destination with
  | none => exact ⟨client, bounce_direct connector o hd, .refl client⟩
  | some d =>
      obtain ⟨hlong, hhttp⟩ := h.resolve_left (by rw [hd]; exact Option.some_ne_none d)
      exact bounce_http connector o hd hlong hhttp

theorem Welcome.of_intact (h : Welcome client) (hi : held.Intact client) : Welcome held := by
  unfold Welcome
  rw [hi.destination, hi.arriving]
  exact h

theorem Welcome.passage_plain (h : Welcome accepted) (hend : accepted.failure? = none)
    (htls : ¬ OpensTls accepted.arriving) (termination : Option Termination) (o : Outbound) :
    ∃ routed, Passage termination accepted .plain routed ∧ routed.Intact accepted := by
  obtain ⟨held, hc, hintact⟩ :=
    classify_plain (termination.map (·.coverage)) (fun _ => hend) htls
  obtain ⟨routed, hb, hrouted⟩ := (h.of_intact hintact).served none o
  refine ⟨routed, ⟨held, hc, o, ?_⟩, hrouted.trans hintact⟩
  simp only [Branch.serve, hb]

theorem Welcome.passage_tls {t : Termination} {stream : ByteStream}
    (h : Welcome ((Connection.raw stream).tag accepted.destination true))
    (htls : OpensTls accepted.arriving)
    (hroute : routeTls accepted.destination (some t.coverage) = .intercept)
    (haccept : ∀ client, t.accept client = .ok stream) (o : Outbound) :
    ∃ routed, Passage (some t) accepted .tls routed ∧
      routed.Intact ((Connection.raw stream).tag accepted.destination true) := by
  obtain ⟨held, hintact, hc⟩ := classify_tls (some t.coverage) htls
  rw [hroute] at hc
  obtain ⟨routed, hb, hrouted⟩ := h.served (some t.connector) o
  refine ⟨routed, ⟨held, hc, o, ?_⟩, hrouted⟩
  simp only [Branch.serve, haccept, hintact.destination, hb]

/-- The router grants every HTTP/1 request for a tunnel that names an authority. -/
theorem Tagged.connect (h : Tagged layers routed) {request : Request} {authority : Text}
    (hversion : request.version = .http11) (ha : request.authority? = some authority)
    {tls : Bool} (htls : tls = true ↔ .tls ∈ layers) :
    Router.connect (RoutedConnection.of routed) request = .tunnel authority tls := by
  rw [Router.connect_eq_tunnel_iff, hversion]
  refine ⟨⟨HttpVersion.noConfusion, HttpVersion.noConfusion⟩, ha, ?_⟩
  exact Bool.eq_iff_iff.2 (htls.trans h.isTls.symm)

/-! ## A tunnel in TLS in a tunnel -/

/-- A stream of one piece. -/
def ByteStream.of (bytes : Bytes) : ByteStream := { source := { chunks := [.data bytes] } }

/-- A request for a tunnel. -/
def connectTo (authority : Text) : Request :=
  { method := "CONNECT".toList, uri := { authority := some authority } }

/-- A server that takes TLS off connections to `a` and finds the given bytes under it. -/
def finding (bytes : Bytes) : Termination where
  coverage := .ofNames [['a']]
  accept _ := .ok (.of bytes)
  connector _ := .ok ()

/-- A client opens a tunnel to `a`, speaks TLS with `a`, and opens a tunnel to `b` in that. -/
theorem tags_survive_nesting_of_tunnels :
    let t := finding (ascii "CONNECT b")
    ∃ accepted routed,
      Arrival (some t) [.tunnel ['a'], .tls, .tunnel ['b']] accepted ∧
      Passage (some t) accepted .plain routed ∧
      routed.destination = some ['b'] ∧ routed.isTls = true := by
  intro t
  let o : Outbound := { result := fun _ => .ok (), reply := id }
  let direct := Connection.direct (.raw (.of (ascii "CONNECT a")))
  let outer := (Connection.raw (.of [0x16, 0x03, 0x01])).tunnelled ['a'] false
  let inner := (Connection.raw (.of (ascii "POST /xyz"))).tunnelled ['b'] true
  -- the tunnel to `a`
  have hdirect : Arrival (some t) [] direct := .direct _
  have hwelcome : Welcome direct := .inl rfl
  obtain ⟨first, hfirst, _⟩ := hwelcome.passage_plain rfl
    (by rw [← isTlsHandshake_take_iff]; decide +kernel) (some t) o
  have hgranted : Router.connect (RoutedConnection.of first) (connectTo ['a']) =
      .tunnel ['a'] false :=
    (hdirect.tagged.passage hfirst).connect rfl rfl (by decide)
  have houter : Arrival (some t) [.tunnel ['a']] outer := hdirect.tunnel hfirst hgranted
  -- the tunnel to `b` in the TLS of `a`
  have hwelcome : Welcome ((Connection.raw (.of (ascii "CONNECT b"))).tag outer.destination true) :=
    .inr ⟨by decide +kernel, ascii "CONNECT", by decide +kernel, by decide +kernel⟩
  obtain ⟨second, hsecond, _⟩ := hwelcome.passage_tls (t := t) ⟨1, by decide, [], rfl⟩
    (by decide +kernel) (fun _ => rfl) o
  have hgranted : Router.connect (RoutedConnection.of second) (connectTo ['b']) =
      .tunnel ['b'] true :=
    (houter.tagged.passage hsecond).connect rfl rfl (by decide)
  have hinner : Arrival (some t) [.tunnel ['a'], .tls, .tunnel ['b']] inner :=
    houter.tunnel hsecond hgranted
  have hwelcome : Welcome inner :=
    .inr ⟨by decide +kernel, ascii "POST", by decide +kernel, by decide +kernel⟩
  obtain ⟨third, hthird, _⟩ := hwelcome.passage_plain rfl
    (by rw [← isTlsHandshake_take_iff]; decide +kernel) (some t) o
  obtain ⟨⟨hdestination, htls⟩, _⟩ := tags_survive_nesting hinner hthird
  exact ⟨inner, third, hinner, hthird, hdestination, htls.2 (by decide)⟩

end InterceptingProxy
