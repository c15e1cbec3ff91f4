import InterceptingProxy.Proofs.Header.Marker
import InterceptingProxy.Proofs.Intake.Onward
import InterceptingProxy.Proofs.Routing.Calls

set_option autoImplicit false

/-! # How secured requests go out

What is sent on for a request is as secured as its `forwarded` values say once the router has had
them (`Request.claimsTls`): a call looks for a value that is the marker, the reverse proxy for one
that contains it (`Router.goesOut`). On a connection that was secured by TLS the router adds the
marker itself, so nothing that came over TLS goes on in plaintext, and no more does what is relayed
past the router (`nothing_is_downgraded`). On any other connection the values are those of the
client, and the client chooses (`claims_decide`). -/

namespace InterceptingProxy

/-! ## What a request claims -/

namespace Request

/-- Whether the `forwarded` values of a request say that it came over TLS, to where it goes. -/
def claimsTls (r : Request) : Bool :=
  match r.route with
  | .grpc => r.headers.isMarkedHttps
  | .connect | .reverseProxy => r.headers.mentionsHttps

/-- The requests are the same but for their `forwarded` values. -/
structure SameButForwarded (r r' : Request) : Prop where
  method : r'.method = r.method
  version : r'.version = r.version
  uri : r'.uri = r.uri
  values : ∀ name, name ≠ forwardedName → r'.headers.values name = r.headers.values name

variable {r r' : Request}

theorem claimsTls_of_not_mentionsHttps (h : r.headers.mentionsHttps = false) :
    r.claimsTls = false := by
  unfold claimsTls
  split
  · refine Bool.eq_false_iff.2 fun hm => ?_
    exact Bool.eq_false_iff.1 h (Headers.mentionsHttps_iff.2 (.inl hm))
  · exact h
  · exact h

theorem claimsTls_of_isMarkedHttps (h : r.headers.isMarkedHttps = true) : r.claimsTls = true := by
  unfold claimsTls
  split
  · exact h
  · exact Headers.mentionsHttps_iff.2 (.inl h)
  · exact Headers.mentionsHttps_iff.2 (.inl h)

namespace SameButForwarded

theorem text? (h : SameButForwarded r r') {name : Text} (hne : name ≠ forwardedName) :
    r'.headers.text? name = r.headers.text? name := by
  simp only [Headers.text?, Headers.get?, h.values name hne]

theorem route (h : SameButForwarded r r') : r'.route = r.route := by
  have hasked : r'.headers.values "access-control-request-headers".toList =
      r.headers.values "access-control-request-headers".toList := h.values _ (by decide +kernel)
  have htype : r'.headers.text? "content-type".toList = r.headers.text? "content-type".toList :=
    h.text? (by decide +kernel)
  have hgrpc : r'.isGrpc = r.isGrpc := by
    simp only [isGrpc, isGrpcWeb, isGrpcWebPreflight, preflightFields, contentType, Headers.texts,
      h.method, h.version, hasked, htype]
  rw [Request.route, Request.route, h.method, hgrpc]

theorem host? (h : SameButForwarded r r') : ReverseProxy.host? r' = ReverseProxy.host? r := by
  have hhost : r'.headers.text? "host".toList = r.headers.text? "host".toList :=
    h.text? (by decide +kernel)
  simp only [ReverseProxy.host?, hhost, h.uri]

end SameButForwarded

end Request

/-! ## How a request goes out -/

namespace ReverseProxy

/-- How a URL starts. -/
def scheme (tls : Bool) : Text := if tls then "https://".toList else "http://".toList

theorem scheme_prefix_of_outgoing? {r : Request} {body : RequestBody} {o : Outgoing}
    (h : outgoing? r body = some o) : scheme r.headers.mentionsHttps <+: o.url := by
  obtain ⟨url, hurl, rfl⟩ := Option.map_eq_some_iff.1 h
  obtain ⟨host, _, rfl⟩ := Option.map_eq_some_iff.1 hurl
  rw [List.append_assoc]
  exact List.prefix_append _ _

end ReverseProxy

namespace Router

variable {router : Router} {conn : RoutedConnection} {r : Request}

/-- What is sent on for a request is secured if and only if `tls` says so. -/
structure GoesOut (router : Router) (conn : RoutedConnection) (r : Request) (body : RequestBody)
    (tls : Bool) : Prop where
  /-- The calls that are handled ask for such channels only. -/
  calls : RunsOnly (router.handler.AsksFor tls) fun handle => router.routeTo handle conn r body
  /-- What the reverse proxy sends goes to a URL of such a scheme. -/
  sent : (marked conn r).route = .reverseProxy → ∀ o,
    ReverseProxy.outgoing? (marked conn r) body = some o → ReverseProxy.scheme tls <+: o.url
  /-- What could be fetched from anywhere else makes no difference. -/
  fetched : ∀ fetch, (∀ o, ReverseProxy.scheme tls <+: o.url → fetch o = router.fetch o) →
    { router with fetch }.route conn r body = router.route conn r body

/-- **A request goes out as it claims**, once it has the marker of its connection. -/
theorem goesOut (hkeep : ∀ i ∈ router.interceptors, i.KeepsMetadata) (conn : RoutedConnection)
    (r : Request) (body : RequestBody) :
    GoesOut router conn r body (marked conn r).claimsTls := by
  cases hroute : (marked conn r).route with
  | connect =>
      refine ⟨fun handle handle' _ => ?_, fun h => ?_, fun fetch _ => ?_⟩
      · simp only [routeTo, hroute]
      · rw [hroute] at h
        cases h
      · simp only [route, routeTo, hroute]
  | grpc =>
      have hclaims : (marked conn r).claimsTls = (marked conn r).headers.isMarkedHttps := by
        simp only [Request.claimsTls, hroute]
      rw [hclaims]
      refine ⟨fun handle handle' heq => ?_, fun h => ?_, fun fetch _ => ?_⟩
      · have hcalls := serveCall_runsOnly hkeep conn (marked conn r) body handle handle'
          fun call hcall => heq call ?_
        · simp only [routeTo, hroute, hcalls]
        · -- the calls have the values that the request has
          rw [← Headers.isMarkedHttps_congr hcall]
          exact router.handler.asksFor call
      · rw [hroute] at h
        cases h
      · simp only [route, routeTo, hroute]
        rfl
  | reverseProxy =>
      have hclaims : (marked conn r).claimsTls = (marked conn r).headers.mentionsHttps := by
        simp only [Request.claimsTls, hroute]
      have hsent : ∀ o, ReverseProxy.outgoing? (marked conn r) body = some o →
          ReverseProxy.scheme (marked conn r).claimsTls <+: o.url := by
        rw [hclaims]
        exact fun o => ReverseProxy.scheme_prefix_of_outgoing?
      refine ⟨fun handle handle' _ => ?_, fun _ => hsent, fun fetch heq => ?_⟩
      · simp only [routeTo, hroute]
      · have hforward : ReverseProxy.forward fetch (marked conn r) body =
            ReverseProxy.forward router.fetch (marked conn r) body := by
          unfold ReverseProxy.forward
          cases ho : ReverseProxy.outgoing? (marked conn r) body with
          | none => rfl
          | some o => simp only [heq o (hsent o ho)]
        simp only [route, routeTo, hroute, hforward]

theorem claimsTls_marked_of_tls (h : conn.tls = true) : (marked conn r).claimsTls = true := by
  refine Request.claimsTls_of_isMarkedHttps ?_
  rw [marked, if_pos h]
  exact Headers.isMarkedHttps_addHttpsMarker

theorem marked_of_not_tls (h : conn.tls = false) : marked conn r = r := by
  rw [marked, h]
  rfl

end Router

/-! ## Over TLS -/

/-- An authority without a port gets that of the scheme. -/
theorem port_suffix_withDefaultPort {authority : Text} (tls : Bool)
    (h : hasPort authority = false) :
    ':' :: Text.ofNat (defaultPort tls) <:+ withDefaultPort authority tls := by
  rw [withDefaultPort, if_neg (Bool.eq_false_iff.1 h)]
  dsimp only
  split
  · exact ⟨'[' :: authority ++ [']'], by simp⟩
  · exact ⟨authority, rfl⟩

theorem relayOnward_of_tls (connector : Option Connector) (d : Text) {client : Connection}
    (o : Outbound) (htls : client.isTls = true) :
    (∃ e, relayOnward connector d client o = (.dropped e, (o.dial d).2)) ∨
    ∃ handshake name relayed o', connector = some handshake ∧
      ServerName.parse? (hostOf d) = some name ∧ handshake name = .ok () ∧
      relayOnward connector d client o = (.relayed relayed, o') ∧
      o'.received = o.received ++ [⟨true, client.arriving⟩] := by
  cases hdial : o.result o.dialed.length with
  | error e => exact .inl ⟨e, relayOnward_refused hdial⟩
  | ok _ =>
      cases hencrypt : encrypt connector d with
      | error e => exact .inl ⟨e, relayOnward_unsecured hdial htls hencrypt⟩
      | ok _ =>
          obtain ⟨relayed, hrelayed, hdelivered⟩ :=
            relayOnward_relayed connector d hdial fun _ => hencrypt
          cases connector with
          | none => cases hencrypt
          | some handshake =>
              obtain ⟨name, hname, hok⟩ := encrypt_eq_ok_iff.1 hencrypt
              exact .inr ⟨handshake, name, relayed, _, rfl, hname, hok, Prod.ext hrelayed rfl,
                htls ▸ hdelivered.received⟩

/-- **Nothing that came over TLS goes on in plaintext.** What the router sends on for a request on a
    secured connection is secured, whatever the request says, and an authority without a port gets
    that of TLS. The second look keeps the connection as secured for the router, or relays it
    through a handshake with the destination that has succeeded, or drops it; nothing else reaches
    a destination. -/
theorem nothing_is_downgraded {client : Connection} (htls : client.isTls = true) :
    (∀ router : Router, (∀ i ∈ router.interceptors, i.KeepsMetadata) → ∀ r body,
      router.GoesOut (.of client) r body true) ∧
    (∀ authority, hasPort authority = false → ":443".toList <:+ withDefaultPort authority true) ∧
    ∀ connector o,
      match bounce connector client o with
      | (.served held, o') => held.isTls = true ∧ o'.received = o.received
      | (.relayed _, o') => ∃ handshake d name, connector = some handshake ∧
          client.destination = some d ∧ ServerName.parse? (hostOf d) = some name ∧
          handshake name = .ok () ∧ o'.received = o.received ++ [⟨true, client.arriving⟩]
      | (.dropped _, o') => o'.received = o.received := by
  refine ⟨fun router hkeep r body => ?_, fun authority => port_suffix_withDefaultPort true,
    fun connector o => ?_⟩
  · have hclaims : (Router.marked (.of client) r).claimsTls = true :=
      Router.claimsTls_marked_of_tls htls
    exact hclaims ▸ Router.goesOut hkeep (.of client) r body
  · obtain ⟨_, hb⟩ | ⟨d, hd, ⟨_, e, hb⟩ | ⟨_, _, held, hb, hintact⟩ | ⟨_, _, held, hintact, hb⟩⟩ :=
      bounce_cases connector client o
    · rw [hb]
      exact ⟨htls, rfl⟩
    · rw [hb]
    · rw [hb]
      exact ⟨hintact.isTls.trans htls, rfl⟩
    · rw [hb]
      have hheld : held.isTls = true := hintact.isTls.trans htls
      obtain ⟨e, hdropped⟩ | ⟨handshake, name, relayed, o', hsome, hname, hok, hrelayed, hsent⟩ :=
        relayOnward_of_tls connector d o hheld
      · rw [hdropped]
        rfl
      · rw [hrelayed]
        exact ⟨handshake, d, name, hsome, hd, hname, hok, hintact.arriving ▸ hsent⟩

/-- A request to `svc` of the given content type and with the given `forwarded` value, which its
    `connection` field asks to drop. -/
def requestOf (contentType forwarded : String) : Request where
  method := "POST".toList
  version := .http2
  uri := { target := ⟨"/a.B/C".toList, none⟩ }
  headers := Headers.append ⟨[("host".toList, ascii "svc"),
    ("content-type".toList, ascii contentType), ("connection".toList, ascii "forwarded")]⟩
    forwardedName (ascii forwarded)

/-- What is dialed for a request, where nothing answers, on a connection that is meant for `svc`. -/
def dialedFor (router : Router) (tls : Bool) (r : Request) : List Text :=
  let s : Surroundings := { destinations :=
    { dialResult := fun _ => .error .noSuchFile, reaction := fun _ => ⟨none, fun _ => .silent⟩ } }
  (router.route ⟨tls, false⟩ r {} s).2.destinations.dialed

/-- A call whose `forwarded` value denies what its connection is, and that is tried twice. -/
theorem nothing_is_downgraded_whatever_it_claims :
    let client := (Connection.raw {}).tag (some "svc".toList) true
    let router : Router :=
      { interceptors := [Interceptor.retry], handler := { proxyId := ['p'] }
        fetch := fun _ => none }
    let r := requestOf "application/grpc" "proto=http"
    router.GoesOut (.of client) r {} true ∧
      dialedFor router true r = ["svc:443".toList, "svc:443".toList] := by
  intro client router r
  refine ⟨(nothing_is_downgraded rfl).1 router (fun i hi => ?_) r {}, by decide +kernel⟩
  obtain rfl := List.mem_singleton.1 hi
  exact Interceptor.keepsMetadata_retry

/-! ## In plaintext -/

theorem ReverseProxy.scheme_injective {tls tls' : Bool} (h : scheme tls = scheme tls') :
    tls = tls' := by
  revert h
  cases tls <;> cases tls' <;> decide

/-- The URLs differ in nothing but the scheme. -/
theorem Request.SameButForwarded.url_eq_iff {r r' : Request} (h : SameButForwarded r r')
    {url url' : Text} (hurl : ReverseProxy.url? r = some url)
    (hurl' : ReverseProxy.url? r' = some url') :
    url = url' ↔ r.headers.mentionsHttps = r'.headers.mentionsHttps := by
  obtain ⟨host, hhost, rfl⟩ := Option.map_eq_some_iff.1 hurl
  obtain ⟨host', hhost', rfl⟩ := Option.map_eq_some_iff.1 hurl'
  rw [h.host?, hhost, Option.some_inj] at hhost'
  subst hhost'
  rw [h.uri]
  constructor
  · intro heq
    exact ReverseProxy.scheme_injective
      (List.append_cancel_right (List.append_cancel_right heq))
  · intro heq
    rw [heq]

/-- The keys differ in nothing but the security and the port that goes with it. -/
theorem Handler.key_eq_iff {h : Handler} {info info' : CallInfo} {d d' : Departure}
    (hauthority : info'.authority = info.authority) (hd : h.depart info = .ok d)
    (hd' : h.depart info' = .ok d') :
    d.key = d'.key ↔ info.metadata.isMarkedHttps = info'.metadata.isMarkedHttps := by
  obtain ⟨hdestination, htls, -, -⟩ := depart_eq_ok_iff.1 hd
  obtain ⟨hdestination', htls', -, -⟩ := depart_eq_ok_iff.1 hd'
  constructor
  · intro heq
    rw [← htls, ← htls', heq]
  · intro heq
    have hsame : info'.destination h.destination = info.destination h.destination := by
      rw [CallInfo.destination, CallInfo.destination, hauthority, heq]
    rw [hsame, hdestination, Except.ok.injEq] at hdestination'
    rw [← htls, ← htls'] at heq
    calc d.key = ⟨d.key.destination, d.key.tls⟩ := rfl
      _ = ⟨d'.key.destination, d'.key.tls⟩ := by rw [hdestination', heq]

/-- **On a connection without TLS the client decides.** Two requests that differ in their
    `forwarded` values only go to the same place, each as secured as it claims. A request claims
    nothing if none of its values contains the marker. The calls that two requests lead to ask for
    the same channel, and what is fetched for them has the same URL, if and only if they claim the
    same. -/
theorem claims_decide {client : Connection} (htls : client.isTls = false) {router : Router}
    (hkeep : ∀ i ∈ router.interceptors, i.KeepsMetadata) {r r' : Request}
    (h : r.SameButForwarded r') (body : RequestBody) :
    (router.GoesOut (.of client) r body r.claimsTls ∧
      router.GoesOut (.of client) r' body r'.claimsTls ∧ r'.route = r.route) ∧
    (r.headers.mentionsHttps = false → r.claimsTls = false) ∧
    (r.route = .grpc → ∀ info info' d d',
      info.metadata.values forwardedName = r.headers.values forwardedName →
      info'.metadata.values forwardedName = r'.headers.values forwardedName →
      info'.authority = info.authority →
      router.handler.depart info = .ok d → router.handler.depart info' = .ok d' →
      (d.key = d'.key ↔ r.claimsTls = r'.claimsTls)) ∧
    (r.route = .reverseProxy → ∀ url url', ReverseProxy.url? r = some url →
      ReverseProxy.url? r' = some url' → (url = url' ↔ r.claimsTls = r'.claimsTls)) := by
  have hclaims : ∀ r, (Router.marked (.of client) r).claimsTls = r.claimsTls := fun r =>
    congrArg Request.claimsTls (Router.marked_of_not_tls htls)
  refine ⟨⟨?_, ?_, h.route⟩, Request.claimsTls_of_not_mentionsHttps, ?_, ?_⟩
  · exact hclaims r ▸ Router.goesOut hkeep (.of client) r body
  · exact hclaims r' ▸ Router.goesOut hkeep (.of client) r' body
  · intro hroute info info' d d' hinfo hinfo' hauthority hd hd'
    rw [Handler.key_eq_iff hauthority hd hd', Headers.isMarkedHttps_congr hinfo,
      Headers.isMarkedHttps_congr hinfo']
    simp only [Request.claimsTls, h.route, hroute]
  · intro hroute url url' hurl hurl'
    rw [h.url_eq_iff hurl hurl']
    simp only [Request.claimsTls, h.route, hroute]

theorem sameButForwarded_requestOf (contentType forwarded forwarded' : String) :
    (requestOf contentType forwarded).SameButForwarded (requestOf contentType forwarded') where
  method := rfl
  version := rfl
  uri := rfl
  values name hne := by
    simp only [requestOf, Headers.values_append_of_ne _ _ hne.symm]

/-- Two calls that claim nothing. -/
theorem claims_decide_for_nothing :
    let client := (Connection.raw {}).tag (some "svc".toList) false
    let router : Router := { handler := { proxyId := ['p'] }, fetch := fun _ => none }
    ∀ r ∈ [requestOf "application/grpc" "for=a", requestOf "application/grpc" "proto=http"],
      router.GoesOut (.of client) r {} false ∧ dialedFor router false r = ["svc:80".toList] := by
  intro client router
  have hplain : client.isTls = false := rfl
  have hkeep : ∀ i ∈ router.interceptors, i.KeepsMetadata := nofun
  obtain ⟨⟨hfirst, hsecond, -⟩, -⟩ := claims_decide hplain hkeep
    (sameButForwarded_requestOf "application/grpc" "for=a" "proto=http") {}
  have hnone : (requestOf "application/grpc" "for=a").claimsTls = false := by decide +kernel
  have hnone' : (requestOf "application/grpc" "proto=http").claimsTls = false := by decide +kernel
  rw [hnone] at hfirst
  rw [hnone'] at hsecond
  simp only [List.forall_mem_cons]
  exact ⟨⟨hfirst, by decide +kernel⟩, ⟨hsecond, by decide +kernel⟩, nofun⟩

/-- The client adds the marker itself: on a connection without TLS its call goes out over TLS, and
    what it has fetched as well, for which the marker may stand anywhere in the value. -/
theorem forged_marker_is_believed :
    let router : Router := { handler := { proxyId := ['p'] }, fetch := fun _ => none }
    ((requestOf "application/grpc" "for=a").SameButForwarded
        (requestOf "application/grpc" "proto=https") ∧
      dialedFor router false (requestOf "application/grpc" "for=a") = ["svc:80".toList] ∧
      dialedFor router false (requestOf "application/grpc" "proto=https") = ["svc:443".toList]) ∧
    (requestOf "text/html" "for=a").SameButForwarded (requestOf "text/html" "for=a;proto=https") ∧
      ReverseProxy.url? (requestOf "text/html" "for=a") = some "http://svc/a.B/C".toList ∧
      ReverseProxy.url? (requestOf "text/html" "for=a;proto=https") =
        some "https://svc/a.B/C".toList := by
  refine ⟨⟨sameButForwarded_requestOf .., ?_, ?_⟩, sameButForwarded_requestOf .., ?_, ?_⟩
  · decide +kernel
  · decide +kernel
  · decide +kernel
  · decide +kernel

end InterceptingProxy
