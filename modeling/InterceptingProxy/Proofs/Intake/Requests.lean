import InterceptingProxy.Proofs.Http.RequestStart
import InterceptingProxy.Proofs.Intake.Looks
import InterceptingProxy.Proofs.Text.Visible

set_option autoImplicit false

/-! # Requests under the second look

The second look tests the first bytes of a connection, long before a request is there to be read.
For a request that comes first on a connection the test is one of its method
(`Http1.opensHttp_iff_method`): it depends on nothing behind the blank that ends the method. So
tunnels and posted calls get to the router that serves them. A preflight does not, although the
router knows how to answer it: it is relayed to the destination that the client meant
(`second_look_at_request`). -/

namespace InterceptingProxy

/-- What starts with a line is tested up to the end of its first word, unless the test knows what
    follows a blank. -/
theorem prefix_line_iff {start word rest : Bytes} {b : UInt8} (h : b ∉ start.dropLast) :
    start <+: word ++ b :: rest ↔ start <+: word ++ [b] := by
  have hword : word ++ [b] <+: word ++ b :: rest := by simp
  refine ⟨fun hstart => ?_, fun hstart => hstart.trans hword⟩
  rcases Nat.lt_or_ge (word ++ [b]).length start.length with hlong | hshort
  · have hinside : word ++ [b] <+: start.dropLast := by
      rw [List.dropLast_eq_take, List.prefix_take_iff]
      exact ⟨List.prefix_of_prefix_length_le hword hstart (Nat.le_of_lt hlong), by omega⟩
    exact absurd (hinside.subset (List.mem_append_right word List.mem_cons_self)) h
  · exact List.prefix_of_prefix_length_le hstart hword hshort

namespace Http1

variable {bytes rest : Bytes} {r : Request} {body : RequestBody}

theorem method_of_requestOf? {head : Http.RequestHead} (h : requestOf? head = some r) :
    r.method = Bytes.toLatin head.method := by
  obtain ⟨target, -, h⟩ := Option.bind_eq_some_iff.1 h
  obtain ⟨uri, -, h⟩ := Option.bind_eq_some_iff.1 h
  cases h
  rfl

theorem parse_of_readRequest (h : readRequest bytes = some (.request r body, rest)) :
    ∃ head left, Http.RequestHead.parse bytes = .complete head left ∧ requestOf? head = some r := by
  unfold readRequest at h
  split at h
  · cases h
  · cases h
  · cases h
  · next head left hparse =>
      refine ⟨head, left, hparse, ?_⟩
      split at h
      · cases h
      · split at h
        · next hr _ =>
            cases h
            exact hr
        · next hr _ =>
            cases h
            exact hr
        · cases h

theorem start_of_readRequest (h : readRequest bytes = some (.request r body, rest))
    (hfirst : bytes.head? ≠ some Http.cr ∧ bytes.head? ≠ some Http.lf) :
    ∃ target, Http.startLine (Bytes.ofLatin r.method) target <+: bytes := by
  obtain ⟨head, left, hparse, hr⟩ := parse_of_readRequest h
  refine ⟨head.target, ?_⟩
  rw [method_of_requestOf? hr, Bytes.ofLatin_toLatin]
  exact Http.RequestHead.start_of_parse hparse hfirst

/-- The test of a request is one of its method. -/
theorem opensHttp_iff_method (h : readRequest bytes = some (.request r body, rest))
    (hfirst : bytes.head? ≠ some Http.cr ∧ bytes.head? ≠ some Http.lf) :
    OpensHttp bytes ↔ OpensHttp (Bytes.ofLatin r.method ++ [Http.sp]) := by
  obtain ⟨target, tail, rfl⟩ := start_of_readRequest h hfirst
  have hknown : ∀ start ∈ httpPrefixes, Http.sp ∉ start.dropLast := by decide
  refine exists_congr fun start => and_congr_right fun hstart => ?_
  rw [Http.startLine, List.append_assoc, List.cons_append]
  exact prefix_line_iff (hknown start hstart)

/-- A request is longer than what the test looks at. -/
theorem httpPeekSize_le_of_readRequest (h : readRequest bytes = some (.request r body, rest))
    (hfirst : bytes.head? ≠ some Http.cr ∧ bytes.head? ≠ some Http.lf) :
    httpPeekSize ≤ bytes.length := by
  obtain ⟨target, hstart⟩ := start_of_readRequest h hfirst
  have hversion : Http.ResponseScan.versionStart.length = 7 := by decide
  have hlength := hstart.length_le
  simp only [Http.startLine, List.length_append, List.length_cons, hversion] at hlength
  rw [httpPeekSize]
  omega

end Http1

/-! ## Requests that the router serves -/

namespace Request

variable {r : Request}

/-- The second look takes a request of this method for one that the router serves. -/
def isAccepted (r : Request) : Bool :=
  isProxiedHttp ((Bytes.ofLatin r.method ++ [Http.sp]).take httpPeekSize)

theorem method_of_isGrpcWebPreflight (h : r.isGrpcWebPreflight = true) :
    r.method = "OPTIONS".toList :=
  beq_iff_eq.1 (Bool.and_eq_true_iff.1 h).1

theorem method_of_route_connect (h : r.route = .connect) : r.method = "CONNECT".toList := by
  unfold route at h
  split at h
  · assumption
  · split at h <;> cases h

theorem isAccepted_of_method (h : r.method = "CONNECT".toList ∨ r.method = "POST".toList) :
    r.isAccepted = true := by
  rw [isAccepted]
  rcases h with h | h
  · rw [h]
    decide
  · rw [h]
    decide

theorem isAccepted_of_isGrpcWebPreflight (h : r.isGrpcWebPreflight = true) :
    r.isAccepted = false := by
  rw [isAccepted, method_of_isGrpcWebPreflight h]
  decide

theorem isAccepted_iff (h : r.route = .connect ∨ r.route = .grpc ∧ r.method = "POST".toList ∨
    r.isGrpcWebPreflight = true) : r.isAccepted = true ↔ r.isGrpcWebPreflight = false := by
  constructor
  · intro haccepted
    refine Bool.eq_false_iff.2 fun hpreflight => ?_
    rw [isAccepted_of_isGrpcWebPreflight hpreflight] at haccepted
    cases haccepted
  · intro hnone
    obtain hconnect | ⟨-, hpost⟩ | hpreflight := h
    · exact isAccepted_of_method (.inl (method_of_route_connect hconnect))
    · exact isAccepted_of_method (.inr hpost)
    · rw [hnone] at hpreflight
      cases hpreflight

end Request

/-- **The second look knows the method only.** Of a request that comes first on a connection, it
    tests the method, and with it decides whether the router gets the connection or the destination
    that the client meant. The router would open a tunnel for a `CONNECT`, and answers calls and
    preflights; of these it gets all but the preflights, which are all relayed. -/
theorem second_look_at_request {client : Connection} {d : Text} {r : Request} {body : RequestBody}
    {rest : Bytes} (hd : client.destination = some d)
    (hread : Http1.readRequest client.arriving = some (.request r body, rest))
    (hfirst : client.arriving.head? ≠ some Http.cr ∧ client.arriving.head? ≠ some Http.lf)
    (connector : Option Connector) (o : Outbound) :
    let accepted := isProxiedHttp (client.arriving.take httpPeekSize)
    accepted = r.isAccepted ∧
    (accepted = true →
      ∃ held, bounce connector client o = (.served held, o) ∧ held.Intact client) ∧
    (accepted = false → ∃ held : Connection, held.Intact client ∧
      bounce connector client o = relayOnward connector d held o) ∧
    (r.route = .connect ∨ r.route = .grpc ∧ r.method = "POST".toList ∨
        r.isGrpcWebPreflight = true →
      (accepted = true ↔ r.isGrpcWebPreflight = false)) := by
  intro accepted
  have hlong := Http1.httpPeekSize_le_of_readRequest hread hfirst
  have hmethod : accepted = r.isAccepted := by
    rw [Request.isAccepted, Bool.eq_iff_iff, isProxiedHttp_take_iff, isProxiedHttp_take_iff]
    exact Http1.opensHttp_iff_method hread hfirst
  refine ⟨hmethod, fun haccepted => ?_, fun haccepted => ?_, fun hserved => ?_⟩
  · exact bounce_http connector o hd hlong ((isProxiedHttp_take_iff _).1 haccepted)
  · refine bounce_other connector o hd hlong fun hopens => ?_
    exact Bool.eq_false_iff.1 haccepted ((isProxiedHttp_take_iff _).2 hopens)
  · rw [hmethod]
    exact Request.isAccepted_iff hserved

/-- The start of a tunnelled connection. -/
def tunnelledBytes (lines : List String) : Connection :=
  (Connection.raw { source := { chunks :=
    [.data (lines.flatMap fun line => ascii line ++ [Http.cr, Http.lf])] } }).tag
    (some "svc:1".toList) false

/-- A gRPC-Web call gets to the router. -/
theorem second_look_at_request_of_call :
    let client := tunnelledBytes ["POST /a.B/C HTTP/1.1", "content-type: application/grpc-web", ""]
    ∃ held, bounce none client ⟨fun _ => .ok (), id, [], []⟩ =
      (.served held, ⟨fun _ => .ok (), id, [], []⟩) ∧ held.Intact client := by
  intro client
  have hd : client.destination = some "svc:1".toList := rfl
  have hread : Http1.readRequest client.arriving = some (.request _ _, _) := rfl
  exact (second_look_at_request hd hread (by decide) none _).2.1 (by decide)

/-- A preflight for a gRPC-Web call, which the router would answer, is relayed instead. -/
theorem preflight_is_not_accepted :
    let client := tunnelledBytes ["OPTIONS /a.B/C HTTP/1.1", "origin: https://a",
      "access-control-request-method: POST", "access-control-request-headers: x-grpc-web", ""]
    ∃ r body rest, Http1.readRequest client.arriving = some (.request r body, rest) ∧
      Bytes.ofLatin r.method ++ Http.sp :: ascii "/a.B/C" <+: client.arriving ∧
      r.route = .grpc ∧ r.isGrpcWebPreflight = true ∧
      isProxiedHttp (client.arriving.take httpPeekSize) = false ∧
      (bounce none client ⟨fun _ => .ok (), id, [], []⟩).2.received =
        [⟨false, client.arriving⟩] := by
  intro client
  refine ⟨_, _, _, rfl, ?_, ?_, ?_, ?_, ?_⟩
  · decide +kernel
  · decide +kernel
  · decide +kernel
  · decide +kernel
  · decide +kernel

end InterceptingProxy
