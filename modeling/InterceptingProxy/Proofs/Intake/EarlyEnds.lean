import InterceptingProxy.Proofs.Intake.Looks

set_option autoImplicit false

/-! # Tunnelled streams that end early

A plain stream out of a tunnel is to get on: to the router if it opens like a request that the
router serves, and to its destination otherwise (`GetsOn`). The first look sends a stream that ends
before there is enough to look at to the second look, which takes the end for a failure and drops
it. So a stream gets on if and only if it has the eight bytes of the second look
(`tunnelled_stream_gets_on_iff`); a shorter one is lost with all its bytes
(`short_stream_is_lost`). -/

namespace InterceptingProxy

variable (termination : Option Termination) {client held : Connection} {o : Outbound} {d : Text}

/-- The whole stream of a client gets on, given what came of the second look. -/
def GetsOn (client : Connection) (o : Outbound) (r : Bounced × Outbound) : Prop :=
  (OpensHttp client.arriving ∧
    ∃ routed : Connection, r = (.served routed, o) ∧ routed.Intact client) ∨
  (¬ OpensHttp client.arriving ∧
    ∃ relayed, r.1 = .relayed relayed ∧
      Outbound.Delivered client client.isTls o r.2 relayed)

/-- A connection that was dropped got nowhere. -/
theorem not_getsOn_dropped (client : Connection) (o o' : Outbound) (e : IoError) :
    ¬ GetsOn client o (.dropped e, o') := by
  rintro (⟨_, routed, hserved, _⟩ | ⟨_, relayed, hrelayed, _⟩)
  · cases hserved
  · cases hrelayed

/-- The plaintext branch drops what ends before the second look has enough. -/
theorem serve_plain_ended (hd : client.destination = some d) (hend : client.failure? = none)
    (hplain : classify (termination.map (·.coverage)) client = .serve .plain held)
    (hshort : client.arriving.length < httpPeekSize) :
    Branch.plain.serve termination held o =
      (.dropped (PeekError.shortRead httpPeekSize client.arriving.length).toIoError, o) := by
  have hintact := classify_serve_intact hplain
  -- the first look has put all the bytes back, and there are still too few
  rw [← hintact.arriving] at hshort ⊢
  exact bounce_ended (hintact.destination.trans hd) hshort (hintact.failure.trans hend)

theorem serve_plain_getsOn (hd : client.destination = some d) (htls : client.isTls = false)
    (hplain : classify (termination.map (·.coverage)) client = .serve .plain held)
    (hdial : o.result o.dialed.length = .ok ())
    (hlong : httpPeekSize ≤ client.arriving.length) :
    GetsOn client o (Branch.plain.serve termination held o) := by
  have hintact := classify_serve_intact hplain
  have hd' : held.destination = some d := hintact.destination.trans hd
  rw [← hintact.arriving] at hlong
  have hserve : Branch.plain.serve termination held o = bounce none held o := by
    simp only [Branch.serve]
  rw [hserve]
  by_cases hhttp : OpensHttp held.arriving
  · obtain ⟨routed, hb, hrouted⟩ := bounce_http none o hd' hlong hhttp
    refine .inl ⟨by rwa [← hintact.arriving], routed, hb, hrouted.trans hintact⟩
  · obtain ⟨kept, hkept, hb⟩ := bounce_other none o hd' hlong hhttp
    have hopen : kept.isTls = false := (hkept.isTls.trans hintact.isTls).trans htls
    obtain ⟨relayed, hrelayed, hdelivered⟩ :=
      relayOnward_relayed none d hdial fun h => by rw [hopen] at h; cases h
    rw [hb]
    refine .inr ⟨by rwa [← hintact.arriving], relayed, hrelayed, ?_⟩
    rw [htls, ← hopen]
    exact hdelivered.of_intact (hkept.trans hintact)

/-- **A plain tunnelled stream gets on if and only if eight bytes of it arrive.** Then the router
    has it from its first byte, exactly if it opens like a request that the router serves, or its
    destination receives all of it. A shorter stream that ends without a failure is dropped, and its
    destination is not even dialed. -/
theorem tunnelled_stream_gets_on_iff (hd : client.destination = some d)
    (htls : client.isTls = false) (hend : client.failure? = none)
    (hplain : classify (termination.map (·.coverage)) client = .serve .plain held)
    (hdial : o.result o.dialed.length = .ok ()) :
    (GetsOn client o (Branch.plain.serve termination held o) ↔
      httpPeekSize ≤ client.arriving.length) ∧
    (client.arriving.length < httpPeekSize →
      Branch.plain.serve termination held o =
        (.dropped (PeekError.shortRead httpPeekSize client.arriving.length).toIoError, o)) := by
  refine ⟨⟨fun hgets => ?_, serve_plain_getsOn termination hd htls hplain hdial⟩,
    serve_plain_ended termination hd hend hplain⟩
  by_contra hlong
  rw [serve_plain_ended termination hd hend hplain (Nat.not_le.1 hlong)] at hgets
  exact not_getsOn_dropped client o o _ hgets

/-- Nine bytes in two pieces get to their destination. -/
theorem tunnelled_stream_gets_on_iff_nine_bytes :
    let client : Connection := (Connection.raw
      { source := { chunks := [.data (ascii "SSH-"), .data (ascii "2.0-x")] } }).tunnelled
        ['h'] false
    let o : Outbound := { result := fun _ => .ok (), reply := id }
    ∃ held, classify none client = .serve .plain held ∧
      GetsOn client o (Branch.plain.serve none held o) := by
  intro client o
  have hplain : ¬ OpensTls client.arriving := by
    rw [← isTlsHandshake_take_iff]
    decide +kernel
  obtain ⟨held, hc, _⟩ := classify_plain none (fun _ => rfl) hplain
  have hd : client.destination = some ['h'] := rfl
  have hdial : o.result o.dialed.length = .ok () := rfl
  have hiff := tunnelled_stream_gets_on_iff none hd rfl rfl hc hdial
  exact ⟨held, hc, hiff.1.2 (by decide +kernel)⟩

/-- Three bytes out of a tunnel are sent to the plaintext branch, and lost there. -/
theorem short_stream_is_lost :
    let client : Connection := (Connection.raw
      { source := { chunks := [.data (ascii "abc")] } }).tunnelled "a:1".toList false
    let o : Outbound := { result := fun _ => .ok (), reply := id }
    client.destination = some "a:1".toList ∧ client.isTls = false ∧ client.failure? = none ∧
      ∃ held, classify none client = .serve .plain held ∧
        ¬ GetsOn client o (Branch.plain.serve none held o) := by
  intro client o
  have hplain : ¬ OpensTls client.arriving := by
    rw [← isTlsHandshake_take_iff]
    decide +kernel
  have hd : client.destination = some "a:1".toList := by decide +kernel
  obtain ⟨held, hc, _⟩ := classify_plain none (fun _ => rfl) hplain
  refine ⟨hd, rfl, rfl, held, hc, ?_⟩
  rw [serve_plain_ended none hd rfl hc (by decide +kernel)]
  exact not_getsOn_dropped client o o _

end InterceptingProxy
