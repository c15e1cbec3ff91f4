import Mathlib.Tactic.Common
import InterceptingProxy.Intake.Serving
import InterceptingProxy.Proofs.RawRelay

set_option autoImplicit false

/-! # What comes of the two looks

`classify` and `bounce` by what arrives on a connection (`Connection.arriving`) and where its client
meant to go: one equation for each way in which a look can end. Whoever gets the connection gets it
as it was (`classify_serve_intact`, `bounce_served_intact`), and what is relayed onward reaches its
destination whole (`relayOnward_delivered`). -/

namespace InterceptingProxy

variable {certificate : Option Coverage} {connector : Option Connector} {client held : Connection}
  {o : Outbound} {d : Text}

/-! ## The first look -/

theorem routeTls_passThrough {destination : Option Text}
    (h : routeTls destination certificate = .passThrough d) : destination = some d := by
  unfold routeTls at h
  split at h
  · cases h
  · next d' c hd =>
      split at h
      · cases h
      · cases h
        exact (Option.filter_eq_some_iff.1 hd).1
  · next d' hd =>
      cases h
      exact (Option.filter_eq_some_iff.1 hd).1

theorem classify_failed {e : IoError} (hshort : client.arriving.length < tlsPeekSize)
    (he : client.failure? = some e) : classify certificate client = .drop e := by
  obtain ⟨held, hpeek⟩ := Connection.peek_of_failed isTlsHandshake hshort he
  simp only [classify, hpeek, PeekError.toIoError]

theorem classify_plain (certificate : Option Coverage)
    (hend : client.arriving.length < tlsPeekSize → client.failure? = none)
    (htls : ¬ OpensTls client.arriving) :
    ∃ held, classify certificate client = .serve .plain held ∧ held.Intact client := by
  rcases Nat.lt_or_ge client.arriving.length tlsPeekSize with hshort | hlong
  · obtain ⟨held, hpeek, hintact⟩ := Connection.peek_of_ended isTlsHandshake hshort (hend hshort)
    exact ⟨held, by simp only [classify, hpeek], hintact⟩
  · obtain ⟨held, hpeek, hintact⟩ := Connection.peek_of_le isTlsHandshake hlong
    have htest : isTlsHandshake (client.arriving.take tlsPeekSize) = false := by
      rw [← Bool.not_eq_true, isTlsHandshake_take_iff]
      exact htls
    rw [htest] at hpeek
    exact ⟨held, by simp only [classify, hpeek], hintact⟩

theorem classify_tls (certificate : Option Coverage) (htls : OpensTls client.arriving) :
    ∃ held : Connection, held.Intact client ∧ classify certificate client =
      match routeTls client.destination certificate with
      | .intercept => .serve .tls held
      | .passThrough destination => .passThrough destination held := by
  obtain ⟨held, hpeek, hintact⟩ := Connection.peek_of_le isTlsHandshake htls.length_le
  rw [(isTlsHandshake_take_iff _).2 htls] at hpeek
  refine ⟨held, hintact, ?_⟩
  cases hroute : routeTls client.destination certificate with
  | intercept => simp only [classify, hpeek, hintact.destination, hroute]
  | passThrough d => simp only [classify, hpeek, hintact.destination, hroute]

/-- A branch gets the connection that was looked at. -/
theorem classify_serve_intact {branch : Branch}
    (h : classify certificate client = .serve branch held) : held.Intact client := by
  by_cases htls : OpensTls client.arriving
  · obtain ⟨held', hintact, hc⟩ := classify_tls certificate htls
    rw [h] at hc
    cases hroute : routeTls client.destination certificate with
    | intercept => rw [hroute] at hc; cases hc; exact hintact
    | passThrough d => rw [hroute] at hc; cases hc
  · by_cases hend : client.arriving.length < tlsPeekSize → client.failure? = none
    · obtain ⟨held', hc, hintact⟩ := classify_plain certificate hend htls
      rw [h] at hc
      cases hc
      exact hintact
    · obtain ⟨hshort, hsome⟩ := Classical.not_imp.1 hend
      obtain ⟨e, he⟩ := Option.ne_none_iff_exists'.1 hsome
      rw [classify_failed hshort he] at h
      cases h

theorem carryOut_passThrough_refused {e : IoError} (h : o.result o.dialed.length = .error e) :
    (Fate.passThrough d client).carryOut o = (.dropped e, (o.dial d).2) := by
  simp only [Fate.carryOut, Outbound.dial, h]

theorem carryOut_passThrough_relayed (d : Text) (client : Connection)
    (h : o.result o.dialed.length = .ok ()) :
    ∃ relayed, ((Fate.passThrough d client).carryOut o).1 = .relayed relayed ∧
      Outbound.Delivered client false o ((Fate.passThrough d client).carryOut o).2 relayed := by
  have hdelivered := Outbound.relay_delivered client false (o.dial d).2
  simp only [Fate.carryOut, Outbound.dial, h]
  exact ⟨_, rfl, hdelivered.received, hdelivered.failed⟩

theorem carryOut_passThrough_dialed (d : Text) (client : Connection) (o : Outbound) :
    ((Fate.passThrough d client).carryOut o).2.dialed = o.dialed ++ [d] ∧
      ∀ branch held, ((Fate.passThrough d client).carryOut o).1 ≠ .served branch held := by
  cases h : o.result o.dialed.length with
  | error e =>
      rw [carryOut_passThrough_refused h]
      exact ⟨rfl, fun _ _ => Classified.noConfusion⟩
  | ok _ =>
      simp only [Fate.carryOut, Outbound.dial, h]
      exact ⟨rfl, fun _ _ => Classified.noConfusion⟩

/-! ## The second look -/

theorem relayOnward_refused {e : IoError} (h : o.result o.dialed.length = .error e) :
    relayOnward connector d client o = (.dropped e, (o.dial d).2) := by
  simp only [relayOnward, Outbound.dial, h]

theorem relayOnward_unsecured {e : IoError} (h : o.result o.dialed.length = .ok ())
    (htls : client.isTls = true) (he : encrypt connector d = .error e) :
    relayOnward connector d client o = (.dropped e, (o.dial d).2) := by
  simp only [relayOnward, Outbound.dial, h, htls, he, if_true]

theorem relayOnward_relayed (connector : Option Connector) (d : Text)
    (h : o.result o.dialed.length = .ok ())
    (hsecured : client.isTls = true → encrypt connector d = .ok ()) :
    ∃ relayed, (relayOnward connector d client o).1 = .relayed relayed ∧
      Outbound.Delivered client client.isTls o (relayOnward connector d client o).2 relayed := by
  have hdelivered := Outbound.relay_delivered client client.isTls (o.dial d).2
  have hready : (if client.isTls then encrypt connector d else .ok ()) = .ok () := by
    split
    · next htls => exact hsecured htls
    · rfl
  simp only [relayOnward, Outbound.dial, h, hready]
  exact ⟨_, rfl, hdelivered.received, hdelivered.failed⟩

/-- What is relayed onward is dialed for once, and comes back to nobody. -/
theorem relayOnward_dialed (connector : Option Connector) (d : Text) (client : Connection)
    (o : Outbound) :
    (relayOnward connector d client o).2.dialed = o.dialed ++ [d] ∧
      ∀ held, (relayOnward connector d client o).1 ≠ .served held := by
  cases h : o.result o.dialed.length with
  | error e =>
      rw [relayOnward_refused h]
      exact ⟨rfl, fun _ => Bounced.noConfusion⟩
  | ok _ =>
      simp only [relayOnward, Outbound.dial, h]
      split <;> exact ⟨rfl, fun _ => Bounced.noConfusion⟩

theorem relayOnward_delivered {relayed : Outbound.Relayed}
    (h : (relayOnward connector d client o).1 = .relayed relayed) :
    Outbound.Delivered client client.isTls o (relayOnward connector d client o).2 relayed := by
  cases hdial : o.result o.dialed.length with
  | error e => rw [relayOnward_refused hdial] at h; cases h
  | ok _ =>
      by_cases hsecured : client.isTls = true → encrypt connector d = .ok ()
      · obtain ⟨relayed', hrelayed, hdelivered⟩ := relayOnward_relayed connector d hdial hsecured
        rw [hrelayed] at h
        cases h
        exact hdelivered
      · obtain ⟨htls, hnot⟩ := Classical.not_imp.1 hsecured
        cases he : encrypt connector d with
        | ok _ => exact absurd he hnot
        | error e => rw [relayOnward_unsecured hdial htls he] at h; cases h

theorem bounce_direct (connector : Option Connector) (o : Outbound)
    (hd : client.destination = none) :
    bounce connector client o = (.served client, o) := by
  simp only [bounce, hd]

theorem bounce_failed {e : IoError} (hd : client.destination = some d)
    (hshort : client.arriving.length < httpPeekSize) (he : client.failure? = some e) :
    bounce connector client o = (.dropped e, o) := by
  obtain ⟨held, hpeek⟩ := Connection.peek_of_failed isProxiedHttp hshort he
  simp only [bounce, hd, hpeek, PeekError.toIoError]

/-- The end before enough bytes have arrived counts as a failure. -/
theorem bounce_ended (hd : client.destination = some d)
    (hshort : client.arriving.length < httpPeekSize) (hend : client.failure? = none) :
    bounce connector client o =
      (.dropped (PeekError.shortRead httpPeekSize client.arriving.length).toIoError, o) := by
  obtain ⟨held, hpeek, _⟩ := Connection.peek_of_ended isProxiedHttp hshort hend
  simp only [bounce, hd, hpeek]

theorem bounce_short (connector : Option Connector) (o : Outbound)
    (hd : client.destination = some d) (hshort : client.arriving.length < httpPeekSize) :
    ∃ e, bounce connector client o = (.dropped e, o) := by
  cases he : client.failure? with
  | none => exact ⟨_, bounce_ended hd hshort he⟩
  | some e => exact ⟨e, bounce_failed hd hshort he⟩

theorem bounce_http (connector : Option Connector) (o : Outbound)
    (hd : client.destination = some d)
    (hlong : httpPeekSize ≤ client.arriving.length) (hhttp : OpensHttp client.arriving) :
    ∃ held, bounce connector client o = (.served held, o) ∧ held.Intact client := by
  obtain ⟨held, hpeek, hintact⟩ := Connection.peek_of_le isProxiedHttp hlong
  rw [(isProxiedHttp_take_iff _).2 hhttp] at hpeek
  exact ⟨held, by simp only [bounce, hd, hpeek], hintact⟩

theorem bounce_other (connector : Option Connector) (o : Outbound)
    (hd : client.destination = some d)
    (hlong : httpPeekSize ≤ client.arriving.length) (hhttp : ¬ OpensHttp client.arriving) :
    ∃ held : Connection, held.Intact client ∧
      bounce connector client o = relayOnward connector d held o := by
  obtain ⟨held, hpeek, hintact⟩ := Connection.peek_of_le isProxiedHttp hlong
  have htest : isProxiedHttp (client.arriving.take httpPeekSize) = false := by
    rw [← Bool.not_eq_true, isProxiedHttp_take_iff]
    exact hhttp
  rw [htest] at hpeek
  exact ⟨held, hintact, by simp only [bounce, hd, hpeek]⟩

/-- **What the second look can do**: leave alone what has no destination, drop what is too short,
    give it to the router, or relay it onward. Only the last dials. -/
theorem bounce_cases (connector : Option Connector) (client : Connection) (o : Outbound) :
    (client.destination = none ∧ bounce connector client o = (.served client, o)) ∨
    ∃ d, client.destination = some d ∧
      ((client.arriving.length < httpPeekSize ∧ ∃ e, bounce connector client o = (.dropped e, o)) ∨
       (httpPeekSize ≤ client.arriving.length ∧ OpensHttp client.arriving ∧
          ∃ held, bounce connector client o = (.served held, o) ∧ held.Intact client) ∨
       (httpPeekSize ≤ client.arriving.length ∧ ¬ OpensHttp client.arriving ∧
          ∃ held : Connection, held.Intact client ∧
            bounce connector client o = relayOnward connector d held o)) := by
  cases hd : client.destination with
  | none => exact .inl ⟨rfl, bounce_direct connector o hd⟩
  | some d =>
      refine .inr ⟨d, rfl, ?_⟩
      rcases Nat.lt_or_ge client.arriving.length httpPeekSize with hshort | hlong
      · exact .inl ⟨hshort, bounce_short connector o hd hshort⟩
      · by_cases hhttp : OpensHttp client.arriving
        · exact .inr (.inl ⟨hlong, hhttp, bounce_http connector o hd hlong hhttp⟩)
        · exact .inr (.inr ⟨hlong, hhttp, bounce_other connector o hd hlong hhttp⟩)

/-- The router gets the connection that was looked at. -/
theorem bounce_served_intact (h : (bounce connector client o).1 = .served held) :
    held.Intact client := by
  obtain ⟨_, hb⟩ | ⟨d, _, ⟨_, e, hb⟩ | ⟨_, _, held', hb, hintact⟩ | ⟨_, _, held', _, hb⟩⟩ :=
    bounce_cases connector client o
  all_goals rw [hb] at h
  · cases h
    exact .refl client
  · cases h
  · cases h
    exact hintact
  · exact absurd h ((relayOnward_dialed connector d held' o).2 held)

/-- The second look dials only for what it relays onward. -/
theorem bounce_dialed (h : (bounce connector client o).2.dialed ≠ o.dialed) :
    ∃ d held, client.destination = some d ∧ held.Intact client ∧
      bounce connector client o = relayOnward connector d held o := by
  obtain ⟨_, hb⟩ | ⟨d, hd, ⟨_, e, hb⟩ | ⟨_, _, held, hb, _⟩ | ⟨_, _, held, hintact, hb⟩⟩ :=
    bounce_cases connector client o
  · exact absurd (by rw [hb]) h
  · exact absurd (by rw [hb]) h
  · exact absurd (by rw [hb]) h
  · exact ⟨d, held, hd, hintact, hb⟩

end InterceptingProxy
