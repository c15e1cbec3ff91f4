import InterceptingProxy.Encoding.Hex
import InterceptingProxy.Proofs.Header.Filtering
import InterceptingProxy.Proofs.Routing.Departures

set_option autoImplicit false

/-! # No proxy twice

A call that goes from proxy to proxy carries the entries of all of them in its `via` field. The
first proxy may receive a `connection` field that names `via`, and then drops what was listed before
it. Every proxy removes `connection` itself, though, so from the first one on nothing that a proxy
does to the metadata takes an entry away (`viaEntries_forOutboundCall_of_nil`), and a proxy that the
call comes back to finds its own (`no_proxy_twice`). -/

namespace InterceptingProxy

/-! ## What is left of the entries -/

namespace Headers

theorem viaName_not_mem_hopByHopNames : viaName ∉ hopByHopNames := by decide

/-- The names that a proxy removes whatever the call says. -/
theorem viaName_not_mem_ownNames : viaName ∉ ownNames := by decide

theorem connectionName_ne_viaName : connectionName ≠ viaName := by decide

/-- A proxy keeps the `via` values, or drops all of them because the call says so. -/
theorem values_forOutboundCall_via (h : Headers) :
    h.forOutboundCall.values viaName =
      if viaName ∈ h.connectionNames then [] else h.values viaName := by
  rw [values_forOutboundCall, h.values_removeHttpsMarker (by decide)]
  simp [viaName_not_mem_hopByHopNames, viaName_not_mem_ownNames]

theorem viaEntries_congr {h h' : Headers} (heq : h.values viaName = h'.values viaName) :
    h.viaEntries = h'.viaEntries := by
  simp only [viaEntries, texts, heq]

/-- All entries stay, or none. -/
theorem viaEntries_forOutboundCall (h : Headers) :
    h.forOutboundCall.viaEntries =
      if viaName ∈ h.connectionNames then [] else h.viaEntries := by
  have hvalues := h.values_forOutboundCall_via
  split
  · next hnamed =>
      rw [if_pos hnamed] at hvalues
      rw [viaEntries, texts, hvalues]
      rfl
  · next hunnamed =>
      rw [if_neg hunnamed] at hvalues
      exact viaEntries_congr hvalues

/-- Where no connection names fields, the entries stay. -/
theorem viaEntries_forOutboundCall_of_nil {h : Headers} (hc : h.values connectionName = []) :
    h.forOutboundCall.viaEntries = h.viaEntries := by
  rw [viaEntries_forOutboundCall, connectionNames_eq_nil hc, if_neg List.not_mem_nil]

/-- No entry comes from nowhere. -/
theorem mem_viaEntries_of_forOutboundCall {h : Headers} {entry : Text}
    (he : entry ∈ h.forOutboundCall.viaEntries) : entry ∈ h.viaEntries := by
  rw [viaEntries_forOutboundCall] at he
  split at he
  · cases he
  · exact he

theorem mem_viaEntries_iff {h : Headers} {entry : Text} :
    entry ∈ h.viaEntries ↔ ∃ value ∈ h.texts viaName, entry ∈ listItems value :=
  List.mem_flatMap

theorem viaEntries_appendAll (h other : Headers) :
    (h.appendAll other).viaEntries = h.viaEntries ++ other.viaEntries := by
  simp only [viaEntries, texts, values_appendAll, List.filterMap_append, List.flatMap_append]

end Headers

/-! ## Proxies -/

/-- The identity of a proxy: sixteen hexadecimal digits. -/
structure ProxyId where
  digits : Text
  length_digits : digits.length = 16
  isHex : ∀ c ∈ digits, (Hex.digitValue? c).isSome = true

namespace ProxyId

/-- The entry of a proxy in the `via` field. -/
def entry (id : ProxyId) : Text := viaEntry id.digits

/-- The failure of a call that comes back to a proxy. -/
def loopDetected (id : ProxyId) : Status :=
  .internal ("proxy loop detected, request already handled by ".toList ++ id.digits)

variable (id : ProxyId)

theorem digit_range {c : Char} (h : (Hex.digitValue? c).isSome = true) :
    0x30 ≤ c.toNat ∧ c.toNat ≤ 0x66 := by
  have hle : ∀ {a b : Char}, a ≤ b → a.toNat ≤ b.toNat := fun hab => hab
  unfold Hex.digitValue? at h
  split at h
  · next hc => exact ⟨hle hc.1, (hle hc.2).trans (by decide)⟩
  · split at h
    · next hc => exact ⟨(by decide : 0x30 ≤ 'a'.toNat).trans (hle hc.1), hle hc.2⟩
    · split at h
      · next hc =>
          exact ⟨(by decide : 0x30 ≤ 'A'.toNat).trans (hle hc.1), (hle hc.2).trans (by decide)⟩
      · cases h

theorem isBlank_digit {c : Char} (h : (Hex.digitValue? c).isSome = true) : isBlank c = false := by
  obtain ⟨hlow, hhigh⟩ := digit_range h
  unfold isBlank
  simp only [Bool.or_eq_false_iff, Bool.and_eq_false_iff, decide_eq_false_iff_not,
    beq_eq_false_iff_ne]
  omega

theorem entry_visible : id.entry.Visible := by
  refine Text.Visible.append (by decide) fun c hc => ?_
  have hrange := digit_range (id.isHex c hc)
  omega

theorem listItems_entry : listItems id.entry = [id.entry] := by
  refine listItems_eq_singleton ?_ ?_ ?_
  · unfold entry viaEntry
    rw [List.mem_append, not_or]
    refine ⟨by decide, fun hc => ?_⟩
    have hrange := digit_range (id.isHex ',' hc)
    simp at hrange
  · intro c hc
    obtain rfl : 'H' = c := Option.some.inj hc
    decide
  · intro c hc
    have hne : id.digits ≠ [] := by
      intro hnil
      have hlength := id.length_digits
      rw [hnil] at hlength
      cases hlength
    have hlast : id.entry.getLast? = id.digits.getLast? :=
      List.getLast?_append_of_ne_nil _ hne
    rw [hlast] at hc
    exact isBlank_digit (id.isHex c (List.mem_of_getLast? hc))

/-- A signed request lists the proxy behind those that it listed before. -/
theorem viaEntries_append_entry (h : Headers) :
    (h.append viaName id.entry.utf8).viaEntries = h.viaEntries ++ [id.entry] := by
  simp only [Headers.viaEntries, Headers.texts, Headers.values_append_self,
    List.filterMap_append, List.filterMap_cons, List.filterMap_nil,
    id.entry_visible.visibleText?_utf8, List.flatMap_append, List.flatMap_cons, List.flatMap_nil,
    id.listItems_entry, List.append_nil]

/-- The loop check of a proxy fails for one reason only. -/
theorem addLoopCheck_eq (h : Headers) :
    h.addLoopCheck id.digits =
      if id.entry ∈ h.viaEntries then .error id.loopDetected
      else .ok (h.append viaName id.entry.utf8) := by
  unfold Headers.addLoopCheck
  have hvalue : (viaEntry id.digits).utf8.all isValueByte = true := id.entry_visible.isValueByte
  simp only [List.contains_iff_mem, hvalue, if_true]
  rfl

end ProxyId

/-! ## On the way -/

/-- What a proxy makes of the metadata of a call: they are stripped, and signed unless the proxy is
    listed already. -/
def Headers.throughProxy (received : Headers) (id : ProxyId) : Except Status Unit × Headers :=
  let stripped := received.forOutboundCall
  match stripped.addLoopCheck id.digits with
  | .ok signed => (.ok (), signed)
  | .error s => (.error s, stripped)

/-- A proxy on the way of a call, and the fields that are added between it and the next one. -/
structure Hop where
  id : ProxyId
  added : Headers := {}
  added_connection : added.values connectionName = [] := by rfl

/-- The metadata behind a list of proxies, if all of them let the call pass. -/
def Headers.travel (received : Headers) : List Hop → Except Status Headers
  | [] => .ok received
  | hop :: rest =>
    match received.throughProxy hop.id with
    | (.ok (), sent) => (sent.appendAll hop.added).travel rest
    | (.error s, _) => .error s

namespace Headers

variable {received sent left : Headers} {id : ProxyId} {hop : Hop} {s : Status}

theorem throughProxy_eq_ok_iff :
    received.throughProxy id = (.ok (), sent) ↔
      id.entry ∉ received.forOutboundCall.viaEntries ∧
        sent = received.forOutboundCall.append viaName id.entry.utf8 := by
  simp only [throughProxy, id.addLoopCheck_eq]
  by_cases hlisted : id.entry ∈ received.forOutboundCall.viaEntries
  · simp [hlisted]
  · simp [hlisted, eq_comm]

theorem throughProxy_eq_error_iff :
    received.throughProxy id = (.error s, left) ↔
      id.entry ∈ received.forOutboundCall.viaEntries ∧ s = id.loopDetected ∧
        left = received.forOutboundCall := by
  simp only [throughProxy, id.addLoopCheck_eq]
  by_cases hlisted : id.entry ∈ received.forOutboundCall.viaEntries
  · simp [hlisted, eq_comm]
  · simp [hlisted]

/-- What a proxy receives names no fields, and lists all proxies before. -/
theorem values_connection_of_passed (h : received.throughProxy hop.id = (.ok (), sent)) :
    (sent.appendAll hop.added).values connectionName = [] := by
  obtain ⟨-, rfl⟩ := throughProxy_eq_ok_iff.1 h
  rw [values_appendAll, hop.added_connection, List.append_nil,
    ← received.values_forOutboundCall_connection]
  simp [values, append, connectionName_ne_viaName.symm]

theorem mem_viaEntries_of_passed (h : received.throughProxy hop.id = (.ok (), sent)) {entry : Text}
    (he : entry = hop.id.entry ∨ entry ∈ received.forOutboundCall.viaEntries) :
    entry ∈ (sent.appendAll hop.added).viaEntries := by
  obtain ⟨-, rfl⟩ := throughProxy_eq_ok_iff.1 h
  rw [viaEntries_appendAll, hop.id.viaEntries_append_entry]
  simp only [List.mem_append, List.mem_singleton]
  rcases he with he | he
  · exact .inl (.inr he)
  · exact .inl (.inl he)

theorem exists_of_travel_cons {out : Headers} {rest : List Hop}
    (h : received.travel (hop :: rest) = .ok out) :
    ∃ sent, received.throughProxy hop.id = (.ok (), sent) ∧
      (sent.appendAll hop.added).travel rest = .ok out := by
  rw [travel] at h
  split at h
  · next sent hpassed => exact ⟨sent, hpassed, h⟩
  · cases h

/-- A call does not pass a proxy that it lists. -/
theorem not_mem_of_travel {out : Headers} {hops : List Hop} (h : received.travel hops = .ok out)
    (hc : received.values connectionName = []) (hlisted : id.entry ∈ received.viaEntries) :
    ∀ hop ∈ hops, hop.id.digits ≠ id.digits := by
  induction hops generalizing received with
  | nil =>
      intro hop hmem
      cases hmem
  | cons first rest ih =>
      obtain ⟨sent, hpassed, hrest⟩ := exists_of_travel_cons h
      rw [← viaEntries_forOutboundCall_of_nil hc] at hlisted
      intro hop hmem heq
      rcases List.mem_cons.1 hmem with rfl | hmem
      · have hfree := (throughProxy_eq_ok_iff.1 hpassed).1
        unfold ProxyId.entry at hfree hlisted
        rw [heq] at hfree
        exact hfree hlisted
      · -- the entry goes on to the next proxy
        exact ih hrest (values_connection_of_passed hpassed)
          (mem_viaEntries_of_passed hpassed (.inr hlisted)) hop hmem heq

theorem nodup_of_travel {out : Headers} {hops : List Hop} (h : received.travel hops = .ok out) :
    (hops.map fun hop => hop.id.digits).Nodup := by
  induction hops generalizing received with
  | nil => exact List.nodup_nil
  | cons first rest ih =>
      obtain ⟨sent, hpassed, hrest⟩ := exists_of_travel_cons h
      have hlater := not_mem_of_travel hrest (values_connection_of_passed hpassed)
        (mem_viaEntries_of_passed hpassed (.inl rfl))
      rw [List.map_cons, List.nodup_cons]
      refine ⟨fun hmem => ?_, ih hrest⟩
      obtain ⟨hop, hhop, heq⟩ := List.mem_map.1 hmem
      exact hlater hop hhop heq

end Headers

/-- A call that departs from a handler has been through its proxy. -/
theorem Handler.throughProxy_of_depart {h : Handler} {id : ProxyId} {info : CallInfo}
    {d : Handler.Departure} (hid : h.proxyId = id.digits) (hd : h.depart info = .ok d) :
    info.metadata.throughProxy id = (.ok (), d.metadata) := by
  obtain ⟨-, -, hsigned, -⟩ := Handler.depart_eq_ok_iff.1 hd
  rw [hid] at hsigned
  simp only [Headers.throughProxy, hsigned]

/-- **No call passes the same proxy twice.** Whatever the metadata are that the first proxy
    receives, and whatever fields other than `connection` are added between the proxies: the proxies
    that let a call pass are all different. A proxy refuses a call only if it is listed in a `via`
    value that it received; it then says so and has added nothing to the metadata. -/
theorem no_proxy_twice :
    (∀ (received : Headers) (hops : List Hop) (out : Headers), received.travel hops = .ok out →
      (hops.map fun hop => hop.id.digits).Nodup) ∧
    ∀ (received : Headers) (id : ProxyId) (s : Status) (left : Headers),
      received.throughProxy id = (.error s, left) →
        (∃ value ∈ received.texts viaName, viaEntry id.digits ∈ listItems value) ∧
        s = .internal ("proxy loop detected, request already handled by ".toList ++ id.digits) ∧
        left = received.forOutboundCall := by
  refine ⟨fun received hops out h => Headers.nodup_of_travel h, fun received id s left h => ?_⟩
  obtain ⟨hlisted, hs, hleft⟩ := Headers.throughProxy_eq_error_iff.1 h
  have hreceived := Headers.mem_viaEntries_of_forOutboundCall hlisted
  exact ⟨Headers.mem_viaEntries_iff.1 hreceived, hs, hleft⟩

/-- Two proxies, and a call that hides from the first of them that it has been there. -/
def firstProxy : ProxyId := ⟨"0123456789abcdef".toList, by rfl, List.all_eq_true.1 (by rfl)⟩

def secondProxy : ProxyId := ⟨"fedcba9876543210".toList, by rfl, List.all_eq_true.1 (by rfl)⟩

def hidingCall : Headers :=
  ⟨[("connection".toList, ascii "close, Via"), (viaName, ascii "HTTP/2.0 0123456789abcdef"),
    (forwardedName, ascii "proto=https")]⟩

def someHops : List Hop :=
  [{ id := firstProxy, added := ⟨[(forwardedName, ascii "proto=https"), ("te".toList, [])]⟩ },
    { id := secondProxy }]

theorem no_proxy_twice_hidden :
    (∃ out, hidingCall.travel someHops = .ok out ∧
      (someHops.map fun hop => hop.id.digits).Nodup) ∧
    ∃ s left, (⟨[(viaName, ascii "1.1 a, HTTP/2.0 fedcba9876543210")]⟩ : Headers).throughProxy
        secondProxy = (.error s, left) ∧
      s = .internal ("proxy loop detected, request already handled by ".toList
        ++ secondProxy.digits) := by
  have hpassed : hidingCall.travel someHops = .ok _ := rfl
  have hrefused : (⟨[(viaName, ascii "1.1 a, HTTP/2.0 fedcba9876543210")]⟩ : Headers).throughProxy
      secondProxy = (.error secondProxy.loopDetected, _) := rfl
  exact ⟨⟨_, hpassed, no_proxy_twice.1 _ _ _ hpassed⟩,
    _, _, hrefused, (no_proxy_twice.2 _ _ _ _ hrefused).2.1⟩

end InterceptingProxy
