import InterceptingProxy.Proofs.Header.Filtering
import InterceptingProxy.Proofs.Routing.Security

set_option autoImplicit false

/-! # Marked requests on their way

The marker that a connection puts on its requests is taken off again, and nothing is left of it: the
metadata of a call, in the eyes of those who must not see the marker, are the client's own
(`same_externalMetadata_iff`), and all laws of adding and removing are collected in
`marker_algebra`.

The reverse proxy asks another question than calls do: whether a value mentions the marker. The two
disagree about a value that has the marker and more in it, and the mark that such a value makes
cannot be removed (`marker_tests_agree_iff`). -/

namespace InterceptingProxy

/-! ## Removal on the way -/

namespace Headers

variable {h : Headers} {name : Text}

theorem removeHttpsMarker_insert (value : Bytes) (hne : name ≠ forwardedName) :
    (h.insert name value).removeHttpsMarker = h.removeHttpsMarker.insert name value := by
  simp [removeHttpsMarker, removeValues, insert, remove, append, hne, Bool.and_comm]

theorem removeHttpsMarker_remove :
    (h.remove name).removeHttpsMarker = h.removeHttpsMarker.remove name := by
  simp [removeHttpsMarker, removeValues, remove, Bool.and_comm]

end Headers

/-- The markers may be removed before or after the translation from gRPC-Web. -/
theorem Grpc.Web.removeHttpsMarker_nativeRequest (r : Request) :
    (nativeRequest r).headers.removeHttpsMarker =
      (nativeRequest { r with headers := r.headers.removeHttpsMarker }).headers := by
  unfold nativeRequest
  rw [Headers.removeHttpsMarker_insert _ (by decide),
    Headers.removeHttpsMarker_insert _ (by decide), Headers.removeHttpsMarker_insert _ (by decide),
    Headers.removeHttpsMarker_remove]

/-- Nothing is left of the marker that a connection puts on its requests. -/
theorem Router.removeHttpsMarker_marked (conn : RoutedConnection) (r : Request) :
    (marked conn r).headers.removeHttpsMarker = r.headers.removeHttpsMarker := by
  unfold marked
  split
  · exact Headers.removeHttpsMarker_addHttpsMarker r.headers
  · rfl

namespace Grpc

variable (conn : RoutedConnection) (r : Request) (origin : Origin) (e : Encoding)
  (body : RequestBody)

/-- Without markers, the metadata of a call are the client's own unless these had one. -/
theorem same_externalMetadata_iff :
    (callOf origin e (Router.marked conn r) body).info.externalMetadata.Same r.headers ↔
      r.headers.isMarkedHttps = false := by
  have hexternal : (callOf origin e (Router.marked conn r) body).info.externalMetadata =
      r.headers.removeHttpsMarker := Router.removeHttpsMarker_marked conn r
  rw [hexternal, Headers.same_removeHttpsMarker_iff]

/-- So they are after a translation. -/
theorem Web.same_externalMetadata_iff :
    (callOf origin e (nativeRequest (Router.marked conn r)) body).info.externalMetadata.Same
      (nativeRequest r).headers ↔ r.headers.isMarkedHttps = false := by
  have hmarked : { Router.marked conn r with headers := r.headers.removeHttpsMarker } =
      { r with headers := r.headers.removeHttpsMarker } := by
    unfold Router.marked
    split <;> rfl
  have hexternal :
      (callOf origin e (nativeRequest (Router.marked conn r)) body).info.externalMetadata =
        (nativeRequest r).headers.removeHttpsMarker := by
    rw [removeHttpsMarker_nativeRequest, ← hmarked, ← Router.removeHttpsMarker_marked conn r]
    exact removeHttpsMarker_nativeRequest (Router.marked conn r)
  rw [hexternal, Headers.same_removeHttpsMarker_iff,
    Headers.isMarkedHttps_congr (values_nativeRequest r)]

end Grpc

open Headers in
/-- **The laws of the marker.** Removal undoes the addition and itself does nothing twice. It takes
    out the `forwarded` values that are the marker and leaves all others, text or not, and so
    changes exactly the headers that are marked. It is the same whether values are taken out of
    their places or all taken out and the others put back, and whether it is done to the fields of a
    request or to the metadata of its call. What is left of a call's metadata are the client's own,
    in the form of a call, unless the client sent the marker itself. -/
theorem marker_algebra :
    (∀ h : Headers,
      h.addHttpsMarker.removeHttpsMarker.Same h.removeHttpsMarker ∧
      h.removeHttpsMarker.removeHttpsMarker.Same h.removeHttpsMarker ∧
      (∀ name, h.removeHttpsMarker.values name =
        if name = forwardedName then
          (h.values name).filter (· ≠ Bytes.ofLatin "proto=https".toList)
        else h.values name) ∧
      (¬ h.removeHttpsMarker.Same h ↔ h.isMarkedHttps = true) ∧
      (h.isMarkedHttps = true ↔ Bytes.ofLatin "proto=https".toList ∈ h.values forwardedName) ∧
      h.removeHttpsMarker.isMarkedHttps = false ∧ h.addHttpsMarker.isMarkedHttps = true ∧
      (h.putBack forwardedName
        ((h.values forwardedName).filter fun value => !isHttpsMarker value)).Same
          h.removeHttpsMarker) ∧
    ∀ conn (r : Request) origin e body,
      (Grpc.callOf origin e r body).info.externalMetadata.Same
        (Grpc.callOf origin e
          { r with headers := r.headers.removeHttpsMarker } body).info.metadata ∧
      ((Grpc.callOf origin e (Router.marked conn r) body).info.externalMetadata.Same r.headers ↔
        r.headers.isMarkedHttps = false) ∧
      ((Grpc.callOf origin e (Grpc.Web.nativeRequest (Router.marked conn r))
          body).info.externalMetadata.Same (Grpc.Web.nativeRequest r).headers ↔
        r.headers.isMarkedHttps = false) := by
  refine ⟨fun h => ⟨?_, ?_, ?_, ?_, isMarkedHttps_iff, isMarkedHttps_removeHttpsMarker,
    isMarkedHttps_addHttpsMarker, same_putBack h forwardedName isHttpsMarker⟩, ?_⟩
  · intro name
    rw [removeHttpsMarker_addHttpsMarker]
  · exact same_removeHttpsMarker_iff.2 isMarkedHttps_removeHttpsMarker
  · intro name
    split
    · next hname =>
        subst hname
        exact h.values_removeHttpsMarker_forwarded
    · next hname => exact h.values_removeHttpsMarker hname
  · rw [same_removeHttpsMarker_iff, Bool.not_eq_false]
  · intro conn r origin e body
    exact ⟨fun _ => rfl, Grpc.same_externalMetadata_iff conn r origin e body,
      Grpc.Web.same_externalMetadata_iff conn r origin e body⟩

/-! ## Two tests -/

namespace ReverseProxy

variable {r : Request} {body : RequestBody} {o : Outgoing}

/-- Only one scheme fits a URL. -/
theorem scheme_prefix_iff (h : outgoing? r body = some o) (tls : Bool) :
    scheme tls <+: o.url ↔ r.headers.mentionsHttps = tls := by
  have hscheme := scheme_prefix_of_outgoing? h
  constructor
  · intro hprefix
    rcases Nat.le_total (scheme tls).length (scheme r.headers.mentionsHttps).length with hle | hle
    · have hpart := List.prefix_of_prefix_length_le hprefix hscheme hle
      revert hpart
      cases tls <;> cases r.headers.mentionsHttps <;> decide
    · have hpart := List.prefix_of_prefix_length_le hscheme hprefix hle
      revert hpart
      cases tls <;> cases r.headers.mentionsHttps <;> decide
  · rintro rfl
    exact hscheme

theorem values_requestHeaders_forwarded (h : Headers) :
    (requestHeaders h).values forwardedName =
      if forwardedName ∈ h.connectionNames then []
      else h.removeHttpsMarker.values forwardedName := by
  have hhop : forwardedName ∉ hopByHopNames := by decide
  rw [requestHeaders, Headers.values_remove_of_ne _ (by decide), Headers.stripHopByHop,
    Headers.values_removeAll, Headers.connectionNames_removeHttpsMarker]
  simp [hhop]

/-- What is sent on mentions the marker if a value with more in it goes on. -/
theorem mentionsHttps_requestHeaders_iff (h : Headers) :
    (requestHeaders h).mentionsHttps = true ↔ h.Embeds ∧ ¬ h.Lists forwardedName := by
  rw [← Headers.mem_connectionNames_iff, ← Headers.mentionsHttps_removeHttpsMarker_iff]
  simp only [Headers.mentionsHttps, Headers.texts, values_requestHeaders_forwarded]
  split <;> simp [*]

end ReverseProxy

/-- **The two tests for the marker agree on values that are the marker or do not have it in them.**
    They disagree if some value has the marker and more in it and none is the marker, and removal
    leaves such a value. So does the reverse proxy, which goes by the test that accepts such values:
    it then uses `https`, and sends the value on unless the `connection` field lists it. Calls go by
    the other test. -/
theorem marker_tests_agree_iff (h : Headers) :
    (h.mentionsHttps = h.isMarkedHttps ↔ h.isMarkedHttps = true ∨ ¬ h.Embeds) ∧
    (h.removeHttpsMarker.mentionsHttps = false ↔ ¬ h.Embeds) ∧
    h.removeHttpsMarker.isMarkedHttps = false ∧
    (∀ r body o, r.headers = h → ReverseProxy.outgoing? r body = some o →
      (ReverseProxy.scheme true <+: o.url ↔ h.isMarkedHttps = true ∨ h.Embeds) ∧
      (o.headers.mentionsHttps = true ↔ h.Embeds ∧ ¬ h.Lists forwardedName)) ∧
    ∀ (handler : Handler) info d, info.metadata = h → handler.depart info = .ok d →
      (d.key.tls = true ↔ h.isMarkedHttps = true) := by
  refine ⟨?_, ?_, Headers.isMarkedHttps_removeHttpsMarker, ?_, ?_⟩
  · rw [Bool.eq_iff_iff, Headers.mentionsHttps_iff]
    tauto
  · rw [← Headers.mentionsHttps_removeHttpsMarker_iff, Bool.not_eq_true]
  · rintro r body o rfl ho
    rw [ReverseProxy.scheme_prefix_iff ho, Headers.mentionsHttps_iff]
    obtain ⟨url, -, rfl⟩ := Option.map_eq_some_iff.1 ho
    exact ⟨Iff.rfl, ReverseProxy.mentionsHttps_requestHeaders_iff r.headers⟩
  · rintro handler info d rfl hd
    rw [(Handler.depart_eq_ok_iff.1 hd).2.1]

/-- A request with the marker in one of its `forwarded` elements. -/
def forwardedRequest : Request where
  method := "GET".toList
  uri := { target := ⟨"/".toList, none⟩ }
  headers := ⟨[("host".toList, ascii "svc"), (forwardedName, ascii "for=x;proto=https")]⟩

theorem marker_tests_agree_iff_embedded :
    ∃ o d, ReverseProxy.outgoing? forwardedRequest {} = some o ∧
      ReverseProxy.scheme true <+: o.url ∧ o.headers.mentionsHttps = true ∧
      ({ proxyId := ['p'] } : Handler).depart
        { method := "/a.B/C".toList, metadata := forwardedRequest.headers
          authority := some "svc".toList } = .ok d ∧ d.key.tls = false := by
  have hembeds : forwardedRequest.headers.Embeds :=
    ⟨"for=x;".toList, [], .inl (by decide), by decide⟩
  have hlists : ¬ forwardedRequest.headers.Lists forwardedName := by
    rw [← Headers.mem_connectionNames_iff]
    decide
  have ho : ReverseProxy.outgoing? forwardedRequest {} = some _ := rfl
  have hd : ({ proxyId := ['p'] } : Handler).depart
      { method := "/a.B/C".toList, metadata := forwardedRequest.headers
        authority := some "svc".toList } = .ok _ := rfl
  obtain ⟨-, -, -, hsent, hcalls⟩ := marker_tests_agree_iff forwardedRequest.headers
  obtain ⟨hurl, hheaders⟩ := hsent forwardedRequest {} _ rfl ho
  refine ⟨_, _, ho, hurl.2 (.inr hembeds), hheaders.2 ⟨hembeds, hlists⟩, hd, ?_⟩
  rw [← Bool.not_eq_true, hcalls _ _ _ rfl hd]
  decide

/-- The tests disagree, and removal does not remove. -/
theorem embedded_marker_stays :
    let h : Headers := ⟨[(forwardedName, ascii "for=x;proto=https")]⟩
    h.mentionsHttps ≠ h.isMarkedHttps ∧ h.removeHttpsMarker.mentionsHttps = true := by
  decide

end InterceptingProxy
