import InterceptingProxy.Proofs.Header.Loops

set_option autoImplicit false

/-! # Calls that come back

The loop check reads the metadata that go on, after the names that `connection` lists are dropped.
So a call that has been here and says so is refused, unless it lists `via`: then it is handled as if
it had not said so (`Handler.handle_without`). -/

namespace InterceptingProxy

namespace Headers

variable {h : Headers} {name : Text}

/-- It makes no difference to what goes on whether a listed name is there. -/
theorem forOutboundCall_remove (hlisted : h.Lists name) (hne : name ≠ connectionName) :
    (h.remove name).forOutboundCall = h.forOutboundCall := by
  have hnames : (h.remove name).connectionNames = h.connectionNames :=
    connectionNames_congr (h.values_remove_of_ne hne)
  have hmem : name ∈ h.connectionNames ++ hopByHopNames ++ ownNames := by
    rw [List.append_assoc]
    exact List.mem_append_left _ (mem_connectionNames_iff.2 hlisted)
  rw [forOutboundCall_eq, forOutboundCall_eq, hnames]
  refine congrArg Headers.mk (?_ : (removeAll _ _).fields = (removeAll _ _).fields)
  rw [fields_removeAll, fields_removeAll, removeHttpsMarker, removeHttpsMarker, removeValues,
    removeValues, remove, List.filter_filter, List.filter_filter, List.filter_filter]
  refine List.filter_congr fun field _ => ?_
  by_cases hfield : field.1 = name
  · rw [hfield, decide_eq_false (not_not_intro hmem)]
    simp
  · simp [hfield]

end Headers

/-- The call without a name among its metadata. -/
def Call.without (call : Call) (name : Text) : Call :=
  { call with info := { call.info with metadata := call.info.metadata.remove name } }

namespace Handler

variable {h : Handler} {id : ProxyId} {call : Call} {s : Surroundings} {plan : CallRelay.Plan}
  {destination : Text}

/-- A call that lists `via` is handled as if it had none. -/
theorem handle_without (hlisted : call.info.metadata.Lists viaName) :
    h.handle plan (call.without viaName) s = h.handle plan call s := by
  have hforwarded : (call.info.metadata.remove viaName).values forwardedName =
      call.info.metadata.values forwardedName :=
    Headers.values_remove_of_ne _ (by decide)
  have hmarked : (call.info.metadata.remove viaName).isMarkedHttps =
      call.info.metadata.isMarkedHttps := by
    rw [Headers.isMarkedHttps, hforwarded, Headers.isMarkedHttps]
  have hdepart : h.depart (call.without viaName).info = h.depart call.info := by
    simp only [depart_eq, Call.without, CallInfo.destination, hmarked,
      Headers.forOutboundCall_remove hlisted Headers.connectionName_ne_viaName.symm]
  exact handle_congr hdepart rfl

theorem depart_of_returning (hid : h.proxyId = id.digits)
    (hdestination : call.info.destination h.destination = .ok destination)
    (hback : id.entry ∈ call.info.metadata.viaEntries)
    (hunlisted : ¬ call.info.metadata.Lists viaName) :
    h.depart call.info = .error id.loopDetected := by
  have hstays : id.entry ∈ call.info.metadata.forOutboundCall.viaEntries := by
    rw [Headers.viaEntries_forOutboundCall, if_neg (mt Headers.mem_connectionNames_iff.1 hunlisted)]
    exact hback
  rw [depart_eq, hdestination, hid, id.addLoopCheck_eq, if_pos hstays]

/-- The loop check passes a call that lists `via`, whatever its entries are. -/
theorem depart_ne_loopDetected (hid : h.proxyId = id.digits)
    (hdestination : call.info.destination h.destination = .ok destination)
    (hlisted : call.info.metadata.Lists viaName) :
    h.depart call.info ≠ .error id.loopDetected := by
  have hnone : id.entry ∉ call.info.metadata.forOutboundCall.viaEntries := by
    rw [Headers.viaEntries_forOutboundCall, if_pos (Headers.mem_connectionNames_iff.2 hlisted)]
    exact List.not_mem_nil
  rw [depart_eq, hdestination, hid, id.addLoopCheck_eq, if_neg hnone]
  cases PathAndQuery.ofPath? call.info.method with
  | some path => exact nofun
  | none =>
      intro heq
      have hmessage := congrArg Status.message (Except.error.inj heq)
      have hfirst : 'i' = 'p' := (List.cons.inj hmessage).1
      exact absurd hfirst (by decide)

/-- A call that departs does not end like one that was refused: it fails by its channel, or its
    request is known. -/
theorem handle_ne_of_depart {d : Departure} (hd : h.depart call.info = .ok d) {status : Status}
    (hcode : status.code = .internal) : h.handle plan call s ≠ (.error status, s) := by
  intro heq
  obtain ⟨_, _, _, hchannel⟩ := Surroundings.channel_frame d.key s
  rcases hr : Surroundings.channel d.key s with ⟨e | channel, s'⟩
  · rw [handle_of_channel hd hr] at heq
    cases heq
    cases hcode
  · rw [handle_of_channel hd hr] at heq
    have hrequests : s'.destinations.requests = s.destinations.requests := by
      rw [hr] at hchannel
      dsimp only at hchannel
      rw [hchannel]
    rcases h.relay_failed_or_requested plan channel d.path d.metadata call.inbound s' with
      ⟨status', hfailed, hcode'⟩ | hrequested
    · dsimp only at heq
      rw [heq] at hfailed
      cases hfailed
      exact hcode' hcode
    · dsimp only at heq
      rw [heq, hrequests] at hrequested
      exact absurd hrequested (Nat.ne_of_lt (Nat.lt_succ_self _))

end Handler

/-- **A call that has been here is refused, unless it lists `via`.** Whatever else its metadata are
    and wherever it is to go: a call with the entry of this proxy among its `via` values fails as a
    loop and leaves everything as it is, if and only if none of its `connection` values lists `via`.
    One that does list it is handled as if it had no `via` value. -/
theorem returning_call_refused_iff (h : Handler) (id : ProxyId) (hid : h.proxyId = id.digits)
    (plan : CallRelay.Plan) (call : Call) (s : Surroundings) (destination : Text)
    (hdestination : call.info.destination h.destination = .ok destination)
    (hback : ∃ value ∈ call.info.metadata.texts viaName,
      "HTTP/2.0 ".toList ++ h.proxyId ∈ listItems value) :
    (h.handle plan call s = (.error (.internal
        ("proxy loop detected, request already handled by ".toList ++ h.proxyId)), s) ↔
      ¬ call.info.metadata.Lists viaName) ∧
    (call.info.metadata.Lists viaName →
      h.handle plan call s = h.handle plan (call.without viaName) s) := by
  rw [hid] at hback ⊢
  have hentry : id.entry ∈ call.info.metadata.viaEntries := Headers.mem_viaEntries_iff.2 hback
  refine ⟨⟨fun hrefused hlisted => ?_, fun hunlisted => ?_⟩,
    fun hlisted => (Handler.handle_without hlisted).symm⟩
  · cases hd : h.depart call.info with
    | ok d => exact Handler.handle_ne_of_depart hd rfl hrefused
    | error status =>
        rw [Handler.handle_of_depart_error hd] at hrefused
        rw [Except.error.inj (Prod.mk.inj hrefused).1] at hd
        exact Handler.depart_ne_loopDetected hid hdestination hlisted hd
  · exact Handler.handle_of_depart_error
      (Handler.depart_of_returning hid hdestination hentry hunlisted)

/-- A call that has been here, with the names that its `connection` field lists. -/
def returningCall (listed : String) : Call :=
  { info :=
    { method := "/a.B/C".toList
      authority := some "svc:1".toList
      metadata := ⟨[(connectionName, ascii listed),
        (viaName, ascii "1.1 a, HTTP/2.0 0123456789abcdef")]⟩ } }

/-- Destinations that can be dialed and answer with a message. -/
def answeringAll : Surroundings :=
  { destinations :=
    { dialResult := fun _ => .ok ()
      reaction := fun _ => { reply := fun _ => .answered {} [ascii "p"] (.finished {}) } } }

def firstHandler : Handler := { proxyId := firstProxy.digits }

theorem returning_call_refused_iff_unlisted :
    firstHandler.handle {} (returningCall "close") answeringAll = (.error (.internal
      ("proxy loop detected, request already handled by ".toList ++ firstHandler.proxyId)),
      answeringAll) ∧
    firstHandler.handle {} (returningCall "close, Via") answeringAll =
      firstHandler.handle {} ((returningCall "close, Via").without viaName) answeringAll := by
  have hunlisted : ¬ (returningCall "close").info.metadata.Lists viaName :=
    mt Headers.mem_connectionNames_iff.2 (by decide)
  have hlisted : (returningCall "close, Via").info.metadata.Lists viaName :=
    Headers.mem_connectionNames_iff.1 (by decide)
  have hback : ∀ listed, ∃ value ∈ (returningCall listed).info.metadata.texts viaName,
      "HTTP/2.0 ".toList ++ firstHandler.proxyId ∈ listItems value :=
    fun listed => ⟨_, List.mem_singleton_self _, by decide⟩
  have hclose := returning_call_refused_iff firstHandler firstProxy rfl {} (returningCall "close")
    answeringAll "svc:1".toList rfl (hback "close")
  have hvia := returning_call_refused_iff firstHandler firstProxy rfl {}
    (returningCall "close, Via") answeringAll "svc:1".toList rfl (hback "close, Via")
  exact ⟨hclose.1.2 hunlisted, hvia.2 hlisted⟩

/-- A call that has been here is sent on because it lists `via`. -/
theorem returning_call_is_sent_on :
    (∃ value ∈ (returningCall "via").info.metadata.texts viaName,
      "HTTP/2.0 ".toList ++ firstHandler.proxyId ∈ listItems value) ∧
    (returningCall "via").info.destination firstHandler.destination = .ok "svc:1".toList ∧
    ∃ answer s, firstHandler.handle {} (returningCall "via") answeringAll = (.ok answer, s) ∧
      s.destinations.dialed = ["svc:1".toList] ∧ s.destinations.requests.length = 1 := by
  refine ⟨⟨_, List.mem_singleton_self _, by decide⟩, rfl, _, _, rfl, rfl, rfl⟩

end InterceptingProxy
