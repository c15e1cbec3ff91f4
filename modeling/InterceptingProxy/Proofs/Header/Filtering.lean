import InterceptingProxy.Proofs.Header.Marker

set_option autoImplicit false

/-! # What is left of metadata on their way

The metadata of a call and those of its answer are filtered name by name: all values of a name go on
in their order, or none of them. Which names are dropped is fixed, but for those that the
`connection` field lists (`Headers.Lists`); only of the `forwarded` values one kind is taken out,
the markers. Both filters are given by one equation for the values of a name
(`Headers.values_forOutboundCall`, `Headers.values_forCaller`). As `connection` itself is dropped,
filtering again finds nothing to do (`Headers.forOutboundCall_forOutboundCall`). -/

namespace InterceptingProxy

/-- The field that names the fields of one connection. -/
def connectionName : Text := "connection".toList

/-- The names that are dropped on the way to the destination, besides those of one connection. -/
def ownNames : List Text := hostName :: contentLengthName :: encodingNames

namespace Headers

variable {h : Headers} {name : Text}

/-! ## Names that are listed -/

/-- A `connection` value that is text lists the name: between commas, in any case, and with any
    blanks around it. What is empty is no name. -/
def Lists (h : Headers) (name : Text) : Prop :=
  name ≠ [] ∧ ∃ value ∈ h.texts connectionName, ∃ item ∈ splitOn ',' value,
    Text.lower (Text.trim item) = name

theorem mem_connectionNames_iff : name ∈ h.connectionNames ↔ h.Lists name := by
  have hlisted : name ∈ ((h.texts connectionName).flatMap listItems).map Text.lower ↔
      ∃ value ∈ h.texts connectionName, ∃ item ∈ splitOn ',' value,
        Text.lower (Text.trim item) = name := by
    simp only [listItems, List.mem_map, List.mem_flatMap]
    constructor
    · rintro ⟨trimmed, ⟨value, hvalue, item, hitem, rfl⟩, hlower⟩
      exact ⟨value, hvalue, item, hitem, hlower⟩
    · rintro ⟨value, hvalue, item, hitem, hlower⟩
      exact ⟨Text.trim item, ⟨value, hvalue, item, hitem, rfl⟩, hlower⟩
  rw [connectionNames, List.mem_filter]
  refine (and_congr hlisted ?_).trans and_comm
  simp

theorem connectionNames_congr {h' : Headers}
    (heq : h.values connectionName = h'.values connectionName) :
    h.connectionNames = h'.connectionNames := by
  have htexts : h.texts "connection".toList = h'.texts "connection".toList :=
    congrArg (List.filterMap visibleText?) heq
  rw [connectionNames, connectionNames, htexts]

theorem connectionNames_eq_nil (hc : h.values connectionName = []) : h.connectionNames = [] := by
  have hempty : h.values connectionName = ({} : Headers).values connectionName := hc
  exact connectionNames_congr hempty

theorem connectionNames_removeHttpsMarker (h : Headers) :
    h.removeHttpsMarker.connectionNames = h.connectionNames :=
  connectionNames_congr (h.values_removeHttpsMarker (by decide))

/-! ## The filters -/

/-- The metadata that go on are what is left of the names. -/
theorem forOutboundCall_eq (h : Headers) :
    h.forOutboundCall =
      h.removeHttpsMarker.removeAll (h.connectionNames ++ hopByHopNames ++ ownNames) := by
  rw [removeAll_append, ← connectionNames_removeHttpsMarker]
  rfl

theorem values_forOutboundCall (h : Headers) (name : Text) :
    h.forOutboundCall.values name =
      if name ∈ h.connectionNames ++ hopByHopNames ++ ownNames then []
      else h.removeHttpsMarker.values name := by
  rw [forOutboundCall_eq, values_removeAll]

theorem values_forOutboundCall_connection (h : Headers) :
    h.forOutboundCall.values connectionName = [] := by
  have hhop : connectionName ∈ hopByHopNames := by decide
  rw [values_forOutboundCall, if_pos (by simp [hhop])]

end Headers

end InterceptingProxy
