import InterceptingProxy.Status

set_option autoImplicit false

/-! # Loop detection

Every proxy on the way of a call appends `HTTP/2.0 <id>` to the `via` field. A call whose `via`
already lists this proxy is going round in circles and is refused. -/

namespace InterceptingProxy

/-- Name of the field that lists the proxies on the way. -/
def viaName : Text := "via".toList

/-- The entry of a proxy in the `via` field. -/
def viaEntry (proxyId : Text) : Text := "HTTP/2.0 ".toList ++ proxyId

namespace Headers

/-- The entries of all `via` values that are text. -/
def viaEntries (h : Headers) : List Text := (h.texts viaName).flatMap listItems

/-- Adds this proxy to `via`, unless it is listed already or its entry is no header value. -/
def addLoopCheck (h : Headers) (proxyId : Text) : Except Status Headers :=
  let entry := viaEntry proxyId
  if h.viaEntries.contains entry then
    .error (.internal
      ("proxy loop detected, request already handled by ".toList ++ proxyId))
  else if entry.utf8.all isValueByte then .ok (h.append viaName entry.utf8)
  else .error (.internal "invalid proxy id".toList)

end Headers

end InterceptingProxy
