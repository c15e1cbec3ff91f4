import InterceptingProxy.Header

set_option autoImplicit false

/-! # The HTTPS marker

A request that reached the proxy over TLS is tagged by a `forwarded` field with the value
`proto=https`. The marker can be looked for in two ways: a value that contains it
(`mentionsHttps`) or one that equals it (`isMarkedHttps`). Removal takes away the values equal to
the marker and leaves all others in place. -/

namespace InterceptingProxy

/-- Name of the field that carries the marker. -/
def forwardedName : Text := "forwarded".toList

/-- The value that marks a request as received over TLS. -/
def httpsMarker : Text := "proto=https".toList

/-- Whether a value is exactly the marker. -/
def isHttpsMarker (value : Bytes) : Bool := visibleText? value == some httpsMarker

namespace Headers

/-- Tags a request that arrived over TLS. -/
def addHttpsMarker (h : Headers) : Headers := h.append forwardedName (Bytes.ofLatin httpsMarker)

/-- Some `forwarded` value contains the marker. -/
def mentionsHttps (h : Headers) : Bool := (h.texts forwardedName).any (containsRun httpsMarker)

/-- Some `forwarded` value is the marker. -/
def isMarkedHttps (h : Headers) : Bool := (h.values forwardedName).any isHttpsMarker

/-- Without the `forwarded` values that are the marker. -/
def removeHttpsMarker (h : Headers) : Headers := h.removeValues forwardedName isHttpsMarker

end Headers

end InterceptingProxy
