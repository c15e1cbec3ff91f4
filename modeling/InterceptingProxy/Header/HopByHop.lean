import InterceptingProxy.Header

set_option autoImplicit false

/-! # Hop-by-hop fields

Fields that concern one connection only and are not forwarded: a fixed list of names, and the
names that the `connection` field lists. -/

namespace InterceptingProxy

/-- Names of fields that concern one connection only. -/
def hopByHopNames : List Text :=
  ["connection", "keep-alive", "proxy-connection", "proxy-authenticate", "proxy-authorization",
    "te", "trailer", "transfer-encoding", "upgrade"].map String.toList

namespace Headers

/-- The names listed in the `connection` values that are text. -/
def connectionNames (h : Headers) : List Text :=
  (((h.texts "connection".toList).flatMap listItems).map Text.lower).filter (!·.isEmpty)

/-- Without the fields that concern one connection only. -/
def stripHopByHop (h : Headers) : Headers :=
  h.removeAll (h.connectionNames ++ hopByHopNames)

end Headers

end InterceptingProxy
