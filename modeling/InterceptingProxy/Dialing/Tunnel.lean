import InterceptingProxy.Dialing.HttpProxy
import InterceptingProxy.Http.Head
import InterceptingProxy.Connection
import InterceptingProxy.ProxyError

set_option autoImplicit false

/-! # Tunnels through an outbound proxy

`openTunnel` asks a proxy for a tunnel and reads until its response head is complete. What follows
the head already belongs to the tunnel, so it is put in front of the connection again. The outcome
hangs on the bytes of the response alone and not on how they arrive: the head may have
`maxResponseHead` bytes, and fewer bytes than that are never too many. -/

namespace InterceptingProxy

/-- Most bytes of the head that answers a `CONNECT`. -/
def maxResponseHead : Nat := 8192

/-- Bytes asked for in one read. -/
def readSize : Nat := 1024

/-- Reads until the response head is complete; the result is the head and the bytes after it.
    `reads` bounds the number of reads, each of which brings a byte at least. -/
def awaitHead (reads : Nat) (received : Bytes) (c : Connection) :
    Except IoError (Http.ResponseHead × Bytes × Connection) :=
  match reads with
  | 0 => .error (TunnelError.headersTooLarge maxResponseHead).toIoError
  | reads + 1 =>
    match c.read readSize with
    | (.error e, _) => .error e
    | (.ok [], _) => .error TunnelError.unexpectedEof.toIoError
    | (.ok bytes, c) =>
      let received := received ++ bytes
      match Http.ResponseHead.parse received with
      | .malformed f => .error (TunnelError.malformed f.message).toIoError
      | .complete head rest =>
        if received.length - rest.length > maxResponseHead then
          .error (TunnelError.headersTooLarge maxResponseHead).toIoError
        else .ok (head, rest, c)
      | .incomplete =>
        if received.length > maxResponseHead then
          .error (TunnelError.headersTooLarge maxResponseHead).toIoError
        else awaitHead reads received c

/-- Opens a tunnel to `target` over a connection to the proxy. -/
def openTunnel (proxy : HttpProxy) (target : Text) (c : Connection) :
    Except IoError Connection := do
  let c ← match c.writeAll (proxy.connectRequest target).utf8 with
    | (.error e, _) => throw e
    | (.ok (), c) => pure c
  let (head, rest, c) ← awaitHead (maxResponseHead + 1) [] c
  if 200 ≤ head.code ∧ head.code < 300 then return c.withPrefix rest
  else
    let status := Text.ofNat head.code ++ ' ' :: head.reason
    throw (TunnelError.refused proxy.address target status).toIoError

end InterceptingProxy
