import InterceptingProxy.Proofs.Intake.Nesting
import InterceptingProxy.Proofs.Routing.Departures

set_option autoImplicit false

/-! # Which calls arrive at the handler

Whatever the form of a request, the calls that it leads to have its `forwarded` values, as long as
no interceptor puts other metadata in their place (`Router.serveCall_runsOnly`). That is said by
what the handling of other calls can change, which is nothing (`RunsOnly`): so it covers handlers
that are run several times, or not at all.

The security of the channel that the handler asks for, and with it the port of an authority that
names none, is read off these values (`Handler.asksFor`). -/

namespace InterceptingProxy

/-- The translation from gRPC-Web leaves the `forwarded` values as they are. -/
theorem Grpc.Web.values_nativeRequest (r : Request) :
    (nativeRequest r).headers.values forwardedName = r.headers.values forwardedName := by
  unfold nativeRequest
  rw [Headers.values_insert_of_ne _ _ (by decide), Headers.values_insert_of_ne _ _ (by decide),
    Headers.values_insert_of_ne _ _ (by decide), Headers.values_remove_of_ne _ (by decide)]

/-! ## Calls that matter -/

section Reach

variable {σ α : Type}

/-- Only calls with `P` matter to `f`: rests that run those alike make no difference. -/
def RunsOnly (P : Call → Prop) (f : Rest σ → StateM σ α) : Prop :=
  ∀ rest rest' : Rest σ, (∀ call, P call → rest call = rest' call) → f rest = f rest'

theorem RunsOnly.mono {P Q : Call → Prop} {f : Rest σ → StateM σ α} (h : RunsOnly P f)
    (hle : ∀ call, P call → Q call) : RunsOnly Q f :=
  fun rest rest' heq => h rest rest' fun call hcall => heq call (hle call hcall)

/-- The interceptor runs the rest with the metadata that it was given, if at all. -/
def Interceptor.KeepsMetadata (i : Interceptor σ) : Prop :=
  ∀ call, RunsOnly (fun c => c.info.metadata = call.info.metadata) (i call)

theorem Interceptor.keepsMetadata_retry : (retry : Interceptor σ).KeepsMetadata := by
  intro call rest rest' heq
  simp only [retry, heq call rfl, heq { call with inbound := [] } rfl]

theorem runChain_runsOnly {interceptors : List (Interceptor σ)}
    (hkeep : ∀ i ∈ interceptors, i.KeepsMetadata) (call : Call) :
    RunsOnly (fun c => c.info.metadata = call.info.metadata)
      fun handle => runChain handle interceptors call := by
  induction interceptors generalizing call with
  | nil => exact fun _ _ heq => heq call rfl
  | cons i rest ih =>
      intro handle handle' heq
      have hi : i call (runChain handle rest) = i call (runChain handle' rest) := by
        refine hkeep i List.mem_cons_self call _ _ fun c hc => ?_
        exact ih (fun j hj => hkeep j (List.mem_cons_of_mem i hj)) c handle handle' fun c' hc' =>
          heq c' (hc'.trans hc)
      simp only [runChain, hi]

end Reach

theorem Grpc.serve_runsOnly {interceptors : List (Interceptor Surroundings)}
    (hkeep : ∀ i ∈ interceptors, i.KeepsMetadata) (origin : Origin) (r : Request)
    (body : RequestBody) :
    RunsOnly (fun c => c.info.metadata = r.headers)
      fun handle => serve (runChain handle interceptors) origin r body := by
  intro handle handle' heq
  unfold serve
  cases Encoding.ofHeaders r.headers with
  | error s => rfl
  | ok e => simp only [runChain_runsOnly hkeep (callOf origin e r body) handle handle' heq]

/-- **The calls of a request have its `forwarded` values.** -/
theorem Router.serveCall_runsOnly {router : Router}
    (hkeep : ∀ i ∈ router.interceptors, i.KeepsMetadata) (conn : RoutedConnection) (r : Request)
    (body : RequestBody) :
    RunsOnly (fun c => c.info.metadata.values forwardedName = r.headers.values forwardedName)
      fun handle => router.serveCall handle conn r body := by
  intro handle handle' heq
  have hnative : ∀ r' body',
      r'.headers.values forwardedName = r.headers.values forwardedName →
      Grpc.serve (runChain handle router.interceptors) (origin conn r) r' body' =
        Grpc.serve (runChain handle' router.interceptors) (origin conn r) r' body' :=
    fun r' body' hsame => (Grpc.serve_runsOnly hkeep (origin conn r) r' body').mono
      (fun call hcall => by rw [hcall, hsame]) handle handle' heq
  simp only [serveCall, Cors.around, Grpc.Web.around, hnative r _ rfl,
    hnative (Grpc.Web.nativeRequest r) _ (Grpc.Web.values_nativeRequest r)]

/-! ## Channels that are asked for -/

namespace Handler

variable {h : Handler} {info : CallInfo}

/-- An authority that is named is where the call goes. -/
theorem destination_of_authority {configured : Option Text} {authority : Text}
    (ha : info.authority = some authority) (hne : authority ≠ []) :
    info.destination configured =
      .ok (withDefaultPort authority info.metadata.isMarkedHttps) := by
  have hnamed : info.authority.filter (!·.isEmpty) = some authority := by
    simp [ha, hne]
  simp only [CallInfo.destination, hnamed]

/-- A call only asks for channels of the given security, and to the authority that it names, if it
    names one, with the port that goes with this security. -/
def AsksFor (h : Handler) (tls : Bool) (call : Call) : Prop :=
  ∀ plan ask ask',
    (∀ key : PoolKey, key.tls = tls →
      (∀ authority, call.info.authority = some authority → authority ≠ [] →
        key.destination = withDefaultPort authority tls) →
      ask key = ask' key) →
    h.handleBy ask plan call = h.handleBy ask' plan call

theorem asksFor (h : Handler) (call : Call) :
    h.AsksFor call.info.metadata.isMarkedHttps call := by
  intro plan ask ask' heq
  unfold handleBy
  cases hd : h.depart call.info with
  | error status => rfl
  | ok d =>
      obtain ⟨hdestination, htls, -, -⟩ := depart_eq_ok_iff.1 hd
      have hsame : ask d.key = ask' d.key := by
        refine heq d.key htls fun authority ha hne => ?_
        rw [destination_of_authority ha hne, Except.ok.injEq] at hdestination
        exact hdestination.symm
      simp only [hsame]

end Handler

end InterceptingProxy
