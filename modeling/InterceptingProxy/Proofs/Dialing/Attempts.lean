import InterceptingProxy.Call.Destinations

set_option autoImplicit false

/-! # Attempts to connect

Whatever comes of opening a connection, one more destination was dialed
(`Destinations.open?_cases`). A pool's attempt opens one only for a destination that can be dialed
at all (`PoolKey.Dialable`, `Destinations.connect_of_dialable`), and a channel is opened again only
if it has lost its connection (`Destinations.revive_dialed`). -/

namespace InterceptingProxy

/-- The destination forms a URI and, where TLS is asked for, the name of a server. -/
def PoolKey.Dialable (key : PoolKey) : Prop :=
  key.uri?.isSome = true ∧ (key.tls = true → key.serverName?.isSome = true)

namespace Destinations

/-- The next dial succeeds, and the handshake for `key` does where TLS is asked for. -/
def Admits (d : Destinations) (key : PoolKey) : Prop :=
  d.dialResult d.dialed.length = .ok () ∧
    (key.tls = true → d.secured = true ∧ key.serverName?.any d.trusted = true)

theorem open?_cases (d : Destinations) (channel : Channel) :
    (d.Admits channel.key ∧ d.open? channel =
      (.ok (), { d with
        dialed := d.dialed ++ [channel.key.destination], live := channel :: d.live })) ∨
    (¬ d.Admits channel.key ∧ ∃ e, d.open? channel =
      (.error e, { d with dialed := d.dialed ++ [channel.key.destination] })) := by
  unfold open? Admits
  dsimp only
  cases d.dialResult d.dialed.length with
  | error e => exact .inr ⟨by simp, e, rfl⟩
  | ok _ =>
      dsimp only
      split
      · next hfailed =>
          refine .inr ⟨fun hadmits => ?_, _, rfl⟩
          obtain ⟨htls, hnot⟩ := Bool.and_eq_true_iff.1 hfailed
          obtain ⟨hsecured, htrusted⟩ := hadmits.2 htls
          rw [hsecured, htrusted] at hnot
          cases hnot
      · next hpassed =>
          refine .inl ⟨⟨rfl, fun htls => ?_⟩, rfl⟩
          simpa [htls] using hpassed

/-- Opening a connection is noted, and changes nothing else about the destinations. -/
theorem open?_frame (d : Destinations) (channel : Channel) :
    ∃ dialed live, (d.open? channel).2 = { d with dialed, live } := by
  rcases d.open?_cases channel with ⟨-, hopen⟩ | ⟨-, e, hopen⟩ <;> rw [hopen]
  · exact ⟨_, _, rfl⟩
  · exact ⟨_, d.live, rfl⟩

/-! ## Attempts of a pool -/

/-- Why there is no channel for a key. -/
def failureOf (key : PoolKey) : PoolError :=
  if key.uri?.isNone then .invalidDestination key.destination "invalid URI".toList
  else .connect key.destination "transport error".toList

theorem connect_of_dialable (d : Destinations) (channel : Channel)
    (hkey : channel.key.Dialable) :
    (d.Admits channel.key ∧ connect channel d =
      (.ok (), { d with
        dialed := d.dialed ++ [channel.key.destination], live := channel :: d.live })) ∨
    (¬ d.Admits channel.key ∧ connect channel d =
      (.error (failureOf channel.key),
        { d with dialed := d.dialed ++ [channel.key.destination] })) := by
  obtain ⟨huri, hname⟩ := hkey
  obtain ⟨uri, huri⟩ := Option.isSome_iff_exists.1 huri
  have hnamed : (channel.key.tls && channel.key.serverName?.isNone) = false := by
    cases htls : channel.key.tls with
    | false => rfl
    | true => simpa using hname htls
  unfold connect failureOf
  simp only [huri, hnamed]
  rcases d.open?_cases channel with ⟨hadmits, hopen⟩ | ⟨hadmits, e, hopen⟩
  · exact .inl ⟨hadmits, by simp [hopen]⟩
  · exact .inr ⟨hadmits, by simp [hopen]⟩

/-- Nothing is dialed for what is no destination. -/
theorem connect_of_not_dialable (d : Destinations) (channel : Channel)
    (hkey : ¬ channel.key.Dialable) :
    connect channel d = (.error (failureOf channel.key), d) := by
  unfold connect failureOf
  cases huri : channel.key.uri? with
  | none => simp [huri]
  | some uri =>
      have hunnamed : channel.key.tls = true ∧ channel.key.serverName?.isNone = true := by
        simpa [PoolKey.Dialable, huri] using hkey
      simp [huri, hunnamed]

theorem connect_frame (channel : Channel) (d : Destinations) :
    ∃ dialed live, (connect channel d).2 = { d with dialed, live } := by
  by_cases hkey : channel.key.Dialable
  · rcases connect_of_dialable d channel hkey with ⟨-, hr⟩ | ⟨-, hr⟩ <;> rw [hr]
    · exact ⟨_, _, rfl⟩
    · exact ⟨_, d.live, rfl⟩
  · rw [connect_of_not_dialable d channel hkey]
    exact ⟨d.dialed, d.live, rfl⟩

/-! ## Connections that were lost -/

/-- A channel dials again if it has lost its connection. -/
theorem revive_dialed (d : Destinations) (channel : Channel) :
    (d.revive channel).2.dialed =
      d.dialed ++ if channel ∈ d.live then [] else [channel.key.destination] := by
  unfold revive
  simp only [List.contains_iff_mem]
  split
  · rw [List.append_nil]
  · rcases d.open?_cases channel with ⟨-, hopen⟩ | ⟨-, e, hopen⟩ <;> rw [hopen]

theorem revive_frame (d : Destinations) (channel : Channel) :
    ∃ dialed live, (d.revive channel).2 = { d with dialed, live } := by
  unfold revive
  split
  · exact ⟨d.dialed, d.live, rfl⟩
  · exact d.open?_frame channel

end Destinations

end InterceptingProxy
