import Courier.Program

/-!
Looking up notifications for those who ask how far they are.
-/

namespace Courier.Query

def one (id : Uuid) : Job (Option Notification) := Job.store (.call (.findById id))

/-- Those of some notifications that there are, in the order asked for. The store is not asked for
none. -/
def many (ids : List Uuid) : Job (List Notification) :=
  if ids.isEmpty then return [] else Job.store (.call (.findByIds ids))

end Courier.Query
