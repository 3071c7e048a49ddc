import Courier.Publication

/-!
Giving dead-lettered notifications another chance, by publishing them to be sent once more.
-/

namespace Courier.Reprocessing

/-- Publishes notifications to be sent, until one fails. Returns their identifiers. -/
def republish : List Notification → Job (List Uuid)
  | [] => return []
  | n :: rest => do
    publishNotification Topic.send.name n
    return n.id :: (← republish rest)

/-- Publishes at most `limit` dead-lettered notifications, those unchanged for longest first. -/
def execute (limit : Nat) : Job (List Uuid) := do
  republish (← Job.store (.call (.findByStatus .deadLettered limit)))

end Courier.Reprocessing
