import Teitunnel.Planner.Builder

/-!
# Planning reservations

Leases on hostnames, kept in DNS: a free name gets a placeholder record, a name this machine
routes carries the lease in its record's comment, someone else's name is taken over only with a
confirmation, and a record without a marker is never touched.
-/

namespace Teitunnel

open Except

/-- What the comment of a record says. -/
def ObservedRecord.ownership (r : ObservedRecord) : Option Ownership :=
  r.record.comment.bind Ownership.parse

/-- Deletes the records one by one. -/
def Builder.deleteAll (b : Builder) (records : List ObservedRecord) : Builder :=
  b.extend (records.map fun r => .deleteRecord r.zoneId r.record)

/-- A lease on the record can be changed in place: it is a route's, or a live placeholder. -/
def Ownership.renewable (o : Ownership) (now : ℕ) : Bool :=
  o.marker.isRoute || (o.marker == .lease && o.leasedAt now)

/-- Reserves `hostname` until `untilMs` (or without an end). -/
def reserve (s : Snapshot) (b : Builder) (hostname : Hostname) (untilMs : Option ℕ) :
    Except PlanError Builder := do
  let zoneId ← s.zoneId hostname
  let name := hostname.asStr
  let found := s.addressRecords name
  refuseIf (found.any fun r => r.ownership.isNone) (.hostnameInUse name)
  let create := Step.createReservation zoneId name untilMs
  if (s.holder name).isSome then
    return ((b.takeOver s name).deleteAll found).push create
  match found.filterMap fun r => r.ownership.map fun o => (r, o) with
  | [] => return b.push create
  | [(record, ownership)] =>
      -- this machine's route, or a lease of its own: only the comment changes
      if ownership.renewable s.now then
        if ownership.leasedAt s.now ∧ ownership.untilMs = untilMs then return b
        else return b.push (.setLease record.zoneId record.record true untilMs)
      else return (b.deleteAll found).push create
  -- ended leases and leftovers: free, replaced without asking
  | _ => return (b.deleteAll found).push create

/-- The step that gives up the lease a record carries. -/
def releaseStep (record : ObservedRecord) (ownership : Ownership) : Step :=
  if ownership.marker.isRoute then .setLease record.zoneId record.record false none
  else .deleteRecord record.zoneId record.record

/-- The records of `hostname` that carry a lease, with what their comments say. -/
def leasedRecords (s : Snapshot) (hostname : String) : List (ObservedRecord × Ownership) :=
  (s.addressRecords hostname).filterMap fun r =>
    (r.ownership.filter Ownership.lease).map fun o => (r, o)

/-- Gives up the reservation of `hostname`.  A route on it stays. -/
def release (s : Snapshot) (b : Builder) (hostname : Hostname) : Except PlanError Builder := do
  let _ ← s.zoneId hostname
  let name := hostname.asStr
  let leased := leasedRecords s name
  refuseIf (leased = []) (.notReserved name)
  return (b.takeOver s name).extend (leased.map fun (r, o) => releaseStep r o)

end Teitunnel
