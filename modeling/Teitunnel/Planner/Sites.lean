import Teitunnel.Planner.Front
import Teitunnel.Planner.Reservations

/-!
# Planning Snapshots of a site

Order: files, Worker or version, login, address, so a Snapshot is never reachable before its
login is in place; deleting runs the other way and removes the Worker last.
-/

namespace Teitunnel

open Text Except

/-- The Worker of a Snapshot as observed. -/
def siteState (s : Snapshot) (site : SiteSpec) : Except PlanError SiteState :=
  match s.site.filter fun state => state.script == site.script with
  | some state => .ok state
  | none => .error (.noSuchSnapshot site.name)

/-- The address's `workers.dev` hostname. -/
def workersDevAddress (script subdomain : String) : String :=
  script ++ "." ++ subdomain ++ ".workers.dev"

/-- Whether a record is a reservation's placeholder. -/
def ObservedRecord.isPlaceholder (r : ObservedRecord) : Bool :=
  r.ownership.any fun o => o.marker == .lease

/-- Deletes a foreign record, with a confirmation. -/
def deleteForeign (b : Builder) (record : ObservedRecord) : Builder :=
  (b.confirm.warn
    (.deletesForeignRecord record.record.name record.record.kind record.record.content)).push
    (.deleteRecord record.zoneId record.record)

/-- Attaches a custom hostname, once nothing else answers on it. -/
def attachDomain (s : Snapshot) (b : Builder) (site : SiteSpec) (state : SiteState)
    (name zoneId : String) : Except PlanError Builder := do
  let routed := (s.routes.any fun r => r.hostname == some name) ||
    s.elsewhere.any fun r => decide (SameText r.hostname name)
  refuseIf routed (.hostnameRouted name)
  refuseSome state.hostnameTakenBy (.hostnameServed name)
  let (placeholders, existing) := (s.addressRecords name).partition ObservedRecord.isPlaceholder
  -- a reservation's placeholder makes way for the Snapshot
  let b := if placeholders = [] then b else b.takeOver s name
  let b := b.deleteAll placeholders
  refuseIf (existing.any ObservedRecord.owned) (.hostnameRouted name)
  return (existing.foldl deleteForeign b).push (.attachSnapshotDomain zoneId name site.script)

/-- Makes the Snapshot answer on a custom hostname. -/
def serveDomain (s : Snapshot) (b : Builder) (site : SiteSpec) (state : SiteState)
    (hostname : Hostname) : Except PlanError Builder := do
  let zoneId ← s.zoneId hostname
  let name := hostname.asStr
  if state.domains.any fun d => decide (SameText d.hostname name) then return b
  else attachDomain s b site state name zoneId

/-- Makes the Snapshot answer where `site.address` says, if it doesn't already. -/
def serveSite (s : Snapshot) (b : Builder) (site : SiteSpec) (state : SiteState) :
    Except PlanError Builder :=
  match site.address with
  | .domain hostname => serveDomain s b site state hostname
  | .workersDev =>
      match state.subdomain with
      | none => .error .noWorkersSubdomain
      | some subdomain =>
          .ok (if state.workersDev then b
            else b.push (.enableWorkersDev site.script (workersDevAddress site.script subdomain)))

/-- A login on a custom hostname. -/
def protectSite (s : Snapshot) (b : Builder) (site : SiteSpec) : Except PlanError Builder :=
  match site.access, site.address.hostname with
  | none, _ => .ok b
  | some rule, some hostname => b.protect s hostname.asStr rule
  | some _, none => .error .snapshotLoginNeedsDomain

/-- The settings with the comments' database resolved. -/
def withDatabase (s : Snapshot) (b : Builder) (settings : SiteSettings) :
    SiteSettings × Builder :=
  match settings.comments with
  | none => (settings, b)
  | some comments =>
      let (database, b) := b.database s
      ({ settings with comments := some { comments with database } }, b)

/-- Publishes a new Snapshot. -/
def publishSite (s : Snapshot) (b : Builder) (site : SiteSpec) (settings : SiteSettings)
    (content : SiteContent) : Except PlanError Builder := do
  let state ← siteState s site
  refuseIf state.exists_ (.snapshotExists site.name)
  let _ ← match site.address with
    | .domain hostname => (s.zoneId hostname).map some
    | .workersDev => .ok none
  refuseIf (site.access.isSome && site.address.hostname.isNone) .snapshotLoginNeedsDomain
  refuseIf (site.address = .workersDev ∧ state.subdomain.isNone) .noWorkersSubdomain
  let (settings, b) := withDatabase s b settings
  let b := b.push (.uploadSnapshotFiles site.script content content.files.length content.bytes)
  let b := b.push (.createSnapshotWorker site.id site.script settings)
  let b ← protectSite s b site
  serveSite s b site state

/-- Publishes a new version and brings the login and address in line. -/
def updateSite (s : Snapshot) (b : Builder) (site : SiteSpec) (settings : SiteSettings)
    (content : SiteContent) (previous : List SiteFile) : Except PlanError Builder := do
  let state ← siteState s site
  refuseIf (state.exists_ = false) (.noSuchSnapshot site.name)
  let b ← protectSite s b site
  let (settings, b) := withDatabase s b settings
  let (changedFiles, changedBytes) := content.changesFrom previous
  let b := b.push (.uploadSnapshotFiles site.script content changedFiles changedBytes)
  let b := b.push (.publishSnapshotVersion site.id site.script settings state.activeVersion)
  let b ← serveSite s b site state
  return match site.access, site.address.hostname with
    | none, some hostname => b.unprotect s hostname.asStr
    | _, _ => b

/-- Makes an earlier version live again (nothing to do if it already is). -/
def rollbackSite (s : Snapshot) (b : Builder) (site : SiteSpec) (versionId : String)
    (number : ℕ) : Except PlanError Builder := do
  let state ← siteState s site
  refuseIf (state.exists_ = false) (.noSuchSnapshot site.name)
  return if state.activeVersion = some versionId then b
    else b.push (.rollBackSnapshot site.id site.script versionId number state.activeVersion)

/-- Removes the address, then the login, then the Worker. -/
def deleteSite (s : Snapshot) (b : Builder) (site : SiteSpec) : Builder :=
  match s.site.filter fun state => state.script == site.script with
  | none => b
  | some state =>
      let b := if state.workersDev then
          b.push (.disableWorkersDev site.script
            (workersDevAddress site.script (state.subdomain.getD "")))
        else b
      let b := b.extend (state.domains.map .detachSnapshotDomain)
      let b := match site.address.hostname with
        | some hostname => b.unprotect s hostname.asStr
        | none => b
      if state.exists_ then b.push (.deleteSnapshotWorker site.id site.script) else b

end Teitunnel
