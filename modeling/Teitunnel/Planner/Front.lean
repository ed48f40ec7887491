import Teitunnel.Planner.Builder

/-!
# Planning Workers in front of a route

The offline page, webhook inboxes and the account's D1 database.  Order: database, Worker,
route, so a route never points at a Worker that isn't there; removing runs the other way.  A
pattern someone else's Worker already has is never taken over.
-/

namespace Teitunnel

open Text Except

/-- The step creates the account's database. -/
def Step.createsDatabase : Step → Bool
  | createDatabase _ => true
  | _ => false

/-- The account's database, creating it first when there is none. -/
def Builder.database (s : Snapshot) (b : Builder) : DatabaseRef × Builder :=
  match s.database.bind DatabaseState.id with
  | some id => (.existing id, b)
  | none =>
      (.created,
        if b.steps.any Step.createsDatabase then b else b.push (.createDatabase DATABASE_NAME))

/-- The zone of a hostname that is proxied through Cloudflare (a route's DNS record). -/
def routed (s : Snapshot) (hostname : Hostname) : Except PlanError String := do
  let zoneId ← s.zoneId hostname
  let proxied := (s.recordsNamed hostname.asStr).any fun r =>
    r.record.proxied && isAddressKind r.record.kind
  refuseIf (proxied = false) (.frontNeedsRoute hostname.asStr)
  return zoneId

/-- Makes the Worker of `config`'s kind serve `hostname` with `config`. -/
def putFront [External] (s : Snapshot) (b : Builder) (hostname : Hostname) (config : FrontConfig)
    (database : Option DatabaseRef) (secret : Option String) : Except PlanError Builder := do
  let zoneId ← routed s hostname
  let name := hostname.asStr
  match s.frontOf name with
  | none => throw (.noZone name)
  | some state =>
      let pattern := patternFor name config
      let existing := state.find config.kind config.path
      let script := match existing with
        | some f => f.script
        | none => scriptFor config.kind name config.path
      let hasRoute := existing.any fun f => f.route.isSome
      refuseSome ((state.foreignOn pattern).filter fun _ => !hasRoute) fun foreign =>
        .workerRouteTaken pattern (foreign.script.getD "")
      let unchanged := existing.any (fun f => f.exists_ && f.config == config) && secret.isNone
      let b := if unchanged then b
        else b.push (.putFrontWorker name zoneId script config
          ((existing.filter ObservedFront.exists_).map ObservedFront.config) database secret)
      return if hasRoute then b
        else (b.warn (.workerRequests pattern)).push
          (.createWorkerRoute name zoneId pattern script config.kind config.path)

/-- The steps removing one front Worker (route first). -/
def removeFrontSteps (s : Snapshot) (hostname : String) (state : FrontState) (kind : FrontKind)
    (path : String) (front : ObservedFront) : List Step :=
  (front.route.map fun route =>
    Step.deleteWorkerRoute hostname state.zoneId route kind path).toList ++
  -- a Worker already gone is only forgotten (the step tolerates a missing one)
  [.deleteFrontWorker hostname state.zoneId front.script front.config
    (s.database.bind DatabaseState.id)]

/-- Removes the Worker of `kind` at `path`; `none` when there is none. -/
def removeFront (s : Snapshot) (b : Builder) (hostname : String) (kind : FrontKind)
    (path : String) : Option Builder := do
  let state ← s.frontOf hostname
  let front ← state.find kind path
  return b.extend (removeFrontSteps s hostname state kind path front)

/-- Turns the offline page on (or changes it), or off. -/
def offline [External] (s : Snapshot) (b : Builder) (hostname : Hostname) :
    Option OfflinePage → Except PlanError Builder
  | some page => do
      let page ← page.normalized.mapError .front
      putFront s b hostname (.offline page) none none
  | none =>
      match removeFront s b hostname.asStr .offline "" with
      | some b => .ok b
      | none => .error (.noFront hostname.asStr)

/-- An inbox at `path` already verifies senders, so it has a signing secret. -/
def hasSecret (s : Snapshot) (hostname : Hostname) (path : String) : Bool :=
  ((s.frontOf hostname.asStr).bind fun state => state.find .inbox path).any fun f =>
    f.exists_ && f.config.verifies

/-- Turns a webhook inbox on (or changes it), or off. -/
def inbox [External] (s : Snapshot) (b : Builder) (hostname : Hostname) (path : String)
    (settings : Option InboxSettings) (secret : Option String) : Except PlanError Builder := do
  let path ← (cleanInboxPath path).mapError .front
  match settings with
  | some settings =>
      let settings ← settings.normalized.mapError .front
      refuseIf (settings.verify.isSome && secret.isNone && !hasSecret s hostname path)
        .inboxNeedsSecret
      -- resolve the zone before the database, so an unknown hostname fails first
      let _ ← routed s hostname
      let (database, b) := b.database s
      putFront s b hostname (.inbox path settings) (some database) secret
  | none =>
      match removeFront s b hostname.asStr .inbox path with
      | some b => return b
      | none => throw (.noFront (hostname.asStr ++ path))

/-- Removes every front Worker of a hostname. -/
def removeAllFronts (s : Snapshot) (b : Builder) (hostname : String) : Builder :=
  match s.frontOf hostname with
  | none => b
  | some state => state.fronts.foldl (fun b front =>
      (removeFront s b hostname front.config.kind front.config.path).getD b) b

end Teitunnel
