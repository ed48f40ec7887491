import Teitunnel.Tunnels

/-!
# Applying a project, and taking it down

A project's route changes are applied one by one, each planned again right before.  The routes
that were added are recorded at the end, and are the ones that taking the project down removes.
-/

namespace Teitunnel.Project

open Except Ledger

/-- A route that a project created. -/
structure CreatedRoute where
  accountId : String
  hostname : String
  path : Option String
  deriving DecidableEq

/-- A change of a route that a project asks for.  An edit is of the route with the input's own
hostname and path, up to letter case, which the parser levels. -/
inductive Change where
  | addRoute (route : RouteInput)
  | updateRoute (route : RouteInput)
  deriving DecidableEq

def Change.input : Change → RouteInput
  | addRoute route | updateRoute route => route

/-- Why a project can't be applied. -/
inductive ProjectError where
  /-- A route's plan is not the one that was shown. -/
  | changed
  | engine (error : EngineError)
  deriving DecidableEq

section changes

variable [External]

/-- The place of a route that was created. -/
def CreatedRoute.place (route : CreatedRoute) : Except EngineError Place := do
  let hostname ← parseHostname route.hostname
  let path ← parsePath route.path
  return (some hostname.asStr, path.map PathRule.asStr)

def Change.toIntent : Change → Except EngineError Intent
  | addRoute input => input.toSpec.map .addRoute
  | updateRoute input => input.toSpec.map fun route =>
      .updateRoute route.hostname route.path route

/-- Applies one reviewed route change: the tunnel's rules afterwards, and how it ended.  `shown`
says whether the plan's steps are those shown, with no confirmation that wasn't. -/
def applyRoute (change : Change) (shown confirmed : Bool) (seen : Option Snapshot)
    (ending : Ending) : Except ProjectError (Option (List IngressRule) × Ending) := do
  let intent ← change.toIntent.mapError .engine
  let p ← (Engine.preview intent seen).mapError .engine
  -- already done, e.g. by an earlier step of this apply
  if p.steps = [] then return (seen.bind Snapshot.ingress, .applied)
  else
    refuseIf (shown = false) .changed
    let after ← (Engine.apply intent ⟨p.fingerprint, confirmed⟩ ending seen).mapError .engine
    return (after, ending)

/-- Removes a route that was created, as previewed. -/
def removeRoute (route : CreatedRoute) (previewed seen : Option Snapshot) (ending : Ending) :
    Except EngineError (Option (List IngressRule) × Ending) := do
  let hostname ← parseHostname route.hostname
  let path ← parsePath route.path
  let intent := .removeRoute hostname path
  let p ← Engine.preview intent previewed
  if p.isEmpty then return (seen.bind Snapshot.ingress, .applied)
  else
    let after ← Engine.apply intent ⟨p.fingerprint, false⟩ ending seen
    return (after, ending)

end changes

/-- An apply or a take-down of a project in an account, as far as it got. -/
inductive Task where
  /-- The routes created so far, and whether the changes have come to their end. -/
  | applying (project account : String) (created : List CreatedRoute) (stopped : Bool)
  | removing (project account : String) (todo gone : List CreatedRoute)
  | done
  deriving DecidableEq

/-- Who changed a tunnel's rules. -/
inductive Maker where
  | project (path : String)
  | outside
  deriving DecidableEq

/-- The tunnels of each account, and what each project (by its path) is known to have created. -/
structure Projects extends Tunnels (String × String) Maker where
  created : String → List CreatedRoute
  tasks : List Task

namespace Projects

variable (m : Projects)

def goto (i : ℕ) (task : Task) : Projects := { m with tasks := m.tasks.set i task }

/-- A tunnel of an account has other rules now. -/
def change (account tunnel : String) (maker : Maker) (after : Option (List IngressRule)) :
    Projects :=
  { m with toTunnels := m.toTunnels.change (account, tunnel) maker after }

/-- The registry with the routes that an apply created. -/
def remember (known created : List CreatedRoute) : List CreatedRoute :=
  created.foldl (fun list route => if route ∈ list then list else list ++ [route]) known

/-- Records the routes an apply created. -/
def applied (project : String) (created : List CreatedRoute) : Projects :=
  { m with created := Function.update m.created project (remember (m.created project) created) }

/-- Forgets routes that were removed. -/
def removed (project : String) (gone : List CreatedRoute) : Projects :=
  { m with
    created := Function.update m.created project
      ((m.created project).filter fun route => route ∉ gone) }

/-- Where an apply goes on from a change. -/
def afterRoute (project account : String) (created : List CreatedRoute) (change : Change) :
    Ending → Task
  | .applied =>
      match change with
      | .addRoute input =>
          .applying project account (created ++ [⟨account, input.hostname, input.path⟩]) false
      | .updateRoute _ => .applying project account created false
  | .rolledBack | .partiallyApplied _ => .applying project account created true
  | .cut _ => .done

/-- Where a take-down goes on from a removal. -/
def afterRemoval (project account : String) (route : CreatedRoute)
    (todo gone : List CreatedRoute) : Ending → Task
  | .applied => .removing project account todo (gone ++ [route])
  | .rolledBack | .partiallyApplied _ => .removing project account todo gone
  | .cut _ => .done

/-- What happens next. -/
inductive Step where
  | apply (project account : String)
  | route (i : ℕ) (change : Change) (tunnel : String) (shown confirmed : Bool)
      (seen : Option Snapshot) (ending : Ending)
  | record (i : ℕ) (written : Bool)
  | down (project account : String)
  | remove (i : ℕ) (tunnel : String) (previewed seen : Option Snapshot) (ending : Ending)
  | forget (i : ℕ) (written : Bool)
  | crash (i : ℕ)
  /-- A route is added, changed or removed by hand. -/
  | outside (account tunnel : String) (intent : Intent) (approval : Approval)
      (seen : Option Snapshot) (ending : Ending)

variable [External]

/-- One step of an apply. -/
def applyNext (i : ℕ) (project account : String) (created : List CreatedRoute) (change : Change)
    (tunnel : String) (shown confirmed : Bool) (seen : Option Snapshot) (ending : Ending) :
    Projects :=
  match applyRoute change shown confirmed seen ending with
  | .error _ => m.goto i .done
  | .ok (after, ending) =>
      (m.change account tunnel (.project project) after).goto i
        (afterRoute project account created change ending)

/-- One step of a take-down. -/
def removeNext (i : ℕ) (project account : String) (route : CreatedRoute)
    (todo gone : List CreatedRoute) (tunnel : String) (previewed seen : Option Snapshot)
    (ending : Ending) : Projects :=
  match removeRoute route previewed seen ending with
  | .error _ => m.goto i (.removing project account todo gone)
  | .ok (after, ending) =>
      (m.change account tunnel (.project project) after).goto i
        (afterRemoval project account route todo gone ending)

end Projects

namespace Projects

/-- One step, if it can happen. -/
def step [External] (m : Projects) : Step → Option Projects
  | .apply project account =>
      some { m with tasks := m.tasks ++ [.applying project account [] false] }
  | .route i change tunnel shown confirmed seen ending =>
      match m.tasks[i]? with
      | some (.applying project account created false) =>
          if m.Sees (account, tunnel) seen then
            some (m.applyNext i project account created change tunnel shown confirmed seen ending)
          else none
      | _ => none
  | .record i written =>
      match m.tasks[i]? with
      | some (.applying project _ created _) =>
          some ((if written then m.applied project created else m).goto i .done)
      | _ => none
  | .down project account =>
      let created := (m.created project).filter fun route => route.accountId = account
      some { m with tasks := m.tasks ++ [.removing project account created []] }
  | .remove i tunnel previewed seen ending =>
      match m.tasks[i]? with
      | some (.removing project account (route :: todo) gone) =>
          if m.Sees (account, tunnel) seen then
            some (m.removeNext i project account route todo gone tunnel previewed seen ending)
          else none
      | _ => none
  | .forget i written =>
      match m.tasks[i]? with
      | some (.removing project _ [] gone) =>
          some ((if written then m.removed project gone else m).goto i .done)
      | _ => none
  | .crash i => some (m.goto i .done)
  | .outside account tunnel intent approval seen ending =>
      if intent.changesRoute ∧ m.Sees (account, tunnel) seen then
        match Engine.apply intent approval ending seen with
        | .ok after => some (m.change account tunnel .outside after)
        | .error _ => some m
      else none

end Projects

end Teitunnel.Project
