import Teitunnel.Lib.Text

/-!
# Inspecting a route

A temporary change that points a route's service at a tap of the inspector.  The service it had
is remembered in a row, written before the change and removed when the route points back.
-/

namespace Teitunnel.Inspect

open Text

/-- An account, a hostname and a path. -/
abbrev RouteKey := String × String × Option String

/-- A route pointed at an inspector, as remembered. -/
structure InspectedRoute where
  /-- The service it had before. -/
  originalOrigin : String
  /-- The inspector's address the route points at. -/
  lensUrl : String
  owner : String
  deriving DecidableEq

/-- A tap that runs. -/
structure Tap where
  owner : String
  scope : RouteKey
  url : String
  deriving DecidableEq

/-- What became of a change in Cloudflare. -/
inductive Outcome where
  | applied
  | rolledBack
  | partiallyApplied
  /-- Refused: something changed since the review. -/
  | stale
  | failed
  deriving DecidableEq, Repr

/-- Why a route can't be inspected, or isn't any more. -/
inductive InspectError where
  | notRoute
  | alreadyInspected
  | notWeb
  | notInspected
  deriving DecidableEq, Repr

/-- A process between remembering a route and changing it. -/
structure Applying where
  owner : String
  route : RouteKey
  url : String
  deriving DecidableEq

/-- One machine: the tunnel's ingress, the remembered routes and the processes' taps. -/
structure Machine where
  /-- What people configured. -/
  configured : List (RouteKey × String)
  ingress : RouteKey → Option String
  rows : RouteKey → Option InspectedRoute
  taps : List Tap
  /-- Every address a tap ever had. -/
  urls : List String
  applying : List Applying

namespace Machine

def tapFor (m : Machine) (owner : String) (scope : RouteKey) : Option Tap :=
  m.taps.find? fun tap => tap.owner = owner ∧ tap.scope = scope

/-- Stops the process's tap of a route, if it runs one. -/
def stopTap (m : Machine) (owner : String) (scope : RouteKey) : Machine :=
  { m with taps := m.taps.filter fun tap => ¬ (tap.owner = owner ∧ tap.scope = scope) }

def record (m : Machine) (route : RouteKey) (row : InspectedRoute) : Machine :=
  { m with rows := Function.update m.rows route (some row) }

def forget (m : Machine) (route : RouteKey) : Machine :=
  { m with rows := Function.update m.rows route none }

/-- A running tap for the route, one at `url` if there is none, and the route's origin. -/
def prepareOn (m : Machine) (owner : String) (route : RouteKey) (url : String) :
    Except InspectError (Machine × String × String) :=
  match m.ingress route with
  | none => .error .notRoute
  | some origin =>
      let inspected := (m.rows route).any fun existing => existing.lensUrl = origin
      if inspected ∧ (m.tapFor owner route).isSome then .error .alreadyInspected
      else if ¬ (StartsWith "http://" origin ∨ StartsWith "https://" origin) then .error .notWeb
      else
        match m.tapFor owner route with
        | some tap => .ok (m, origin, tap.url)
        | none =>
            .ok ({ m with taps := m.taps ++ [⟨owner, route, url⟩], urls := m.urls ++ [url] },
              origin, url)

/-- Starts pointing a route at the inspector: it is remembered first. -/
def applyOn (m : Machine) (owner : String) (route : RouteKey) (url : String) :
    Except InspectError Machine := do
  let (m, origin, url) ← m.prepareOn owner route url
  let m := m.record route ⟨origin, url, owner⟩
  return { m with applying := m.applying ++ [⟨owner, route, url⟩] }

/-- The change of a route's origin, as far as it got. -/
def change (m : Machine) (route : RouteKey) (origin : String) (changed : Bool) : Machine :=
  if changed then { m with ingress := Function.update m.ingress route (some origin) } else m

section change

variable (m : Machine) (route : RouteKey) (origin : String) (changed : Bool)

@[simp] lemma change_configured : (m.change route origin changed).configured = m.configured := by
  cases changed <;> rfl

@[simp] lemma change_rows : (m.change route origin changed).rows = m.rows := by
  cases changed <;> rfl

@[simp] lemma change_taps : (m.change route origin changed).taps = m.taps := by
  cases changed <;> rfl

@[simp] lemma change_urls : (m.change route origin changed).urls = m.urls := by
  cases changed <;> rfl

@[simp] lemma change_applying : (m.change route origin changed).applying = m.applying := by
  cases changed <;> rfl

lemma change_ingress_self : (m.change route origin changed).ingress route =
    if changed then some origin else m.ingress route := by
  cases changed <;> simp [change]

lemma change_ingress_of_ne {other : RouteKey} (h : other ≠ route) :
    (m.change route origin changed).ingress other = m.ingress other := by
  cases changed <;> simp [change, h]

end change

/-- The change of an inspection that starts: unless it was applied, the route is forgotten. -/
def finishOn (m : Machine) (pending : Applying) (outcome : Outcome) (changed : Bool) : Machine :=
  let m := { m with applying := m.applying.erase pending }
  if outcome = .applied then m.change pending.route pending.url true
  else ((m.change pending.route pending.url changed).forget pending.route).stopTap
    pending.owner pending.route

/-- The row of a route that still points at its tap.  Otherwise it is forgotten. -/
def planOff (m : Machine) (route : RouteKey) :
    Except InspectError (Machine × Option InspectedRoute) :=
  match m.rows route with
  | none => .error .notInspected
  | some row =>
      if m.ingress route = some row.lensUrl then .ok (m, some row)
      else .ok (m.forget route, none)

/-- Points a route back at the service of its row; the row goes once that is applied. -/
def restore (m : Machine) (route : RouteKey) (row : InspectedRoute) (outcome : Outcome)
    (changed : Bool) : Machine :=
  if outcome = .applied then (m.change route row.originalOrigin true).forget route
  else m.change route row.originalOrigin changed

/-- Points a route back, as reviewed, and stops its tap. -/
def applyOff (m : Machine) (owner : String) (route : RouteKey) (outcome : Outcome)
    (changed : Bool) : Except InspectError Machine := do
  match ← m.planOff route with
  | (m, none) => return m.stopTap owner route
  | (m, some row) =>
      let m := m.restore route row outcome changed
      return if outcome = .applied then m.stopTap owner route else m

/-- Points a route back without review: quitting, or sweeping after a crash. -/
def revert (m : Machine) (owner : String) (route : RouteKey) (outcome : Outcome)
    (changed : Bool) : Machine :=
  let reverted := match m.planOff route with
    | .error _ => m
    | .ok (m, none) => m
    | .ok (m, some row) => m.restore route row outcome changed
  reverted.stopTap owner route

/-- A process ends without more: its taps are gone, and its changes are made or not. -/
def crash (m : Machine) (owner : String) (changed : RouteKey → Bool) : Machine :=
  let lost := m.applying.filter fun pending => pending.owner = owner
  let m := lost.foldl (fun m pending => m.change pending.route pending.url (changed pending.route)) m
  { m with
    taps := m.taps.filter fun tap => tap.owner ≠ owner
    applying := m.applying.filter fun pending => pending.owner ≠ owner }

/-- The steps of the processes. -/
inductive Action where
  /-- A process remembers a route; a tap it starts for it listens at `url`. -/
  | applyOn (owner : String) (route : RouteKey) (url : String)
  /-- Its change of the route ends. -/
  | finishOn (pending : Applying) (outcome : Outcome) (changed : Bool)
  | applyOff (owner : String) (route : RouteKey) (outcome : Outcome) (changed : Bool)
  | revert (owner : String) (route : RouteKey) (outcome : Outcome) (changed : Bool)
  | crash (owner : String) (changed : RouteKey → Bool)

def step (m : Machine) : Action → Option Machine
  | .applyOn owner route url =>
      -- no tap listens where a service that people configured does
      if ∀ entry ∈ m.configured, entry.2 ≠ url then (m.applyOn owner route url).toOption else none
  | .finishOn pending outcome changed =>
      if pending ∈ m.applying then some (m.finishOn pending outcome changed) else none
  | .applyOff owner route outcome changed => (m.applyOff owner route outcome changed).toOption
  | .revert owner route outcome changed => some (m.revert owner route outcome changed)
  | .crash owner changed => some (m.crash owner changed)

/-- A machine on which nothing was inspected. -/
def start (configured : List (RouteKey × String)) : Machine where
  configured
  ingress route := (configured.find? fun entry => entry.1 = route).map Prod.snd
  rows _ := none
  taps := []
  urls := []
  applying := []

end Machine

end Teitunnel.Inspect
