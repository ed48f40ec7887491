import Teitunnel.Simulate
import Teitunnel.Lib.Ledger

/-!
# Applying a reviewed change

A change is previewed against what was read, possibly a few seconds ago, and applied against what
is read then, when that is still what was reviewed.  What the run of its plan leaves of the
tunnel's rules is decided by how it ends.
-/

namespace Teitunnel

open Except

/-- Why a change couldn't be previewed or started. -/
inductive EngineError where
  | plan (error : PlanError)
  /-- Reading the current state failed. -/
  | observe
  /-- Something changed since the plan was reviewed. -/
  | stale
  | needsConfirmation
  /-- The request itself is invalid. -/
  | input
  deriving DecidableEq

/-- The error says that there is no such route. -/
def PlanError.isGone : PlanError → Bool
  | .noSuchRoute _ | .noTunnel => true
  | _ => false

/-! ## Routes as typed -/

/-- A route as the user typed it; its origin and settings as they are read. -/
structure RouteInput where
  hostname : String
  path : Option String
  origin : RouteOrigin
  options : Settings
  access : Option AccessRule
  deriving DecidableEq

section input

variable [External]

def parseHostname (input : String) : Except EngineError Hostname :=
  (Hostname.parse input).mapError fun _ => .input

/-- A path; a blank one is none. -/
def parsePath (input : Option String) : Except EngineError (Option PathRule) :=
  match (input.map Text.trim).filter fun p => p ≠ "" with
  | none => .ok none
  | some pattern => ((PathRule.parse pattern).mapError fun _ => .input).map some

/-- Validates the input into a route. -/
def RouteInput.toSpec (input : RouteInput) : Except EngineError RouteSpec := do
  let hostname ← parseHostname input.hostname
  let path ← parsePath input.path
  refuseIf (input.access.isSome ∧ (accessDomain hostname path).toOption = none) .input
  return {
    id := routeId hostname path
    hostname
    path
    origin := input.origin
    options := input.options
    access := input.access }

end input

/-- Whether it adds, changes or removes a route. -/
def Intent.changesRoute : Intent → Bool
  | .addRoute _ | .updateRoute .. | .removeRoute .. => true
  | _ => false

/-! ## Previews and runs -/

/-- What was reviewed, and whether the user confirmed it. -/
structure Approval where
  fingerprint : String
  confirmed : Bool

/-- How the run of a plan ends. -/
inductive Ending where
  | applied
  | rolledBack
  /-- It failed and couldn't all be undone: the tunnel is as the first `ran` steps made it. -/
  | partiallyApplied (ran : ℕ)
  /-- The process ends after the first `ran` steps. -/
  | cut (ran : ℕ)
  deriving DecidableEq

namespace Engine

variable [External]

/-- The plan of a change, from what was read (if it could be). -/
def preview (intent : Intent) : Option Snapshot → Except EngineError Plan
  | none => .error .observe
  | some s => (plan intent s).mapError .plan

/-- The plan that is run: planned again, and still the one that was reviewed. -/
def replan (intent : Intent) (approval : Approval) (s : Snapshot) : Except EngineError Plan := do
  let p ← preview intent (some s)
  refuseIf (p.fingerprint ≠ approval.fingerprint) .stale
  refuseIf (p.requiresConfirmation ∧ approval.confirmed = false) .needsConfirmation
  return p

end Engine

/-- A hostname and a path. -/
abbrev Place := Option String × Option String

/-- The rules a tunnel has for a place. -/
def rulesAt (ingress : Option (List IngressRule)) (place : Place) : List IngressRule :=
  Ledger.itemsAt IngressRule.key (ingress.getD []) place

/-- The rules of the tunnel, if there is one. -/
def Snapshot.ingress (s : Snapshot) : Option (List IngressRule) :=
  s.tunnel.map ObservedTunnel.ingress

/-- The tunnel's rules after a run of a plan. -/
def Ending.ingress [External] (s : Snapshot) (p : Plan) : Ending → Option (List IngressRule)
  | .applied => (applySteps id s p.steps).ingress
  | .rolledBack => s.ingress
  | .partiallyApplied ran | .cut ran => (applySteps id s (p.steps.take ran)).ingress

/-- Applies a reviewed change to what is read: the tunnel's rules afterwards. -/
def Engine.apply [External] (intent : Intent) (approval : Approval) (ending : Ending) :
    Option Snapshot → Except EngineError (Option (List IngressRule))
  | none => .error .observe
  | some s => (replan intent approval s).map fun p => ending.ingress s p

section apply

variable [External] {intent : Intent} {approval : Approval} {ending : Ending}
  {seen : Option Snapshot} {after : Option (List IngressRule)} {p : Plan} {s : Snapshot}

lemma toSpec_ok {input : RouteInput} {route : RouteSpec} (h : input.toSpec = .ok route) :
    Hostname.parse input.hostname = .ok route.hostname ∧
      parsePath input.path = .ok route.path := by
  unfold RouteInput.toSpec at h
  simp only [bind_eq_ok, pure_eq_ok] at h
  obtain ⟨hostname, hhostname, path, hpath, -, -, rfl⟩ := h
  unfold parseHostname at hhostname
  exact ⟨mapError_eq_ok.mp hhostname, hpath⟩

lemma preview_ok (h : Engine.preview intent seen = .ok p) :
    ∃ s, seen = some s ∧ plan intent s = .ok p := by
  cases seen with
  | none => cases h
  | some s => exact ⟨s, rfl, mapError_eq_ok.mp h⟩

lemma preview_error {error : PlanError} (h : Engine.preview intent seen = .error (.plan error)) :
    ∃ s, seen = some s ∧ plan intent s = .error error := by
  cases seen with
  | none => cases h
  | some s =>
      obtain ⟨error', hplan, heq⟩ := mapError_eq_error.mp h
      cases heq
      exact ⟨s, rfl, hplan⟩

lemma apply_ok (h : Engine.apply intent approval ending seen = .ok after) :
    ∃ s p, seen = some s ∧ plan intent s = .ok p ∧ after = ending.ingress s p := by
  cases seen with
  | none => cases h
  | some s =>
      obtain ⟨p, hreplan, rfl⟩ := map_eq_ok.mp h
      obtain ⟨p', hpreview, hchecks⟩ := bind_eq_ok.mp hreplan
      simp only [bind_eq_ok, refuseIf_eq_ok, pure_eq_ok] at hchecks
      obtain ⟨-, -, -, -, rfl⟩ := hchecks
      obtain ⟨s', hs, hplan⟩ := preview_ok hpreview
      cases hs
      exact ⟨s, p', rfl, hplan, rfl⟩

/-- What was reviewed is applied when nothing changed since. -/
lemma apply_reviewed (ending : Ending) (hplan : plan intent s = .ok p)
    (hconfirm : p.requiresConfirmation = false) :
    Engine.apply intent ⟨p.fingerprint, false⟩ ending (some s) = .ok (ending.ingress s p) := by
  have hpreview : Engine.preview intent (some s) = .ok p := mapError_eq_ok.mpr hplan
  have hreplan : Engine.replan intent ⟨p.fingerprint, false⟩ s = .ok p := by
    rw [Engine.replan, hpreview]
    simp [refuseIf, hconfirm, bind, Except.bind, pure, Except.pure]
  exact map_eq_ok.mpr ⟨p, hreplan, rfl⟩

lemma apply_error {error : PlanError}
    (h : Engine.apply intent approval ending seen = .error (.plan error)) :
    ∃ s, seen = some s ∧ plan intent s = .error error := by
  cases seen with
  | none => cases h
  | some s =>
      rcases bind_eq_error.mp (map_eq_error.mp h) with hpreview | ⟨p, -, hchecks⟩
      · exact preview_error hpreview
      · simp only [refuseIf] at hchecks
        split_ifs at hchecks <;> cases hchecks

end apply

end Teitunnel
