import Teitunnel.CfApi

/-!
# Logins

Protecting a route with a login (Cloudflare Access): who may reach it, how that maps to an
application, and what was observed.  One self-hosted application per protected route, named
after its domain, with a single "allow" policy; the paths that skip the login are applications
of their own, and service tokens pass through a "Machines" policy.
-/

namespace Teitunnel

open Text Except

/-! ## Who may log in -/

/-- How people log in to a protected route. -/
inductive SignIn where
  | any
  | github
  | google
  deriving DecidableEq, Repr

namespace SignIn

/-- Cloudflare's identity provider types for it (none: every method). -/
def kinds : SignIn → List String
  | any => []
  | github => ["github"]
  | google => ["google", "google-apps"]

/-- Its name, as the provider calls itself. -/
def name : SignIn → Option String
  | any => none
  | github => some "GitHub"
  | google => some "Google"

end SignIn

/-- A login method (identity provider) of the account. -/
structure LoginMethod where
  id : String
  kind : String
  deriving DecidableEq

/-- The prefix of a GitHub entry in a list of who may log in. -/
def GITHUB_PREFIX : String := "github:"

/-- Who may reach a protected route, and how they log in. -/
structure AccessRule where
  emails : List String
  emailDomains : List String
  github : List String
  signIn : SignIn
  /-- Paths under the route that skip the login. -/
  bypass : List String
  deriving DecidableEq

/-- Paths that skip a login, at most. -/
def MAX_BYPASS : ℕ := 10

/-- Why an access rule was rejected. -/
inductive AccessRuleError where
  | empty
  | email (value : String)
  | domain (value : String)
  | bypassPath (value : String)
  | tooManyBypass
  | github (value : String)
  | githubNeedsGithub
  deriving DecidableEq, Repr

/-- The texts in order. -/
def sorted (l : List String) : List String :=
  l.insertionSort (· ≤ ·)

/-- A domain an email address may be at. -/
def validDomain [External] (domain : String) : Bool :=
  match Hostname.parse domain with
  | .ok _ => domain.toList.contains '.'
  | .error _ => false

/-- `organization` or `organization/team`, tidied, if it is one. -/
def githubEntry (raw : String) : Option String :=
  let raw := trim raw
  let raw := trim ((stripStart GITHUB_PREFIX raw).getD raw)
  let (org, team) := match splitOnce '/' raw with
    | some (org, team) => (trim org, some (trim team))
    | none => (raw, none)
  let orgOk := 1 ≤ org.utf8ByteSize && org.utf8ByteSize ≤ 39 && org.toList.head? != some '-' &&
    org.toList.all fun c => isAsciiAlphanumeric c || c == '-'
  let teamOk := match team with
    | none => true
    | some t => 1 ≤ t.length && t.length ≤ 100 &&
        t.toList.all fun c => !(isControl c || c == ',' || c == ';' || c == '/')
  if orgOk && teamOk then
    some (match team with
      | some team => org ++ "/" ++ team
      | none => org)
  else none

/-- The name of the policy that lets people in. -/
def PEOPLE_POLICY : String := "Allowed people"

/-- The name of the policy written, which also says how people log in. -/
def policyName (signIn : SignIn) : String :=
  match signIn.name with
  | some method => PEOPLE_POLICY ++ " · " ++ method
  | none => PEOPLE_POLICY

/-- How people log in, read back from the name of a policy. -/
def signInOf (name : String) : Option SignIn :=
  [SignIn.any, SignIn.github, SignIn.google].find? fun s => name == policyName s

/-- A path that skips a login, as Access writes it; `none` unless it is a plain path. -/
def bypassPath (raw : String) : Option String :=
  let trimmed := trimEnd (· == '/') (trimEnd (· == '*') (trim raw))
  let path := if StartsWith "/" trimmed then trimmed else "/" ++ trimmed
  let plain := 1 < path.utf8ByteSize &&
    ((path.toList.drop 1).all fun c => isAsciiAlphanumeric c || "-_./~".toList.contains c) &&
    !decide (HasText "//" path) && !(split '/' path).contains ".."
  if plain then some path else none

/-- Adds `x` at the end unless the list has it. -/
def pushNew (l : List String) (x : String) : List String :=
  if x ∈ l then l else l ++ [x]

namespace AccessRule

/-- Trimmed, without a leading `@`, lower case, without empty entries, sorted, once each. -/
def clean (items : List String) : List String :=
  (sorted ((items.map fun s => toAsciiLowercase (trimStart (· == '@') (trim s))).filter
    (· ≠ ""))).destutter (· ≠ ·)

/-- The GitHub entries tidied, in the order given, once each. -/
def cleanGithub : List String → List String → Except AccessRuleError (List String)
  | out, [] => .ok out
  | out, raw :: rest =>
      match githubEntry raw with
      | none => .error (.github raw)
      | some entry => cleanGithub (pushNew out entry) rest

/-- The paths that skip the login tidied, in the order given, once each. -/
def cleanBypass : List String → List String → Except AccessRuleError (List String)
  | out, [] => .ok out
  | out, raw :: rest =>
      match bypassPath raw with
      | none => .error (.bypassPath raw)
      | some path => cleanBypass (pushNew out path) rest

/-- How people log in when GitHub organizations are (`some`) or are not named. -/
def signInFor (signIn : SignIn) (noGithub : Bool) : Except AccessRuleError SignIn :=
  match signIn, noGithub with
  | .any, false => .ok .github
  | .google, false => .error .githubNeedsGithub
  | signIn, _ => .ok signIn

/-- An email address: something before the first `@`, a domain after it. -/
def validEmail [External] (email : String) : Bool :=
  match splitOnce '@' email with
  | some (user, domain) => user ≠ "" && validDomain domain
  | none => false

/-- Trims, lower-cases, de-duplicates and checks the entries. -/
def normalized [External] (r : AccessRule) : Except AccessRuleError AccessRule := do
  let emails := clean r.emails
  let emailDomains := clean r.emailDomains
  let github ← cleanGithub [] (r.github.filter fun g => trim g ≠ "")
  let github := sorted github
  refuseIf (emails = [] ∧ emailDomains = [] ∧ github = []) .empty
  let signIn ← signInFor r.signIn github.isEmpty
  refuseSome (emails.find? fun e => !validEmail e) .email
  refuseSome (emailDomains.find? fun d => !validDomain d) .domain
  let bypass ← cleanBypass [] r.bypass
  refuseIf (bypass.length > MAX_BYPASS) .tooManyBypass
  return { emails, emailDomains, github, signIn, bypass := sorted bypass }

/-- Only who may log in (what one application's policy says). -/
def peopleOnly (r : AccessRule) : AccessRule :=
  { r with bypass := [] }

end AccessRule

/-! ## Access domains -/

/-- Why a route can't be protected as asked. -/
inductive AccessDomainError where
  /-- Access protects path prefixes, not arbitrary regular expressions. -/
  | pathPattern (pattern : String)
  deriving DecidableEq, Repr

/-- A path rule without its leading `^`, trailing `.*` and trailing `/`. -/
def plainPath (raw : String) : String :=
  trimEnd (· == '/') (trimEndText ".*" (trimStart (· == '^') raw))

/-- A plain path prefix: `/`, then at least one of the characters a path may have. -/
def IsPlain (path : String) : Prop :=
  path.toList.head? = some '/' ∧ 1 < path.length ∧
    (path.toList.drop 1).all fun c => isAsciiAlphanumeric c || "-_./~".toList.contains c

instance (path : String) : Decidable (IsPlain path) :=
  inferInstanceAs (Decidable (_ ∧ _ ∧ _))

/-- The Access domain for a route: the hostname, plus the path when the route's path rule is
a plain one (`^/admin`, `/admin/`, `^/admin/.*`). -/
def accessDomain (hostname : Hostname) (path : Option PathRule) :
    Except AccessDomainError String :=
  match path with
  | none => .ok hostname.asStr
  | some path =>
      if IsPlain (plainPath path.asStr) then .ok (hostname.asStr ++ plainPath path.asStr)
      else .error (.pathPattern path.asStr)

/-! ## Definitions of applications -/

/-- The account's login method for `signIn`; its kind when the account has none. -/
def loginMethod (signIn : SignIn) (methods : List LoginMethod) :
    Except SignIn (Option LoginMethod) :=
  if signIn = .any then .ok none
  else match methods.find? fun m => signIn.kinds.contains m.kind with
    | some m => .ok (some m)
    | none => .error signIn

/-- The GitHub login methods an application's rules name. -/
def githubMethods (app : NewAccessApp) : List String :=
  app.policies.flatMap fun p => (p.incl.filterMap ruleGithub).map fun (_, _, id) => id

/-- The application for `domain` with these policies and login method. -/
def selfHosted (domain : String) (policies : List AccessPolicy) (method : Option LoginMethod) :
    NewAccessApp where
  name := TEITUNNEL_PREFIX ++ domain
  domain := domain
  kind := "self_hosted"
  sessionDuration := "24h"
  appLauncherVisible := false
  policies := policies
  allowedIdps := (method.map LoginMethod.id).toList
  autoRedirectToIdentity := method.isSome

/-- The rules letting in whoever `rule` allows. -/
def peopleRules (rule : AccessRule) (method : Option LoginMethod) : List Json :=
  rule.emails.map emailRule ++ rule.emailDomains.map emailDomainRule ++
    rule.github.map fun entry =>
      let (org, team) := match splitOnce '/' entry with
        | some (org, team) => (org, some team)
        | none => (entry, none)
      githubRule ((method.map LoginMethod.id).getD "") org team

/-- The application created for `domain`, letting in whoever `rule` allows. -/
def appDefinition (domain : String) (rule : AccessRule) (method : Option LoginMethod) :
    NewAccessApp :=
  selfHosted domain
    [{ id := none, name := policyName rule.signIn, decision := "allow",
       incl := peopleRules rule method, precedence := some 1 }] method

/-- The name of the policy that lets everyone through a path. -/
def BYPASS_POLICY : String := "Anyone, without a login"

/-- The application that lets everyone through `domain`, without a login. -/
def bypassDefinition (domain : String) : NewAccessApp :=
  selfHosted domain
    [{ id := none, name := BYPASS_POLICY, decision := "bypass", incl := [everyoneRule],
       precedence := some 1 }] none

/-- Whether an application only lets everyone through (a path that skips a login). -/
def isBypass (app : NewAccessApp) : Bool :=
  match app.policies with
  | [policy] =>
      policy.decision == "bypass" && policy.incl.length == 1 && policy.incl.all ruleIsEveryone
  | _ => false

/-- The name of the policy for service tokens. -/
def MACHINES_POLICY : String := "Machines"

/-- Whether a policy is a Service Auth policy of service tokens only. -/
def isMachines (policy : AccessPolicy) : Bool :=
  policy.decision == "non_identity" && !policy.incl.isEmpty &&
    policy.incl.all fun rule => (ruleServiceToken rule).isSome

/-- The service tokens an application's definition lets through. -/
def serviceTokensOf (app : NewAccessApp) : List String :=
  (app.policies.filter isMachines).flatMap fun p => p.incl.filterMap ruleServiceToken

/-- An application for `domain` that only service tokens pass. -/
def machineOnlyDefinition (domain : String) : NewAccessApp :=
  selfHosted domain [] none

/-- The policies numbered from `n` in their order. -/
def renumberFrom (n : ℕ) : List AccessPolicy → List AccessPolicy
  | [] => []
  | p :: rest => { p with precedence := some n } :: renumberFrom (n + 1) rest

/-- The application with its policies numbered from 1. -/
def renumber (app : NewAccessApp) : NewAccessApp :=
  { app with policies := renumberFrom 1 app.policies }

/-- The policies with `rule` added to the first Machines policy; `none` without one. -/
def addToMachines (rule : Json) : List AccessPolicy → Option (List AccessPolicy)
  | [] => none
  | p :: rest =>
      if isMachines p then
        some ((if rule ∈ p.incl then p else { p with incl := p.incl ++ [rule] }) :: rest)
      else (addToMachines rule rest).map (p :: ·)

/-- `app` also letting in the service token `id` (its Machines policy comes first, so machines
never see a login page). -/
def withServiceToken (app : NewAccessApp) (id : String) : NewAccessApp :=
  let rule := serviceTokenRule id
  let policies := match addToMachines rule app.policies with
    | some policies => policies
    | none =>
        { id := none, name := MACHINES_POLICY, decision := "non_identity", incl := [rule],
          precedence := none } :: app.policies
  renumber { app with policies }

/-- `app` no longer letting in the service token `id`. -/
def withoutServiceToken (app : NewAccessApp) (id : String) : NewAccessApp :=
  let policies := app.policies.map fun p =>
    if isMachines p then { p with incl := p.incl.filter (· ≠ serviceTokenRule id) } else p
  renumber { app with
    policies := policies.filter fun p => !(p.decision == "non_identity" && p.incl.isEmpty) }

/-- Keeps the Machines policies of `old` in `new` (a change of who may log in must not lock
machines out). -/
def keepMachines (new old : NewAccessApp) : NewAccessApp :=
  renumber { new with
    policies := old.policies.filter isMachines ++ new.policies.filter fun p => !isMachines p }

/-- The rule that policies express, if they are of the kind written here. -/
def AccessRule.fromPolicies [External] (policies : List AccessPolicy) : Option AccessRule :=
  -- the machines' policy says nothing about people
  match policies.filter fun p => !isMachines p with
  | [policy] =>
      if policy.decision ≠ "allow" then none
      else do
        let signIn ← signInOf policy.name
        let rule ← policy.incl.foldlM addInclude ⟨[], [], [], signIn, []⟩
        rule.normalized.toOption
  | _ => none
where
  /-- The rule that also lets in whoever `incl` matches. -/
  addInclude (rule : AccessRule) (incl : Json) : Option AccessRule :=
    match ruleEmail incl with
    | some email => some { rule with emails := rule.emails ++ [email] }
    | none => match ruleGithub incl with
      | some (org, team, _) =>
          let entry := match team with
            | some t => org ++ "/" ++ t
            | none => org
          some { rule with github := rule.github ++ [entry] }
      | none => (ruleEmailDomain incl).map fun domain =>
          { rule with emailDomains := rule.emailDomains ++ [domain] }

/-- The rule a definition expresses. -/
def AccessRule.fromNew [External] (app : NewAccessApp) : Option AccessRule :=
  AccessRule.fromPolicies app.policies

/-! ## What was observed -/

/-- An Access application for one of the domains involved. -/
structure ObservedAccessApp where
  id : String
  domain : String
  /-- In the ownership index. -/
  owned : Bool
  /-- The rule it expresses, when it is in the form written here. -/
  rule : Option AccessRule
  /-- A definition that recreates it. -/
  definition : NewAccessApp
  deriving DecidableEq

/-- Access as observed for a change. -/
structure AccessState where
  /-- Whether Zero Trust is set up, when read. -/
  organization : Option Bool
  /-- The login methods, when read. -/
  loginMethods : Option (List LoginMethod)
  apps : List ObservedAccessApp
  deriving DecidableEq

/-- The application for `domain`, if any. -/
def AccessState.app (state : AccessState) (domain : String) : Option ObservedAccessApp :=
  state.apps.find? fun a => SameText a.domain domain

/-- The application's domain is `domain` followed by `/` and more. -/
def UnderDomain (domain : String) (app : ObservedAccessApp) : Prop :=
  SameText (String.ofList (app.domain.toList.take (domain.length + 1))) (domain ++ "/")

instance (domain : String) (app : ObservedAccessApp) : Decidable (UnderDomain domain app) :=
  inferInstanceAs (Decidable (SameText _ _))

/-- The paths under `domain` that skip its login: the bypass applications owned there, sorted. -/
def bypassPaths (state : AccessState) (domain : String) : List String :=
  sorted (((state.apps.filter fun app => app.owned && isBypass app.definition).filter
    (UnderDomain domain ·)).map fun app => String.ofList (app.domain.toList.drop domain.length))

/-- The host part of an Access domain. -/
def domainHost (domain : String) : String :=
  match splitOnce '/' domain with
  | some (host, _) => host
  | none => domain

end Teitunnel
