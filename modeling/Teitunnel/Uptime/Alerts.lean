import Teitunnel.Lib.Text
import Teitunnel.Uptime.Tracker

/-!
# Alerts

When a route goes down or comes back, answers with too many errors or gets slow: an alert when it
begins and one when it ends, with a notification at most once in a while for a subject.
-/

namespace Teitunnel.Uptime

/-- The least time between two notifications about the same subject. -/
def COOLDOWN_MS : Time := 15 * 60000

/-- What to alert about. -/
structure AlertRules where
  routeDown : Bool
  /-- Failed checks in a row before a route is down. -/
  downAfter : ℕ
  recovered : Bool
  errorRate : Bool
  /-- The share of errors that alerts, in percent. -/
  errorRatePercent : ℚ
  errorRateMinutes : ℕ
  minRequests : ℕ
  latency : Bool
  /-- The response time that alerts, in milliseconds. -/
  latencyMs : ℕ
  latencyMinutes : ℕ
  /-- What never alerts. -/
  muted : List String
  deriving DecidableEq

def AlertRules.isMuted (rules : AlertRules) (subject : String) : Bool :=
  rules.muted.any fun m => decide (Text.SameText m subject)

inductive AlertKind where
  | routeDown
  | routeRecovered
  | errorRate
  | errorRateResolved
  | latency
  | latencyResolved
  deriving DecidableEq

/-- Whether this begins a problem: the others end one. -/
def AlertKind.isProblem : AlertKind → Bool
  | .routeDown => true
  | .errorRate => true
  | .latency => true
  | .routeRecovered => false
  | .errorRateResolved => false
  | .latencyResolved => false

/-- The texts of the alerts. -/
inductive AlertText where
  | down (route : String)
  | downBody
  | cause (cause : Cause)
  | recovered (route : String)
  | recoveredBody (minutes : ℕ)
  | errors (route : String)
  | errorsTunnel (tunnel : String)
  | errorsBody (percent : String) (minutes : ℕ)
  | errorsResolved (subject : String)
  | errorsResolvedBody (percent : String)
  | slow (route : String)
  | slowBody (ms minutes : ℕ)
  | fast (route : String)
  | fastBody (ms : ℕ)
  deriving DecidableEq

structure Alert where
  kind : AlertKind
  accountId : String
  /-- The route or the tunnel it's about. -/
  subject : String
  hostnames : List String
  title : AlertText
  body : AlertText
  raisedAt : Time
  /-- Whether to post a notification. -/
  notify : Bool
  deriving DecidableEq

structure Active where
  since : Time
  deriving DecidableEq

/-- Which alerts are active, and when each subject last notified. -/
structure AlertEngine where
  active : Table String Active
  notified : Table String Time

def routeHost (subject : String) : String := (Text.split '/' subject).headD subject

/-- `5`, `12.5`: a percentage without zeros at the end. -/
def formatPercent (value : ℚ) : String :=
  let tenths := round (value * 10)
  if tenths % 10 = 0 then toString (tenths / 10)
  else toString (tenths / 10) ++ "." ++ toString (tenths % 10)

namespace AlertEngine

def new : AlertEngine := ⟨Table.empty, Table.empty⟩

def fire (e : AlertEngine) (kind : AlertKind) (account subject : String) (hostnames : List String)
    (texts : AlertText × AlertText) (now : Time) : Option Alert × AlertEngine :=
  let notify :=
    match e.notified.find subject with
    | some last => decide (now - last ≥ COOLDOWN_MS)
    | none => true
  let alert : Alert :=
    { kind
      accountId := account
      subject
      hostnames
      title := texts.1
      body := texts.2
      raisedAt := now
      notify }
  (some alert, if notify then { e with notified := e.notified.insert subject now } else e)

/-- A route's check: `failures` in a row so far, none after a passing one. -/
def routeCheck (e : AlertEngine) (rules : AlertRules) (account subject : String) (failures : ℕ)
    (cause : Option Cause) (now : Time) : Option Alert × AlertEngine :=
  let key := "down:" ++ subject
  let hostnames := [routeHost subject]
  if failures = 0 then
    match e.active.find key with
    | none => (none, e)
    | some active =>
        let e := { e with active := e.active.erase key }
        if rules.recovered = false ∨ rules.isMuted subject = true then (none, e)
        else
          let minutes := (max (now - active.since) 0 / 60000).toNat
          let texts := (AlertText.recovered subject, AlertText.recoveredBody (max minutes 1))
          e.fire .routeRecovered account subject hostnames texts now
  else if rules.routeDown = false ∨ rules.isMuted subject = true ∨ failures < rules.downAfter ∨
      e.active.contains key = true then (none, e)
  else
    -- down since the first failed check
    let since := now - (failures - 1 : ℕ) * 60000
    let e := { e with active := e.active.insert key ⟨since⟩ }
    let body :=
      match cause with
      | some cause => AlertText.cause cause
      | none => AlertText.downBody
    e.fire .routeDown account subject hostnames (AlertText.down subject, body) now

/-- The share of errors, in percent. -/
def percent (requests errors : ℕ) : ℚ := if requests = 0 then 0 else errors * 100 / requests

/-- A route's or a tunnel's requests and errors over the rule's window. -/
def errorRate (e : AlertEngine) (rules : AlertRules) (account subject : String) (tunnel : Bool)
    (hostnames : List String) (requests errors : ℕ) (now : Time) : Option Alert × AlertEngine :=
  let key := "errors:" ++ subject
  let percent := percent requests errors
  if e.active.contains key = true then
    -- ended only well below the threshold
    if requests ≥ rules.minRequests ∧ percent ≥ rules.errorRatePercent / 2 then (none, e)
    else
      let e := { e with active := e.active.erase key }
      if rules.errorRate = false ∨ rules.isMuted subject = true then (none, e)
      else
        let texts := (AlertText.errorsResolved subject,
          AlertText.errorsResolvedBody (formatPercent rules.errorRatePercent))
        e.fire .errorRateResolved account subject hostnames texts now
  else if rules.errorRate = false ∨ rules.isMuted subject = true ∨
      ¬ requests ≥ rules.minRequests ∨ percent < rules.errorRatePercent then (none, e)
  else
    let e := { e with active := e.active.insert key ⟨now⟩ }
    let title := if tunnel then AlertText.errorsTunnel subject else AlertText.errors subject
    let body := AlertText.errorsBody (formatPercent percent) rules.errorRateMinutes
    e.fire .errorRate account subject hostnames (title, body) now

/-- A route's response time over the rule's window, unless there are too few checks. -/
def latency (e : AlertEngine) (rules : AlertRules) (account subject : String)
    (p95Ms : Option ℚ) (now : Time) : Option Alert × AlertEngine :=
  let key := "latency:" ++ subject
  let threshold : ℚ := rules.latencyMs
  match p95Ms with
  | none => (none, e)
  | some p95 =>
      let hostnames := [routeHost subject]
      let shown := (max (round p95) 0).toNat
      if e.active.contains key = true then
        if p95 ≥ threshold * (8 / 10) then (none, e)
        else
          let e := { e with active := e.active.erase key }
          if rules.latency = false ∨ rules.isMuted subject = true then (none, e)
          else
            let texts := (AlertText.fast subject, AlertText.fastBody shown)
            e.fire .latencyResolved account subject hostnames texts now
      else if rules.latency = false ∨ rules.isMuted subject = true ∨ p95 < threshold then (none, e)
      else
        let e := { e with active := e.active.insert key ⟨now⟩ }
        let texts := (AlertText.slow subject, AlertText.slowBody shown rules.latencyMinutes)
        e.fire .latency account subject hostnames texts now

/-- A call of the engine. -/
inductive Call where
  | routeCheck (rules : AlertRules) (account subject : String) (failures : ℕ)
      (cause : Option Cause) (now : Time)
  | errorRate (rules : AlertRules) (account subject : String) (tunnel : Bool)
      (hostnames : List String) (requests errors : ℕ) (now : Time)
  | latency (rules : AlertRules) (account subject : String) (p95Ms : Option ℚ) (now : Time)

def answer (e : AlertEngine) : Call → Option Alert × AlertEngine
  | .routeCheck rules account subject failures cause now =>
      e.routeCheck rules account subject failures cause now
  | .errorRate rules account subject tunnel hostnames requests errors now =>
      e.errorRate rules account subject tunnel hostnames requests errors now
  | .latency rules account subject p95Ms now => e.latency rules account subject p95Ms now

/-- The calls with what they returned, after the ones before. -/
def answerAll (e : AlertEngine) : List Call → List (Call × Option Alert) × AlertEngine
  | [] => ([], e)
  | call :: calls =>
      let first := e.answer call
      let rest := answerAll first.2 calls
      ((call, first.1) :: rest.1, rest.2)

end AlertEngine

end Teitunnel.Uptime
