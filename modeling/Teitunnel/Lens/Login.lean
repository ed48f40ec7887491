import Teitunnel.Lib.Table

/-!
# Signing in with a password

The counter of failed passwords of each address, and the login requests that go through it: the
check, the form, the verification and the count are steps of their own.
-/

namespace Teitunnel.Lens

/-- Failed passwords allowed per address and window. -/
def MAX_FAILURES : ℕ := 10

/-- The failure window, in milliseconds. -/
def FAILURE_WINDOW : ℕ := 10 * 60 * 1000

/-- Addresses tracked at most. -/
def MAX_TRACKED : ℕ := 10000

variable {Ip : Type} [DecidableEq Ip]

/-- Failures of an address, and since when. -/
abbrev LoginLimiter (Ip : Type) := Table Ip (ℕ × ℕ)

namespace LoginLimiter

/-- Whether an address has used up its attempts. -/
def limited (limiter : LoginLimiter Ip) (now : ℕ) (ip : Ip) : Bool :=
  (limiter.find ip).any fun (count, since) =>
    MAX_FAILURES ≤ count && now - since < FAILURE_WINDOW

/-- One more failure, in a new window where the last one is over. -/
def count (limiter : LoginLimiter Ip) (now : ℕ) (ip : Ip) : LoginLimiter Ip :=
  let (count, since) := (limiter.find ip).getD (0, now)
  if FAILURE_WINDOW ≤ now - since then limiter.insert ip (1, now)
  else limiter.insert ip (count + 1, since)

/-- The addresses whose window isn't over. -/
def prune (limiter : LoginLimiter Ip) (now : ℕ) : LoginLimiter Ip :=
  limiter.retain fun _ (_, since) => now - since < FAILURE_WINDOW

def failed (limiter : LoginLimiter Ip) (now : ℕ) (ip : Ip) : LoginLimiter Ip :=
  if MAX_TRACKED ≤ limiter.size ∧ limiter.contains ip = false then
    let limiter := limiter.prune now
    -- a newcomer to a full table isn't counted
    if MAX_TRACKED ≤ limiter.size then limiter else limiter.count now ip
  else limiter.count now ip

def succeeded (limiter : LoginLimiter Ip) (ip : Ip) : LoginLimiter Ip :=
  limiter.erase ip

end LoginLimiter

/-! ## Login requests -/

/-- How far a login request is. -/
inductive Stage where
  /-- It isn't limited. -/
  | admitted
  | form (password : String)
  /-- It holds a permit, and its password is verified. -/
  | checking (password : String)
  | checked (valid : Bool)
  deriving DecidableEq

/-- Whether its password isn't verified yet. -/
def Stage.isOpen : Stage → Bool
  | .admitted | .form _ => true
  | .checking _ | .checked _ => false

structure Attempt (Ip : Type) where
  ip : Ip
  stage : Stage
  deriving DecidableEq

/-- What the logins of a tap went through. -/
inductive LoginEvent (Ip : Type) where
  /-- A wrong password was verified. -/
  | wrong (ip : Ip) (now : ℕ)
  /-- A failure was recorded. -/
  | failed (ip : Ip) (now : ℕ)
  | succeeded (ip : Ip)

/-- The logins of a tap. -/
structure Logins (Ip : Type) where
  now : ℕ := 0
  limiter : LoginLimiter Ip := .empty
  attempts : List (Attempt Ip) := []
  /-- Verifications at once, at most. -/
  maxPasswordChecks : ℕ
  log : List (LoginEvent Ip) := []

namespace Logins

inductive Step (Ip : Type) where
  | pass (ms : ℕ)
  | request (ip : Ip)
  | readForm (ip : Ip) (password : String)
  /-- The form is too large, or the request goes away. -/
  | giveUp (attempt : Attempt Ip)
  | acquire (ip : Ip) (password : String)
  /-- The verification ends; where it didn't run, the password isn't valid. -/
  | verified (ip : Ip) (password : String) (ran : Bool)
  | record (ip : Ip) (valid : Bool)

def isChecking (attempt : Attempt Ip) : Bool :=
  match attempt.stage with
  | .checking _ => true
  | _ => false

/-- The attempt goes from one stage to the next, if it is there. -/
def advance (s : Logins Ip) (ip : Ip) (before after : Stage) : Option (Logins Ip) :=
  if ⟨ip, before⟩ ∈ s.attempts then
    some { s with attempts := ⟨ip, after⟩ :: s.attempts.erase ⟨ip, before⟩ }
  else none

def step (verify : String → Bool) (s : Logins Ip) : Step Ip → Option (Logins Ip)
  | .pass ms => some { s with now := s.now + ms }
  | .request ip =>
      if s.limiter.limited s.now ip then some s
      else some { s with attempts := ⟨ip, .admitted⟩ :: s.attempts }
  | .readForm ip password => s.advance ip .admitted (.form password)
  | .giveUp attempt =>
      if attempt ∈ s.attempts ∧ attempt.stage.isOpen then
        some { s with attempts := s.attempts.erase attempt }
      else none
  | .acquire ip password =>
      if s.attempts.countP isChecking < s.maxPasswordChecks then
        s.advance ip (.form password) (.checking password)
      else none
  | .verified ip password ran =>
      let valid := ran && verify password
      (s.advance ip (.checking password) (.checked valid)).map fun t =>
        if valid then t else { t with log := t.log ++ [.wrong ip t.now] }
  | .record ip valid =>
      if ⟨ip, .checked valid⟩ ∈ s.attempts then
        let s := { s with attempts := s.attempts.erase ⟨ip, .checked valid⟩ }
        some (if valid then
          { s with limiter := s.limiter.succeeded ip, log := s.log ++ [.succeeded ip] }
        else
          { s with limiter := s.limiter.failed s.now ip, log := s.log ++ [.failed ip s.now] })
      else none

end Logins

end Teitunnel.Lens
