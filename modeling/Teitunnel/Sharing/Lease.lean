import Teitunnel.Sharing.Pause

/-!
# The lease of the machine's routes

Claiming the lease is one transaction; giving it up is reading it and deleting it, and other
processes may come between the two.
-/

namespace Teitunnel.Sharing

/-- What happened to the lease. -/
inductive LeaseEvent where
  /-- A claim was answered with yes. -/
  | claimed (owner : String) (force : Bool) (time : Timestamp)
  /-- A process asked to give the lease up. -/
  | released (owner : String)
  | deleted (owner : String) (lease : Option (String × Timestamp))
  | exited (owner : String)

/-- A machine, and the releases that have read the lease. -/
structure Leases where
  machine : Machine
  /-- Who found itself the holder, and after how many claims. -/
  releasing : List (String × ℕ) := []
  /-- Claims answered with yes. -/
  claims : ℕ := 0
  log : List LeaseEvent := []

namespace Leases

inductive Step where
  | pass (ms : ℕ)
  | start (owner : String)
  | exit (owner : String)
  | claim (owner : String) (force : Bool)
  /-- `release_host` is called, and reads the lease. -/
  | release (owner : String)
  /-- The `i`-th release under way deletes it. -/
  | delete (i : ℕ)

def claim (s : Leases) (owner : String) (force : Bool) : Leases :=
  match s.machine.claimHost owner force with
  | (_, false) => s
  | (machine, true) =>
      { s with
        machine
        claims := s.claims + 1
        log := s.log ++ [.claimed owner force s.machine.now] }

def release (s : Leases) (owner : String) : Leases :=
  let s := { s with log := s.log ++ [.released owner] }
  if s.machine.host = some owner then
    { s with releasing := s.releasing ++ [(owner, s.claims)] }
  else s

/-- Whatever the lease is by then. -/
def delete (s : Leases) (i : ℕ) (owner : String) : Leases where
  machine := { s.machine with lease := none }
  releasing := s.releasing.eraseIdx i
  claims := s.claims
  log := s.log ++ [.deleted owner s.machine.lease]

/-- Only a process that runs does anything. -/
def step (s : Leases) : Step → Option Leases
  | .pass ms => some { s with machine := { s.machine with now := s.machine.now + ms } }
  | .start owner =>
      some { s with machine := { s.machine with running := owner :: s.machine.running } }
  | .exit owner =>
      some { s with
        machine := { s.machine with running := s.machine.running.filter (· ≠ owner) }
        releasing := s.releasing.filter fun entry => entry.1 ≠ owner
        log := s.log ++ [.exited owner] }
  | .claim owner force => if s.machine.isAlive owner then some (s.claim owner force) else none
  | .release owner => if s.machine.isAlive owner then some (s.release owner) else none
  | .delete i => (s.releasing[i]?).map fun (owner, _) => s.delete i owner

end Leases

end Teitunnel.Sharing
