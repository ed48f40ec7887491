import Teitunnel.Engine
import Teitunnel.Lib.Ledger

/-!
# Tunnels and what was done to them

The rules of several tunnels, and the history of their changes: who changed a tunnel's rules, and
where something was marked.
-/

namespace Teitunnel

open Ledger

/-- The rules of some tunnels, and what was done to them. -/
structure Tunnels (α μ : Type) where
  ingress : α → Option (List IngressRule)
  log : List (Event α IngressRule Place μ)

namespace Tunnels

variable {α μ : Type} [DecidableEq α] (w : Tunnels α μ)

/-- The rules that a tunnel has for a place. -/
def rulesAt (tunnel : α) (place : Place) : List IngressRule :=
  Teitunnel.rulesAt (w.ingress tunnel) place

/-- A tunnel has other rules now. -/
def change (tunnel : α) (maker : μ) (after : Option (List IngressRule)) : Tunnels α μ where
  ingress := Function.update w.ingress tunnel after
  log := w.log ++ [.changed tunnel maker ((w.ingress tunnel).getD []) (after.getD [])]

/-- What is read is what the tunnel is. -/
def Sees (tunnel : α) (seen : Option Snapshot) : Prop :=
  ∀ s ∈ seen, s.ingress = w.ingress tunnel

instance (tunnel : α) (seen : Option Snapshot) : Decidable (w.Sees tunnel seen) :=
  inferInstanceAs (Decidable (∀ s ∈ seen, _))

/-- Who put the rules of a place there. -/
def standing (tunnel : α) (place : Place) : Option μ :=
  Ledger.standing IngressRule.key w.log tunnel place

/-- Who gave a place its first rule, if it has had one since. -/
def founder (tunnel : α) (place : Place) : Option μ :=
  Ledger.founder IngressRule.key w.log tunnel place

variable {w} {tunnel other : α} {maker : μ} {after : Option (List IngressRule)} {place : Place}

omit [DecidableEq α] in
lemma sees_none : w.Sees tunnel none := fun s hs => absurd hs (Option.not_mem_none s)

lemma rulesAt_change : (w.change tunnel maker after).rulesAt tunnel place =
    Teitunnel.rulesAt after place := by
  show Teitunnel.rulesAt (Function.update w.ingress tunnel after tunnel) _ = _
  rw [Function.update_self]

lemma rulesAt_change_of_ne (h : other ≠ tunnel) :
    (w.change tunnel maker after).rulesAt other place = w.rulesAt other place := by
  show Teitunnel.rulesAt (Function.update w.ingress tunnel after other) _ = _
  rw [Function.update_of_ne h]
  rfl

/-- Who put the rules of a place there after a change: who had before, or who made it. -/
lemma standing_change {maker' : μ}
    (h : (w.change tunnel maker after).standing other place = some maker') :
    w.standing other place = some maker' ∧ (tunnel = other →
        (w.rulesAt tunnel place = [] ↔ Teitunnel.rulesAt after place = [])) ∨
      tunnel = other ∧ maker = maker' ∧ Teitunnel.rulesAt after place ≠ [] ∧
        ¬ SameItems (w.rulesAt tunnel place) (Teitunnel.rulesAt after place) :=
  standing_changed_cases h

lemma founder_change_of_ne (h : other ≠ tunnel) :
    (w.change tunnel maker after).founder other place = w.founder other place := by
  show Ledger.founder _ (w.log ++ [_]) _ _ = _
  rw [founder_changed, if_pos (Ne.symm h)]
  rfl

/-- Who gave a place its first rule, after a change of its tunnel. -/
lemma founder_change : (w.change tunnel maker after).founder tunnel place =
    if Teitunnel.rulesAt after place = [] then none
    else if w.rulesAt tunnel place = [] then some maker
    else w.founder tunnel place := by
  show Ledger.founder _ (w.log ++ [_]) _ _ = _
  rw [founder_changed, if_neg (not_not.mpr rfl)]
  rfl

end Tunnels

end Teitunnel
