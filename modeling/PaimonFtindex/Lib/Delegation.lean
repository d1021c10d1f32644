/-
A wrapper that delegates to a machine inside it.

A wrapper answers some of its calls on its own, leaving the machine as it
is, and hands each of the others on as one call of the machine's. What
one call comes down to may depend on the wrapper's state (`ask`), so the
calls a whole run comes down to are found along the run (`asks`).

`core_callAll` is the simulation: after any calls on the wrapper the
machine is as after the calls it was asked. Whatever is gathered from
single calls is then gathered from the machine's (`gather_asks`).
-/
import Mathlib.Data.List.Basic

namespace PaimonFtindex.Lib

section
variable {C W R X : Type}

/-- A state after some calls. -/
def callAll (exec : C → W → R × W) (w : W) (calls : List C) : W :=
  calls.foldl (fun w call => (exec call w).2) w

/-- What is gathered from each call, in the state it finds. -/
def gather (exec : C → W → R × W) (added : C → W → List X) (w : W) :
    List C → List X
  | [] => []
  | call :: calls =>
      added call w ++ gather exec added (exec call w).2 calls

end

variable {C W R K S Q X : Type} {exec : C → W → R × W} {coreExec : K → S → Q × S}

/-- The wrapper over the machine: which call a call comes down to, and
what that says about both. -/
structure Delegation (exec : C → W → R × W) (coreExec : K → S → Q × S) where
  core : W → S
  ask : C → W → Option K
  result : Q → R
  refused : ∀ call w, ask call w = none → core (exec call w).2 = core w
  asked : ∀ call w k, ask call w = some k →
    (exec call w).1 = result (coreExec k (core w)).1
      ∧ core (exec call w).2 = (coreExec k (core w)).2

namespace Delegation

variable (d : Delegation exec coreExec)

/-- The calls a run of the wrapper asks of the machine. -/
def asks (w : W) : List C → List K
  | [] => []
  | call :: calls => (d.ask call w).toList ++ asks (exec call w).2 calls

variable {d}

/-- One call moves the machine as the call it comes down to. -/
theorem core_exec (call : C) (w : W) :
    d.core (exec call w).2
      = callAll coreExec (d.core w) (d.ask call w).toList := by
  cases hask : d.ask call w with
  | none => exact d.refused call w hask
  | some k => exact (d.asked call w k hask).2

/-- After a run the machine is as after the calls it was asked. -/
theorem core_callAll (w : W) (calls : List C) :
    d.core (callAll exec w calls)
      = callAll coreExec (d.core w) (d.asks w calls) := by
  induction calls generalizing w with
  | nil => rfl
  | cons call calls ih =>
      show d.core (callAll exec (exec call w).2 calls) = _
      rw [ih, core_exec]
      rw [asks, callAll, callAll, callAll, List.foldl_append]

/-- What the calls of a run gave is what the machine's calls gave. -/
theorem gather_asks {added : C → W → List X} {coreAdded : K → S → List X}
    (hadded : ∀ call w, added call w
      = gather coreExec coreAdded (d.core w) (d.ask call w).toList)
    (w : W) (calls : List C) :
    gather exec added w calls
      = gather coreExec coreAdded (d.core w) (d.asks w calls) := by
  induction calls generalizing w with
  | nil => rfl
  | cons call calls ih =>
      rw [gather, asks, ih, hadded, core_exec]
      cases d.ask call w with
      | none => rfl
      | some k => exact List.append_assoc ..

end Delegation

end PaimonFtindex.Lib
