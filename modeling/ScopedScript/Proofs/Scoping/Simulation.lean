import ScopedScript.Proofs.Machine.Runs
import ScopedScript.Proofs.Scoping.Access
import ScopedScript.Proofs.Scoping.Worlds
namespace ScopedScript

/-!
# The machine follows the evaluator

`Simulates` compares a config of the machine with the outcome of the evaluator.  When the evaluator is
done or has failed, the machine reaches a config that shows the same; when the evaluator has run out of
fuel, the machine is still running after as many steps, and has written the same at some such time.  On
the way the machine is `Sound`: no recorded distance leads astray.

Because what waits on the stack is arbitrary, the parts of an expression or a statement are simulated one
after the other; `Simulates.bind` joins them.
-/

open Cells (Env Store Outcome Run)
open Resolution (ScopeChain)

namespace Config

/-- The machine gets from one config to another, and is sound until then. -/
def Reaches (config later : Config) : Prop :=
  ∃ n, step^[n] config = later ∧ ∀ i, i < n → (step^[i] config).Sound

/-- After at least so many steps the machine is still running, sound all the time, and its sink is then
the given one. -/
def Outlasts (n : Nat) (sink : Sink) (config : Config) : Prop :=
  ∃ m, n ≤ m ∧ (step^[m] config).isDone = false ∧ (step^[m] config).state.sink = sink ∧
    ∀ i, i ≤ m → (step^[i] config).Sound

variable {config middle later : Config} {n : Nat} {sink : Sink}

theorem Reaches.refl (config : Config) : Reaches config config :=
  ⟨0, rfl, fun _ impossible => absurd impossible (Nat.not_lt_zero _)⟩

theorem Reaches.step (sound : config.Sound) (reaches : Reaches config.step later) :
    Reaches config later := by
  rcases reaches with ⟨n, same, soundLater⟩
  refine ⟨n + 1, same, ?_⟩
  intro i below
  cases i with
  | zero => exact sound
  | succ i => exact soundLater i (Nat.lt_of_succ_lt_succ below)

theorem Reaches.trans (first : Reaches config middle) (second : Reaches middle later) :
    Reaches config later := by
  rcases first with ⟨n, same, soundFirst⟩
  induction n generalizing config with
  | zero =>
      cases same
      exact second
  | succ n inductionHypothesis =>
      refine .step (soundFirst 0 (Nat.succ_pos n)) (inductionHypothesis same ?_)
      exact fun i below => soundFirst (i + 1) (Nat.succ_lt_succ below)

/-- A run that gets to a sound end is sound for ever. -/
theorem Reaches.sound_iterate (reaches : Reaches config later) (finished : later.isDone = true)
    (sound : later.Sound) (i : Nat) : (Config.step^[i] config).Sound := by
  rcases reaches with ⟨k, same, soundBefore⟩
  by_cases before : i < k
  · exact soundBefore i before
  · rw [← same] at finished
    rw [iterate_step_eq_of_le finished (Nat.le_of_not_lt before), same]
    exact sound

theorem Outlasts.start (running : config.isDone = false) (sound : config.Sound) :
    Outlasts 0 config.state.sink config := by
  refine ⟨0, Nat.le_refl 0, running, rfl, ?_⟩
  intro i below
  cases Nat.le_zero.mp below
  exact sound

theorem Outlasts.step (sound : config.Sound) (outlasts : Outlasts n sink config.step) :
    Outlasts (n + 1) sink config := by
  rcases outlasts with ⟨m, least, running, written, soundLater⟩
  refine ⟨m + 1, Nat.succ_le_succ least, running, written, ?_⟩
  intro i below
  cases i with
  | zero => exact sound
  | succ i => exact soundLater i (Nat.le_of_succ_le_succ below)

theorem Outlasts.weaken {fewer : Nat} (fits : fewer ≤ n) (outlasts : Outlasts n sink config) :
    Outlasts fewer sink config := by
  rcases outlasts with ⟨m, least, rest⟩
  exact ⟨m, Nat.le_trans fits least, rest⟩

theorem Outlasts.of_reaches (reaches : Reaches config later) (outlasts : Outlasts n sink later) :
    Outlasts n sink config := by
  rcases reaches with ⟨k, same, soundFirst⟩
  induction k generalizing config with
  | zero =>
      cases same
      exact outlasts
  | succ k inductionHypothesis =>
      refine (Outlasts.step (soundFirst 0 (Nat.succ_pos k)) ?_).weaken (Nat.le_succ n)
      exact inductionHypothesis same fun i below => soundFirst (i + 1) (Nat.succ_lt_succ below)

end Config

open Config (Reaches Outlasts)

/-- The machine shows what the evaluator has come to, or is still running when the fuel is gone. -/
def Simulates {α : Type} (n : Nat) (config : Config) (Arrives : α → Store → Config → Prop)
    (Fails : RuntimeError → Store → Config → Prop) : Outcome α × Store → Prop
  | (.done result, store) => ∃ later, Reaches config later ∧ Arrives result store later
  | (.failed error, store) => ∃ later, Reaches config later ∧ Fails error store later
  | (.unfinished, store) => Outlasts n store.sink config

namespace Simulates

variable {α β : Type} {n : Nat} {config later : Config} {Arrives ArrivesToo : α → Store → Config → Prop}
  {Fails FailsToo : RuntimeError → Store → Config → Prop} {outcome : Outcome α × Store}

/-- Without fuel the evaluator does nothing, so it is enough that the machine has not finished. -/
theorem spent {store : Store} (running : config.isDone = false) (sound : config.Sound)
    (sameSink : config.state.sink = store.sink) :
    Simulates 0 config Arrives Fails (.unfinished, store) := by
  have outlasts := Outlasts.start running sound
  rw [sameSink] at outlasts
  exact outlasts

/-- One step of the machine pays for one unit of fuel. -/
theorem step (sound : config.Sound) (simulates : Simulates n config.step Arrives Fails outcome) :
    Simulates (n + 1) config Arrives Fails outcome := by
  match outcome, simulates with
  | (.done _, _), ⟨later, reaches, arrives⟩ => exact ⟨later, reaches.step sound, arrives⟩
  | (.failed _, _), ⟨later, reaches, fails⟩ => exact ⟨later, reaches.step sound, fails⟩
  | (.unfinished, _), outlasts => exact Outlasts.step sound outlasts

/-- A step that pays for nothing. -/
theorem ahead (sound : config.Sound) (simulates : Simulates n config.step Arrives Fails outcome) :
    Simulates n config Arrives Fails outcome := by
  match outcome, simulates with
  | (.done _, _), ⟨later, reaches, arrives⟩ => exact ⟨later, reaches.step sound, arrives⟩
  | (.failed _, _), ⟨later, reaches, fails⟩ => exact ⟨later, reaches.step sound, fails⟩
  | (.unfinished, _), outlasts => exact (Outlasts.step sound outlasts).weaken (Nat.le_succ n)

theorem imp (simulates : Simulates n config Arrives Fails outcome)
    (arrives : ∀ result store later, Arrives result store later → ArrivesToo result store later)
    (fails : ∀ error store later, Fails error store later → FailsToo error store later) :
    Simulates n config ArrivesToo FailsToo outcome := by
  match outcome, simulates with
  | (.done result, store), ⟨later, reaches, arrived⟩ =>
      exact ⟨later, reaches, arrives result store later arrived⟩
  | (.failed error, store), ⟨later, reaches, failed⟩ =>
      exact ⟨later, reaches, fails error store later failed⟩
  | (.unfinished, _), outlasts => exact outlasts

/-- What comes next begins where the first part has arrived; a failure of the first part passes on. -/
theorem bind {first : Run α} {next : α → Run β} {store : Store}
    {ArrivesNext : β → Store → Config → Prop}
    (simulates : Simulates n config Arrives Fails (first store))
    (go : ∀ result store later, Arrives result store later →
      Simulates n later ArrivesNext FailsToo (next result store))
    (pass : ∀ error store later, Fails error store later →
      ∃ last, Reaches later last ∧ FailsToo error store last) :
    Simulates n config ArrivesNext FailsToo ((first >>= next) store) := by
  change Simulates n config ArrivesNext FailsToo (first.andThen next store)
  unfold Run.andThen
  match first store, simulates with
  | (.done result, middleStore), ⟨middle, reaches, arrived⟩ =>
      have rest := go result middleStore middle arrived
      dsimp only
      match next result middleStore, rest with
      | (.done _, _), ⟨last, reachesLast, arrivedLast⟩ =>
          exact ⟨last, reaches.trans reachesLast, arrivedLast⟩
      | (.failed _, _), ⟨last, reachesLast, failedLast⟩ =>
          exact ⟨last, reaches.trans reachesLast, failedLast⟩
      | (.unfinished, _), outlasts => exact outlasts.of_reaches reaches
  | (.failed error, middleStore), ⟨middle, reaches, failed⟩ =>
      rcases pass error middleStore middle failed with ⟨last, reachesLast, failedLast⟩
      exact ⟨last, reaches.trans reachesLast, failedLast⟩
  | (.unfinished, _), outlasts => exact outlasts

end Simulates

end ScopedScript
