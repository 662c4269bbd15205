import LoxLang.Proofs.Execution.Retelling

/-!
Runs that tell less of themselves: hushing a machine before a run is the same as hushing
it afterwards.
-/

namespace LoxLang

/-- Whether an event is told where no debug line above a level is. -/
def Event.isToldAt (limit : Nat) : Event → Bool
  | debugged level _ => decide (level ≤ limit)
  | printed _ | noticed _ => true

/-- What no debug line has a part in is told at every level. -/
theorem Event.filterMap_isToldAt {α : Type} {part : Event → Option α}
    (silent : ∀ level message, part (.debugged level message) = none) (limit : Nat)
    (events : List Event) :
    (events.filter (isToldAt limit)).filterMap part = events.filterMap part := by
  rw [List.filterMap_filter]
  congr 1
  funext event
  cases event with
  | printed | noticed => rfl
  | debugged level message =>
    -- The line may be dropped or not, and gives nothing either way.
    rw [silent, ite_self]

/-- A machine that tells nothing above a level, and has told nothing above it. -/
def Machine.hushed (limit : Nat) (machine : Machine) : Machine :=
  { machine with
    debugLevel := min limit machine.debugLevel
    events := machine.events.filter (Event.isToldAt limit) }

/-- Hushing is a change of what is told: debug lines above the level are dropped, and no others. -/
def Retelling.hushing (limit : Nat) : Retelling where
  level own := min limit own
  events := List.filter (Event.isToldAt limit)
  level_le own := Nat.min_le_right limit own
  printed _ _ := rfl
  noticed _ _ := rfl
  debugged own depth message told within := by
    have both : depth ≤ min limit own ↔ depth ≤ limit := by omega
    simp [List.filter_cons, Event.isToldAt, both]

end LoxLang
