import TemplateJsx.Proofs.EmissionProperties

/-!
# The first fault

Work on a template stops at the first fault that it meets. So its outcome is told by the list of all
faults in the order in which they are met: those of one step, and then those of the next.
-/

set_option autoImplicit false

namespace TemplateJsx

/-- An outcome that is the first of these faults, or a success where there is none. -/
def StopsAt {α : Type} (outcome : Except Fault α) : List Fault → Prop
  | [] => ∃ value, outcome = .ok value
  | fault :: _ => outcome = .error fault

namespace StopsAt

variable {α β : Type}

theorem ok (value : α) : StopsAt (.ok value) [] := ⟨value, rfl⟩

theorem isOk_iff {outcome : Except Fault α} {faults : List Fault} (stops : StopsAt outcome faults) :
    (∃ value, outcome = .ok value) ↔ faults = [] := by
  cases faults with
  | nil => exact ⟨fun _ => rfl, fun _ => stops⟩
  | cons fault faults =>
      have failed : outcome = .error fault := stops
      simp [failed]

theorem error_iff {outcome : Except Fault α} {faults : List Fault} (stops : StopsAt outcome faults)
    {fault : Fault} : outcome = .error fault ↔ faults.head? = some fault := by
  cases faults with
  | nil =>
      obtain ⟨value, rfl⟩ := stops
      simp
  | cons first faults =>
      have failed : outcome = .error first := stops
      simp [failed]

theorem bind {first : Except Fault α} {next : α → Except Fault β} {earlier later : List Fault}
    (stops : StopsAt first earlier)
    (continued : ∀ value, first = .ok value → StopsAt (next value) later) :
    StopsAt (first >>= next) (earlier ++ later) := by
  cases earlier with
  | nil =>
      obtain ⟨value, rfl⟩ := stops
      exact continued value rfl
  | cons fault _ =>
      have failed : first = .error fault := stops
      subst failed
      rfl

theorem map {first : Except Fault α} {next : α → Except Fault β} {faults : List Fault}
    (stops : StopsAt first faults) (succeeds : ∀ value, ∃ result, next value = .ok result) :
    StopsAt (first >>= next) faults := by
  have continued := stops.bind fun value _ => show StopsAt (next value) [] from succeeds value
  rwa [List.append_nil] at continued

theorem mapM {items : List α} {step : α → Except Fault β} {faults : α → List Fault}
    (stops : ∀ item ∈ items, StopsAt (step item) (faults item)) :
    StopsAt (items.mapM step) (items.flatMap faults) := by
  induction items with
  | nil => exact ⟨[], rfl⟩
  | cons item items ih =>
      rw [List.mapM_cons, List.flatMap_cons]
      apply (stops item List.mem_cons_self).bind
      intro value _
      apply (ih fun item member => stops item (List.mem_cons_of_mem _ member)).map
      intro values
      exact ⟨value :: values, rfl⟩

theorem concat {nodes : List Node} {emitted : Node → Traced Text} {faults : Node → List Fault}
    (stops : ∀ node ∈ nodes, StopsAt (emitted node).outcome (faults node)) :
    StopsAt (Traced.concat (nodes.map emitted)).outcome (nodes.flatMap faults) := by
  induction nodes with
  | nil => exact StopsAt.ok ("" : Text)
  | cons node nodes ih =>
      rw [List.map_cons, Traced.concat, List.flatMap_cons, Traced.outcome_bind]
      apply (stops node List.mem_cons_self).bind
      intro text _
      rw [Traced.outcome_bind]
      apply (ih fun node member => stops node (List.mem_cons_of_mem _ member)).map
      intro rest
      exact ⟨text ++ rest, rfl⟩

end StopsAt

end TemplateJsx
