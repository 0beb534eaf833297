namespace MetricWatch.Polling

/-- What becomes of a poll whose callback fails. -/
inductive FailurePolicy where
  | continue
  | stop
deriving DecidableEq

/-! A registry hands out a handle for every poll and keeps whether it is active.
Entries are never removed, so a handle stays valid; it is only an index, and says
nothing about the registry it came from. -/

/-- A handle is the number of a poll in its registry. -/
structure Handle where
  index : Nat
deriving DecidableEq

def Handle.toText (handle : Handle) : String :=
  "#" ++ toString handle.index

/-- The activity of all polls that have ever been registered, by handle. -/
structure Registry where
  policy : FailurePolicy
  activity : List Bool
  isDropped : Bool
deriving DecidableEq

namespace Registry

def empty (policy : FailurePolicy) : Registry := ⟨policy, [], false⟩

def size (registry : Registry) : Nat := registry.activity.length

def isActive (registry : Registry) (handle : Handle) : Bool :=
  registry.activity.getD handle.index false

def nextHandle (registry : Registry) : Handle := ⟨registry.size⟩

def register (registry : Registry) : Registry :=
  { registry with activity := registry.activity ++ [true] }

/-- Nothing makes an inactive handle active again. -/
def deactivate (registry : Registry) (handle : Handle) : Registry :=
  { registry with activity := registry.activity.set handle.index false }

def cancelAll (registry : Registry) : Registry :=
  { registry with activity := registry.activity.map fun _ => false }

def drop (registry : Registry) : Registry :=
  { registry.cancelAll with isDropped := true }

theorem isActive_register (registry : Registry) (handle : Handle) :
    registry.register.isActive handle =
      (registry.isActive handle || handle == registry.nextHandle) := by
  simp only [isActive, register, nextHandle, size, List.getD_eq_getElem?_getD]
  rcases Nat.lt_trichotomy handle.index registry.activity.length with below | same | above
  · have different : handle ≠ ⟨registry.activity.length⟩ := by
      intro equal
      rw [equal] at below
      exact Nat.lt_irrefl _ below
    simp [List.getElem?_append_left below, different]
  · have equal : handle = ⟨registry.activity.length⟩ := by
      cases handle
      simp_all
    simp [equal]
  · have different : handle ≠ ⟨registry.activity.length⟩ := by
      intro equal
      rw [equal] at above
      exact Nat.lt_irrefl _ above
    have beyond : (registry.activity ++ [true]).length ≤ handle.index := by
      simp only [List.length_append, List.length_singleton]
      exact above
    simp [List.getElem?_eq_none beyond, List.getElem?_eq_none (Nat.le_of_lt above), different]

theorem isActive_deactivate (registry : Registry) (cancelled handle : Handle) :
    (registry.deactivate cancelled).isActive handle =
      (registry.isActive handle && handle != cancelled) := by
  simp only [isActive, deactivate, List.getD_eq_getElem?_getD, List.getElem?_set]
  by_cases same : cancelled.index = handle.index
  · have equal : handle = cancelled := by
      cases handle
      cases cancelled
      simp_all
    subst equal
    simp only [↓reduceIte, bne_self_eq_false, Bool.and_false]
    split <;> rfl
  · have different : handle ≠ cancelled := by
      intro equal
      exact same (equal ▸ rfl)
    simp [same, different]

theorem isActive_cancelAll (registry : Registry) (handle : Handle) :
    registry.cancelAll.isActive handle = false := by
  simp only [isActive, cancelAll, List.getD_eq_getElem?_getD, List.getElem?_map]
  cases registry.activity[handle.index]? <;> rfl

end Registry

end MetricWatch.Polling
