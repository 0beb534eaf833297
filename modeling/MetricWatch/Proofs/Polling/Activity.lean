import MetricWatch.Polling.World

namespace MetricWatch.Polling

/-! Activity only fades: whatever polls and the program around them do to existing
registries, no handle becomes active again and none is forgotten. Only a new poll
is active afterwards without having been so before. -/

namespace Registry

theorem size_deactivate (registry : Registry) (handle : Handle) :
    (registry.deactivate handle).size = registry.size := by
  simp [size, deactivate]

theorem size_cancelAll (registry : Registry) : registry.cancelAll.size = registry.size := by
  simp [size, cancelAll]

theorem isActive_register_of_lt (registry : Registry) {handle : Handle}
    (known : handle.index < registry.size) :
    registry.register.isActive handle = registry.isActive handle := by
  have different : handle ≠ registry.nextHandle := by
    intro equal
    rw [equal] at known
    exact Nat.lt_irrefl _ known
  rw [isActive_register, beq_false_of_ne different, Bool.or_false]

end Registry

namespace World

/-- A registry hands out its handles one after the other. -/
def Knows (world : World) (index : Nat) (handle : Handle) : Prop :=
  ∃ registry, world.registries[index]? = some registry ∧ handle.index < registry.size

def size? (world : World) (index : Nat) : Option Nat :=
  world.registries[index]?.map Registry.size

theorem knows_iff {world : World} {index : Nat} {handle : Handle} :
    world.Knows index handle ↔ ∃ size, world.size? index = some size ∧ handle.index < size := by
  constructor
  · rintro ⟨registry, present, below⟩
    exact ⟨registry.size, by rw [size?, present, Option.map_some], below⟩
  · rintro ⟨size, isSize, below⟩
    rcases Option.map_eq_some_iff.mp isSize with ⟨registry, present, rfl⟩
    exact ⟨registry, present, below⟩

structure Fades (world next : World) : Prop where
  isActive : ∀ {index handle}, next.isActive index handle → world.isActive index handle
  size? : ∀ index, next.size? index = world.size? index

namespace Fades

theorem refl (world : World) : world.Fades world := ⟨id, fun _ => rfl⟩

theorem trans {first second third : World} (earlier : first.Fades second)
    (later : second.Fades third) : first.Fades third :=
  ⟨fun active => earlier.isActive (later.isActive active),
    fun index => (later.size? index).trans (earlier.size? index)⟩

theorem of_registries_eq {world next : World} (equal : next.registries = world.registries) :
    world.Fades next := by
  constructor
  · intro index handle active
    rwa [World.isActive, equal] at active
  · intro index
    rw [World.size?, equal, World.size?]

theorem knows {world next : World} (fades : world.Fades next) {index : Nat} {handle : Handle}
    (known : world.Knows index handle) : next.Knows index handle := by
  rw [knows_iff, fades.size?]
  exact knows_iff.mp known

end Fades

theorem isActive_of_getElem? {world : World} {index : Nat} {registry : Registry}
    (present : world.registries[index]? = some registry) (handle : Handle) :
    world.isActive index handle = registry.isActive handle := by
  simp [isActive, present]

theorem getElem?_of_available {world : World} {index : Nat} {registry : Registry}
    (available : world.registry? index = some registry) :
    world.registries[index]? = some registry := by
  unfold registry? at available
  split at available
  · next found =>
      split at available
      · cases available
      · rw [found, available]
  · cases available

theorem registries_setRegistry {world : World} {index : Nat} {registry changed : Registry}
    (present : world.registries[index]? = some registry) (place : Nat) :
    (world.setRegistry index changed).registries[place]? =
      if index = place then some changed else world.registries[place]? := by
  have inside : index < world.registries.length :=
    (List.getElem?_eq_some_iff.mp present).1
  simp only [setRegistry, List.getElem?_set, inside, if_true]

theorem isActive_setRegistry {world : World} {index : Nat} {registry changed : Registry}
    (present : world.registries[index]? = some registry) (place : Nat) (handle : Handle) :
    (world.setRegistry index changed).isActive place handle =
      if index = place then changed.isActive handle else world.isActive place handle := by
  simp only [isActive, registries_setRegistry present]
  by_cases same : index = place
  · simp [same]
  · simp [same]

theorem knows_setRegistry {world : World} {index place : Nat} {registry changed : Registry}
    {handle : Handle} (present : world.registries[index]? = some registry)
    (keepsSize : registry.size ≤ changed.size) (known : world.Knows place handle) :
    (world.setRegistry index changed).Knows place handle := by
  rcases known with ⟨found, foundAt, below⟩
  rw [Knows, registries_setRegistry present]
  split
  · rename_i same
    subst same
    rw [present, Option.some.injEq] at foundAt
    subst foundAt
    exact ⟨changed, rfl, Nat.lt_of_lt_of_le below keepsSize⟩
  · exact ⟨found, foundAt, below⟩

theorem fades_setRegistry {world : World} {index : Nat} {registry changed : Registry}
    (present : world.registries[index]? = some registry)
    (keepsSize : changed.size = registry.size)
    (fades : ∀ handle, changed.isActive handle → registry.isActive handle) :
    world.Fades (world.setRegistry index changed) := by
  constructor
  · intro place handle active
    rw [isActive_setRegistry present] at active
    split at active
    · rename_i same
      subst same
      rw [isActive_of_getElem? present]
      exact fades handle active
    · exact active
  · intro place
    rw [size?, registries_setRegistry present]
    split
    · rename_i same
      rw [Option.map_some, keepsSize, size?, ← same, present, Option.map_some]
    · rfl

theorem isActive_deactivate (world : World) (index place : Nat) (cancelled handle : Handle) :
    (world.deactivate index cancelled).isActive place handle =
      (world.isActive place handle && !(decide (index = place) && handle == cancelled)) := by
  simp only [isActive, deactivate, List.getElem?_modify]
  cases found : world.registries[place]? with
  | none => simp
  | some registry =>
      by_cases same : index = place
      · simp [same, Registry.isActive_deactivate, bne]
      · simp [same]

theorem isActive_deactivate_self (world : World) (index : Nat) (handle : Handle) :
    (world.deactivate index handle).isActive index handle = false := by
  simp [isActive_deactivate]

theorem fades_deactivate (world : World) (index : Nat) (cancelled : Handle) :
    world.Fades (world.deactivate index cancelled) := by
  constructor
  · intro place handle active
    rw [isActive_deactivate, Bool.and_eq_true] at active
    exact active.1
  · intro place
    simp only [size?, deactivate, List.getElem?_modify]
    by_cases same : index = place
    · simp [same, Function.comp_def, Registry.size_deactivate]
    · simp [same]

theorem fades_cancel {world : World} {index : Nat} {registry : Registry} (source : Source)
    (handle : Handle) (present : world.registries[index]? = some registry) :
    world.Fades (world.cancel source index registry handle).1 := by
  unfold cancel
  split
  · refine (fades_setRegistry present (registry.size_deactivate handle) ?_).trans
      (.of_registries_eq rfl)
    intro other active
    rw [Registry.isActive_deactivate, Bool.and_eq_true] at active
    exact active.1
  · exact .refl world

/-- No operation makes a handle active. -/
theorem fades_operate (world : World) (source : Source) (operation : Operation) :
    world.Fades (world.operate source operation).1 := by
  have nothingActive : ∀ (registry : Registry) (handle : Handle),
      registry.cancelAll.isActive handle → registry.isActive handle := by
    intro registry handle active
    rw [Registry.isActive_cancelAll] at active
    cases active
  cases operation with
  | cancel index poll =>
      cases available : world.registry? index with
      | none => simpa only [operate, available] using Fades.refl world
      | some registry =>
          cases target : world.handle? poll with
          | none => simpa only [operate, available, target] using Fades.refl world
          | some handle =>
              simpa only [operate, available, target] using
                fades_cancel source handle (getElem?_of_available available)
  | cancelAll index =>
      cases available : world.registry? index with
      | none => simpa only [operate, available] using Fades.refl world
      | some registry =>
          simpa only [operate, available] using
            fades_setRegistry (getElem?_of_available available) registry.size_cancelAll
              (nothingActive registry)
  | drop index =>
      cases available : world.registry? index with
      | none => simpa only [operate, available] using Fades.refl world
      | some registry =>
          have dropped : world.Fades (world.setRegistry index registry.drop) :=
            fades_setRegistry (getElem?_of_available available) registry.size_cancelAll
              (nothingActive registry)
          simpa only [operate, available] using dropped

theorem isActive_register {world : World} {index place : Nat} {registry : Registry}
    {handle : Handle} (plan : Plan) (present : world.registries[index]? = some registry)
    (known : world.Knows place handle) :
    (world.register index registry plan).isActive place handle =
      world.isActive place handle := by
  change (world.setRegistry index registry.register).isActive place handle = _
  rw [isActive_setRegistry present]
  split
  · rename_i same
    subst same
    rcases known with ⟨found, foundAt, below⟩
    rw [present, Option.some.injEq] at foundAt
    subst foundAt
    rw [isActive_of_getElem? present, Registry.isActive_register_of_lt registry below]
  · rfl

theorem knows_register {world : World} {index place : Nat} {registry : Registry}
    {handle : Handle} (plan : Plan) (present : world.registries[index]? = some registry)
    (known : world.Knows place handle) :
    (world.register index registry plan).Knows place handle := by
  have grows : registry.size ≤ registry.register.size := by
    simp [Registry.size, Registry.register]
  have knownStill : (world.setRegistry index registry.register).Knows place handle :=
    knows_setRegistry present grows known
  exact knownStill

theorem knows_register_nextHandle {world : World} {index : Nat} {registry : Registry}
    (plan : Plan) (present : world.registries[index]? = some registry) :
    (world.register index registry plan).Knows index registry.nextHandle := by
  refine ⟨registry.register, ?_, ?_⟩
  · change (world.setRegistry index registry.register).registries[index]? = _
    rw [registries_setRegistry present, if_pos rfl]
  · simp [Registry.nextHandle, Registry.size, Registry.register]

theorem isActive_register_nextHandle {world : World} {index : Nat} {registry : Registry}
    (plan : Plan) (present : world.registries[index]? = some registry) :
    (world.register index registry plan).isActive index registry.nextHandle := by
  change (world.setRegistry index registry.register).isActive index registry.nextHandle = _
  rw [isActive_setRegistry present, if_pos rfl, Registry.isActive_register]
  simp

end World

end MetricWatch.Polling
