import Mathlib.Data.List.Forall2

namespace MetricWatch

/-! Outcomes that may be failures: when the steps that lead to one succeed. -/

variable {Failure Other Content Next : Type}

theorem bind_eq_ok_iff {outcome : Except Failure Content}
    {following : Content → Except Failure Next} {next : Next} :
    (outcome >>= following) = .ok next ↔
      ∃ content, outcome = .ok content ∧ following content = .ok next := by
  cases outcome with
  | error defect => simp [bind, Except.bind]
  | ok content => simp [bind, Except.bind]

theorem map_eq_ok_iff {outcome : Except Failure Content} {image : Content → Next} {next : Next} :
    outcome.map image = .ok next ↔ ∃ content, outcome = .ok content ∧ image content = next := by
  cases outcome with
  | error defect => simp [Except.map]
  | ok content => simp [Except.map]

theorem mapError_eq_ok_iff {outcome : Except Failure Content} {image : Failure → Other}
    {content : Content} :
    outcome.mapError image = .ok content ↔ outcome = .ok content := by
  cases outcome with
  | error defect => exact ⟨nofun, nofun⟩
  | ok content => exact ⟨fun same => congrArg Except.ok (Except.ok.inj same),
      fun same => congrArg Except.ok (Except.ok.inj same)⟩

/-- What is done with every entry of a list succeeds if it does so for each of them. -/
theorem mapM_all_iff {Entry Image : Type} {image : Entry → Except Failure Image}
    {Holds : Image → Prop} {entries : List Entry} :
    (∃ images, entries.mapM image = .ok images ∧ ∀ result ∈ images, Holds result) ↔
      ∀ entry ∈ entries, ∃ result, image entry = .ok result ∧ Holds result := by
  induction entries with
  | nil => simp [pure, Except.pure]
  | cons first entries induction =>
      rw [List.forall_mem_cons, ← induction]
      simp only [List.mapM_cons, bind_eq_ok_iff, pure, Except.pure, Except.ok.injEq]
      constructor
      · rintro ⟨_, ⟨result, isFirst, results, areOthers, rfl⟩, all⟩
        rw [List.forall_mem_cons] at all
        exact ⟨⟨result, isFirst, all.1⟩, results, areOthers, all.2⟩
      · rintro ⟨⟨result, isFirst, holds⟩, results, areOthers, all⟩
        exact ⟨_, ⟨result, isFirst, results, areOthers, rfl⟩,
          List.forall_mem_cons.mpr ⟨holds, all⟩⟩

/-- What is read back of every single entry is read back of a list of them. -/
theorem mapM_map_eq_ok {Entry Written Image : Type} {write : Entry → Written}
    {read : Written → Except Failure Image} {image : Entry → Image}
    (isRead : ∀ entry, read (write entry) = .ok (image entry)) (entries : List Entry) :
    (entries.map write).mapM read = .ok (entries.map image) := by
  have each : read ∘ write = fun entry => pure (image entry) := funext isRead
  rw [List.mapM_map, each]
  exact List.mapM_pure

/-- What is done with every entry of a list gives the results of the single entries, in their
order. -/
theorem mapM_eq_ok_iff {Entry Image : Type} {image : Entry → Except Failure Image}
    {entries : List Entry} {images : List Image} :
    entries.mapM image = .ok images ↔
      List.Forall₂ (fun entry result => image entry = .ok result) entries images := by
  induction entries generalizing images with
  | nil => cases images <;> simp [pure, Except.pure]
  | cons first entries induction =>
      simp only [List.mapM_cons, bind_eq_ok_iff, pure, Except.pure, Except.ok.injEq,
        List.forall₂_cons_left_iff, ← induction]
      constructor
      · rintro ⟨result, isFirst, results, areOthers, rfl⟩
        exact ⟨result, results, isFirst, areOthers, rfl⟩
      · rintro ⟨result, results, isFirst, areOthers, rfl⟩
        exact ⟨result, isFirst, results, areOthers, rfl⟩

/-- If it fails for some entry, it fails as it does for the first such entry. -/
theorem exists_first_failure {Entry Image : Type} {image : Entry → Except Failure Image}
    {entries : List Entry} (fails : ∃ entry ∈ entries, ¬ ∃ result, image entry = .ok result) :
    ∃ front entry back failure, entries = front ++ entry :: back ∧
      (∀ earlier ∈ front, ∃ result, image earlier = .ok result) ∧
      image entry = .error failure ∧ entries.mapM image = .error failure := by
  induction entries with
  | nil =>
      rcases fails with ⟨entry, member, _⟩
      cases member
  | cons first entries induction =>
      cases isFirst : image first with
      | error failure =>
          refine ⟨[], first, entries, failure, rfl, nofun, isFirst, ?_⟩
          rw [List.mapM_cons, isFirst]
          rfl
      | ok result =>
          have failsLater : ∃ entry ∈ entries, ¬ ∃ result, image entry = .ok result := by
            rcases fails with ⟨entry, member, fails⟩
            rcases List.mem_cons.mp member with rfl | later
            · exact absurd ⟨result, isFirst⟩ fails
            · exact ⟨entry, later, fails⟩
          rcases induction failsLater with
            ⟨front, entry, back, failure, rfl, succeed, isFailure, all⟩
          refine ⟨first :: front, entry, back, failure, rfl, ?_, isFailure, ?_⟩
          · exact List.forall_mem_cons.mpr ⟨⟨result, isFirst⟩, succeed⟩
          · rw [List.mapM_cons, isFirst, all]
            rfl

/-- Entries that are paired lead to the same results if those of every pair do. -/
theorem mapM_eq_of_forall₂ {Left Right Image : Type} {left : Left → Except Failure Image}
    {right : Right → Except Failure Image} {lefts : List Left} {rights : List Right}
    (paired : List.Forall₂ (fun one other => left one = right other) lefts rights) :
    lefts.mapM left = rights.mapM right := by
  induction paired with
  | nil => rfl
  | cons same _ induction => rw [List.mapM_cons, List.mapM_cons, same, induction]

/-- What is done with the entries in two steps is done with each of them. -/
theorem mapM_comp_eq_ok_iff {Entry Image Last : Type} {first : Entry → Except Failure Image}
    {second : Image → Except Other Last} {entries : List Entry} {results : List Last} :
    (∃ images, entries.mapM first = .ok images ∧ images.mapM second = .ok results) ↔
      List.Forall₂ (fun entry result => ∃ image, first entry = .ok image ∧
        second image = .ok result) entries results := by
  simp only [mapM_eq_ok_iff]
  constructor
  · rintro ⟨images, areImages, areResults⟩
    induction areImages generalizing results with
    | nil =>
        cases areResults
        exact .nil
    | cons isImage _ induction =>
        cases areResults with
        | cons isResult areResults => exact .cons ⟨_, isImage, isResult⟩ (induction areResults)
  · intro paired
    induction paired with
    | nil => exact ⟨[], .nil, .nil⟩
    | cons isResult _ induction =>
        rcases isResult with ⟨image, isImage, isResult⟩
        rcases induction with ⟨images, areImages, areResults⟩
        exact ⟨image :: images, .cons isImage areImages, .cons isResult areResults⟩

/-- An entry may be replaced by one that goes with the same result. -/
theorem forall₂_replace {Entry Image : Type} {Related : Entry → Image → Prop}
    {front back : List Entry} {entry other : Entry} {images : List Image}
    (paired : List.Forall₂ Related (front ++ entry :: back) images)
    (same : ∀ image, Related entry image → Related other image) :
    List.Forall₂ Related (front ++ other :: back) images := by
  induction front generalizing images with
  | nil =>
      cases paired with
      | cons isImage others => exact .cons (same _ isImage) others
  | cons first front induction =>
      cases paired with
      | cons isImage others => exact .cons isImage (induction others)

theorem mapM_replace {Entry Image : Type} {image : Entry → Except Failure Image}
    {front back : List Entry} {entry other : Entry} {images : List Image}
    (given : (front ++ entry :: back).mapM image = .ok images)
    (same : ∀ result, image entry = .ok result → image other = .ok result) :
    (front ++ other :: back).mapM image = .ok images :=
  mapM_eq_ok_iff.mpr (forall₂_replace (mapM_eq_ok_iff.mp given) same)

/-! A closed outcome can be tested. -/

def okSomeWith (test : Content → Bool) : Except Failure (Option Content) → Bool
  | .ok (some content) => test content
  | _ => false

theorem exists_of_okSomeWith {test : Content → Bool}
    {outcome : Except Failure (Option Content)} (passes : okSomeWith test outcome = true) :
    ∃ content, outcome = .ok (some content) ∧ test content = true := by
  unfold okSomeWith at passes
  split at passes
  · exact ⟨_, rfl, passes⟩
  · cases passes

end MetricWatch
