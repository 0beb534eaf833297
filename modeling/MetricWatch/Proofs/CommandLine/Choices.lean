import Mathlib.Data.List.Forall2
import MetricWatch.CommandLine.Arguments
import MetricWatch.Proofs.CommandLine.Values

namespace MetricWatch.CommandLine

/-! Command lines that make every choice at most once. They are read to what they choose,
in whatever order the choices stand and however each of them is written. -/

/-- One option of a command line: a setting with a value for it, or that polling is to stop
at the first error. -/
inductive Choice where
  | value (setting : Setting) (value : setting.Value)
  | stopOnError

namespace Choice

/-- The option without its value. -/
def option : Choice → Option Setting
  | .value setting _ => some setting
  | .stopOnError => none

variable [Url.NameMapping]

/-- The arguments that stand for a choice. A value of its own argument does not begin with a
dash; one that is attached may be any. -/
inductive IsWritten : Choice → List String → Prop
  | long {setting : Setting} {value : setting.Value} {text : String}
      (isValue : setting.Denotes text value) (notDashed : text.toList.head? ≠ some '-') :
      IsWritten (.value setting value) [setting.longForm, text]
  | short {setting : Setting} {value : setting.Value} {text form : String}
      (isForm : setting.shortForm? = some form) (isValue : setting.Denotes text value)
      (notDashed : text.toList.head? ≠ some '-') :
      IsWritten (.value setting value) [form, text]
  | attachedToLong {setting : Setting} {value : setting.Value} {text : String}
      (isValue : setting.Denotes text value) :
      IsWritten (.value setting value) [setting.longForm ++ "=" ++ text]
  | attachedToShort {setting : Setting} {value : setting.Value} {text form : String}
      (isForm : setting.shortForm? = some form) (isValue : setting.Denotes text value) :
      IsWritten (.value setting value) [form ++ "=" ++ text]
  | besideShort {setting : Setting} {value : setting.Value} {text form : String}
      (isForm : setting.shortForm? = some form) (isValue : setting.Denotes text value)
      (nonempty : text.toList ≠ []) (notMarked : text.toList.head? ≠ some '=') :
      IsWritten (.value setting value) [form ++ text]
  | stopOnError : IsWritten .stopOnError ["--stop-on-error"]

end Choice

namespace Given

/-- The option of a choice has not been given. -/
def Lacks (given : Given) : Choice → Prop
  | .value setting _ => given.value setting = none
  | .stopOnError => given.stopOnError = false

/-- What is given are the choices and nothing else. -/
structure Holds (given : Given) (choices : List Choice) : Prop where
  value : ∀ (setting : Setting) (value : setting.Value),
    given.value setting = some value ↔ .value setting value ∈ choices
  stopOnError : given.stopOnError = true ↔ .stopOnError ∈ choices

theorem Holds.value_eq_none_iff {given : Given} {choices : List Choice}
    (holds : given.Holds choices) {setting : Setting} :
    given.value setting = none ↔ some setting ∉ choices.map Choice.option := by
  constructor
  · intro isOpen isChosen
    have ⟨choice, member, isOption⟩ := List.mem_map.mp isChosen
    cases choice with
    | value chosen value =>
        cases isOption
        have isGiven := (holds.value setting value).mpr member
        rw [isOpen] at isGiven
        cases isGiven
    | stopOnError => cases isOption
  · intro notChosen
    apply Option.eq_none_iff_forall_not_mem.mpr
    intro value isGiven
    exact notChosen (List.mem_map.mpr ⟨_, (holds.value setting value).mp isGiven, rfl⟩)

theorem Holds.lacks {given : Given} {choices : List Choice} {choice : Choice}
    (holds : given.Holds choices) (isNew : choice.option ∉ choices.map Choice.option) :
    given.Lacks choice := by
  cases choice with
  | value setting value =>
      exact holds.value_eq_none_iff.mpr isNew
  | stopOnError =>
      change given.stopOnError = false
      apply Bool.eq_false_iff.mpr
      intro isGiven
      exact isNew (List.mem_map_of_mem (holds.stopOnError.mp isGiven))

theorem Holds.eq_of_mem_iff {given other : Given} {choices others : List Choice}
    (holds : given.Holds choices) (otherHolds : other.Holds others)
    (sameChoices : ∀ choice, choice ∈ choices ↔ choice ∈ others) : given = other := by
  have sameValue : given.value = other.value := by
    funext setting
    apply Option.ext
    intro value
    exact (holds.value setting value).trans
      ((sameChoices _).trans (otherHolds.value setting value).symm)
  have sameStop : given.stopOnError = other.stopOnError :=
    Bool.eq_iff_iff.mpr
      (holds.stopOnError.trans ((sameChoices _).trans otherHolds.stopOnError.symm))
  cases given
  cases other
  cases sameValue
  cases sameStop
  rfl

theorem holds_nothing : nothing.Holds [] where
  value := fun _ _ => ⟨nofun, nofun⟩
  stopOnError := ⟨nofun, nofun⟩

/-- What is given after one more choice. -/
def add (given : Given) : Choice → Given
  | .value setting value => given.set setting value
  | .stopOnError => { given with stopOnError := true }

theorem Holds.add {given : Given} {choices : List Choice} {choice : Choice}
    (holds : given.Holds choices) (isNew : choice.option ∉ choices.map Choice.option) :
    (given.add choice).Holds (choices ++ [choice]) := by
  cases choice with
  | value setting value =>
      constructor
      · intro other otherValue
        rw [List.mem_append, List.mem_singleton, ← holds.value other otherValue]
        by_cases same : other = setting
        · cases same
          have lacks : given.value setting = none := holds.lacks isNew
          rw [Given.add, value_set_same, lacks]
          constructor
          · intro isValue
            cases isValue
            exact .inr rfl
          · rintro (isGiven | isValue)
            · cases isGiven
            · cases isValue
              rfl
        · rw [Given.add, value_set_other given setting value same]
          constructor
          · exact .inl
          · rintro (isGiven | isValue)
            · exact isGiven
            · cases isValue
              exact absurd rfl same
      · rw [List.mem_append, List.mem_singleton, ← holds.stopOnError]
        exact ⟨.inl, fun isGiven => isGiven.elim id nofun⟩
  | stopOnError =>
      constructor
      · intro other otherValue
        rw [List.mem_append, List.mem_singleton, ← holds.value other otherValue]
        exact ⟨.inl, fun isGiven => isGiven.elim id nofun⟩
      · exact ⟨fun _ => List.mem_append_right choices (List.mem_singleton_self _), fun _ => rfl⟩

variable [Url.NameMapping]

theorem assign_of_denotes {given : Given} {setting : Setting} {text : String}
    {value : setting.Value} (lacks : given.Lacks (.value setting value))
    (isValue : setting.Denotes text value) :
    given.assign setting text = .ok (given.add (.value setting value)) := by
  change given.value setting = none at lacks
  rw [Given.assign, lacks, Setting.read_eq_ok_iff.mpr isValue]
  rfl

end Given

/-! Names and letters are found again. -/

namespace Setting

theorem ofName?_name (setting : Setting) : ofName? setting.name = some setting := by
  cases setting <;> decide

theorem ofLetter?_of_letter? {setting : Setting} {letter : Char}
    (isLetter : setting.letter? = some letter) : ofLetter? letter = some setting := by
  cases setting <;> cases isLetter <;> decide

theorem letter_ne_dash {setting : Setting} {letter : Char}
    (isLetter : setting.letter? = some letter) : letter ≠ '-' := by
  cases setting <;> cases isLetter <;> decide

theorem name_toList_ne_nil (setting : Setting) : setting.name.toList ≠ [] := by
  cases setting <;> decide

theorem splitAtEquals_name (setting : Setting) :
    Progress.splitAtEquals setting.name.toList = (setting.name, none) := by
  cases setting <;> decide

theorem splitAtEquals_name_append (setting : Setting) (text : List Char) :
    Progress.splitAtEquals (setting.name.toList ++ '=' :: text) =
      (setting.name, some (String.ofList text)) := by
  cases setting <;> rfl

end Setting

namespace Progress

theorem attachedToLetter_toList {text : String} (nonempty : text.toList ≠ [])
    (notMarked : text.toList.head? ≠ some '=') : attachedToLetter text.toList = some text := by
  unfold attachedToLetter
  split
  · rename_i isEmpty
    exact absurd isEmpty nonempty
  · rename_i isMarked
    exact absurd (congrArg List.head? isMarked) notMarked
  · rw [String.ofList_toList]

variable [Url.NameMapping]

/-- Everything that has been read so far is good, with what is given by it, and more options
may follow. -/
structure StandsFor (progress : Progress) (given : Given) : Prop where
  optionsGoOn : progress.optionsEnded = false
  resolved : progress.resolved = .ok given

theorem standsFor_start : start.StandsFor .nothing where
  optionsGoOn := rfl
  resolved := rfl

/-! What the next argument is taken for. -/

theorem step_named {progress : Progress} (optionsGoOn : progress.optionsEnded = false)
    {argument : String} {named : List Char} (isNamed : argument.toList = '-' :: '-' :: named)
    (nonempty : named ≠ []) :
    progress.step argument =
      progress.readNamed (splitAtEquals named).1 (splitAtEquals named).2 := by
  rw [step, optionsGoOn, if_neg Bool.false_ne_true, isNamed]
  cases named with
  | nil => exact absurd rfl nonempty
  | cons first rest => rfl

theorem step_lettered {progress : Progress} (optionsGoOn : progress.optionsEnded = false)
    {argument : String} {letter : Char} {rest : List Char}
    (isLettered : argument.toList = '-' :: letter :: rest) (notDash : letter ≠ '-') :
    progress.step argument = progress.readLetter letter rest := by
  rw [step, optionsGoOn, if_neg Bool.false_ne_true, isLettered]
  split
  · rename_i isDashes
    cases isDashes
    exact absurd rfl notDash
  · rename_i isDashes
    cases isDashes
    exact absurd rfl notDash
  · rename_i isSame
    cases isSame
    rfl
  · rename_i notLettered
    exact absurd rfl (notLettered letter rest)

theorem step_plain {progress : Progress} (optionsGoOn : progress.optionsEnded = false)
    {argument : String} (notDashed : argument.toList.head? ≠ some '-') :
    progress.step argument = progress.readPlain argument := by
  rw [step, optionsGoOn, if_neg Bool.false_ne_true]
  split
  · rename_i isDashed
    exact absurd (congrArg List.head? isDashed) notDashed
  · rename_i isDashed
    exact absurd (congrArg List.head? isDashed) notDashed
  · rename_i isDashed
    exact absurd (congrArg List.head? isDashed) notDashed
  · rfl

theorem step_longForm {progress : Progress} (optionsGoOn : progress.optionsEnded = false)
    (setting : Setting) :
    progress.step setting.longForm = progress.readSetting setting none := by
  have isNamed : setting.longForm.toList = '-' :: '-' :: setting.name.toList := by
    rw [setting.longForm_eq]
    exact String.toList_append
  rw [step_named optionsGoOn isNamed setting.name_toList_ne_nil, setting.splitAtEquals_name,
    readNamed, setting.ofName?_name]

theorem step_attachedToLong {progress : Progress} (optionsGoOn : progress.optionsEnded = false)
    (setting : Setting) (text : String) :
    progress.step (setting.longForm ++ "=" ++ text) =
      progress.readSetting setting (some text) := by
  have isNamed : (setting.longForm ++ "=" ++ text).toList =
      '-' :: '-' :: (setting.name.toList ++ '=' :: text.toList) := by
    simp only [setting.longForm_eq, String.toList_append, List.append_assoc]
    rfl
  have nonempty := List.append_ne_nil_of_left_ne_nil setting.name_toList_ne_nil ('=' :: text.toList)
  rw [step_named optionsGoOn isNamed nonempty, setting.splitAtEquals_name_append,
    String.ofList_toList, readNamed, setting.ofName?_name]

theorem step_shortForm {progress : Progress} (optionsGoOn : progress.optionsEnded = false)
    {setting : Setting} {form : String} (isForm : setting.shortForm? = some form)
    (rest : String) :
    progress.step (form ++ rest) =
      progress.readSetting setting (attachedToLetter rest.toList) := by
  rw [setting.shortForm?_eq] at isForm
  obtain ⟨letter, isLetter, rfl⟩ := Option.map_eq_some_iff.mp isForm
  have isLettered : ("-" ++ String.singleton letter ++ rest).toList =
      '-' :: letter :: rest.toList := by
    simp only [String.toList_append, String.toList_singleton, List.append_assoc]
    rfl
  rw [step_lettered optionsGoOn isLettered (Setting.letter_ne_dash isLetter), readLetter,
    Setting.ofLetter?_of_letter? isLetter]

/-! What a choice does to what has been read. -/

theorem StandsFor.readSetting_attached {progress : Progress} {given : Given}
    (stands : progress.StandsFor given) {setting : Setting} {text : String}
    {value : setting.Value} (lacks : given.Lacks (.value setting value))
    (isValue : setting.Denotes text value) :
    ∃ next, progress.readSetting setting (some text) = .ok next ∧
      next.StandsFor (given.add (.value setting value)) := by
  refine ⟨⟨given.add (.value setting value), none, progress.optionsEnded⟩, ?_,
    stands.optionsGoOn, rfl⟩
  rw [readSetting, stands.resolved]
  change Except.bind ((given.assign setting text).mapError Interruption.refused) _ = _
  rw [Given.assign_of_denotes lacks isValue]
  rfl

/-- The value of its own argument is read when the next option begins, or at the end. -/
theorem StandsFor.readSetting_awaiting {progress : Progress} {given : Given}
    (stands : progress.StandsFor given) {setting : Setting} {text : String}
    {value : setting.Value} (lacks : given.Lacks (.value setting value))
    (isValue : setting.Denotes text value) (notDashed : text.toList.head? ≠ some '-') :
    ∃ next, (progress.readSetting setting none >>= fun awaiting => awaiting.step text) = .ok next ∧
      next.StandsFor (given.add (.value setting value)) := by
  let awaiting : Progress := ⟨given, some ⟨setting, none⟩, progress.optionsEnded⟩
  let next : Progress := ⟨given, some ⟨setting, some text⟩, progress.optionsEnded⟩
  have goesOn : awaiting.optionsEnded = false := stands.optionsGoOn
  have isResolved : next.resolved = .ok (given.add (.value setting value)) := by
    change (given.assign setting text).mapError Interruption.refused = _
    rw [Given.assign_of_denotes lacks isValue]
    rfl
  refine ⟨next, ?_, stands.optionsGoOn, isResolved⟩
  rw [readSetting, stands.resolved]
  change awaiting.step text = .ok next
  rw [step_plain goesOn notDashed]
  rfl

theorem StandsFor.step_stopOnError {progress : Progress} {given : Given}
    (stands : progress.StandsFor given) (lacks : given.Lacks .stopOnError) :
    ∃ next, progress.step ("--" ++ stopOnErrorName) = .ok next ∧
      next.StandsFor (given.add .stopOnError) := by
  change given.stopOnError = false at lacks
  have isNamed : ("--" ++ stopOnErrorName).toList = '-' :: '-' :: stopOnErrorName.toList :=
    String.toList_append
  have isSplit : splitAtEquals stopOnErrorName.toList = (stopOnErrorName, none) := by decide
  have isFlag (progress : Progress) :
      progress.readNamed stopOnErrorName none = progress.readStopOnError := rfl
  refine ⟨⟨given.add .stopOnError, none, progress.optionsEnded⟩, ?_, stands.optionsGoOn, rfl⟩
  rw [step_named stands.optionsGoOn isNamed (by decide), isSplit, isFlag, readStopOnError,
    stands.resolved]
  change (if given.stopOnError then _ else _) = _
  rw [lacks]
  rfl

theorem StandsFor.foldlM_piece {progress : Progress} {given : Given}
    (stands : progress.StandsFor given) {choice : Choice} {piece : List String}
    (lacks : given.Lacks choice) (isWritten : choice.IsWritten piece) :
    ∃ next, piece.foldlM step progress = .ok next ∧ next.StandsFor (given.add choice) := by
  have goOn := stands.optionsGoOn
  cases isWritten with
  | @long setting value text isValue notDashed =>
      simp only [List.foldlM_cons, List.foldlM_nil, bind_pure, step_longForm goOn]
      exact stands.readSetting_awaiting lacks isValue notDashed
  | @short setting value text form isForm isValue notDashed =>
      have isStep := step_shortForm goOn isForm ""
      rw [String.append_empty] at isStep
      simp only [List.foldlM_cons, List.foldlM_nil, bind_pure, isStep]
      exact stands.readSetting_awaiting lacks isValue notDashed
  | @attachedToLong setting value text isValue =>
      simp only [List.foldlM_cons, List.foldlM_nil, bind_pure, step_attachedToLong goOn]
      exact stands.readSetting_attached lacks isValue
  | @attachedToShort setting value text form isForm isValue =>
      have isText : attachedToLetter ("=" ++ text).toList = some text := by
        rw [String.toList_append]
        exact congrArg some String.ofList_toList
      have isStep := step_shortForm goOn isForm ("=" ++ text)
      rw [← String.append_assoc, isText] at isStep
      simp only [List.foldlM_cons, List.foldlM_nil, bind_pure, isStep]
      exact stands.readSetting_attached lacks isValue
  | @besideShort setting value text form isForm isValue nonempty notMarked =>
      have isStep := step_shortForm goOn isForm text
      rw [attachedToLetter_toList nonempty notMarked] at isStep
      simp only [List.foldlM_cons, List.foldlM_nil, bind_pure, isStep]
      exact stands.readSetting_attached lacks isValue
  | stopOnError =>
      simp only [List.foldlM_cons, List.foldlM_nil, bind_pure]
      exact stands.step_stopOnError lacks

/-- One choice after the other: what has been given is what has been chosen. -/
theorem StandsFor.foldlM_pieces {choices : List Choice} {pieces : List (List String)}
    (areWritten : List.Forall₂ Choice.IsWritten choices pieces) :
    ∀ {progress : Progress} {given : Given} {earlier : List Choice},
      progress.StandsFor given → given.Holds earlier →
        ((earlier ++ choices).map Choice.option).Nodup →
          ∃ next all, pieces.flatten.foldlM step progress = .ok next ∧ next.StandsFor all ∧
            all.Holds (earlier ++ choices) := by
  induction areWritten with
  | nil =>
      intro progress given earlier stands holds _
      rw [List.append_nil]
      exact ⟨progress, given, rfl, stands, holds⟩
  | @cons choice piece choices pieces isWritten areWritten induction =>
      intro progress given earlier stands holds distinct
      have isNew : choice.option ∉ earlier.map Choice.option := by
        intro isEarlier
        rw [List.map_append, List.nodup_append] at distinct
        exact distinct.2.2 _ isEarlier _ (List.mem_cons_self ..) rfl
      have ⟨next, isNext, nextStands⟩ := stands.foldlM_piece (holds.lacks isNew) isWritten
      rw [List.append_cons] at distinct ⊢
      have ⟨last, all, isLast, lastStands, allHold⟩ :=
        induction nextStands (holds.add isNew) distinct
      refine ⟨last, all, ?_, lastStands, allHold⟩
      rw [List.flatten_cons, List.foldlM_append, isNext]
      exact isLast

end Progress

variable [Url.NameMapping]

theorem readArguments_written {choices : List Choice} {pieces : List (List String)}
    (distinct : (choices.map Choice.option).Nodup)
    (areWritten : List.Forall₂ Choice.IsWritten choices pieces) :
    ∃ given, readArguments pieces.flatten = .ok given ∧ given.Holds choices := by
  have ⟨last, given, isLast, stands, holds⟩ :=
    Progress.StandsFor.foldlM_pieces areWritten Progress.standsFor_start Given.holds_nothing
      distinct
  refine ⟨given, ?_, holds⟩
  rw [readArguments, isLast]
  exact stands.resolved

end MetricWatch.CommandLine
