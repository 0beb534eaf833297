import MetricWatch.CommandLine.Settings
import MetricWatch.Proofs.CommandLine.Choices

namespace MetricWatch.CommandLine

/-! Every setting has the value that was chosen on the command line, else the one of its
variable, else its default. The order of the choices and the way in which they are written
make no difference, and neither does the variable of a setting that was chosen, whatever it
holds. -/

section

variable [Url.NameMapping]

namespace Environment

/-- The value that the variable of a setting holds. -/
def value? (environment : Environment) (setting : Setting) : Option setting.Value :=
  (environment setting.variableName).bind fun text => (setting.read text).toOption

/-- The variable of a setting is not set, or holds a value. -/
def Serves (environment : Environment) (setting : Setting) : Prop :=
  ∀ text, environment setting.variableName = some text →
    ∃ value, setting.Denotes text value

end Environment

/-! One setting after the other is completed from the environment. -/

namespace Given

theorem complete_of_serves (given : Given) {environment : Environment} {setting : Setting}
    (serves : given.value setting = none → environment.Serves setting) :
    ∃ next, given.complete environment setting = .ok next ∧
      next.stopOnError = given.stopOnError ∧
      next.value setting = (given.value setting).or (environment.value? setting) ∧
      ∀ other, other ≠ setting → next.value other = given.value other := by
  cases isValue : given.value setting with
  | some value =>
      refine ⟨given, ?_, rfl, isValue, fun _ _ => rfl⟩
      rw [complete, isValue]
      rfl
  | none =>
      cases isText : environment setting.variableName with
      | none =>
          refine ⟨given, ?_, rfl, ?_, fun _ _ => rfl⟩
          · rw [complete, isValue, isText]
            rfl
          · rw [isValue, Environment.value?, isText]
            rfl
      | some text =>
          have ⟨value, denotes⟩ := serves isValue text isText
          refine ⟨given.set setting value, ?_, rfl, ?_, ?_⟩
          · rw [complete, isValue, isText]
            change (given.assign setting text).mapError Interruption.refused = _
            rw [assign_of_denotes isValue denotes]
            rfl
          · rw [value_set_same, Environment.value?, isText, Option.bind_some,
              Setting.read_eq_ok_iff.mpr denotes]
            rfl
          · intro other different
            exact value_set_other given setting value different

theorem foldlM_complete_of_serves {environment : Environment} (settings : List Setting) :
    ∀ given : Given,
      (∀ setting ∈ settings, given.value setting = none → environment.Serves setting) →
        ∃ completed, settings.foldlM (complete environment) given = .ok completed ∧
          completed.stopOnError = given.stopOnError ∧
          ∀ setting, completed.value setting =
            if setting ∈ settings then (given.value setting).or (environment.value? setting)
            else given.value setting := by
  induction settings with
  | nil =>
      intro given _
      exact ⟨given, rfl, rfl, fun setting => (if_neg List.not_mem_nil).symm⟩
  | cons first rest induction =>
      intro given serves
      have ⟨next, isNext, sameStop, isFirst, sameOther⟩ :=
        given.complete_of_serves (serves first List.mem_cons_self)
      have servesRest : ∀ setting ∈ rest, next.value setting = none →
          environment.Serves setting := by
        intro setting member isOpen
        apply serves setting (List.mem_cons_of_mem first member)
        by_cases same : setting = first
        · cases same
          exact (Option.or_eq_none_iff.mp (isFirst ▸ isOpen)).1
        · exact sameOther setting same ▸ isOpen
      have ⟨completed, isCompleted, stillSameStop, values⟩ := induction next servesRest
      refine ⟨completed, ?_, stillSameStop.trans sameStop, ?_⟩
      · rw [List.foldlM_cons, isNext]
        exact isCompleted
      · intro setting
        rw [values setting]
        by_cases same : setting = first
        · cases same
          rw [isFirst, if_pos List.mem_cons_self, Option.or_assoc, Option.or_self, ite_self]
        · rw [sameOther setting same]
          simp only [List.mem_cons, same, false_or]

/-- A value that is given stays. -/
theorem value_of_complete {given next : Given} {environment : Environment} {setting : Setting}
    (isNext : given.complete environment setting = .ok next) {other : Setting}
    (isOpen : next.value other = none) : given.value other = none := by
  rw [complete] at isNext
  split at isNext
  · cases isNext
    exact isOpen
  · rename_i notGiven
    split at isNext
    · cases isNext
      exact isOpen
    · by_cases same : other = setting
      · cases same
        exact Option.not_isSome_iff_eq_none.mp notGiven
      · rw [assign, if_neg notGiven] at isNext
        split at isNext
        · cases isNext
          rw [value_set_other given setting _ same] at isOpen
          exact isOpen
        · cases isNext
        · cases isNext

theorem foldlM_complete_congr {environment other : Environment} (settings : List Setting) :
    ∀ given : Given,
      (∀ setting, given.value setting = none →
        environment setting.variableName = other setting.variableName) →
      settings.foldlM (complete environment) given = settings.foldlM (complete other) given := by
  induction settings with
  | nil => exact fun _ _ => rfl
  | cons first rest induction =>
      intro given agree
      have sameStep : given.complete environment first = given.complete other first := by
        cases isValue : given.value first with
        | some value =>
            rw [complete, complete, isValue]
            rfl
        | none => rw [complete, complete, agree first isValue]
      rw [List.foldlM_cons, List.foldlM_cons, ← sameStep]
      cases isNext : given.complete environment first with
      | error interruption => rfl
      | ok next =>
          exact induction next fun setting isOpen => agree setting (value_of_complete isNext isOpen)

end Given

/-! What the whole command line comes to. -/

/-- Where the value of a setting comes from, if it has one: from the choice that was made, else
from the variable of a name. -/
inductive Settles (choices : List Choice) (environment : Environment) :
    (setting : Setting) → (variableName : String) → Option setting.Value → Prop
  | chosen {setting : Setting} {variableName : String} {value : setting.Value}
      (isChosen : .value setting value ∈ choices) :
      Settles choices environment setting variableName (some value)
  | fromVariable {setting : Setting} {variableName text : String} {value : setting.Value}
      (notChosen : some setting ∉ choices.map Choice.option)
      (isText : environment variableName = some text) (isValue : setting.Denotes text value) :
      Settles choices environment setting variableName (some value)
  | unset {setting : Setting} {variableName : String}
      (notChosen : some setting ∉ choices.map Choice.option)
      (notSet : environment variableName = none) :
      Settles choices environment setting variableName none

/-- The settings that choices and variables come to, with the defaults. -/
structure Settings.Follows (settings : Settings) (choices : List Choice)
    (environment : Environment) : Prop where
  endpoint : ∃ value? : Option String,
    Settles choices environment .endpoint "PROM_ENDPOINT" value? ∧
      settings.endpoint = value?.getD "http://localhost:9090"
  port : Settles choices environment .port "PROM_PORT" settings.port
  query : ∃ value? : Option String, Settles choices environment .query "PROM_QUERY" value? ∧
    settings.query = value?.getD "up"
  proxy : Settles choices environment .proxy "PROM_PROXY" settings.proxy
  interval : ∃ value? : Option UInt64,
    Settles choices environment .interval "PROM_POLL_INTERVAL_MS" value? ∧
      settings.interval = value?.getD 1000
  stopOnError : settings.stopOnError = true ↔ .stopOnError ∈ choices
  logLevel : ∃ value? : Option LogLevel,
    Settles choices environment .logLevel "LOG_LEVEL" value? ∧
      settings.logLevel = value?.getD (.upTo .info)
  logFile : ∃ value? : Option String, Settles choices environment .logFile "LOG_FILE" value? ∧
    settings.logFile = value?.getD "promwatch.log"

theorem Given.Holds.settles {given : Given} {choices : List Choice}
    (holds : given.Holds choices) {environment : Environment} {setting : Setting}
    (serves : some setting ∉ choices.map Choice.option → environment.Serves setting) :
    Settles choices environment setting setting.variableName
      ((given.value setting).or (environment.value? setting)) := by
  cases isValue : given.value setting with
  | some value => exact .chosen ((holds.value setting value).mp isValue)
  | none =>
      have notChosen := holds.value_eq_none_iff.mp isValue
      cases isText : environment setting.variableName with
      | none =>
          rw [Environment.value?, isText]
          exact .unset notChosen isText
      | some text =>
          have ⟨value, denotes⟩ := serves notChosen text isText
          rw [Environment.value?, isText, Option.bind_some, Setting.read_eq_ok_iff.mpr denotes]
          exact .fromVariable notChosen isText denotes

theorem Settings.follows_ofGiven {given : Given} {choices : List Choice}
    {environment : Environment}
    (settles : ∀ setting,
      Settles choices environment setting setting.variableName (given.value setting))
    (stops : given.stopOnError = true ↔ .stopOnError ∈ choices) :
    (ofGiven given).Follows choices environment where
  endpoint := ⟨_, settles .endpoint, rfl⟩
  port := settles .port
  query := ⟨_, settles .query, rfl⟩
  proxy := settles .proxy
  interval := ⟨_, settles .interval, rfl⟩
  stopOnError := stops
  logLevel := ⟨_, settles .logLevel, rfl⟩
  logFile := ⟨_, settles .logFile, rfl⟩

theorem Settings.read_of_readArguments {arguments : List String} {given : Given}
    (isGiven : readArguments arguments = .ok given) (environment : Environment) :
    read environment arguments =
      (Setting.all.foldlM (Given.complete environment) given).map ofGiven := by
  rw [read, isGiven]
  rfl

theorem Settings.follows_of_holds {arguments : List String} {given : Given}
    {choices : List Choice} (isGiven : readArguments arguments = .ok given)
    (holds : given.Holds choices) {environment : Environment}
    (serves : ∀ setting, some setting ∉ choices.map Choice.option →
      environment.Serves setting) :
    ∃ settings, read environment arguments = .ok settings ∧
      settings.Follows choices environment := by
  have ⟨completed, isCompleted, sameStop, values⟩ :=
    Given.foldlM_complete_of_serves Setting.all given fun setting _ isOpen =>
      serves setting (holds.value_eq_none_iff.mp isOpen)
  refine ⟨ofGiven completed, ?_, follows_ofGiven ?_ (sameStop ▸ holds.stopOnError)⟩
  · rw [read_of_readArguments isGiven, isCompleted]
    rfl
  · intro setting
    rw [values setting, if_pos setting.mem_all]
    exact holds.settles (serves setting)

/-- What holds of the outcome of a command line and an environment: it is settled as it
should be where every variable that is looked at serves, it is the same for any other way to
make the same choices, and no other variable has any part in it. -/
structure Settings.ReadsChoices (arguments : List String) (choices : List Choice)
    (environment : Environment) : Prop where
  follows : (∀ setting, some setting ∉ choices.map Choice.option → environment.Serves setting) →
    ∃ settings, read environment arguments = .ok settings ∧ settings.Follows choices environment
  anyOrder : ∀ (others : List Choice) (pieces : List (List String)), others.Perm choices →
    List.Forall₂ Choice.IsWritten others pieces →
      read environment pieces.flatten = read environment arguments
  noInfluence : ∀ other : Environment,
    (∀ setting, some setting ∉ choices.map Choice.option →
      other setting.variableName = environment setting.variableName) →
        read other arguments = read environment arguments

/-- Choices on the command line come before the environment, in any order. -/
theorem Settings.readsChoices_of_written {choices : List Choice} {pieces : List (List String)}
    (distinct : (choices.map Choice.option).Nodup)
    (areWritten : List.Forall₂ Choice.IsWritten choices pieces) (environment : Environment) :
    ReadsChoices pieces.flatten choices environment := by
  have ⟨given, isGiven, holds⟩ := readArguments_written distinct areWritten
  constructor
  · exact follows_of_holds isGiven holds
  · intro others otherPieces permuted othersWritten
    have othersDistinct : (others.map Choice.option).Nodup :=
      (permuted.map Choice.option).nodup_iff.mpr distinct
    have ⟨otherGiven, isOtherGiven, otherHolds⟩ :=
      readArguments_written othersDistinct othersWritten
    have sameGiven : otherGiven = given :=
      otherHolds.eq_of_mem_iff holds fun choice => permuted.mem_iff
    rw [read_of_readArguments isOtherGiven, read_of_readArguments isGiven, sameGiven]
  · intro other agree
    have sameOutcome := Given.foldlM_complete_congr Setting.all given fun setting isOpen =>
      agree setting (holds.value_eq_none_iff.mp isOpen)
    rw [read_of_readArguments isGiven, read_of_readArguments isGiven, sameOutcome]

end

/-- The variable of the port is no port, and does not matter. -/
theorem Settings.readsChoices_port :
    let choices : List Choice := [.value .port (9191 : UInt16), .stopOnError]
    let environment : Environment := fun name =>
      if name = "PROM_PORT" then some "none"
      else if name = "PROM_QUERY" then some "sum(up)"
      else none
    ReadsChoices ["-p", "9191", "--stop-on-error"] choices environment ∧
      ∃ settings, read environment ["--stop-on-error", "--port=9191"] = .ok settings ∧
        settings.Follows choices environment := by
  intro choices environment
  have isPort : Setting.port.Denotes "9191" (9191 : UInt16) :=
    .unsigned (.plain ⟨by decide, List.all_eq_true.mp (by decide), by decide⟩)
  have short : Choice.IsWritten (.value .port (9191 : UInt16)) ["-p", "9191"] :=
    .short rfl isPort (by decide)
  have attached : Choice.IsWritten (.value .port (9191 : UInt16)) ["--port=9191"] := by
    have isArgument : Setting.port.longForm ++ "=" ++ "9191" = "--port=9191" := by decide
    rw [← isArgument]
    exact .attachedToLong isPort
  have stops : Choice.IsWritten .stopOnError ["--stop-on-error"] := .stopOnError
  have serves : ∀ setting, some setting ∉ choices.map Choice.option →
      environment.Serves setting := by
    intro setting notChosen text isText
    cases setting with
    | port => exact absurd List.mem_cons_self notChosen
    | query => exact ⟨text, rfl⟩
    | endpoint => cases isText
    | proxy => cases isText
    | interval => cases isText
    | logLevel => cases isText
    | logFile => cases isText
  have reads : ReadsChoices ["-p", "9191", "--stop-on-error"] choices environment :=
    readsChoices_of_written (by decide) (.cons short (.cons stops .nil)) environment
  have otherWay : read environment ["--stop-on-error", "--port=9191"] =
      read environment ["-p", "9191", "--stop-on-error"] :=
    reads.anyOrder _ _ (.swap _ _ []) (.cons stops (.cons attached .nil))
  exact ⟨reads, otherWay ▸ reads.follows serves⟩

end MetricWatch.CommandLine
