import MetricWatch.CommandLine.Setting
import MetricWatch.Proofs.Number.BoundedInteger

namespace MetricWatch.CommandLine

/-! How settings are called for, what the texts behind them stand for, and that every setting is
read as it. -/

namespace Setting

/-- The argument that calls for a setting. -/
def longForm : Setting → String
  | .endpoint => "--endpoint"
  | .port => "--port"
  | .query => "--query"
  | .proxy => "--proxy"
  | .interval => "--interval"
  | .logLevel => "--loglevel"
  | .logFile => "--logfile"

/-- The shorter argument that does the same. -/
def shortForm? : Setting → Option String
  | .endpoint => some "-e"
  | .port => some "-p"
  | .query => some "-q"
  | .interval => some "-i"
  | .logLevel => some "-l"
  | .proxy | .logFile => none

theorem longForm_eq (setting : Setting) : setting.longForm = "--" ++ setting.name := by
  cases setting <;> decide

theorem shortForm?_eq (setting : Setting) :
    setting.shortForm? = setting.letter?.map fun letter => "-" ++ String.singleton letter := by
  cases setting <;> decide

end Setting

theorem readPortNumber_eq_ok_iff {text : String} {port : UInt16} :
    readPortNumber text = .ok port ↔ SpellsSigned text.toList port.toNat := by
  simp only [readPortNumber, bind_eq_ok_iff, mapError_eq_ok_iff, readSigned_eq_ok_iff]
  constructor
  · rintro ⟨value, ⟨isSigned, _⟩, isPort⟩
    split at isPort
    · rename_i inRange
      cases isPort
      have small : value.toNat < UInt16.size := by omega
      rwa [UInt16.toNat_ofNat_of_lt' small, Int.toNat_of_nonneg inRange.1]
    · cases isPort
  · intro isSigned
    have small : port.toNat < UInt16.size := port.toNat_lt
    have inRange : 0 ≤ (port.toNat : Int) ∧ (port.toNat : Int) < UInt16.size :=
      ⟨Int.natCast_nonneg _, Int.ofNat_lt.mpr small⟩
    refine ⟨port.toNat, ⟨isSigned, ?_, ?_⟩, ?_⟩
    · omega
    · exact Int.ofNat_le.mpr (small.le.trans (by decide))
    · rw [if_pos inRange, Int.toNat_natCast, UInt16.ofNat_toNat]
      rfl

theorem readInterval_eq_ok_iff {text : String} {interval : UInt64} :
    readInterval text = .ok interval ↔ SpellsUnsigned text.toList interval.toNat := by
  have inRange : interval.toNat ≤ UInt64.size - 1 := Nat.le_sub_one_of_lt interval.toNat_lt
  rw [← @and_iff_left _ (SpellsUnsigned _ _) inRange, ← readUnsigned_eq_ok_iff]
  constructor
  · intro isRead
    rw [readInterval] at isRead
    split at isRead
    · rename_i value isNumber
      cases isRead
      have small : value < UInt64.size :=
        Nat.lt_of_le_sub_one (by decide) (readUnsigned_eq_ok_iff.mp isNumber).2
      rwa [UInt64.toNat_ofNat_of_lt' small]
    · cases isRead
  · intro isNumber
    rw [readInterval, isNumber]
    exact congrArg Except.ok UInt64.ofNat_toNat

/-- The names of the levels of the log, in letters of either case. -/
inductive NamesLevel (text : String) : LogLevel → Prop
  | off (isName : text.toUpper = "OFF") : NamesLevel text .off
  | error (isName : text.toUpper = "ERROR") : NamesLevel text (.upTo .error)
  | warning (isName : text.toUpper = "WARN") : NamesLevel text (.upTo .warning)
  | info (isName : text.toUpper = "INFO") : NamesLevel text (.upTo .info)
  | debug (isName : text.toUpper = "DEBUG") : NamesLevel text (.upTo .debug)
  | trace (isName : text.toUpper = "TRACE") : NamesLevel text (.upTo .trace)

theorem namesLevel_iff {text : String} {level : LogLevel} :
    NamesLevel text level ↔ text.toList.map Char.toUpper = level.name.toList := by
  rw [← String.toList_map, String.toList_inj]
  constructor
  · intro names
    cases names <;> assumption
  · intro isName
    cases level with
    | off => exact .off isName
    | upTo severity =>
        cases severity with
        | error => exact .error isName
        | warning => exact .warning isName
        | info => exact .info isName
        | debug => exact .debug isName
        | trace => exact .trace isName

/-- No two levels have the same name. -/
theorem readLogLevel_eq_ok_iff {text : String} {level : LogLevel} :
    readLogLevel text = .ok level ↔ NamesLevel text level := by
  rw [readLogLevel, LogLevel.ofName?, namesLevel_iff]
  constructor
  · intro isRead
    split at isRead
    · rename_i found isFound
      cases isRead
      have isName := List.find?_some isFound
      exact (eq_of_beq isName).symm
    · cases isRead
  · intro isName
    have isFound : LogLevel.all.find? (fun other => other.name.toList == level.name.toList) =
        some level := by
      rcases level with _ | severity
      · decide
      · cases severity <;> decide
    rw [isName, isFound]

theorem readFileName_eq_ok_iff {text value : String} :
    readFileName text = .ok value ↔ value ≠ "" ∧ value = text := by
  rw [readFileName]
  split
  · rename_i isEmpty
    refine iff_of_false nofun ?_
    rintro ⟨notEmpty, rfl⟩
    exact notEmpty (String.isEmpty_iff.mp isEmpty)
  · rename_i notEmpty
    constructor
    · rintro ⟨⟩
      exact ⟨mt String.isEmpty_iff.mpr notEmpty, rfl⟩
    · rintro ⟨_, rfl⟩
      rfl

variable [Url.NameMapping]

/-- The values that a text may stand for. Numbers are within the bounds of their types. -/
def Setting.Denotes : (setting : Setting) → String → setting.Value → Prop
  | .endpoint, text, (value : String) => value = text
  | .port, text, (number : UInt16) => SpellsSigned text.toList number.toNat
  | .query, text, (value : String) => value = text
  | .proxy, text, (url : Url) => Url.parse text.toList = .ok url
  | .interval, text, (milliseconds : UInt64) => SpellsUnsigned text.toList milliseconds.toNat
  | .logLevel, text, (level : LogLevel) => NamesLevel text level
  | .logFile, text, (value : String) => value ≠ "" ∧ value = text

/-- Every setting is read as what its text stands for. -/
theorem Setting.read_eq_ok_iff {setting : Setting} {text : String} {value : setting.Value} :
    setting.read text = .ok value ↔ setting.Denotes text value := by
  cases setting with
  | endpoint => exact ⟨fun isRead => (Except.ok.inj isRead).symm, fun same => congrArg _ same.symm⟩
  | port => exact readPortNumber_eq_ok_iff
  | query => exact ⟨fun isRead => (Except.ok.inj isRead).symm, fun same => congrArg _ same.symm⟩
  | proxy => exact mapError_eq_ok_iff
  | interval => exact readInterval_eq_ok_iff
  | logLevel => exact readLogLevel_eq_ok_iff
  | logFile => exact readFileName_eq_ok_iff

end MetricWatch.CommandLine
