import MetricWatch.Proofs.Number.Spacing
import MetricWatch.Proofs.Response.AllOrNothing
import MetricWatch.Proofs.Response.SampleTime

namespace MetricWatch.Response

open Json

/-! Times of the present in whole milliseconds. They come in decimal seconds, which are rounded to
a double, multiplied with a thousand, rounded again and cut off behind the point. -/

/-- From November 2004 to January 2038. -/
structure IsPresent (milliseconds : Nat) : Prop where
  notPast : 2 ^ 40 < milliseconds
  notFuture : milliseconds < 1000 * 2 ^ 31

namespace IsPresent

variable {milliseconds : Nat} (present : IsPresent milliseconds)

include present

/-- The milliseconds in steps of their binade, which are 2^-12. -/
theorem steps_bounds : Magnitude.stepsPerBinade < milliseconds * 2 ^ 12 ∧
    milliseconds * 2 ^ 12 < 2 * Magnitude.stepsPerBinade := by
  have ⟨notPast, notFuture⟩ := present
  rw [Magnitude.stepsPerBinade]
  omega

/-- The seconds are in the binade whose steps are 2^-22. -/
theorem seconds_bounds :
    Magnitude.stepsPerBinade * Magnitude.step 1052 ≤ (milliseconds : ℚ) / 1000 ∧
      (milliseconds : ℚ) / 1000 ≤ 2 * Magnitude.stepsPerBinade * Magnitude.step 1052 := by
  have ⟨notPast, notFuture⟩ := present
  have notPast : (2 ^ 40 : ℚ) < milliseconds := by exact_mod_cast notPast
  have notFuture : (milliseconds : ℚ) < 1000 * 2 ^ 31 := by exact_mod_cast notFuture
  have one : 2 ^ 22 * Magnitude.step 1052 = 1 := Magnitude.two_pow_mul_step rfl
  have isCount : (Magnitude.stepsPerBinade : ℚ) = 2 ^ 52 := by
    rw [Magnitude.stepsPerBinade]
    norm_num
  rw [isCount]
  constructor <;> linarith

/-- Neither of the two roundings loses a millisecond. -/
theorem truncated?_timesNat {magnitude : Magnitude}
    (isNearest : magnitude.IsNearest (milliseconds / 1000)) :
    ((Binary64.number false magnitude).timesNat 1000).truncated? = some (milliseconds : Int) := by
  have ⟨least, most⟩ := present.steps_bounds
  have ⟨notBelow, notAbove⟩ := present.seconds_bounds
  have one : 2 ^ 12 * Magnitude.step (1052 + 10) = 1 := Magnitude.two_pow_mul_step rfl
  have bounded : (1052 + 10) * Magnitude.stepsPerBinade + milliseconds * 2 ^ 12 <
      Magnitude.infinityRank := by
    rw [Magnitude.infinityRank]
    omega
  have inSteps : (milliseconds * 2 ^ 12 : Nat) * Magnitude.step (1052 + 10) = milliseconds := by
    rw [Nat.cast_mul, Nat.cast_pow, Nat.cast_ofNat, mul_assoc, one, mul_one]
  have isProduct : (milliseconds / 1000 : ℚ) * (1000 : Nat) =
      (milliseconds * 2 ^ 12 : Nat) * Magnitude.step (1052 + 10) := by
    rw [inSteps, Nat.cast_ofNat, div_mul_cancel₀ _ (by norm_num)]
  have nearest := isNearest.product notBelow notAbove (by decide) isProduct least most bounded.le
  have isValue : (Magnitude.ofSteps (1052 + 10) (milliseconds * 2 ^ 12) bounded.le).value =
      milliseconds := by
    rw [Magnitude.value_ofSteps least.le most.le, inSteps]
  have same := (Binary64.isProduct_timesNat 1000 false magnitude).unique (.rounded nearest)
  rw [same, Binary64.truncated?_eq_some_iff]
  constructor
  · rw [Binary64.isFinite, Bool.not_eq_true']
    exact beq_false_of_ne bounded.ne
  · rw [Binary64.exact, if_neg Bool.false_ne_true, isValue, truncation, if_pos (Nat.cast_nonneg _),
      Int.floor_natCast]

/-- The digits of a time of the present are few. -/
theorem roundsOnce {spelling : Spelling} (noExponent : spelling.exponent = none)
    (short : (spelling.fraction.getD []).length ≤ 3)
    (isTime : spelling.decimal.value = milliseconds / 1000) : spelling.RoundsOnce := by
  have ⟨_, notFuture⟩ := present
  have isExponent : spelling.decimal.exponent = -((spelling.fraction.getD []).length : Int) := by
    rw [Spelling.decimal, noExponent, Option.getD_none, zero_sub]
  have isPower : (10 : ℚ) ^ (spelling.fraction.getD []).length ≤ 1000 := by
    have least := pow_le_pow_right₀ (show (1 : ℚ) ≤ 10 by norm_num) short
    exact least.trans_eq (by norm_num)
  have isCount : (spelling.decimal.coefficient : ℚ) ≤ milliseconds := by
    rw [Decimal.value, isExponent, zpow_neg, zpow_natCast, ← div_eq_mul_inv,
      div_eq_iff (pow_ne_zero _ (by norm_num))] at isTime
    calc (spelling.decimal.coefficient : ℚ)
        = milliseconds / 1000 * 10 ^ (spelling.fraction.getD []).length := isTime
      _ ≤ milliseconds / 1000 * 1000 := mul_le_mul_of_nonneg_left isPower (by positivity)
      _ = milliseconds := div_mul_cancel₀ _ (by norm_num)
  have notMore : spelling.decimal.coefficient ≤ milliseconds := Nat.cast_le.mp isCount
  exact .short (by omega) (by omega)

end IsPresent

/-! In 1970 a millisecond may be lost, and with zeros behind the third digit it may be lost at any
time. -/

example : ((Binary64.number false (Decimal.magnitude ⟨1005, -3⟩)).timesNat 1000).truncated? =
    some 1004 := by
  decide +kernel

example : (Spelling.magnitude? ⟨false, "1963609665".toList, some "377000000".toList, none⟩).bind
    (fun magnitude => ((Binary64.number false magnitude).timesNat 1000).truncated?) =
    some 1963609665376 := by
  decide +kernel

/-- The seconds are spelled in decimal digits, up to three of them behind the point. -/
def SpellsMilliseconds (number : Number) (milliseconds : Nat) : Prop :=
  ∃ spelling : Spelling, spelling.Reads number ∧ spelling.negative = false ∧
    spelling.exponent = none ∧ (spelling.fraction.getD []).length ≤ 3 ∧
    spelling.decimal.value = milliseconds / 1000

theorem spellsMilliseconds_of_digits {whole fraction : List Char} {number : Number}
    {milliseconds : Nat} (reads : Spelling.Reads ⟨false, whole, some fraction, none⟩ number)
    (short : fraction.length ≤ 3)
    (isCount : digitsValue (whole ++ fraction) * 1000 = milliseconds * 10 ^ fraction.length) :
    SpellsMilliseconds number milliseconds := by
  refine ⟨_, reads, rfl, rfl, short, ?_⟩
  have isCount : (digitsValue (whole ++ fraction) : ℚ) * 1000 =
      milliseconds * 10 ^ fraction.length := by exact_mod_cast isCount
  have notZero : (10 : ℚ) ^ fraction.length ≠ 0 := pow_ne_zero _ (by norm_num)
  rw [Decimal.value, Spelling.decimal, Option.getD_some, Option.getD_none, zero_sub, zpow_neg,
    zpow_natCast, ← div_eq_mul_inv, div_eq_div_iff notZero (by norm_num), isCount]

/-- The time that an item names is a time of the present. -/
def NamesMilliseconds (item : SyntaxTree) (milliseconds : Nat) : Prop :=
  IsPresent milliseconds ∧ ∃ fields number, fields? itemNames item = some fields ∧
    Item.Names fields number ∧ SpellsMilliseconds number milliseconds

/-- A success whose result is a list of items. -/
def HoldsResult (tree : SyntaxTree) (items : List SyntaxTree) : Prop :=
  ∃ envelope, fields? envelopeNames tree = some envelope ∧
    lastNamed? "status" envelope = some (.text "success") ∧
    (∀ errorType, lastNamed? "errorType" envelope = some errorType → IsOptionalText errorType) ∧
    ∃ data fields, lastNamed? "data" envelope = some data ∧
      fields? dataNames data = some fields ∧
      (∀ kind, lastNamed? "resultType" fields = some kind →
        kind = .literal .null ∨ kind = .text "vector") ∧
      lastNamed? "result" fields = some (.array items)

theorem timestampOfSeconds_of_spells {number : Number} {milliseconds : Nat}
    (present : IsPresent milliseconds) (spells : SpellsMilliseconds number milliseconds) :
    ∃ timestamp, timestampOfSeconds number.toBinary64 = .ok timestamp ∧
      timestamp.milliseconds = milliseconds := by
  rcases spells with ⟨spelling, reads, notNegative, noExponent, short, isTime⟩
  rcases reads.exists_isNearest (present.roundsOnce noExponent short isTime) with
    ⟨magnitude, isBinary64, isNearest⟩
  rw [isTime] at isNearest
  have isWhole := present.truncated?_timesNat isNearest
  have inCalendar : InCalendar milliseconds := by
    have ⟨_, notFuture⟩ := present
    rw [InCalendar]
    omega
  refine ⟨⟨milliseconds, inCalendar.1, inCalendar.2⟩, timestampOfSeconds_eq_ok_iff.mpr ?_, rfl⟩
  rwa [isBinary64, notNegative]

section Items

variable {item : SyntaxTree} {milliseconds : Nat}

theorem NamesMilliseconds.isSeries (names : NamesMilliseconds item milliseconds) :
    IsSeries item := by
  have ⟨present, fields, number, isFields, ⟨metric, value, isPair⟩, spells⟩ := names
  have ⟨timestamp, accepted, _⟩ := timestampOfSeconds_of_spells present spells
  exact ⟨fields, isFields, metric, number, value, isPair,
    timestampOfSeconds_iff.mp ⟨timestamp, accepted⟩⟩

theorem NamesMilliseconds.of_gives {sample : Sample} (names : NamesMilliseconds item milliseconds)
    (gives : Gives item.value sample) : sample.timestamp.milliseconds = milliseconds := by
  have ⟨present, fields, number, isFields, isNamed, spells⟩ := names
  have ⟨timestamp, accepted, isCount⟩ := timestampOfSeconds_of_spells present spells
  rcases gives with ⟨found, isItem, isSample⟩
  rcases Item.ofValue_iff.mpr ⟨fields, number, isFields, isNamed, rfl⟩ with ⟨other, isOther, same⟩
  cases isItem.symm.trans isOther
  rw [Item.sample, same, accepted] at isSample
  cases isSample
  exact isCount

end Items

/-- The items of a document, as the parser finds them. -/
theorem lists_of_holdsResult {tree : SyntaxTree} {body : List UInt8} {items : List SyntaxTree}
    (encodes : Grammar.Encodes tree body) (fits : tree.depth ≤ nestingLimit)
    (once : NamesFieldsOnce tree) (holds : HoldsResult tree items)
    (areSeries : ∀ item ∈ items, IsSeries item) : Lists body (items.map SyntaxTree.value) := by
  rcases holds with ⟨fields, isFields, isStatus, isErrorType, last, dataFields, isLast, isData,
    isKind, isResult⟩
  have isVector : IsInstantVector tree :=
    ⟨fields, isFields, isStatus, isErrorType, last, isLast, dataFields, isData, isKind, items,
      isResult, areSeries⟩
  rcases (isInstantVector_iff fits once).mp isVector with
    ⟨envelope, isRead, success, data, holdsData, isVector, result, holdsResult, _⟩
  have onceInData := (once fields isFields).2 last (mem_of_lastNamed? isLast)
  have shallow := depth_lt_of_mem_fields isFields (mem_of_lastNamed? isLast)
  have shallower := depth_lt_of_mem_fields isData (mem_of_lastNamed? isResult)
  -- What was read of the envelope and of its data is in the same fields.
  have isValue : result = (SyntaxTree.array items).value := by
    rcases (Envelope.read_eq_ok_iff (fun _ isFields => (once _ isFields).1) envelope).mp isRead with
      ⟨_, sameFields, _, _, _, givesData⟩
    cases isFields.symm.trans sameFields
    rw [holdsData] at givesData
    rcases given_some_iff.mp givesData with ⟨_, sameLast, _, readsData⟩
    cases isLast.symm.trans sameLast
    rcases (Data.read_eq_ok_iff onceInData data).mp readsData with ⟨_, sameData, _, givesResult⟩
    cases isData.symm.trans sameData
    rw [holdsResult] at givesResult
    rcases given_some_iff.mp givesResult with ⟨_, sameResult, _, readsResult⟩
    cases isResult.symm.trans sameResult
    have fitsData : (SyntaxTree.array items).depth ≤ depthInData := by
      rw [depthInData]
      omega
    rw [readValue_node fitsData] at readsResult
    exact (Except.ok.inj readsResult).symm
  have isDocument : Envelope.ofDocument (.ofBytes body) = .ok envelope := by
    rw [encodes.ofBytes, Envelope.ofDocument, isRead]
    rfl
  rw [isValue, SyntaxTree.value, SyntaxTree.itemValues_eq_map] at holdsResult
  exact ⟨envelope, data, isDocument, success, holdsData, isVector, holdsResult⟩

/-- No millisecond of the present is lost between the document and the samples. -/
theorem parse_keepsMilliseconds {tree : SyntaxTree} {body : List UInt8} {items : List SyntaxTree}
    (encodes : Grammar.Encodes tree body) (fits : tree.depth ≤ 127) (once : NamesFieldsOnce tree)
    (holds : HoldsResult tree items) (notEmpty : items ≠ [])
    (sound : ∀ item ∈ items, IsSeries item ∨ ∃ milliseconds, NamesMilliseconds item milliseconds) :
    ∃ samples, parse body = .ok (some samples) ∧
      List.Forall₂ (fun item sample => ∀ milliseconds, NamesMilliseconds item milliseconds →
        sample.timestamp.milliseconds = (milliseconds : Int)) items samples := by
  have areSeries : ∀ item ∈ items, IsSeries item := by
    intro item member
    rcases sound item member with isSeries | ⟨milliseconds, names⟩
    · exact isSeries
    · exact names.isSeries
  have lists := lists_of_holdsResult encodes fits once holds areSeries
  have areTimely : ∀ element ∈ items.map SyntaxTree.value, IsTimely element := by
    intro element member
    rcases List.mem_map.mp member with ⟨item, isItem, rfl⟩
    rcases isSeries_iff.mp (areSeries item isItem) with ⟨found, isFound, sample, isSample⟩
    exact isTimely_iff.mpr ⟨sample, gives_iff.mp ⟨found, isFound, isSample⟩⟩
  have ⟨samples, given, outcome⟩ := (mapsAll_of_lists lists).accepted areTimely
  rw [if_neg (by simpa using notEmpty)] at outcome
  refine ⟨samples, outcome, ?_⟩
  rw [List.forall₂_map_left_iff] at given
  exact given.imp fun item sample gives milliseconds names => names.of_gives gives

/-! A time in November 2023 with two digits behind the point. -/

def centiseconds : Number :=
  .real (.number false (Decimal.magnitude ⟨170000000012, -2⟩))

def timedSeries : SyntaxTree :=
  .object [("value", .array [.literal (.number centiseconds), .text "1"])]

def timedData : SyntaxTree :=
  .object [("result", .array [timedSeries])]

def timedEnvelope : SyntaxTree :=
  .object [("status", .text "success"), ("data", timedData)]

def timedText : String :=
  "\x7b\"status\":\"success\"," ++
    "\"data\":\x7b\"result\":[\x7b\"value\":[1700000000.12,\"1\"]\x7d]\x7d\x7d"

theorem reads_centiseconds :
    Spelling.Reads ⟨false, "1700000000".toList, some "12".toList, none⟩ centiseconds :=
  Spelling.number_eq_ok_iff.mp (by decide +kernel)

theorem timedEnvelope_encodes :
    Grammar.Encodes timedEnvelope (Utf8.encode timedText.toList) := by
  have blanks := Grammar.noBlanks
  have digits : ∀ text : List Char, text.all isDecimalDigit = true → Grammar.Digits text :=
    fun text areDigits => List.all_eq_true.mp areDigits
  have numeral : Grammar.Numeral ⟨false, "1700000000".toList, some "12".toList, none⟩
      "1700000000.12".toList :=
    .of (.digits (by decide) (digits _ (by decide))) (.present (by decide) (digits _ (by decide)))
      .absent
  have seconds : Grammar.Spells (.literal (.number centiseconds)) "1700000000.12".toList :=
    .literal (.number numeral reads_centiseconds)
  have pair := Grammar.Spells.array blanks seconds
    (.comma blanks blanks (.text (.ofPlain "1" (by simp [Quoted.isControl]))) (.close blanks))
  have series := Grammar.Spells.object blanks
    (.of (.ofPlain "value" (by simp [Quoted.isControl])) blanks blanks pair) (.close blanks)
  have data := Grammar.Spells.object blanks
    (.of (.ofPlain "result" (by simp [Quoted.isControl])) blanks blanks
      (.array blanks series (.close blanks))) (.close blanks)
  have status := Grammar.Spells.text (.ofPlain "success" (by simp [Quoted.isControl]))
  have envelope := Grammar.Spells.object blanks
    (.of (.ofPlain "status" (by simp [Quoted.isControl])) blanks blanks status)
    (.comma blanks blanks (.of (.ofPlain "data" (by simp [Quoted.isControl])) blanks blanks data)
      (.close blanks))
  exact .of blanks envelope blanks

theorem timedEnvelope_namesFieldsOnce : NamesFieldsOnce timedEnvelope := by
  intro envelope isEnvelope
  cases isEnvelope
  refine ⟨by simp [RepeatsNone, envelopeNames], fun data isData fields isFields => ?_⟩
  have isLast : data = timedData := by simpa using isData
  subst isLast
  cases isFields
  simp [RepeatsNone, dataNames]

theorem timedEnvelope_holdsResult : HoldsResult timedEnvelope [timedSeries] :=
  ⟨_, rfl, rfl, nofun, timedData, _, rfl, rfl, nofun, rfl⟩

theorem timedSeries_namesMilliseconds : NamesMilliseconds timedSeries 1700000000120 :=
  ⟨⟨by decide, by decide⟩, _, centiseconds, rfl, ⟨nofun, .text "1", rfl⟩,
    spellsMilliseconds_of_digits reads_centiseconds (by decide) (by decide)⟩

theorem parse_keepsCentiseconds :
    timedEnvelope.depth ≤ 127 ∧ NamesFieldsOnce timedEnvelope ∧
      HoldsResult timedEnvelope [timedSeries] ∧
      ∃ samples, parse (Utf8.encode timedText.toList) = .ok (some samples) ∧
        samples.map (·.timestamp.milliseconds) = [1700000000120] := by
  have fits : timedEnvelope.depth ≤ 127 := by decide
  have ⟨samples, parsed, kept⟩ := parse_keepsMilliseconds timedEnvelope_encodes fits
    timedEnvelope_namesFieldsOnce timedEnvelope_holdsResult (List.cons_ne_nil _ _)
    (List.forall_mem_singleton.mpr (.inr ⟨_, timedSeries_namesMilliseconds⟩))
  refine ⟨fits, timedEnvelope_namesFieldsOnce, timedEnvelope_holdsResult, samples, parsed, ?_⟩
  rw [List.forall₂_cons_left_iff] at kept
  rcases kept with ⟨sample, _, isKept, isNil, rfl⟩
  rw [List.forall₂_nil_left_iff] at isNil
  rw [isNil, List.map_singleton, isKept _ timedSeries_namesMilliseconds]
  rfl

end MetricWatch.Response
