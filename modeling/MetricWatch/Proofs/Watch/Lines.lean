import MetricWatch.Proofs.Number.Written
import MetricWatch.Proofs.Text.Parts
import MetricWatch.Proofs.Watch.Poll
import Mathlib.Algebra.Order.Field.Power

namespace MetricWatch

/-! The lines that are printed about samples. Labels are printed as they are, so a line break
in a label breaks the line of its sample, and nothing else does. -/

def lineBreak : Char := '\n'

/-- How many line breaks there are in a text. -/
def breaks (text : String) : Nat :=
  text.toList.count lineBreak

theorem breaks_append (left right : String) :
    breaks (left ++ right) = breaks left + breaks right := by
  rw [breaks, String.toList_append, List.count_append]
  rfl

theorem breaks_eq_zero_iff {text : String} : breaks text = 0 ↔ lineBreak ∉ text.toList :=
  List.count_eq_zero

theorem breaks_join (texts : List String) :
    breaks (String.join texts) = (texts.map breaks).sum := by
  induction texts with
  | nil => rfl
  | cons text texts induction =>
      rw [String.join_cons, breaks_append, induction, List.map_cons, List.sum_cons]

theorem breaks_intercalate {separator : String} (unbroken : breaks separator = 0)
    (texts : List String) : breaks (separator.intercalate texts) = (texts.map breaks).sum := by
  induction texts with
  | nil => rfl
  | cons text texts induction =>
      by_cases isLast : texts = []
      · rw [isLast, String.intercalate_singleton]
        rfl
      · rw [String.intercalate_cons_of_ne_nil isLast, breaks_append, breaks_append, unbroken,
          induction, Nat.add_zero, List.map_cons, List.sum_cons]

/-! Labels are the only part of a line that may be broken. -/

/-- The line breaks in the names and values of labels. -/
def Labels.breaks (labels : Labels) : Nat :=
  (labels.entries.map fun entry => MetricWatch.breaks entry.1 + MetricWatch.breaks entry.2).sum

theorem breaks_labelsText (pairs : List (String × String)) :
    breaks (labelsText pairs) = (pairs.map fun pair => breaks pair.1 + breaks pair.2).sum := by
  have each : ∀ pair, breaks (pairText pair) = breaks pair.1 + breaks pair.2 := by
    intro pair
    rw [pairText, breaks_append, breaks_append]
    rfl
  have sorted := (List.mergeSort_perm pairs labelOrder).map fun pair => breaks (pairText pair)
  have unbroken : breaks "," = 0 := by decide
  rw [labelsText, breaks_intercalate unbroken, List.map_map]
  exact sorted.sum_nat.trans (congrArg List.sum (List.map_congr_left fun pair _ => each pair))

theorem breaks_ofList {characters : List Char} (unbroken : lineBreak ∉ characters) :
    breaks (String.ofList characters) = 0 := by
  rw [breaks, String.toList_ofList]
  exact List.count_eq_zero.mpr unbroken

theorem breaks_write (style : DecimalStyle) (value : Binary64) :
    breaks (style.write value) = 0 := by
  apply breaks_ofList
  exact style.not_mem_characters value (by decide)

theorem breaks_timeOfDay (instant : Instant) (zone : Zone) :
    breaks (instant.timeOfDay zone) = 0 := by
  have noBreak : ∀ value, lineBreak ∉ twoDigits value := by
    intro value member
    have isDigit := isDecimalDigit_of_mem (List.mem_of_mem_tail member)
    revert isDigit
    decide
  have noColon : lineBreak ≠ ':' := by decide
  apply breaks_ofList
  simp only [clockText, List.mem_append, List.mem_cons, noBreak, noColon, or_self,
    not_false_eq_true]

namespace Watch

theorem breaks_sampleLine (zone : Zone) (windowStart : Instant) (sample : Sample) :
    breaks (sampleLine zone windowStart sample) = sample.labels.breaks := by
  have noBreakInMark : ∀ isStale : Bool, breaks (if isStale then staleMark else "") = 0 := by
    decide
  have noBreakBefore : breaks " \x7b" = 0 := by decide
  have noBreakBehind : breaks "\x7d " = 0 := by decide
  simp only [sampleLine, observationLine, lineText, breaks_append, breaks_timeOfDay, breaks_write,
    noBreakInMark, noBreakBefore, noBreakBehind, Labels.toText, breaks_labelsText, Labels.breaks,
    Nat.zero_add, Nat.add_zero]

theorem breaks_printed (lines : List String) :
    breaks (printed lines) = lines.length + (lines.map breaks).sum := by
  have isBreak : breaks "\n" = 1 := by decide
  have each : ∀ line, breaks (line ++ "\n") = 1 + breaks line := by
    intro line
    rw [breaks_append, isBreak, Nat.add_comm]
  rw [printed, breaks_join, List.map_map]
  induction lines with
  | nil => rfl
  | cons line lines induction =>
      simp only [List.map_cons, List.sum_cons, Function.comp_apply, each, List.length_cons] at *
      omega

/-- The lines of a text, and what is behind the last one. -/
def linesOf (text : String) : List (List Char) :=
  partsBetween (· == lineBreak) text.toList

theorem linesOf_printed {lines : List String} (unbroken : ∀ line ∈ lines, breaks line = 0) :
    linesOf (printed lines) = lines.map String.toList ++ [[]] := by
  induction lines with
  | nil => rfl
  | cons line lines induction =>
      rw [List.forall_mem_cons] at unbroken
      have text : (printed (line :: lines)).toList =
          line.toList ++ lineBreak :: (printed lines).toList := by
        simp only [printed, List.map_cons, String.join_cons, String.toList_append,
          List.append_assoc]
        rfl
      rw [linesOf, text, partsBetween_append_mark (breaks_eq_zero_iff.mp unbroken.1), ← linesOf,
        induction unbroken.2]
      rfl

/-- Lines that can be told apart have no breaks. -/
theorem breaks_of_linesOf {text : String} {lines : List String} {rest : List (List Char)}
    (isText : linesOf text = lines.map String.toList ++ rest) :
    ∀ line ∈ lines, breaks line = 0 := by
  intro line member
  have isPart : line.toList ∈ linesOf text := by
    rw [isText]
    exact List.mem_append_left _ (List.mem_map_of_mem member)
  apply breaks_eq_zero_iff.mpr
  intro isBroken
  have notBreak := not_separates_of_mem_partsBetween isPart isBroken
  exact absurd notBreak (by decide)

end Watch

/-- No name and no value of a label has a line break. -/
def Labels.IsUnbroken (labels : Labels) : Prop :=
  ∀ entry ∈ labels.entries, lineBreak ∉ entry.1.toList ∧ lineBreak ∉ entry.2.toList

theorem Labels.breaks_eq_zero_iff (labels : Labels) : labels.breaks = 0 ↔ labels.IsUnbroken := by
  simp only [Labels.breaks, List.sum_eq_zero_iff_forall_eq_nat, List.forall_mem_map,
    Nat.add_eq_zero_iff, MetricWatch.breaks_eq_zero_iff]
  rfl

namespace Watch.Surroundings

open Query

section Printing

variable (surroundings : Surroundings)

/-- The lines that a poll prints about samples. -/
def sampleLines (samples : List Sample) : List String :=
  samples.map (sampleLine surroundings.zone surroundings.printedAt.window.start)

/-- A text about samples has a line for every sample and, further, one for every line break in
their labels. Only without such breaks are its lines those of the samples. -/
structure PrintsLines (samples : List Sample) (output : String) : Prop where
  breaks_eq : breaks output =
    samples.length + (samples.map fun sample => sample.labels.breaks).sum
  oneEach : breaks output = samples.length ↔ ∀ sample ∈ samples, sample.labels.IsUnbroken
  lines : linesOf output = (surroundings.sampleLines samples).map String.toList ++ [[]] ↔
    ∀ sample ∈ samples, sample.labels.IsUnbroken

theorem printsLines_printed (samples : List Sample) :
    surroundings.PrintsLines samples (printed (surroundings.sampleLines samples)) := by
  have counted : breaks (printed (surroundings.sampleLines samples)) =
      samples.length + (samples.map fun sample => sample.labels.breaks).sum := by
    rw [breaks_printed, sampleLines, List.length_map, List.map_map]
    simp only [Function.comp_def, breaks_sampleLine]
  have unbroken : (∀ line ∈ surroundings.sampleLines samples, breaks line = 0) ↔
      ∀ sample ∈ samples, sample.labels.IsUnbroken := by
    simp only [sampleLines, List.forall_mem_map, breaks_sampleLine, Labels.breaks_eq_zero_iff]
  constructor
  case breaks_eq => exact counted
  case oneEach =>
    rw [counted, Nat.add_eq_left, List.sum_eq_zero_iff_forall_eq_nat]
    simp only [List.forall_mem_map, Labels.breaks_eq_zero_iff]
  case lines =>
    rw [← unbroken]
    exact ⟨breaks_of_linesOf, linesOf_printed⟩

variable [Url.NameMapping] {proxy : Option Url} {question : Question}

theorem output_of_samples {url : Url} {reply : Reply} {samples : List Sample}
    (isUrl : requestUrl proxy question proxy.isSome = .ok url)
    (isReply : surroundings.reply? url = some reply)
    (areSamples : Response.parse reply.body = .ok (some samples)) :
    (surroundings.poll proxy question).2.output = printed (surroundings.sampleLines samples) := by
  have answered := surroundings.answer_of_reply? isUrl
  rw [isReply, Option.map_some, conclude, areSamples] at answered
  rw [poll_output, answered]
  rfl

/-- A poll prints one line for each sample if no label is broken, and more lines otherwise. -/
theorem printsLines {url : Url} {reply : Reply} {samples : List Sample}
    (isUrl : requestUrl proxy question proxy.isSome = .ok url)
    (isReply : surroundings.reply? url = some reply)
    (areSamples : Response.parse reply.body = .ok (some samples)) :
    surroundings.PrintsLines samples (surroundings.poll proxy question).2.output := by
  rw [surroundings.output_of_samples isUrl isReply areSamples]
  exact surroundings.printsLines_printed samples

end Printing

/-! A reply about two series has two lines. When the text of a label goes on in a second line,
there are two lines about one series. -/

def plainReply : Reply :=
  ⟨"200 OK", Utf8.encode ("\x7b\"status\":\"success\",\"data\":\x7b\"result\":[" ++
    "\x7b\"metric\":\x7b\"job\":\"api\"\x7d,\"value\":[1,\"2\"]\x7d," ++
    "\x7b\"value\":[2,\"3\"]\x7d]\x7d\x7d").toList⟩

def brokenReply : Reply :=
  ⟨"200 OK", Utf8.encode ("\x7b\"status\":\"success\",\"data\":\x7b\"result\":[" ++
    "\x7b\"metric\":\x7b\"a\":\"x\\ny\"\x7d,\"value\":[1,\"2\"]\x7d]\x7d\x7d").toList⟩

def answeredBy (reply : Reply) : Surroundings :=
  ⟨fun _ => some reply, fun _ => atThreeSeconds, fun _ => 0, utc⟩

def upAtProm : Question :=
  ⟨"http://prom:9090", "up"⟩

theorem requestUrl_upAtProm : requestUrl none upAtProm false = .ok ⟨"http".toList,
    some ⟨[], [], .name "prom".toList, some 9090⟩,
    .segments ["api".toList, "v1".toList, "query".toList], some "query=up".toList, none⟩ := by
  have isParsed : Url.parse upAtProm.directAddress = .ok ⟨"http".toList,
      some ⟨[], [], .name "prom".toList, some 9090⟩,
      .segments ["api".toList, "v1".toList, "query".toList], some "query=up".toList, none⟩ := by
    decide +kernel
  exact congrArg (Except.mapError Failure.address) isParsed

theorem printsLines_plainReply :
    ∃ samples, Response.parse plainReply.body = .ok (some samples) ∧
      (answeredBy plainReply).PrintsLines samples
        ((answeredBy plainReply).poll none upAtProm).2.output ∧
      breaks ((answeredBy plainReply).poll none upAtProm).2.output = 2 := by
  have ⟨samples, areSamples, counted⟩ := @exists_of_okSomeWith _ _
    (fun samples => samples.length + (samples.map fun sample => sample.labels.breaks).sum == 2)
    (Response.parse plainReply.body) (by decide +kernel)
  have printed := (answeredBy plainReply).printsLines requestUrl_upAtProm rfl areSamples
  exact ⟨samples, areSamples, printed, printed.breaks_eq.trans (beq_iff_eq.mp counted)⟩

theorem breaks_brokenReply :
    ∃ samples, Response.parse brokenReply.body = .ok (some samples) ∧ samples.length = 1 ∧
      ((answeredBy brokenReply).poll none upAtProm).2.output =
        "00:00:01 \x7ba=x\ny\x7d 2\n" ∧
      breaks ((answeredBy brokenReply).poll none upAtProm).2.output = 2 := by
  have ⟨samples, areSamples, isOutput⟩ := @exists_of_okSomeWith _ _
    (fun samples => samples.length == 1 &&
      printed ((answeredBy brokenReply).sampleLines samples) == "00:00:01 \x7ba=x\ny\x7d 2\n")
    (Response.parse brokenReply.body) (by decide +kernel)
  rw [Bool.and_eq_true, beq_iff_eq, beq_iff_eq] at isOutput
  have output := (answeredBy brokenReply).output_of_samples requestUrl_upAtProm rfl areSamples
  refine ⟨samples, areSamples, isOutput.1, output.trans isOutput.2, ?_⟩
  rw [output, isOutput.2]
  decide

end Watch.Surroundings

end MetricWatch
