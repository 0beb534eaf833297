import MetricWatch.Proofs.Text.Parts
import MetricWatch.Proofs.Url.Escapes
import MetricWatch.Proofs.Url.Parse

namespace MetricWatch.Url

/-! Queries as forms: names with values, as whoever serves a URL reads them. -/

def formText (part : List Char) : String :=
  String.ofList (Utf8.lossyText (percentDecode
    (part.map fun character => if character = '+' then ' ' else character)))

def formPair (part : List Char) : String × String :=
  let (name, value) := splitAtMark '=' part
  (formText name, formText (value.getD []))

def formPairs (query : List Char) : List (String × String) :=
  ((partsBetween (· == '&') query).filter fun part => !part.isEmpty).map formPair

/-- The form that the query of a URL is. -/
def queryPairs (url : Url) : List (String × String) :=
  formPairs (url.query.getD [])

example : formPairs "a=1+%2B&&b%zz".toList = [("a", "1 +"), ("b%zz", "")] := by decide +kernel

/-! Which characters a URL demands to be escaped in its query is not seen in the form. -/

def plusAsBlank (character : Char) : Char :=
  if character = '+' then ' ' else character

theorem formText_eq (part : List Char) :
    formText part =
      String.ofList (Utf8.lossyText (percentDecode (part.map plusAsBlank))) :=
  rfl

theorem map_eq_self_of_not_mem {text : List Char} (noPlus : '+' ∉ text) :
    text.map plusAsBlank = text := by
  rw [List.map_congr_left (g := id), List.map_id]
  intro character member
  refine if_neg ?_
  rintro rfl
  exact noPlus member

def allowedInQueryOf (kind : SchemeKind) : Allowed :=
  if kind.isSpecial then allowedInSpecialQuery else allowedInQuery

/-- No query takes offence at the digits of an escape. -/
theorem isAllowed_of_hexValue? (kind : SchemeKind) {character : Char}
    (isHex : (hexValue? character).isSome) :
    (isAscii character && allowedInQueryOf kind character) = true := by
  have bounds := toNat_of_hexValue? isHex
  have ne : ∀ other : Char, hexValue? other = none → character ≠ other := by
    rintro other notHex rfl
    rw [notHex] at isHex
    cases isHex
  have isAscii : isAscii character = true := decide_eq_true (by omega)
  have inOpaque : allowedInOpaque character = true := by
    simp only [allowedInOpaque, Bool.and_eq_true, decide_eq_true_eq]
    omega
  have inQuery : allowedInQuery character = true := by
    simp [allowedInQuery, inOpaque, ne '"' rfl, ne ' ' rfl, ne '#' rfl, ne '<' rfl, ne '>' rfl]
  have inSpecialQuery : allowedInSpecialQuery character = true := by
    simp [allowedInSpecialQuery, inQuery, ne '\'' rfl]
  cases kind <;> simp [allowedInQueryOf, SchemeKind.isSpecial, isAscii, inQuery, inSpecialQuery]

theorem isSpelling_encodeQuery (kind : SchemeKind) :
    IsSpelling
      (fun character =>
        (percentEncodeCharacter (allowedInQueryOf kind) character).map plusAsBlank)
      plusAsBlank := by
  refine ⟨fun character => ?_⟩
  by_cases isAllowed : (isAscii character && allowedInQueryOf kind character) = true
  · rw [percentEncodeCharacter, if_pos isAllowed]
    exact .inl rfl
  · have different : ∀ other, (isAscii other && allowedInQueryOf kind other) = true →
        character ≠ other := by
      rintro other isAllowedOther rfl
      exact isAllowed isAllowedOther
    have notPlus : plusAsBlank character = character :=
      if_neg (different '+' (by cases kind <;> decide))
    rw [percentEncodeCharacter, if_neg isAllowed, notPlus]
    refine .inr ⟨map_eq_self_of_not_mem ?_, different '%' (by cases kind <;> decide), ?_⟩
    · intro member
      rcases List.mem_flatMap.mp member with ⟨byte, _, member⟩
      rcases mem_encodeByte member with impossible | impossible <;> cases impossible
    · apply Option.eq_none_iff_forall_ne_some.mpr
      intro value isHex
      exact isAllowed (isAllowed_of_hexValue? kind (Option.isSome_of_eq_some isHex))

theorem formText_encodeQuery_eq (kind : SchemeKind) (text : List Char) :
    formText (encodeQuery kind text) = formText text := by
  have spelled : (encodeQuery kind text).map plusAsBlank = text.flatMap fun character =>
      (percentEncodeCharacter (allowedInQueryOf kind) character).map plusAsBlank :=
    List.map_flatMap
  rw [formText_eq, spelled, percentDecode_flatMap (isSpelling_encodeQuery kind), formText_eq]

/-- A mark that stays as it is, and that no escape brings in. -/
structure IsMark (allowed : Allowed) (mark : Char) : Prop where
  isAllowed : (isAscii mark && allowed mark) = true
  notPercent : mark ≠ '%'
  notDigit : isHexDigit mark = false

section Mark

variable {allowed : Allowed} {mark : Char} (isMark : IsMark allowed mark)

include isMark

theorem percentEncode_cons_mark (text : List Char) :
    percentEncode allowed (mark :: text) = mark :: percentEncode allowed text := by
  rw [percentEncode, List.flatMap_cons, percentEncodeCharacter, if_pos isMark.isAllowed]
  rfl

theorem splitAtMark_percentEncode (text : List Char) :
    splitAtMark mark (percentEncode allowed text) =
      (percentEncode allowed (splitAtMark mark text).1,
        (splitAtMark mark text).2.map (percentEncode allowed)) := by
  have apart : ∀ {part}, mark ∉ part → mark ∉ percentEncode allowed part :=
    not_mem_percentEncode_of_not_mem isMark.notPercent isMark.notDigit
  by_cases hasMark : mark ∈ text
  · rcases List.eq_append_cons_of_mem hasMark with ⟨before, behind, rfl, notBefore⟩
    rw [percentEncode_append, percentEncode_cons_mark isMark, splitAtMark_append notBefore,
      splitAtMark_append (apart notBefore)]
    rfl
  · rw [splitAtMark_of_not_mem hasMark, splitAtMark_of_not_mem (apart hasMark)]
    rfl

theorem partsBetween_percentEncode (text : List Char) :
    partsBetween (· == mark) (percentEncode allowed text) =
      (partsBetween (· == mark) text).map (percentEncode allowed) := by
  induction text with
  | nil => rfl
  | cons character rest induction =>
      by_cases isSame : character = mark
      · subst isSame
        simp only [percentEncode_cons_mark isMark, partsBetween, beq_self_eq_true, if_true,
          induction, List.map_cons]
        rfl
      · have apart : mark ∉ [character] := by simp [Ne.symm isSame]
        have apartStill : mark ∉ percentEncode allowed [character] :=
          not_mem_percentEncode_of_not_mem isMark.notPercent isMark.notDigit apart
        cases parted : partsBetween (· == mark) rest with
        | nil => exact absurd parted (partsBetween_ne_nil _ rest)
        | cons part parts =>
            rw [parted] at induction
            rw [← List.singleton_append, percentEncode_append,
              partsBetween_append (beq_mark apartStill) induction,
              partsBetween_append (beq_mark apart) parted, List.map_cons, percentEncode_append]

end Mark

theorem formPair_encodeQuery (kind : SchemeKind) (part : List Char) :
    formPair (encodeQuery kind part) = formPair part := by
  have isMark : IsMark (allowedInQueryOf kind) '=' :=
    ⟨by cases kind <;> decide, by decide, by decide⟩
  have split : splitAtMark '=' (encodeQuery kind part) =
      (encodeQuery kind (splitAtMark '=' part).1,
        (splitAtMark '=' part).2.map (encodeQuery kind)) :=
    splitAtMark_percentEncode isMark part
  have value : formText (((splitAtMark '=' part).2.map (encodeQuery kind)).getD []) =
      formText ((splitAtMark '=' part).2.getD []) := by
    cases (splitAtMark '=' part).2 with
    | none => rfl
    | some value => exact formText_encodeQuery_eq kind value
  rw [formPair, split]
  exact Prod.ext (formText_encodeQuery_eq kind _) value

/-- A form reads a query in a URL as it reads the query that is put into the URL. -/
theorem formPairs_encodeQuery (kind : SchemeKind) (query : List Char) :
    formPairs (encodeQuery kind query) = formPairs query := by
  have isMark : IsMark (allowedInQueryOf kind) '&' :=
    ⟨by cases kind <;> decide, by decide, by decide⟩
  have parted : partsBetween (· == '&') (encodeQuery kind query) =
      (partsBetween (· == '&') query).map (encodeQuery kind) :=
    partsBetween_percentEncode isMark query
  have sameEmpty : ∀ part, (encodeQuery kind part).isEmpty = part.isEmpty := by
    intro part
    rw [Bool.eq_iff_iff, List.isEmpty_iff, List.isEmpty_iff]
    exact percentEncode_eq_nil_iff
  have filtered : (fun part => !part.isEmpty) ∘ encodeQuery kind = fun part => !part.isEmpty := by
    funext part
    rw [Function.comp_apply, sameEmpty]
  rw [formPairs, parted, List.filter_map, filtered, List.map_map, formPairs]
  exact List.map_congr_left fun part _ => formPair_encodeQuery kind part

section Pair

variable {name value : List Char} (noEqualsSign : '=' ∉ name)
  (noAmpersand : '&' ∉ name ++ '=' :: value)

include noEqualsSign

theorem formPair_append (value : List Char) :
    formPair (name ++ '=' :: value) = (formText name, formText value) := by
  rw [formPair, splitAtMark_append noEqualsSign]
  rfl

include noAmpersand

theorem formPairs_of_not_mem :
    formPairs (name ++ '=' :: value) = [(formText name, formText value)] := by
  rw [formPairs, partsBetween_of_not_mem noAmpersand, List.filter_cons_of_pos (by simp),
    List.filter_nil, List.map_singleton, formPair_append noEqualsSign]

/-- A form goes on behind an ampersand. -/
theorem formPairs_append (behind : List Char) :
    formPairs (name ++ '=' :: value ++ '&' :: behind) =
      (formText name, formText value) :: formPairs behind := by
  rw [formPairs, partsBetween_append_mark noAmpersand, List.filter_cons_of_pos (by simp),
    List.map_cons, formPair_append noEqualsSign, formPairs]

end Pair

/-! What a form reads is no longer than what is written. The same is read as is written if
there is neither a plus sign nor an escape. -/

theorem length_formText_le (part : List Char) : (formText part).toList.length ≤ part.length := by
  have atMost := length_decoded_le (part.map plusAsBlank)
  rwa [List.length_map, ← String.toList_ofList (l := Utf8.lossyText _), ← formText_eq] at atMost

theorem not_mem_map_plusAsBlank (text : List Char) : '+' ∉ text.map plusAsBlank := by
  intro member
  rcases List.mem_map.mp member with ⟨character, _, equal⟩
  rw [plusAsBlank] at equal
  split at equal
  · cases equal
  · contradiction

theorem formText_eq_ofList_iff {part : List Char} :
    formText part = String.ofList part ↔ '+' ∉ part ∧ NoEscape part := by
  rw [formText_eq, String.ofList_inj]
  constructor
  · intro same
    have noShorter : (part.map plusAsBlank).length ≤
        (Utf8.lossyText (percentDecode (part.map plusAsBlank))).length := by
      rw [same, List.length_map]
    have noEscape := noEscape_of_length_le noShorter
    rw [decoded_of_noEscape noEscape] at same
    rw [same] at noEscape
    exact ⟨same ▸ not_mem_map_plusAsBlank part, noEscape⟩
  · rintro ⟨noPlus, noEscape⟩
    rw [map_eq_self_of_not_mem noPlus, decoded_of_noEscape noEscape]

/-! A text that is encoded as a component comes out of a form again. -/

theorem formText_percentEncode {allowed : Allowed} (notPlus : allowed '+' = false)
    (notPercent : allowed '%' = false) (text : String) :
    formText (percentEncode allowed text.toList) = text := by
  have noPlus := not_mem_percentEncode notPlus (by decide) (by decide) text.toList
  have decoded := percentDecode_percentEncode notPercent text.toList []
  simp only [List.append_nil, percentDecode] at decoded
  rw [formText_eq, map_eq_self_of_not_mem noPlus, decoded, Utf8.lossyText_encode,
    String.ofList_toList]

/-! A form of one name, whatever stands in it and in the value. -/

def pairQuery (name value : String) : List Char :=
  encodeComponent name.toList ++ '=' :: encodeComponent value.toList

theorem formPairs_pairQuery (name value : String) :
    formPairs (pairQuery name value) = [(name, value)] := by
  have text : ∀ text : String, formText (encodeComponent text.toList) = text :=
    formText_percentEncode (by decide) (by decide)
  have noAmpersand : ∀ text : String, '&' ∉ encodeComponent text.toList := fun text =>
    not_mem_percentEncode (by decide) (by decide) (by decide) text.toList
  have noEqualsSign : '=' ∉ encodeComponent name.toList :=
    not_mem_percentEncode (by decide) (by decide) (by decide) name.toList
  rw [pairQuery, formPairs_of_not_mem noEqualsSign (by simp [noAmpersand]), text, text]

theorem queryPairs_asking_pairQuery (url : Url) (name value : String) :
    (url.asking (pairQuery name value)).queryPairs = [(name, value)] :=
  (formPairs_encodeQuery _ _).trans (formPairs_pairQuery name value)

theorem not_mem_encodeComponent_of_isEdgeBlank {character : Char}
    (isBlank : isEdgeBlank character = true) (text : List Char) :
    character ∉ encodeComponent text := by
  have every : ∀ code : Fin 33, allowedInComponent (Char.ofNat code) = false ∧
      Char.ofNat code ≠ '%' ∧ isHexDigit (Char.ofNat code) = false := by
    decide +kernel
  have below : character.toNat < 33 := Nat.lt_succ_of_le (of_decide_eq_true isBlank)
  have ⟨notAllowed, notPercent, notDigit⟩ := every ⟨character.toNat, below⟩
  rw [Char.ofNat_toNat] at notAllowed notPercent notDigit
  exact not_mem_percentEncode notAllowed notPercent notDigit text

theorem isPlainQuery_encodeComponent (text : List Char) : IsPlainQuery (encodeComponent text) := by
  refine fun character member => ⟨?_, ?_, Bool.eq_false_iff.mpr fun isBlank => ?_⟩
  · rintro rfl
    exact not_mem_percentEncode (by decide) (by decide) (by decide) _ member
  · rintro rfl
    exact not_mem_percentEncode (by decide) (by decide) (by decide) _ member
  · exact not_mem_encodeComponent_of_isEdgeBlank isBlank _ member

theorem isPlainQuery_pairQuery (name value : String) : IsPlainQuery (pairQuery name value) := by
  intro character member
  rcases List.mem_append.mp member with inName | inRest
  · exact isPlainQuery_encodeComponent _ character inName
  · rcases List.mem_cons.mp inRest with rfl | inValue
    · decide
    · exact isPlainQuery_encodeComponent _ character inValue

end MetricWatch.Url
