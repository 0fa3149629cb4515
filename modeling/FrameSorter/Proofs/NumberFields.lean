import FrameSorter.Proofs.FirstComplaint
import FrameSorter.Proofs.SoleMembers

/-!
# Numbers in the pack options

Three of the pack options are numbers of 32 bits (`WordField`). A document may give one of them any whole
number (`WordField.document`), and each format looks at it in its own way before it is cut down to
32 bits: JSON takes whole numbers of 64 bits with or without a sign as integers and all others as
numbers with a fraction, TOML refuses what is none of 64 bits with a sign, and RON stops at the first
digit that is too much. None of them wraps around or stops at a limit: the number is the one that was
written, or the document is refused (`parseConfig_document`).
-/

set_option autoImplicit false
set_option relaxedAutoImplicit false

namespace FrameSorter

/-! ### The number of an option -/

/-- The pack options that are numbers. -/
inductive WordField
  | packFormat
  | searchRadius
  | interval
  deriving DecidableEq, Repr

namespace WordField

/-- The name of the option. -/
def name : WordField → String
  | packFormat => "packFormat"
  | searchRadius => "searchRadius"
  | interval => "interval"

/-- The pack options with this number. -/
def set : WordField → UInt32 → PackOptions → PackOptions
  | packFormat, value, options => { options with packFormat := value }
  | searchRadius, value, options => { options with searchRadius := value }
  | interval, value, options => { options with interval := value }

/-- The default configuration with this number. -/
def configuration (field : WordField) (value : UInt32) : Configuration :=
  { pack := field.set value {} }

/-- A document that says nothing but this number, in decimal notation. -/
def document (field : WordField) (n : Int) : Format → String
  | .json => "\x7b\"pack\":\x7b\"" ++ field.name ++ "\":" ++ toString n ++ "\x7d\x7d"
  | .toml => "[pack]\n" ++ field.name ++ " = " ++ toString n
  | .ron => "(pack:(" ++ field.name ++ ":" ++ toString n ++ "))"

example : interval.document (-1) .toml = "[pack]\ninterval = -1" := by
  decide

theorem isWord_name (field : WordField) : IsWord field.name := by
  cases field <;> decide

end WordField

section Members

variable {m : Type → Type} [Functor m] (reading : Reading m)

/-- The option is a member of the pack options. -/
theorem WordField.member?_name (field : WordField) :
    (PackOptions.record reading).member? field.name =
      some (.of field.name reading.word field.set) := by
  cases field <;> rfl

/-- The pack options are a member of a configuration. -/
theorem member?_pack :
    (Configuration.record reading).member? "pack" =
      some (.of "pack" (reading.record (PackOptions.record reading)) fun value config ↦
        { config with pack := value }) :=
  rfl

end Members

/-! ### JSON -/

namespace Json

section Numbers

variable {n : Int} {rest : List Char}

/-- What a word is read as where a number stands. -/
theorem word_characters (numeral : Numeral) (hrest : EndsNumber rest) :
    word (numeral.characters ++ rest) =
      match numeral.parts.number? with
      | none => .error .malformed
      | some (.floating written) => .error (.mismatch (.floating written) .word)
      | some (.integer value) =>
        if 0 ≤ value ∧ value < UInt32.size then .ok (value.toNat.toUInt32, rest)
        else .error (.outOfRange value) := by
  have hparts := ofText?_characters numeral hrest
  obtain ⟨first, more, hnumeral, hfirst⟩ := numeral.exists_cons
  have hstarts : (Scalar.number numeral).StartsWith first := hfirst
  have hskip : skipBlanks (first :: (more ++ rest)) = first :: (more ++ rest) :=
    List.dropWhile_cons_of_neg hstarts.not_isBlank
  rw [hnumeral, List.cons_append] at hparts ⊢
  rw [word, hskip]
  simp only [if_pos hfirst, readNumber, hparts]
  cases numeral.parts.number? with
  | none => rfl
  | some number => cases number <;> rfl

/-- A whole number of 64 bits is read if it has 32, and otherwise out of range. -/
theorem word_toString (hn : -2 ^ 63 ≤ n ∧ n < 2 ^ 64) (hrest : EndsNumber rest) :
    word ((toString n).toList ++ rest) =
      if 0 ≤ n ∧ n < UInt32.size then .ok (n.toNat.toUInt32, rest) else .error (.outOfRange n) := by
  rw [← Numeral.characters_ofInt, word_characters _ hrest, Numeral.number?_ofInt.mpr ⟨hn, rfl⟩]

/-- Any other whole number is refused. -/
theorem word_toString_of_large (hn : ¬ (-2 ^ 63 ≤ n ∧ n < 2 ^ 64)) (hrest : EndsNumber rest) :
    ∃ fault, word ((toString n).toList ++ rest) = .error fault := by
  rw [← Numeral.characters_ofInt, word_characters _ hrest]
  cases hnumber : (Numeral.ofInt n).parts.number? with
  | none => exact ⟨_, rfl⟩
  | some number =>
    cases number with
    | floating written => exact ⟨_, rfl⟩
    | integer value => exact absurd (Numeral.number?_ofInt.mp hnumber).1 hn

end Numbers

section Document

variable {field : WordField} {n : Int} {fault : Fault}

/-- The braces end the number. -/
theorem endsNumber_braces : EndsNumber ['\x7d', '\x7d'] := by
  rintro c ⟨⟩
  decide

/-- A document with a number is an object in an object. -/
theorem toList_document (field : WordField) (n : Int) :
    (field.document n .json).toList =
      soleMember "pack" (soleMember field.name ((toString n).toList ++ ['\x7d', '\x7d'])) := by
  have hkey : (literal field.name).toList = '"' :: (field.name.toList ++ ['"']) := by
    cases field <;> decide
  simp only [WordField.document, String.toList_append, soleMember, hkey]
  have hpack : "\x7b\"pack\":\x7b\"".toList =
      '\x7b' :: ((literal "pack").toList ++ ':' :: '\x7b' :: ['"']) := by decide
  have hcolon : "\":".toList = ['"', ':'] := by decide
  have hend : "\x7d\x7d".toList = ['\x7d', '\x7d'] := by decide
  simp [hpack, hcolon, hend]

/-- A document with a number that is read is the configuration with that number. -/
theorem readConfiguration_of_word {value : UInt32}
    (hword : word ((toString n).toList ++ ['\x7d', '\x7d']) = .ok (value, ['\x7d', '\x7d'])) :
    readConfiguration (field.document n .json) = .ok (field.configuration value) := by
  have hoption := record_of_read (field.member?_name reading) (List.nil_subset _)
    (map_of_ok hword field.set)
  have hread : Json.record (Configuration.record reading) (field.document n .json).toList =
      .ok (field.configuration value, []) := by
    rw [toList_document]
    exact record_of_read (member?_pack reading) (List.nil_subset _) (map_of_ok hoption _)
  rw [readConfiguration, hread]
  rfl

/-- A document with a number that is refused is refused for it. -/
theorem readConfiguration_of_wordError
    (hword : word ((toString n).toList ++ ['\x7d', '\x7d']) = .error fault) :
    readConfiguration (field.document n .json) = .error fault := by
  have hoption := record_of_error (field.member?_name reading) (map_of_error hword field.set)
  have hread : Json.record (Configuration.record reading) (field.document n .json).toList =
      .error fault := by
    rw [toList_document]
    exact record_of_error (member?_pack reading) (map_of_error hoption _)
  rw [readConfiguration, hread]

/-- A number of 64 bits is read if it has 32, and otherwise out of range. -/
theorem readConfiguration_document (field : WordField) (hn : -2 ^ 63 ≤ n ∧ n < 2 ^ 64) :
    readConfiguration (field.document n .json) =
      if 0 ≤ n ∧ n < UInt32.size then .ok (field.configuration n.toNat.toUInt32)
      else .error (.outOfRange n) := by
  have hword := word_toString hn endsNumber_braces
  split_ifs at hword ⊢
  · exact readConfiguration_of_word hword
  · exact readConfiguration_of_wordError hword

/-- Any other number is refused. -/
theorem readConfiguration_document_of_large (field : WordField)
    (hn : ¬ (-2 ^ 63 ≤ n ∧ n < 2 ^ 64)) :
    ∃ fault, readConfiguration (field.document n .json) = .error fault := by
  obtain ⟨fault, hword⟩ := word_toString_of_large hn endsNumber_braces
  exact ⟨fault, readConfiguration_of_wordError hword⟩

end Document

end Json

/-! ### TOML -/

namespace Toml

/-- The line of a number. -/
def numberLine (field : WordField) (n : Int) : List Char :=
  field.name.toList ++ ' ' :: '=' :: ' ' :: (toString n).toList

/-- A document with a number is a header and the line of the number. -/
theorem toList_document (field : WordField) (n : Int) :
    (field.document n .toml).toList =
      (tableLine "pack").flatMap (Token.characters false) ++ '\n' :: numberLine field n := by
  have hheader : "[pack]\n".toList =
      (tableLine "pack").flatMap (Token.characters false) ++ ['\n'] := by decide
  have hequals : " = ".toList = [' ', '=', ' '] := by decide
  simp [WordField.document, numberLine, hheader, hequals]

/-- The key of a number is read, and then the number. -/
theorem keyValue_numberLine (field : WordField) (n : Int) :
    keyValue (value depthLimit) (numberLine field n) =
      if -2 ^ 63 ≤ n ∧ n < 2 ^ 63 then .ok ((([], field.name), .integer n), [])
      else .error .malformed := by
  have hblank : ∀ c ∈ [' '], isBlank c := List.forall_mem_singleton.mpr rfl
  have htokens : Spells (toString n).toList [.key field.name, .mark .equals] (numberLine field n) :=
    @Spells.cons _ [] (.key field.name) _ _ false (List.forall_mem_nil _) <|
      @Spells.cons _ [' '] (.mark .equals) _ _ false hblank <| @Spells.nil _ [' '] hblank
  obtain ⟨front, hfront, hkey⟩ := key_of_spells field.isWord_name htokens
  change key (numberLine field n) = .ok (([], field.name), '=' :: front) at hkey
  have hskip : skipBlanks front = (toString n).toList := by
    cases hfront with
    | nil hgap =>
      refine skipBlanks_append hgap fun c hc ↦ ?_
      obtain ⟨first, more, hfirst, hstarts⟩ := toString_eq_cons n
      rw [hfirst] at hc
      obtain rfl := Option.some.inj hc
      rcases hstarts with rfl | hdigit
      · decide
      · exact not_isBlank_of_isAlphanum (by simp [Char.isAlphanum, hdigit])
  have hends : ∀ c ∈ ([] : List Char).head?, EndsValue c := by simp
  have hvalue := value_toString n depthLimit hends
  rw [List.append_nil] at hvalue
  rw [keyValue, bind_of_ok hkey, bind_of_ok (expect_cons '=' front),
    bind_of_ok (modify_ok skipBlanks front), hskip]
  split_ifs at hvalue ⊢
  · rw [bind_of_ok hvalue]
    rfl
  · exact bind_of_error hvalue _

/-- The header in front of the number opens a table. -/
theorem advances_packHeader (field : WordField) (n : Int) :
    Advances {} (field.document n .toml).toList ⟨[("pack", .table .header [])], ["pack"]⟩
      (numberLine field n) := by
  rw [toList_document]
  exact advances_tableLine {} (by decide) (spells_compact false _ (tableLine "pack")) (.lineFeed _)
    (openTable_of_notMem List.not_mem_nil)

/-- The line of a number is one with a key. -/
theorem exists_cons_numberLine (field : WordField) (n : Int) :
    ∃ first more, numberLine field n = first :: more ∧
      skipBlanks (numberLine field n) = first :: more ∧
      first ≠ '[' ∧ ¬ (first = '#' ∨ first = '\n' ∨ first = '\r') := by
  obtain ⟨first, more, hfirst, hletter⟩ := field.isWord_name.toList_eq_cons
  have hother : first ∉ ['[', '#', '\n', '\r'] := by
    have hmarks : ∀ c ∈ ['[', '#', '\n', '\r'], ¬ c.isAlpha := by simp
    exact fun hmark ↦ hmarks first hmark hletter
  have hline : numberLine field n = first :: (more ++ ' ' :: '=' :: ' ' :: (toString n).toList) := by
    rw [numberLine, hfirst, List.cons_append]
  have hblank : ¬ isBlank first := not_isBlank_of_isAlphanum (by simp [Char.isAlphanum, hletter])
  refine ⟨first, _, hline, ?_, by simpa using hother⟩
  rw [hline]
  exact List.dropWhile_cons_of_neg hblank

/-- A document with a number of 64 bits with a sign is a table with that number in a table. Any other
number is refused at once. -/
theorem readDocument_document (field : WordField) (n : Int) :
    readDocument (field.document n .toml) =
      if -2 ^ 63 ≤ n ∧ n < 2 ^ 63 then
        .ok [("pack", .table .header [(field.name, .integer n)])]
      else .error .malformed := by
  have hmark : skipOrderMark (field.document n .toml).toList = (field.document n .toml).toList := by
    rw [toList_document]
    rfl
  have hheader := advances_packHeader field n
  have hkeyValue := keyValue_numberLine field n
  obtain ⟨first, more, hline, hskip, hbracket, hbreak⟩ := exists_cons_numberLine field n
  rw [hline] at hheader hskip hkeyValue
  rw [readDocument, hmark]
  split_ifs at hkeyValue ⊢
  · have hopen : IsOpen ["pack"] fun members ↦ [] ++ [("pack", .table .header members)] :=
      isOpen_table List.not_mem_nil
    have hroot : putValue ["pack"] [] field.name (.integer n) [("pack", .table .header [])] =
        .ok [("pack", .table .header [(field.name, .integer n)])] := hopen List.not_mem_nil
    have hnumber : Advances ⟨[("pack", .table .header [])], ["pack"]⟩ (first :: more)
        ⟨[("pack", .table .header [(field.name, .integer n)])], ["pack"]⟩ [] :=
      .of_step (Nat.succ_pos _) fun steps ↦ lines_key steps hskip hbracket hbreak hkeyValue rfl hroot
    obtain ⟨left, hleft, hlines⟩ := (hheader.trans hnumber) (Nat.lt_succ_self _)
    rw [hlines, lines_of_spells_nil (.nil (List.forall_mem_nil _)) _ hleft]
    rfl
  · -- Behind the header there is a step left, in which the number is refused.
    obtain ⟨left, hleft, hlines⟩ := hheader (Nat.lt_succ_self _)
    obtain ⟨left, rfl⟩ := Nat.exists_eq_add_one.mpr (Nat.zero_lt_of_lt hleft)
    rw [hlines, lines_eq_error left hskip hbracket hbreak hkeyValue]
    rfl

/-- A number of 64 bits with a sign is read if it has 32, and otherwise out of range. -/
theorem readConfiguration_document (field : WordField) (n : Int) :
    readConfiguration (field.document n .toml) =
      if -2 ^ 63 ≤ n ∧ n < 2 ^ 63 then
        if 0 ≤ n ∧ n < UInt32.size then .ok (field.configuration n.toNat.toUInt32)
        else .error (.outOfRange n)
      else .error .malformed := by
  have hword : reading.word (.integer n) =
      if 0 ≤ n ∧ n < UInt32.size then .ok n.toNat.toUInt32 else .error (.outOfRange n) := rfl
  have hoption : reading.record (PackOptions.record reading)
      (.table .header [(field.name, .integer n)]) =
        (reading.word (.integer n)).map fun value ↦ field.set value {} := by
    refine (asRecord_soleMember (field.member?_name reading) (List.nil_subset _) .header _).trans ?_
    change Except.map _ (Except.map field.set (reading.word (.integer n))) = _
    cases reading.word (.integer n) <;> rfl
  have hconfiguration : asRecord (Configuration.record reading)
      (.table .header [("pack", .table .header [(field.name, .integer n)])]) =
        (reading.word (.integer n)).map field.configuration := by
    refine (asRecord_soleMember (member?_pack reading) (List.nil_subset _) .header _).trans ?_
    change Except.map _ (Except.map _ (reading.record (PackOptions.record reading)
      (.table .header [(field.name, .integer n)]))) = _
    rw [hoption]
    cases reading.word (.integer n) <;> rfl
  rw [readConfiguration, readDocument_document]
  by_cases hn : -2 ^ 63 ≤ n ∧ n < 2 ^ 63
  · rw [if_pos hn, if_pos hn]
    refine hconfiguration.trans ?_
    rw [hword]
    split_ifs <;> rfl
  · rw [if_neg hn, if_neg hn]
    rfl

end Toml

/-! ### RON -/

namespace Ron

section Document

variable {rest : List Char}

/-- A document with a number is a record in a record. -/
theorem toList_document (field : WordField) (n : Int) :
    (field.document n .ron).toList =
      soleMember "pack" (soleMember field.name ((toString n).toList ++ [')', ')'])) := by
  have hpack : "(pack:(".toList = '(' :: ("pack".toList ++ ':' :: ['(']) := by decide
  have hcolon : ":".toList = [':'] := by decide
  have hend : "))".toList = [')', ')'] := by decide
  simp [WordField.document, soleMember, hpack, hcolon, hend]

/-- A whole number is read if it is one of 32 bits. -/
theorem readWord_toString (n : Int) (hends : ∀ c ∈ rest.head?, EndsValue c) :
    readWord ((toString n).toList ++ rest) =
      if 0 ≤ n ∧ n < UInt32.size then .ok (n.toNat.toUInt32, rest) else .error .malformed := by
  by_cases hn : n < 0
  · have hword : ¬ (0 ≤ n ∧ n < UInt32.size) := fun h ↦ Int.not_lt.mpr h.1 hn
    rw [toList_toString_of_neg hn, if_neg hword]
    rfl
  · have hlimit : n.natAbs ≤ UInt32.size - 1 ↔ 0 ≤ n ∧ n < UInt32.size := by
      simp only [UInt32.size]
      omega
    have hvalue : n.natAbs = n.toNat := by omega
    rw [toList_toString_of_nonneg (Int.not_lt.mp hn), readWord, readWhole_append _ _ hends]
    simp only [hlimit]
    split_ifs
    · rw [hvalue]
    · rfl

/-- The record in the record is read if the number is one of 32 bits. -/
theorem record_document (field : WordField) (n : Int) :
    Ron.record false (Configuration.record (reading false)) depthLimit
        (field.document n .ron).toList =
      if 0 ≤ n ∧ n < UInt32.size then .ok (field.configuration n.toNat.toUInt32, [])
      else .error .malformed := by
  obtain ⟨first, more, hfirst, hstarts⟩ := toString_eq_cons n
  -- Behind a colon the reader skips up to the value, so the number has to start visibly.
  have hvisible : IsVisible first := by
    rcases hstarts with rfl | hdigit
    · decide
    · exact (isStart_of_isAlphanum (by simp [Char.isAlphanum, hdigit])).1
  have hends : ∀ c ∈ [')', ')'].head?, EndsValue c := by
    rintro c ⟨⟩
    decide
  have hword := readWord_toString n hends
  have hdepth : depthLimit = 124 + 2 + 2 := rfl
  have hparenthesis : IsVisible '(' := by decide
  have hmember := field.member?_name (reading false)
  rw [toList_document, hdepth]
  rw [hfirst, List.cons_append] at hword ⊢
  by_cases hn : 0 ≤ n ∧ n < UInt32.size
  · rw [if_pos hn] at hword ⊢
    have hoption : Ron.record false (PackOptions.record (reading false)) (124 + 2)
        (soleMember field.name (first :: (more ++ [')', ')']))) =
          .ok (field.set n.toNat.toUInt32 {}, [')']) :=
      record_of_read field.isWord_name hmember (List.nil_subset _) hvisible
        (map_of_ok hword field.set)
    exact record_of_read (by decide) (member?_pack (reading false)) (List.nil_subset _) hparenthesis
      (map_of_ok hoption _)
  · rw [if_neg hn] at hword ⊢
    have hoption : Ron.record false (PackOptions.record (reading false)) (124 + 2)
        (soleMember field.name (first :: (more ++ [')', ')']))) = .error .malformed :=
      record_of_error field.isWord_name hmember hvisible (map_of_error hword field.set)
    exact record_of_error (by decide) (member?_pack (reading false)) hparenthesis
      (map_of_error hoption _)

/-- A number is read if it is one of 32 bits. -/
theorem readConfiguration_document (field : WordField) (n : Int) :
    readConfiguration (field.document n .ron) =
      if 0 ≤ n ∧ n < UInt32.size then .ok (field.configuration n.toNat.toUInt32)
      else .error .malformed := by
  have hattributes : attributes ((field.document n .ron).toList.length + 1)
      (field.document n .ron).toList = .ok ([], (field.document n .ron).toList) := by
    rw [toList_document, soleMember, attributes,
      bind_of_ok (between_of_skipGap (skipGap_of_isVisible (by decide))), bind_of_ok (get_ok _)]
    rfl
  have hextension : decide (implicitSomeName ∈ ([] : List String)) = false := by decide
  have hrecord := record_document field n
  rw [readConfiguration]
  dsimp only
  rw [bind_of_ok hattributes, hextension]
  by_cases hn : 0 ≤ n ∧ n < UInt32.size
  · have hrest : between [] = .ok ((), []) := rfl
    rw [if_pos hn] at hrecord ⊢
    rw [bind_of_ok hrecord, bind_of_ok hrest, bind_of_ok (get_ok _), if_pos List.isEmpty_nil]
    rfl
  · rw [if_neg hn] at hrecord ⊢
    rw [bind_of_error hrecord]
    rfl

end Document

end Ron

/-! ### Every format -/

/-- How JSON and TOML say that a number is out of range. -/
theorem reason_outOfRange {format : Format} (hformat : format ≠ .ron) (n : Int) :
    (Fault.outOfRange n).reason format =
      some ("invalid value: integer `" ++ toString n ++ "`, expected u32") := by
  have hreason : (Fault.outOfRange n).reason format =
      some ("invalid value: integer `" ++ toString n ++ "`, expected " ++ "u32") := by
    cases format with
    | ron => exact absurd rfl hformat
    | toml => rfl
    | json => rfl
  rw [hreason, String.append_assoc]
  rfl

/-- The pack options that are numbers take a whole number exactly if it is one of 32 bits, and then it is
the number that was written, in every format. Any other number is refused. JSON and TOML say that it
is out of range if it is one of 64 bits, in TOML with a sign and in JSON with or without. -/
theorem parseConfig_document (field : WordField) (n : Int) :
    (0 ≤ n ∧ n ≤ 4294967295 → ∀ format file, parseConfig (field.document n format) format file =
        .ok (field.configuration n.toNat.toUInt32)) ∧
      (¬ (0 ≤ n ∧ n ≤ 4294967295) →
        (∀ format, ∃ fault, ∀ file, parseConfig (field.document n format) format file =
          .error (.parse file format fault)) ∧
        (-2 ^ 63 ≤ n ∧ n < 2 ^ 64 → IsRefusedFor (field.document n .json) .json (.outOfRange n)
          ("invalid value: integer `" ++ toString n ++ "`, expected u32")) ∧
        (-2 ^ 63 ≤ n ∧ n < 2 ^ 63 → IsRefusedFor (field.document n .toml) .toml (.outOfRange n)
          ("invalid value: integer `" ++ toString n ++ "`, expected u32"))) := by
  have hrange : 0 ≤ n ∧ n ≤ 4294967295 ↔ 0 ≤ n ∧ n < UInt32.size := by
    simp only [UInt32.size]
    omega
  have hjson := Json.readConfiguration_document (n := n) field
  have htoml := Toml.readConfiguration_document field n
  have hron := Ron.readConfiguration_document field n
  rw [hrange]
  refine ⟨fun hn format file ↦ ?_, fun hn ↦ ⟨fun format ↦ ?_, fun hlarge ↦ ?_, fun hlarge ↦ ?_⟩⟩
  · have hread : readConfiguration format (field.document n format) =
        .ok (field.configuration n.toNat.toUInt32) := by
      have hword : n < 2 ^ 32 := hn.2
      cases format with
      | json => exact (hjson (by omega)).trans (if_pos hn)
      | toml => exact htoml.trans ((if_pos (by omega)).trans (if_pos hn))
      | ron => exact hron.trans (if_pos hn)
    rw [parseConfig, hread]
  · have hread : ∃ fault, readConfiguration format (field.document n format) = .error fault := by
      cases format with
      | json =>
        by_cases hlarge : -2 ^ 63 ≤ n ∧ n < 2 ^ 64
        · exact ⟨_, (hjson hlarge).trans (if_neg hn)⟩
        · exact Json.readConfiguration_document_of_large field hlarge
      | toml =>
        by_cases hlarge : -2 ^ 63 ≤ n ∧ n < 2 ^ 63
        · exact ⟨_, htoml.trans ((if_pos hlarge).trans (if_neg hn))⟩
        · exact ⟨_, htoml.trans (if_neg hlarge)⟩
      | ron => exact ⟨_, hron.trans (if_neg hn)⟩
    obtain ⟨fault, hread⟩ := hread
    exact ⟨fault, parseConfig_of_fault hread⟩
  · have hread : readConfiguration .json (field.document n .json) = .error (.outOfRange n) :=
      (hjson hlarge).trans (if_neg hn)
    exact isRefusedFor_of_read hread (reason_outOfRange (by decide) n)
  · have hread : readConfiguration .toml (field.document n .toml) = .error (.outOfRange n) :=
      htoml.trans ((if_pos hlarge).trans (if_neg hn))
    exact isRefusedFor_of_read hread (reason_outOfRange (by decide) n)

/-- The largest number of 32 bits is read in every format, and the numbers next to the range are
refused. -/
theorem parseConfig_document_interval :
    (∀ format file, parseConfig (WordField.interval.document 4294967295 format) format file =
        .ok (WordField.interval.configuration 4294967295)) ∧
      IsRefusedFor (WordField.interval.document 4294967296 .json) .json (.outOfRange 4294967296)
        "invalid value: integer `4294967296`, expected u32" ∧
      IsRefusedFor (WordField.interval.document (-1) .toml) .toml (.outOfRange (-1))
        "invalid value: integer `-1`, expected u32" ∧
      ∃ fault, ∀ file, parseConfig (WordField.interval.document (-1) .ron) .ron file =
        .error (.parse file .ron fault) := by
  have hlast := (parseConfig_document .interval 4294967295).1 (by decide)
  have hnext := (parseConfig_document .interval 4294967296).2 (by decide)
  have hminus := (parseConfig_document .interval (-1)).2 (by decide)
  exact ⟨hlast, hnext.2.1 (by decide), hminus.2.2 (by decide), hminus.1 .ron⟩

end FrameSorter
