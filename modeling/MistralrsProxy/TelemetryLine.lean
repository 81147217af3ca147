import MistralrsProxy.Bytes
import MistralrsProxy.TelemetryContract
import MistralrsProxy.Utf8

/-! The line parser with its byte cursors. The source looks at the bytes of a line and cuts the line at byte offsets,
which panics inside a character. All it looks for are ASCII bytes, so the cursor is always between two characters and
the parser is the one that reads characters. -/

open Utf8

namespace MistralrsProxy

def isMetricNameStartByte (byte : UInt8) : Bool :=
  (65 ≤ byte && byte ≤ 90) || (97 ≤ byte && byte ≤ 122) || byte == 95 || byte == 58

def isMetricNameContinueByte (byte : UInt8) : Bool := isMetricNameStartByte byte || (48 ≤ byte && byte ≤ 57)

/-- The cursor behind the bytes that pass a test. -/
def advance (test : UInt8 → Bool) (bytes : List UInt8) (cursor : Nat) : Nat :=
  cursor + ((bytes.drop cursor).takeWhile test).length

/-- How many bytes are in front of the closing brace. -/
def labelSetLength : Bool → Bool → List UInt8 → Option Nat
  | _, _, [] => none
  | true, true, _ :: rest => (labelSetLength true false rest).map (· + 1)
  | true, false, byte :: rest => (labelSetLength (byte != 34) (byte == 92) rest).map (· + 1)
  | false, escaped, byte :: rest =>
      if byte = 34 then (labelSetLength true escaped rest).map (· + 1)
      else if byte = 125 then some 0
      else (labelSetLength false escaped rest).map (· + 1)

/-- `find_label_set_end`: the index of the closing brace. -/
def findLabelSetEndBytes (bytes : List UInt8) (opening : Nat) : Option Nat :=
  (labelSetLength false false (bytes.drop (opening + 1))).map (opening + 1 + ·)

/-- The labels at a cursor, and the cursor behind them. No outer result stands for a panic. -/
def parseLabelsBytes (line : List Char) (cursor : Nat) : Option (Except String (Option (List Char) × Nat)) :=
  if (encode line)[cursor]? = some 123 then
    match findLabelSetEndBytes (encode line) cursor with
    | none => some (.error "unterminated label set")
    | some close => (slice cursor (close + 1) line).map fun labels => .ok (some labels, close + 1)
  else some (.ok (none, cursor))

/-- The value behind a cursor, and what follows it. -/
def parseValueBytes (line : List Char) (cursor : Nat) : Option (Except String (List Char × List Char)) :=
  if !((encode line)[cursor]?.any Bytes.isAsciiWhitespace) then some (.error "expected whitespace before sample value")
  else
    let valueStart := advance Bytes.isAsciiWhitespace (encode line) cursor
    if valueStart = (encode line).length then some (.error "sample value is missing")
    else
      let valueEnd := advance (fun byte => !Bytes.isAsciiWhitespace byte) (encode line) valueStart
      (slice valueStart valueEnd line).bind fun value =>
        (sliceFrom valueEnd line).map fun remainder => .ok (value, trimStart remainder)

/-- The check on what follows the value; `find` returns the offset of a character. -/
def checkRemainderBytes (remainder : List Char) : Option (Except String Unit) :=
  if remainder = [] ∨ remainder.head? = some '#' then some (.ok ())
  else
    let timestampEnd := (encode (remainder.takeWhile fun char => !isWhitespace char)).length
    (slice 0 timestampEnd remainder).bind fun timestamp =>
      if parseI64 timestamp = none then some (.error "unexpected content after sample value")
      else (sliceFrom timestampEnd remainder).map fun rest =>
        let afterTimestamp := trimStart rest
        if afterTimestamp = [] ∨ afterTimestamp.head? = some '#' then .ok ()
        else .error "unexpected content after sample timestamp"

/-- `parse_sample_line` as the source has it; no outer result stands for a panic. -/
def parseSampleLineBytes (line : List Char) : Option (Except String ParsedSample) :=
  let nameEnd := (encode line).findIdx fun byte => !isMetricNameContinueByte byte
  if nameEnd = 0 ∨ !((encode line)[0]?.any isMetricNameStartByte) then some (.error "invalid metric name")
  else
    (slice 0 nameEnd line).bind fun name =>
      (parseLabelsBytes line nameEnd).bind fun
        | .error reason => some (.error reason)
        | .ok (labels, cursor) =>
            (parseValueBytes line cursor).bind fun
              | .error reason => some (.error reason)
              | .ok (value, remainder) =>
                  (checkRemainderBytes remainder).map fun
                    | .error reason => .error reason
                    | .ok () => .ok ⟨name, labels, value⟩

/-- `metric_name_prefix` as the source has it. -/
def metricNamePrefixBytes (line : List Char) : Option (List Char) :=
  if !((encode line)[0]?.any isMetricNameStartByte) then some []
  else slice 0 ((encode line).findIdx fun byte => !isMetricNameContinueByte byte) line

section Classes

theorem agree_nameStart : Agree isMetricNameStartByte isMetricNameStart false := by
  apply Agree.of_ascii (by decide +kernel)
  intro char hchar
  rw [isMetricNameStart, isAlpha_other hchar, beq_other hchar (by decide), beq_other hchar (by decide)]
  rfl

theorem agree_nameContinue : Agree isMetricNameContinueByte isMetricNameContinue false := by
  apply Agree.of_ascii (by decide +kernel)
  intro char hchar
  rw [isMetricNameContinue, agree_nameStart.chars char hchar, isDigit_other hchar]
  rfl

theorem agree_whitespace : Agree Bytes.isAsciiWhitespace isAsciiWhitespace false := by
  apply Agree.of_ascii (by decide +kernel)
  intro char hchar
  rw [isAsciiWhitespace, beq_other hchar (by decide), beq_other hchar (by decide), beq_other hchar (by decide),
    beq_other hchar (by decide), beq_other hchar (by decide)]
  rfl

end Classes

section Cursor

variable {onBytes : UInt8 → Bool} {onChars : Char → Bool} {other : Bool} (front rest : List Char)

theorem drop_encode : (encode (front ++ rest)).drop (encode front).length = encode rest := by
  rw [encode_append, List.drop_left]

theorem getElem?_encode : (encode (front ++ rest))[(encode front).length]? = (encode rest).head? := by
  rw [encode_append, List.getElem?_append_right (Nat.le_refl _), Nat.sub_self, List.head?_eq_getElem?]

/-- A loop over bytes moves the cursor over whole characters. -/
theorem advance_encode (h : Agree onBytes onChars other) :
    advance onBytes (encode (front ++ rest)) (encode front).length =
      (encode (front ++ rest.takeWhile onChars)).length := by
  rw [advance, drop_encode, h.takeWhile_encode, encode_append, List.length_append]

theorem findIdx_encode (h : Agree onBytes onChars other) (text : List Char) :
    (encode text).findIdx (fun byte => !onBytes byte) = (encode (text.takeWhile onChars)).length := by
  rw [← h.takeWhile_encode, List.takeWhile_eq_take_findIdx_not, List.length_take,
    Nat.min_eq_left List.findIdx_le_length]

theorem head?_encode {ascii : Char} (hascii : ascii.toNat < 128) (text : List Char) :
    (encode text).head? = some (UInt8.ofNat ascii.toNat) ↔ text.head? = some ascii := by
  have hagree := (Agree.of_char hascii).any_head_encode text
  rw [Bool.eq_iff_iff, Option.any_eq_true, Option.any_eq_true] at hagree
  simpa using hagree

end Cursor

section LabelSet

/-- The bytes of a character outside ASCII change nothing but the escape. -/
theorem labelSetLength_other {bytes : List UInt8} (hbytes : ∀ byte ∈ bytes, 128 ≤ byte.toNat) (hsome : bytes ≠ [])
    (quoted escaped : Bool) (rest : List UInt8) :
    labelSetLength quoted escaped (bytes ++ rest) =
      (labelSetLength quoted (!quoted && escaped) rest).map (· + bytes.length) := by
  induction bytes generalizing escaped with
  | nil => exact absurd rfl hsome
  | cons byte bytes ih =>
      have hbyte : 128 ≤ byte.toNat := hbytes byte List.mem_cons_self
      have hne : ∀ ascii : UInt8, ascii.toNat < 128 → byte ≠ ascii := by
        rintro ascii hascii rfl
        omega
      have hquote := hne 34 (by decide)
      have hescape : (byte == 92) = false := beq_eq_false_iff_ne.mpr (hne 92 (by decide))
      have hquoted : (byte != 34) = true := bne_iff_ne.mpr hquote
      have hclose := hne 125 (by decide)
      have hstep : labelSetLength quoted escaped (byte :: (bytes ++ rest)) =
          (labelSetLength quoted (!quoted && escaped) (bytes ++ rest)).map (· + 1) := by
        cases quoted with
        | true => cases escaped <;> simp [labelSetLength, hquoted, hescape]
        | false => simp [labelSetLength, hquote, hclose]
      rw [List.cons_append, hstep]
      rcases List.eq_nil_or_concat bytes with rfl | ⟨_, _, hconcat⟩
      · rfl
      · rw [ih (fun other hother => hbytes other (List.mem_cons_of_mem _ hother)) (by rw [hconcat]; simp)]
        rw [Option.map_map]
        cases quoted <;> simp [Function.comp_def, Nat.add_assoc]

theorem findLabelSetEnd_other {char : Char} (hchar : 128 ≤ char.toNat) (quoted escaped : Bool) (rest : List Char) :
    findLabelSetEnd quoted escaped (char :: rest) =
      (findLabelSetEnd quoted (!quoted && escaped) rest).map fun found => (char :: found.1, found.2) := by
  have hne : ∀ ascii : Char, ascii.toNat < 128 → char ≠ ascii := by
    rintro ascii hascii rfl
    omega
  have hquote := hne '"' (by decide)
  have hquoted : (char != '"') = true := bne_iff_ne.mpr hquote
  have hescape : (char == '\\') = false := beq_eq_false_iff_ne.mpr (hne '\\' (by decide))
  have hclose := hne '\x7d' (by decide)
  cases quoted with
  | true => cases escaped <;> simp [findLabelSetEnd, hquoted, hescape]
  | false => simp [findLabelSetEnd, hquote, hclose]

/-- The scan of the bytes stops where the scan of the characters stops. -/
theorem labelSetLength_encode (quoted escaped : Bool) (rest : List Char) :
    labelSetLength quoted escaped (encode rest) =
      (findLabelSetEnd quoted escaped rest).map fun found => (encode found.1).length := by
  induction rest generalizing quoted escaped with
  | nil => cases quoted <;> cases escaped <;> rfl
  | cons char rest ih =>
      rcases Nat.lt_or_ge char.toNat 128 with hascii | hother
      · have hsame : ∀ ascii : Char, ascii.toNat < 128 →
            (UInt8.ofNat char.toNat == UInt8.ofNat ascii.toNat) = (char == ascii) := by
          intro ascii hlt
          rw [(Agree.of_char hlt).ascii char.toNat hascii, Char.ofNat_toNat]
        have hquote : (UInt8.ofNat char.toNat == 34) = (char == '"') := hsame '"' (by decide)
        have hescape : (UInt8.ofNat char.toNat == 92) = (char == '\\') := hsame '\\' (by decide)
        have hclose : (UInt8.ofNat char.toNat == 125) = (char == '\x7d') := hsame '\x7d' (by decide)
        have hone : ∀ result : Option (List Char × List Char),
            (result.map fun found => (encode found.1).length).map (· + 1) =
              (result.map fun found => (char :: found.1, found.2)).map fun found => (encode found.1).length := by
          intro result
          rw [Option.map_map, Option.map_map]
          refine congrArg (fun f => Option.map f result) ?_
          funext found
          simp [utf8EncodeChar_ascii hascii, Nat.add_comm]
        rw [encode_cons, utf8EncodeChar_ascii hascii, List.singleton_append]
        cases quoted with
        | true =>
            cases escaped with
            | true => rw [labelSetLength, findLabelSetEnd, ih, hone]
            | false => rw [labelSetLength, findLabelSetEnd, bne, hquote, hescape, ih, hone]; rfl
        | false =>
            have hquoteIff : UInt8.ofNat char.toNat = 34 ↔ char = '"' := by rw [← beq_iff_eq, hquote, beq_iff_eq]
            have hcloseIff : UInt8.ofNat char.toNat = 125 ↔ char = '\x7d' := by rw [← beq_iff_eq, hclose, beq_iff_eq]
            rw [labelSetLength, findLabelSetEnd]
            simp only [hquoteIff, hcloseIff]
            split
            · rw [ih, hone]
            · split
              · rfl
              · rw [ih, hone]
      · rw [encode_cons, labelSetLength_other (utf8EncodeChar_other hother) String.utf8EncodeChar_ne_nil,
          findLabelSetEnd_other hother, ih, Option.map_map, Option.map_map]
        refine congrArg (fun f => Option.map f _) ?_
        funext found
        simp [Nat.add_comm]

/-- What was found is in front of the closing brace. -/
theorem findLabelSetEnd_split {quoted escaped : Bool} {rest labels after : List Char}
    (h : findLabelSetEnd quoted escaped rest = some (labels, after)) : rest = labels ++ '\x7d' :: after := by
  have hcons : ∀ {quoted escaped : Bool} {char : Char} {rest labels after : List Char},
      (∀ {labels after : List Char}, findLabelSetEnd quoted escaped rest = some (labels, after) →
        rest = labels ++ '\x7d' :: after) →
      (findLabelSetEnd quoted escaped rest).map (fun found => (char :: found.1, found.2)) = some (labels, after) →
        char :: rest = labels ++ '\x7d' :: after := by
    intro quoted escaped char rest labels after ih h
    obtain ⟨⟨labels', after'⟩, hfound, heq⟩ := Option.map_eq_some_iff.mp h
    obtain ⟨rfl, rfl⟩ : char :: labels' = labels ∧ after' = after := by simpa using heq
    rw [ih hfound, List.cons_append]
  induction rest generalizing quoted escaped labels after with
  | nil => cases quoted <;> cases escaped <;> cases h
  | cons char rest ih =>
      cases quoted with
      | true =>
          cases escaped with
          | true => exact hcons ih h
          | false => exact hcons ih h
      | false =>
          rw [findLabelSetEnd] at h
          split at h
          · exact hcons ih h
          · split at h
            · rename_i hclose
              obtain ⟨rfl, rfl⟩ : [] = labels ∧ rest = after := by simpa using h
              rw [hclose, List.nil_append]
            · exact hcons ih h

end LabelSet

/-- The value and what follows it, in characters. -/
def parseValue (rest : List Char) : Except String (List Char × List Char) :=
  if !(rest.head?.any isAsciiWhitespace) then .error "expected whitespace before sample value"
  else
    let rest := rest.dropWhile isAsciiWhitespace
    if rest = [] then .error "sample value is missing"
    else
      .ok (rest.takeWhile (fun char => !isAsciiWhitespace char),
        trimStart (rest.dropWhile fun char => !isAsciiWhitespace char))

theorem parseSampleLine_eq (line : List Char) : parseSampleLine line =
    if line.takeWhile isMetricNameContinue = [] ∨ !(line.head?.any isMetricNameStart) then .error "invalid metric name"
    else
      match parseLabels (line.dropWhile isMetricNameContinue) with
      | .error reason => .error reason
      | .ok (labels, rest) =>
          match parseValue rest with
          | .error reason => .error reason
          | .ok (value, remainder) =>
              match checkRemainder remainder with
              | .error reason => .error reason
              | .ok () => .ok ⟨line.takeWhile isMetricNameContinue, labels, value⟩ := by
  simp only [parseSampleLine, parseValue]
  split
  · rfl
  · cases parseLabels (line.dropWhile isMetricNameContinue) with
    | error reason => rfl
    | ok parts =>
        obtain ⟨labels, rest⟩ := parts
        simp only
        by_cases hblank : (!(rest.head?.any isAsciiWhitespace)) = true
        · rw [if_pos hblank, if_pos hblank]
        · rw [if_neg hblank, if_neg hblank]
          by_cases hnone : rest.dropWhile isAsciiWhitespace = []
          · rw [if_pos hnone, if_pos hnone]
          · cases hcheck : checkRemainder
                (trimStart ((rest.dropWhile isAsciiWhitespace).dropWhile fun char => !isAsciiWhitespace char)) with
            | error reason => simp only [if_neg hnone, hcheck]
            | ok _ => simp only [if_neg hnone, hcheck]

section Stages

theorem parseLabelsBytes_eq (front rest : List Char) :
    match parseLabels rest with
    | .error reason => parseLabelsBytes (front ++ rest) (encode front).length = some (.error reason)
    | .ok (labels, after) => ∃ taken, rest = taken ++ after ∧
        parseLabelsBytes (front ++ rest) (encode front).length =
          some (.ok (labels, (encode (front ++ taken)).length)) := by
  have hopen : (encode rest).head? = some 123 ↔ rest.head? = some '\x7b' :=
    head?_encode (show '\x7b'.toNat < 128 by decide) rest
  unfold parseLabelsBytes
  rw [getElem?_encode]
  by_cases hbrace : rest.head? = some '\x7b'
  · rw [if_pos (hopen.mpr hbrace)]
    obtain ⟨inner, rfl⟩ : ∃ inner, rest = '\x7b' :: inner := by
      cases rest with
      | nil => cases hbrace
      | cons char inner => exact ⟨inner, by rw [Option.some.inj hbrace]⟩
    have hone : (encode (front ++ ['\x7b'])).length = (encode front).length + 1 := by
      rw [encode_append, List.length_append]
      rfl
    have hdrop : (encode (front ++ '\x7b' :: inner)).drop ((encode front).length + 1) = encode inner := by
      rw [← hone, show front ++ '\x7b' :: inner = (front ++ ['\x7b']) ++ inner by simp, drop_encode]
    rw [findLabelSetEndBytes, hdrop, labelSetLength_encode, parseLabels]
    cases hfound : findLabelSetEnd false false inner with
    | none => rfl
    | some found =>
        obtain ⟨labels, after⟩ := found
        have hsplit := findLabelSetEnd_split hfound
        simp only [Option.map_some]
        refine ⟨'\x7b' :: labels ++ ['\x7d'], by rw [hsplit]; simp, ?_⟩
        have hline : front ++ '\x7b' :: inner = front ++ ('\x7b' :: labels ++ ['\x7d']) ++ after := by
          rw [hsplit]
          simp
        have hclose : (encode front).length + 1 + (encode labels).length + 1 =
            (encode front ++ encode ('\x7b' :: labels ++ ['\x7d'])).length := by
          rw [List.length_append, encode_append, encode_cons, List.length_append, List.length_append]
          show _ = _ + (1 + _ + 1)
          omega
        rw [hclose, hline, slice_encode, ← encode_append]
        rfl
  · rw [if_neg fun h => hbrace (hopen.mp h)]
    have hnone : parseLabels rest = .ok (none, rest) := by
      unfold parseLabels
      split
      · exact absurd rfl hbrace
      · rfl
    rw [hnone]
    exact ⟨[], rfl, by rw [List.append_nil]⟩

theorem parseValueBytes_eq (front rest : List Char) :
    parseValueBytes (front ++ rest) (encode front).length = some (parseValue rest) := by
  unfold parseValueBytes parseValue
  rw [getElem?_encode, agree_whitespace.any_head_encode]
  by_cases hblank : (!(rest.head?.any isAsciiWhitespace)) = true
  · rw [if_pos hblank, if_pos hblank]
  · rw [if_neg hblank, if_neg hblank]
    have hsplit : rest = rest.takeWhile isAsciiWhitespace ++ rest.dropWhile isAsciiWhitespace :=
      List.takeWhile_append_dropWhile.symm
    have hline : front ++ rest = (front ++ rest.takeWhile isAsciiWhitespace) ++ rest.dropWhile isAsciiWhitespace := by
      rw [List.append_assoc, ← hsplit]
    simp only [advance_encode front rest agree_whitespace]
    rw [hline]
    generalize front ++ rest.takeWhile isAsciiWhitespace = before
    generalize rest.dropWhile isAsciiWhitespace = tail
    have hend : (encode before).length = (encode (before ++ tail)).length ↔ tail = [] := by
      rw [encode_append, List.length_append]
      constructor
      · intro h
        cases tail with
        | nil => rfl
        | cons char tail =>
            have hpos := List.length_pos_of_ne_nil (String.utf8EncodeChar_ne_nil (c := char))
            rw [encode_cons, List.length_append] at h
            omega
      · rintro rfl
        rfl
    by_cases hnone : tail = []
    · rw [if_pos (hend.mpr hnone), if_pos hnone]
    · rw [if_neg fun h => hnone (hend.mp h), if_neg hnone, advance_encode before tail agree_whitespace.not]
      have htail : before ++ tail = before ++ tail.takeWhile (fun char => !isAsciiWhitespace char) ++
          tail.dropWhile fun char => !isAsciiWhitespace char := by
        rw [List.append_assoc, List.takeWhile_append_dropWhile]
      rw [htail, encode_append, slice_encode, ← encode_append, Option.bind_some, sliceFrom_encode]
      rfl

theorem checkRemainderBytes_eq (remainder : List Char) :
    checkRemainderBytes remainder = some (checkRemainder remainder) := by
  unfold checkRemainderBytes checkRemainder
  split
  · rfl
  · have hsplit : remainder = remainder.takeWhile (fun char => !isWhitespace char) ++
        remainder.dropWhile fun char => !isWhitespace char := List.takeWhile_append_dropWhile.symm
    have hslice : slice 0 (encode (remainder.takeWhile fun char => !isWhitespace char)).length remainder =
        some (remainder.takeWhile fun char => !isWhitespace char) := by
      have := slice_encode [] (remainder.takeWhile fun char => !isWhitespace char)
        (remainder.dropWhile fun char => !isWhitespace char)
      rwa [List.nil_append, ← hsplit] at this
    have hrest : sliceFrom (encode (remainder.takeWhile fun char => !isWhitespace char)).length remainder =
        some (remainder.dropWhile fun char => !isWhitespace char) := by
      have := sliceFrom_encode (remainder.takeWhile fun char => !isWhitespace char)
        (remainder.dropWhile fun char => !isWhitespace char)
      rwa [← hsplit] at this
    simp only [hslice, hrest, Option.bind_some, Option.map_some]
    split
    · rfl
    · rfl

end Stages

theorem slice_name (line : List Char) :
    slice 0 ((encode line).findIdx fun byte => !isMetricNameContinueByte byte) line =
      some (line.takeWhile isMetricNameContinue) := by
  have hslice := slice_encode [] (line.takeWhile isMetricNameContinue) (line.dropWhile isMetricNameContinue)
  rwa [List.nil_append, List.takeWhile_append_dropWhile, encode_nil, List.nil_append,
    ← findIdx_encode agree_nameContinue]
    at hslice

theorem any_first (line : List Char) :
    (encode line)[0]?.any isMetricNameStartByte = line.head?.any isMetricNameStart := by
  rw [← List.head?_eq_getElem?, agree_nameStart.any_head_encode]

/-- No cut of the source falls inside a character, and the parser reads what the one over characters reads. -/
theorem parseSampleLineBytes_eq (line : List Char) : parseSampleLineBytes line = some (parseSampleLine line) := by
  have hname : (encode line).findIdx (fun byte => !isMetricNameContinueByte byte) =
      (encode (line.takeWhile isMetricNameContinue)).length := findIdx_encode agree_nameContinue line
  have hzero : (encode (line.takeWhile isMetricNameContinue)).length = 0 ↔
      line.takeWhile isMetricNameContinue = [] := by
    cases line.takeWhile isMetricNameContinue with
    | nil => exact iff_of_true rfl rfl
    | cons char rest =>
        have hpos := List.length_pos_of_ne_nil (String.utf8EncodeChar_ne_nil (c := char))
        rw [encode_cons, List.length_append]
        refine iff_of_false (by omega) (by simp)
  rw [parseSampleLine_eq, parseSampleLineBytes]
  simp only [any_first, slice_name]
  simp only [hname, hzero]
  split
  · rfl
  · have hline : line = line.takeWhile isMetricNameContinue ++ line.dropWhile isMetricNameContinue :=
      List.takeWhile_append_dropWhile.symm
    have hlabels := parseLabelsBytes_eq (line.takeWhile isMetricNameContinue) (line.dropWhile isMetricNameContinue)
    rw [← hline] at hlabels
    rw [Option.bind_some]
    cases hparsed : parseLabels (line.dropWhile isMetricNameContinue) with
    | error reason =>
        rw [hparsed] at hlabels
        rw [hlabels]
        rfl
    | ok parts =>
        obtain ⟨labels, after⟩ := parts
        rw [hparsed] at hlabels
        obtain ⟨taken, hrest, hcursor⟩ := hlabels
        have hvalue := parseValueBytes_eq (line.takeWhile isMetricNameContinue ++ taken) after
        rw [List.append_assoc, ← hrest, ← hline] at hvalue
        rw [hcursor, Option.bind_some]
        simp only
        rw [hvalue, Option.bind_some]
        cases parseValue after with
        | error reason => rfl
        | ok value =>
            simp only [checkRemainderBytes_eq, Option.map_some]

theorem metricNamePrefixBytes_eq (line : List Char) : metricNamePrefixBytes line = some (metricNamePrefix line) := by
  rw [metricNamePrefixBytes, any_first, slice_name]
  cases line with
  | nil => rfl
  | cons first rest =>
      rw [metricNamePrefix]
      cases hstart : isMetricNameStart first with
      | true => simp [hstart]
      | false => simp [hstart]

end MistralrsProxy
